import Mathlib.Algebra.Group.Nat.Defs
import TapeAsm.Proofs.Text.Utf8
import TapeAsm.Text.Quoted

/-!
# Quoted texts are presentable and can be read again

A text is presentable if it is UTF-8 and all its characters are printable (`Text.Presentable`), so
none of them breaks a line, moves a cursor or stands there unseen (`Text.isHidden_of_isPrintable`).
A quoted text is presentable whatever was quoted (`Text.presentable_quote`).

Nothing is lost by quoting: `Text.unquote` reads up to the closing quote and gives the text back
together with what follows it (`Text.unquote_quote`), so a quoted text can stand in front of
anything. Both rest on `Text.quoteGlyph_cases`: a glyph stands for itself, and then no byte of it is
a quote or a backslash (`Text.plain_ofChar`), or it is an escape, which tells its own length. That
`\x` is used for characters and for stray bytes alike does not matter to a reader of bytes.
-/

set_option autoImplicit false

namespace TapeAsm.Text

/-! ## Presentable texts -/

/-- **A text that can be shown as it is**: UTF-8, of printable characters only. -/
structure Presentable (t : Text) : Prop where
  utf8 : t.isUtf8 = true
  printable : ∀ c ∈ t.chars, isPrintable c = true

/-- The codes of control and format characters and of the line and paragraph separators, as ranges
with both ends included. -/
def hiddenRanges : List (Nat × Nat) := [
    (0x00, 0x1F), (0x7F, 0x9F), (0xAD, 0xAD), (0x600, 0x605), (0x61C, 0x61C), (0x6DD, 0x6DD),
    (0x70F, 0x70F), (0x890, 0x891), (0x8E2, 0x8E2), (0x180E, 0x180E), (0x200B, 0x200F),
    (0x2028, 0x202E), (0x2060, 0x2064), (0x2066, 0x206F), (0xFEFF, 0xFEFF), (0xFFF9, 0xFFFB),
    (0x110BD, 0x110BD), (0x110CD, 0x110CD), (0x13430, 0x1343F), (0x1BCA0, 0x1BCA3),
    (0x1D173, 0x1D17A), (0xE0001, 0xE0001), (0xE0020, 0xE007F)
  ]

/-- Does the character act on the text around it without being seen? -/
def isHidden (c : Char) : Bool :=
  hiddenRanges.any fun (first, last) => first ≤ c.toNat && c.toNat ≤ last

theorem disjoint_hiddenRanges :
    (hiddenRanges.all fun h => (h.2 < 0x20 || 0x7F ≤ h.1) &&
      printableRanges.all fun r => r.2 < h.1 || h.2 < r.1) = true := by
  decide +kernel

theorem isHidden_of_isPrintable {c : Char} (h : isPrintable c = true) : isHidden c = false := by
  unfold isHidden
  rw [List.any_eq_false]
  intro range hrange hin
  have hdisjoint := List.all_eq_true.1 disjoint_hiddenRanges range hrange
  simp only [Bool.and_eq_true, Bool.or_eq_true, decide_eq_true_eq] at hdisjoint hin
  unfold isPrintable at h
  split at h
  · simp only [Bool.and_eq_true, decide_eq_true_eq] at h
    omega
  · obtain ⟨r, hr, hc⟩ := List.any_eq_true.1 h
    have hout := List.all_eq_true.1 hdisjoint.2 r hr
    simp only [Bool.and_eq_true, Bool.or_eq_true, decide_eq_true_eq] at hc hout
    omega

theorem presentable_ofChars {cs : List Char} (h : ∀ c ∈ cs, isPrintable c = true) :
    Presentable (ofChars cs) := by
  refine ⟨isUtf8_ofChars cs, ?_⟩
  rwa [chars_ofChars]

theorem presentable_nil : Presentable [] := ⟨rfl, nofun⟩

theorem presentable_ofString {s : String} (h : s.toList.all isPrintable = true) :
    Presentable (ofString s) := presentable_ofChars (List.all_eq_true.1 h)

theorem Presentable.append {t u : Text} (ht : t.Presentable) (hu : u.Presentable) :
    Presentable (t ++ u) := by
  refine ⟨isUtf8_append ht.utf8 hu.utf8, fun c hc => ?_⟩
  rw [chars_append ht.utf8, List.mem_append] at hc
  rcases hc with hc | hc
  · exact ht.printable c hc
  · exact hu.printable c hc

theorem presentable_flatten {ts : List Text} (h : ∀ t ∈ ts, Presentable t) :
    Presentable ts.flatten := by
  induction ts with
  | nil => exact presentable_nil
  | cons t ts ih =>
    obtain ⟨ht, hts⟩ := List.forall_mem_cons.1 h
    exact ht.append (ih hts)

theorem presentable_map_ascii {cs : List Char}
    (h : ∀ c ∈ cs, 0x20 ≤ c.toNat ∧ c.toNat < 0x7F) : Presentable (cs.map ascii) := by
  rw [map_ascii fun c hc => by have := h c hc; omega]
  refine presentable_ofChars fun c hc => ?_
  have hascii := h c hc
  unfold isPrintable
  rw [if_pos (by omega)]
  simpa using hascii

theorem presentable_ascii {c : Char} (h : 0x20 ≤ c.toNat ∧ c.toNat < 0x7F) :
    Presentable [ascii c] := by
  have hone : Presentable ([c].map ascii) := presentable_map_ascii (by simpa using h)
  exact hone

/-! ## Escapes -/

/-- The byte for which a letter behind a backslash stands; any other byte stands for itself. -/
def letterByte (mark : UInt8) : UInt8 :=
  if mark = ascii 'a' then 0x07
  else if mark = ascii 'b' then 0x08
  else if mark = ascii 't' then 0x09
  else if mark = ascii 'n' then 0x0A
  else if mark = ascii 'v' then 0x0B
  else if mark = ascii 'f' then 0x0C
  else if mark = ascii 'r' then 0x0D
  else mark

/-- The number that the first hexadecimal digits of the text stand for. -/
def hexCode (width : Nat) (t : Text) : Nat := (digitsValue? 16 (t.take width)).getD 0

/-- What an escape stands for, read behind its backslash, and how many bytes it takes there. -/
def readEscape : Text → Text × Nat
  | [] => ([], 0)
  | mark :: rest =>
    if mark = ascii 'x' then ([UInt8.ofNat (hexCode 2 rest)], 3)
    else if mark = ascii 'u' then (ofChar (Char.ofNat (hexCode 4 rest)), 5)
    else if mark = ascii 'U' then (ofChar (Char.ofNat (hexCode 8 rest)), 9)
    else ([letterByte mark], 1)

/-- **What may stand behind a backslash for a text**: it can be shown, and a reader finds the text
and the end of the escape whatever follows. -/
structure Escapes (marks t : Text) : Prop where
  presentable : Presentable marks
  read : ∀ rest, readEscape (marks ++ rest) = (t, marks.length)

theorem hexDigit_lt : ∀ d < 16, digitValue? (hexDigit d) = some d ∧
    0x20 ≤ (Nat.digitChar d).toNat ∧ (Nat.digitChar d).toNat < 0x7F := by decide

theorem length_hex (width n : Nat) : (hex width n).length = width := by
  induction width generalizing n with
  | zero => rfl
  | succ width ih => simp [hex, ih]

theorem presentable_hex (width n : Nat) : Presentable (hex width n) := by
  induction width generalizing n with
  | zero => exact presentable_nil
  | succ width ih =>
    have hdigit := hexDigit_lt _ (Nat.mod_lt n (by decide : 0 < 16))
    exact (ih (n / 16)).append (presentable_ascii hdigit.2)

theorem digitsValue?_hex (width n : Nat) :
    digitsValue? 16 (hex width n) = some (n % 16 ^ width) := by
  induction width generalizing n with
  | zero => rw [Nat.pow_zero, Nat.mod_one]; rfl
  | succ width ih =>
    have hlt := Nat.mod_lt n (by decide : 0 < 16)
    have hdigit := hexDigit_lt _ hlt
    have hvalue : n / 16 % 16 ^ width * 16 + n % 16 = n % 16 ^ (width + 1) := by
      rw [Nat.pow_succ, Nat.mul_comm (16 ^ width), Nat.mod_mul]
      omega
    unfold digitsValue? at ih
    rw [digitsValue?, hex, List.foldl_append, ih, ← hvalue]
    simp [hdigit.1, hlt]

theorem hexCode_hex {width n : Nat} (h : n < 16 ^ width) (rest : Text) :
    hexCode width (hex width n ++ rest) = n := by
  have htake : (hex width n ++ rest).take width = hex width n := by
    rw [List.take_append_of_le_length (Nat.le_of_eq (length_hex width n).symm),
      List.take_of_length_le (Nat.le_of_eq (length_hex width n))]
  rw [hexCode, htake, digitsValue?_hex, Nat.mod_eq_of_lt h]
  rfl

theorem escapes_hex {mark : Char} {width n : Nat} {t : Text}
    (hmark : 0x20 ≤ mark.toNat ∧ mark.toNat < 0x7F)
    (h : ∀ rest, readEscape (ascii mark :: (hex width n ++ rest)) = (t, width + 1)) :
    Escapes (ascii mark :: hex width n) t := by
  constructor
  · exact (presentable_ascii hmark).append (presentable_hex width n)
  · intro rest
    rw [List.cons_append, h, List.length_cons, length_hex]

theorem escapes_byte {n : Nat} (h : n < 256) :
    Escapes (ascii 'x' :: hex 2 n) [UInt8.ofNat n] := by
  refine escapes_hex (by decide) fun rest => ?_
  rw [readEscape, if_pos rfl, hexCode_hex h]

theorem escapes_short {c : Char} (h : c.toNat < 0x10000) :
    Escapes (ascii 'u' :: hex 4 c.toNat) (ofChar c) := by
  refine escapes_hex (by decide) fun rest => ?_
  rw [readEscape, if_neg (by decide), if_pos rfl, hexCode_hex h, Char.ofNat_toNat]

theorem escapes_long (c : Char) : Escapes (ascii 'U' :: hex 8 c.toNat) (ofChar c) := by
  have hlt := toNat_lt c
  refine escapes_hex (by decide) fun rest => ?_
  rw [readEscape, if_neg (by decide), if_neg (by decide), if_pos rfl, hexCode_hex (by omega),
    Char.ofNat_toNat]

theorem escapes_letter {c e : Char} (he : 0x20 ≤ e.toNat ∧ e.toNat < 0x7F)
    (hwide : ascii e ∉ [ascii 'x', ascii 'u', ascii 'U'])
    (hc : ofChar c = [letterByte (ascii e)]) : Escapes [ascii e] (ofChar c) := by
  simp only [List.mem_cons, List.not_mem_nil, or_false, not_or] at hwide
  constructor
  · exact presentable_ascii he
  · intro rest
    rw [List.cons_append, readEscape, if_neg hwide.1, if_neg hwide.2.1, if_neg hwide.2.2, hc]
    rfl

theorem escapes_control {c e : Char} (h : controlEscape? c = some e) :
    Escapes [ascii e] (ofChar c) := by
  unfold controlEscape? at h
  split at h <;> cases h
  all_goals
    rename_i hc
    refine escapes_letter (by decide) (by decide) ?_
    rw [ofChar_one (by omega), hc]
    decide

/-! ## Quoted texts are presentable -/

/-- **What may stand in quotes for itself**: it can be shown, and no byte of it ends the quotes or
begins an escape. -/
structure Plain (t : Text) : Prop where
  presentable : Presentable t
  unmarked : ∀ b ∈ t, b ≠ ascii '"' ∧ b ≠ ascii '\\'

theorem plain_ofChar {c : Char} (hc : isPrintable c = true) (hmark : ¬(c = '"' ∨ c = '\\')) :
    Plain (ofChar c) := by
  have hprintable : Presentable (ofChars [c]) := presentable_ofChars (by simpa using hc)
  refine ⟨by simpa [ofChars] using hprintable, fun b hb => ?_⟩
  have hquote : (ascii '"').toNat = 0x22 := by decide
  have hslash : (ascii '\\').toNat = 0x5C := by decide
  rcases toNat_of_mem_ofChar hb with ⟨-, hcode⟩ | ⟨-, hhigh, -⟩
  · constructor
    · rintro rfl
      exact hmark (.inl (Char.toNat_inj.1 (hcode.symm.trans hquote)))
    · rintro rfl
      exact hmark (.inr (Char.toNat_inj.1 (hcode.symm.trans hslash)))
  · constructor
    · rintro rfl
      omega
    · rintro rfl
      omega

/-- **A glyph in quotes** stands for itself or is escaped. -/
theorem quoteGlyph_cases (g : Glyph) :
    (quoteGlyph g = g.text ∧ Plain g.text) ∨
      ∃ marks, quoteGlyph g = ascii '\\' :: marks ∧ Escapes marks g.text := by
  cases g with
  | stray b =>
    have hescapes := escapes_byte b.toNat_lt
    rw [UInt8.ofNat_toNat] at hescapes
    exact .inr ⟨_, rfl, hescapes⟩
  | char c =>
    rw [quoteGlyph, quoteChar]
    split
    · rename_i hc
      right
      rcases hc with rfl | rfl
      · exact ⟨_, rfl, escapes_letter (by decide) (by decide) (by decide)⟩
      · exact ⟨_, rfl, escapes_letter (by decide) (by decide) (by decide)⟩
    · rename_i hmark
      split
      · rename_i hc
        exact .inl ⟨rfl, plain_ofChar hc hmark⟩
      · right
        split
        · rename_i e he
          exact ⟨_, rfl, escapes_control he⟩
        · split
          · rename_i hlt
            -- below 0x80 the byte of an escape is the whole character
            exact ⟨_, rfl, by rw [Glyph.text, ofChar_one hlt]; exact escapes_byte (by omega)⟩
          · split
            · rename_i hlt
              exact ⟨_, rfl, escapes_short hlt⟩
            · exact ⟨_, rfl, escapes_long c⟩

/-- **A quoted text is presentable**, whatever is quoted. -/
theorem presentable_quote (t : Text) : t.quote.Presentable := by
  have hmark : Presentable (ofString "\"") := presentable_ofString (by decide)
  have hslash : Presentable [ascii '\\'] := presentable_ascii (by decide)
  refine (hmark.append (presentable_flatten fun part hpart => ?_)).append hmark
  obtain ⟨g, -, rfl⟩ := List.mem_map.1 hpart
  obtain ⟨heq, hplain⟩ | ⟨marks, heq, hescapes⟩ := quoteGlyph_cases g
  · exact heq ▸ hplain.presentable
  · exact heq ▸ hslash.append hescapes.presentable

/-! ## Reading quoted texts -/

/-- One more text before what is read. -/
def prepend (t : Text) (read : Text × Text) : Text × Text := (t ++ read.1, read.2)

/-- Reads to the closing quote, behind the next `skip` bytes, which belong to an escape already
read: the text, and what is left. -/
def readQuoted : (skip : Nat) → Text → Text × Text
  | _, [] => ([], [])
  | skip + 1, _ :: rest => readQuoted skip rest
  | 0, b :: rest =>
    if b = ascii '"' then ([], rest)
    else if b = ascii '\\' then prepend (readEscape rest).1 (readQuoted (readEscape rest).2 rest)
    else prepend [b] (readQuoted 0 rest)

/-- Reads a quoted text, the opening quote first: the text, and what is left. -/
def unquote (t : Text) : Text × Text := readQuoted 1 t

theorem readQuoted_skip (skipped rest : Text) :
    readQuoted skipped.length (skipped ++ rest) = readQuoted 0 rest := by
  induction skipped with
  | nil => rfl
  | cons b skipped ih => exact ih

theorem readQuoted_plain {t : Text} (h : ∀ b ∈ t, b ≠ ascii '"' ∧ b ≠ ascii '\\') (rest : Text) :
    readQuoted 0 (t ++ rest) = prepend t (readQuoted 0 rest) := by
  induction t with
  | nil => rfl
  | cons b t ih =>
    obtain ⟨hb, ht⟩ := List.forall_mem_cons.1 h
    rw [List.cons_append, readQuoted, if_neg hb.1, if_neg hb.2, ih ht]
    rfl

theorem readQuoted_escape {marks t : Text} (h : Escapes marks t) (rest : Text) :
    readQuoted 0 (ascii '\\' :: (marks ++ rest)) = prepend t (readQuoted 0 rest) := by
  rw [readQuoted, if_neg (by decide), if_pos rfl, h.read, readQuoted_skip]

theorem readQuoted_quoteGlyph (g : Glyph) (rest : Text) :
    readQuoted 0 (quoteGlyph g ++ rest) = prepend g.text (readQuoted 0 rest) := by
  obtain ⟨heq, hplain⟩ | ⟨marks, heq, hescapes⟩ := quoteGlyph_cases g
  · rw [heq, readQuoted_plain hplain.unmarked]
  · rw [heq, List.cons_append, readQuoted_escape hescapes]

theorem readQuoted_quoteGlyphs (gs : List Glyph) (rest : Text) :
    readQuoted 0 (gs.flatMap quoteGlyph ++ ascii '"' :: rest) = (gs.flatMap Glyph.text, rest) := by
  induction gs with
  | nil => rfl
  | cons g gs ih =>
    rw [List.flatMap_cons, List.append_assoc, readQuoted_quoteGlyph, ih]
    rfl

/-- **Reading undoes quoting**, whatever follows the quoted text. -/
theorem unquote_quote (t rest : Text) : unquote (t.quote ++ rest) = (t, rest) := by
  have hread := readQuoted_quoteGlyphs t.glyphs rest
  rw [flatMap_glyphs] at hread
  have hquote : t.quote ++ rest =
      ascii '"' :: (t.glyphs.flatMap quoteGlyph ++ ascii '"' :: rest) := by
    rw [quote, List.append_assoc, List.append_assoc]
    rfl
  rw [hquote, unquote, readQuoted, hread]

end TapeAsm.Text
