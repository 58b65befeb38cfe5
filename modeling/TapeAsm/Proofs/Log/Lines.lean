import TapeAsm.Log.Line
import TapeAsm.Proofs.Command.Numbers
import TapeAsm.Proofs.Text.Quoting

/-!
# Reading log lines

A line is a sequence of `key=value` pairs divided by spaces, each half of a pair in quotes if it
could be misread. `readLine` reads a line as its pairs, and `readLine_line` says that it finds the
level, the message and the entries of the record with their full keys, whatever they hold.

* `Bare t`: nothing in the text can be taken for the end of a word. A text that needs no quotes is
  bare (`bare_of_needsQuotes`), and so is the name of a level (`bare_level`).
* `Reads w t`: a reader that finds the word `w` before a space, an equals sign or a line feed reads
  the text `t`. Both bare texts and quoted ones are read as they should be (`reads_word`,
  `Entry.reads_keyWord`).
* `readPairs_entries` is the induction over the entries of a line.
-/

set_option autoImplicit false

namespace TapeAsm.Log

/-! ## Bare words -/

/-- Does the byte end a word that is not in quotes? -/
def endsWord (b : UInt8) : Bool :=
  b = Text.ascii ' ' || b = Text.ascii '=' || b = Text.ascii '\n'

/-- **A text that can stand in a line without quotes.** -/
structure Bare (t : Text) : Prop where
  ne_nil : t ≠ []
  bytes : ∀ b ∈ t, endsWord b = false ∧ b ≠ Text.ascii '"'

theorem Bare.append {t u : Text} (ht : Bare t) (hu : Bare u) : Bare (t ++ u) := by
  refine ⟨List.append_ne_nil_of_left_ne_nil ht.ne_nil u, fun b hb => ?_⟩
  rcases List.mem_append.1 hb with hb | hb
  · exact ht.bytes b hb
  · exact hu.bytes b hb

/-- Bytes of which a bare text is made: all but four. -/
theorem bare_byte {b : UInt8} (hspace : b.toNat ≠ 0x20) (hequals : b.toNat ≠ 0x3D)
    (hfeed : b.toNat ≠ 0x0A) (hquote : b.toNat ≠ 0x22) :
    endsWord b = false ∧ b ≠ Text.ascii '"' := by
  have hne {c : UInt8} (hc : b.toNat ≠ c.toNat) : b ≠ c := fun he => hc (congrArg UInt8.toNat he)
  simp [endsWord, hne (c := Text.ascii ' ') hspace, hne (c := Text.ascii '=') hequals,
    hne (c := Text.ascii '\n') hfeed, hne (c := Text.ascii '"') hquote]

theorem bare_char {c : Char} {b : UInt8} (h : breaksWord c = false) (hb : b ∈ Text.ofChar c) :
    endsWord b = false ∧ b ≠ Text.ascii '"' := by
  rcases Text.toNat_of_mem_ofChar hb with ⟨hc, hcode⟩ | ⟨-, hhigh, -⟩
  · simp only [breaksWord, if_pos hc, Bool.or_eq_false_iff, decide_eq_false_iff_not] at h
    obtain ⟨⟨hlow, hequals⟩, hquote⟩ := h
    have hne {d : Char} (hd : c ≠ d) : c.toNat ≠ d.toNat := fun he => hd (Char.toNat_inj.1 he)
    have hequals : c.toNat ≠ 0x3D := hne hequals
    have hquote : c.toNat ≠ 0x22 := hne hquote
    apply bare_byte <;> omega
  · -- no byte of a character beyond ASCII is one of the four
    apply bare_byte <;> omega

/-- **What needs no quotes is bare.** -/
theorem bare_of_needsQuotes {t : Text} (h : needsQuotes t = false) : Bare t := by
  obtain ⟨hempty, hany⟩ := Bool.or_eq_false_iff.1 h
  refine ⟨fun ht => ?_, fun b hb => ?_⟩
  · rw [ht] at hempty
    cases hempty
  · rw [← Text.flatMap_glyphs t] at hb
    obtain ⟨g, hg, hb⟩ := List.mem_flatMap.1 hb
    have hbreaks := List.any_eq_false.1 hany g hg
    cases g with
    | stray s => exact absurd rfl hbreaks
    | char c => exact bare_char (Bool.not_eq_true _ ▸ hbreaks) hb

theorem bare_ofInt (n : Int) : Bare (Text.ofInt n) := by
  have hdigit {b : UInt8} (hb : Text.isDigit b = true) :
      endsWord b = false ∧ b ≠ Text.ascii '"' := by
    simp only [Text.isDigit, Bool.and_eq_true, decide_eq_true_eq, UInt8.le_iff_toNat_le] at hb
    have hlow : 0x30 ≤ b.toNat := hb.1
    have hhigh : b.toNat ≤ 0x39 := hb.2
    apply bare_byte <;> omega
  have hnat (n : Nat) : Bare (Text.ofNat n) := by
    obtain ⟨hne, hdigits⟩ := (Command.digits_ofNat n).1
    exact ⟨hne, fun b hb => hdigit (hdigits b hb)⟩
  cases n with
  | ofNat n => exact hnat n
  | negSucc n =>
    have hminus : Bare [Text.ascii '-'] := bare_of_needsQuotes rfl
    exact hminus.append (hnat (n + 1))

theorem bare_named {name : Text} (h : Bare name) (distance : Int) :
    Bare (Level.named name distance) := by
  have hplus : Bare (Text.ofString "+") := bare_of_needsQuotes rfl
  unfold Level.named
  split
  · exact h
  · split
    · exact (h.append hplus).append (bare_ofInt distance)
    · exact h.append (bare_ofInt distance)

/-- The name of a level needs no quotes, whatever its distance from a named level. -/
theorem bare_level (level : Level) : Bare level.name := by
  unfold Level.name
  split
  · exact bare_named (bare_of_needsQuotes rfl) _
  · split
    · exact bare_named (bare_of_needsQuotes rfl) _
    · split
      · exact bare_named (bare_of_needsQuotes rfl) _
      · exact bare_named (bare_of_needsQuotes rfl) _

/-! ## Reading words -/

/-- Reads a word, in quotes or up to a byte that ends it: the text, and what is left. -/
def readWord (t : Text) : Text × Text :=
  if t.head? = some (Text.ascii '"') then t.unquote
  else (t.takeWhile (!endsWord ·), t.dropWhile (!endsWord ·))

/-- **The word `w` is read as the text `t`** wherever a word can end behind it. -/
def Reads (w t : Text) : Prop :=
  ∀ (b : UInt8) (rest : Text), endsWord b = true → readWord (w ++ b :: rest) = (t, b :: rest)

theorem reads_quote (t : Text) : Reads t.quote t := by
  intro b rest _
  have hhead : (t.quote ++ b :: rest).head? = some (Text.ascii '"') := rfl
  rw [readWord, if_pos hhead, Text.unquote_quote]

theorem Bare.reads {t : Text} (h : Bare t) : Reads t t := by
  intro b rest hb
  have hplain : ∀ c ∈ t, (!endsWord c) = true := by
    intro c hc
    rw [(h.bytes c hc).1]
    rfl
  have hhead : (t ++ b :: rest).head? ≠ some (Text.ascii '"') := by
    obtain ⟨c, t, rfl⟩ := List.exists_cons_of_ne_nil h.ne_nil
    exact fun he => (h.bytes c List.mem_cons_self).2 (Option.some.inj he)
  rw [readWord, if_neg hhead, List.takeWhile_append_of_pos hplain,
    List.dropWhile_append_of_pos hplain]
  simp [hb]

theorem reads_word (t : Text) : Reads (word t) t := by
  unfold word
  split
  · exact reads_quote t
  · rename_i h
    exact (bare_of_needsQuotes (Bool.not_eq_true _ ▸ h)).reads

/-- Keys are read with their groups. -/
theorem Entry.reads_keyWord (e : Entry) : Reads e.keyWord e.key := by
  unfold keyWord
  split
  · exact reads_quote e.key
  · rename_i h
    simp only [Bool.or_eq_true, not_or, Bool.and_eq_true, Bool.not_eq_true] at h
    obtain ⟨hkey, hgroups⟩ := h
    have hkey := bare_of_needsQuotes hkey
    cases hg : e.groups.isEmpty with
    | true =>
      have hnil : e.key = e.attr.key := by rw [key, List.isEmpty_iff.1 hg, List.nil_append]
      rw [hnil]
      exact hkey.reads
    | false =>
      have hneeds : needsQuotes e.groups = false := by simpa [hg] using hgroups
      exact ((bare_of_needsQuotes hneeds).append hkey).reads

/-! ## Reading pairs -/

/-- Reads at most so many pairs, up to the first one that no space follows. -/
def readPairs : (count : Nat) → Text → List (Text × Text)
  | 0, _ => []
  | count + 1, t =>
    let (key, rest) := readWord t
    let (value, rest) := readWord rest.tail
    (key, value) :: if rest.head? = some (Text.ascii ' ') then readPairs count rest.tail else []

/-- The pairs of a line. -/
def readLine (line : Text) : List (Text × Text) := readPairs line.length line

section
variable {key value k v : Text} (hk : Reads key k) (hv : Reads value v)
include hk hv

theorem readPairs_cons (count : Nat) (rest : Text) :
    readPairs (count + 1) (key ++ "=" ++ value ++ (" " ++ rest)) =
      (k, v) :: readPairs count rest := by
  have hkey := hk (Text.ascii '=') (value ++ Text.ascii ' ' :: rest) rfl
  have hvalue := hv (Text.ascii ' ') rest rfl
  have heq : key ++ "=" ++ value ++ (" " ++ rest) =
      key ++ Text.ascii '=' :: (value ++ Text.ascii ' ' :: rest) := by
    rw [List.append_assoc, List.append_assoc]
    rfl
  rw [heq, readPairs, hkey]
  simp [hvalue]

theorem readPairs_last (count : Nat) :
    readPairs (count + 1) (key ++ "=" ++ value ++ "\n") = [(k, v)] := by
  have hkey := hk (Text.ascii '=') (value ++ [Text.ascii '\n']) rfl
  have hvalue := hv (Text.ascii '\n') [] rfl
  have heq : key ++ "=" ++ value ++ "\n" =
      key ++ Text.ascii '=' :: (value ++ [Text.ascii '\n']) := by
    rw [List.append_assoc, List.append_assoc]
    rfl
  have hne : ¬Text.ascii '\n' = Text.ascii ' ' := by decide
  rw [heq, readPairs, hkey]
  simp [hvalue, hne]

end

/-- What a line shows of entries: their full keys and the texts of their values. -/
def shown (entries : List Entry) : List (Text × Text) :=
  (entries.filter (!·.isBlank)).map fun e => (e.key, e.attr.value.render)

theorem shown_append (entries more : List Entry) :
    shown (entries ++ more) = shown entries ++ shown more := by
  simp [shown]

theorem shown_cons_of_blank {e : Entry} (h : e.isBlank = true) (entries : List Entry) :
    shown (e :: entries) = shown entries := by
  simp [shown, h]

theorem shown_cons {e : Entry} (h : e.isBlank = false) (entries : List Entry) :
    shown (e :: entries) = (e.key, e.attr.value.render) :: shown entries := by
  simp [shown, h]

/-- Each entry that is shown takes a byte at least. -/
theorem length_shown_le (entries : List Entry) :
    (shown entries).length ≤ (entries.flatMap Entry.text).length := by
  induction entries with
  | nil => exact Nat.le_refl 0
  | cons e entries ih =>
    rw [List.flatMap_cons, List.length_append]
    cases hb : e.isBlank with
    | true =>
      rw [shown_cons_of_blank hb]
      omega
    | false =>
      have hspace : (Text.ofString " ").length = 1 := rfl
      have htext : 0 < e.text.length := by
        simp only [Entry.text, hb, Bool.false_eq_true, if_false, List.length_append]
        omega
      rw [shown_cons hb, List.length_cons]
      omega

theorem readPairs_entries {key value k v : Text} (hk : Reads key k) (hv : Reads value v)
    {entries : List Entry} {count : Nat} (hcount : (shown entries).length ≤ count) :
    readPairs (count + 1) (key ++ "=" ++ value ++ (entries.flatMap Entry.text ++ "\n")) =
      (k, v) :: shown entries := by
  induction entries generalizing key value k v count with
  | nil => exact readPairs_last hk hv count
  | cons e entries ih =>
    rw [List.flatMap_cons]
    cases hb : e.isBlank with
    | true =>
      have htext : e.text = [] := by simp [Entry.text, hb]
      rw [shown_cons_of_blank hb] at hcount ⊢
      rw [htext, List.nil_append]
      exact ih hk hv hcount
    | false =>
      rw [shown_cons hb] at hcount ⊢
      obtain ⟨count, rfl⟩ : ∃ n, count = n + 1 := ⟨count - 1, by simp at hcount; omega⟩
      have htext : e.text ++ entries.flatMap Entry.text ++ "\n" =
          " " ++ (e.keyWord ++ "=" ++ word e.attr.value.render ++
            (entries.flatMap Entry.text ++ "\n")) := by
        simp [Entry.text, hb]
      rw [htext, readPairs_cons hk hv,
        ih e.reads_keyWord (reads_word _) (Nat.le_of_succ_le_succ hcount)]

/-- **A line is read as its level, its message and its entries.** -/
theorem readLine_line (l : Logger) (span : Option Text) (r : Record) :
    readLine (l.line span r) =
      (Text.ofString "level", r.level.name) :: (Text.ofString "msg", r.message) ::
        shown (l.entries span r) := by
  have hlevel : Reads (Text.ofString "level") (Text.ofString "level") :=
    (bare_of_needsQuotes rfl).reads
  have hmsg : Reads (Text.ofString "msg") (Text.ofString "msg") :=
    (bare_of_needsQuotes rfl).reads
  have hlength := length_shown_le (l.entries span r)
  have hline : l.line span r = "level" ++ "=" ++ r.level.name ++
      (" " ++ ("msg" ++ "=" ++ word r.message ++
        ((l.entries span r).flatMap Entry.text ++ "\n"))) := by
    simp [Logger.line, Text.ofString]
  -- a line is longer than the number of its pairs, so all of them are read
  have hlong : (shown (l.entries span r)).length + 2 ≤ (l.line span r).length := by
    have hword : (Text.ofString "level").length = 5 := rfl
    rw [hline]
    simp only [List.length_append]
    omega
  obtain ⟨count, hcount⟩ := Nat.exists_eq_add_of_le hlong
  have hfuel : (l.line span r).length = (shown (l.entries span r)).length + count + 1 + 1 := by
    omega
  rw [readLine, hfuel, hline, readPairs_cons hlevel (bare_level r.level).reads,
    readPairs_entries hmsg (reads_word _) (Nat.le_add_right _ _)]

end TapeAsm.Log
