import TapeAsm.Program.Token

/-!
# Tokens line by line

Scanning is done line by line, so the tokens of two texts with a line end between them are those of
the one followed by those of the other (`Token.texts_append`). This holds for a text that ends in a
carriage return as well: the line end behind it then is part of the same one, and all that is lost
is an empty line.

`Token.texts_line` is what a single line gives: a word of visible characters that begins no comment
(`Text.Wordlike`) is found as it is, whatever spaces stand before it.
-/

set_option autoImplicit false

namespace TapeAsm

namespace Text

/-! ## Cutting a text into lines -/

theorem splitOn_ne_nil (sep : UInt8) (t : Text) : splitOn sep t ≠ [] := by
  fun_cases splitOn sep t <;> simp

/-- The pieces of a text with a separator in it are those before it and those behind it. -/
theorem splitOn_append (sep : UInt8) (a b : Text) :
    splitOn sep (a ++ sep :: b) = splitOn sep a ++ splitOn sep b := by
  induction a with
  | nil => simp [splitOn]
  | cons c a ih =>
    by_cases hc : c = sep
    · simp [splitOn, hc, ih]
    · simp only [List.cons_append, splitOn, if_neg hc, ih]
      cases ha : splitOn sep a with
      | nil => exact absurd ha (splitOn_ne_nil sep a)
      | cons piece pieces => rfl

theorem splitOn_of_not_mem {sep : UInt8} {t : Text} (h : sep ∉ t) : splitOn sep t = [t] := by
  induction t with
  | nil => rfl
  | cons c t ih =>
    simp only [List.mem_cons, not_or] at h
    rw [splitOn, if_neg (Ne.symm h.1), ih h.2]

/-- Lines that are ended one after the other are read again, and nothing follows the last. -/
theorem splitOn_lines {sep : UInt8} {lines : List Text} (h : ∀ line ∈ lines, sep ∉ line) :
    splitOn sep (lines.flatMap (· ++ [sep])) = lines ++ [[]] := by
  induction lines with
  | nil => rfl
  | cons line lines ih =>
    obtain ⟨hline, hlines⟩ := List.forall_mem_cons.1 h
    rw [List.flatMap_cons, List.append_assoc, List.singleton_append, splitOn_append,
      splitOn_of_not_mem hline, ih hlines]
    rfl

/-- A text before a line feed can be read apart from what follows, but for a carriage return at its
end, which is no line end of its own. -/
theorem unifyLineEnds_append (a : Text) :
    ∃ y, (unifyLineEnds a = y ∨ unifyLineEnds a = y ++ [0x0A]) ∧
      ∀ b, unifyLineEnds (a ++ 0x0A :: b) = y ++ 0x0A :: unifyLineEnds b := by
  fun_induction unifyLineEnds a with
  | case1 => exact ⟨[], .inl rfl, fun b => rfl⟩
  | case2 rest ih =>
    obtain ⟨y, hy, hb⟩ := ih
    refine ⟨0x0A :: y, ?_, fun b => ?_⟩
    · simpa using hy
    · simp [unifyLineEnds, hb]
  | case3 c rest hc ih =>
    cases rest with
    | nil =>
      by_cases hcr : c = 0x0D
      · subst hcr
        exact ⟨[], .inr rfl, fun b => rfl⟩
      · exact ⟨[c], .inl (by simp [unifyLineEnds, hcr]), fun b => by simp [unifyLineEnds, hcr]⟩
    | cons d rest =>
      obtain ⟨y, hy, hb⟩ := ih
      refine ⟨(if c = 0x0D then 0x0A else c) :: y, ?_, fun b => ?_⟩
      · simpa using hy
      · -- the two bytes are not a line end together, so the first is read by itself
        have hc' : ∀ t, c = 0x0D → d :: (rest ++ 0x0A :: b) = 0x0A :: t → False :=
          fun t h₁ h₂ => hc rest h₁ (by rw [(List.cons.inj h₂).1])
        rw [List.cons_append, List.cons_append, unifyLineEnds.eq_3 _ _ hc', ← List.cons_append, hb]
        rfl

theorem unifyLineEnds_of_not_mem {t : Text} (h : 0x0D ∉ t) : unifyLineEnds t = t := by
  fun_induction unifyLineEnds t with
  | case1 => rfl
  | case2 rest _ => simp at h
  | case3 c rest _ ih =>
    simp only [List.mem_cons, not_or] at h
    rw [if_neg (Ne.symm h.1), ih h.2]

/-! ## White space around a word -/

/-- Is the byte a visible ASCII character? -/
def isVisible (b : UInt8) : Bool := 0x21 ≤ b && b ≤ 0x7E

theorem isVisible_of_mem_ofNat {n : Nat} {b : UInt8} (h : b ∈ ofNat n) : isVisible b = true := by
  obtain ⟨c, hc, rfl⟩ := List.mem_map.1 h
  have hd := Nat.isDigit_of_mem_toDigits (by decide) (by decide) hc
  simp only [Char.isDigit, Bool.and_eq_true, decide_eq_true_eq] at hd
  have hlow : 48 ≤ c.toNat := hd.1
  have hhigh : c.toNat ≤ 57 := hd.2
  simp [isVisible, ascii, UInt8.le_iff_toNat_le]
  omega

/-- Nothing is dropped where a visible byte stands and every word begins with an invisible one. -/
theorem dropWordsAfter_zero {words : List Text} {b : UInt8} {rest : Text}
    (h : ∀ w ∈ words, w.head?.any (!isVisible ·) = true) (hb : isVisible b = true) :
    dropWordsAfter words 0 (b :: rest) = b :: rest := by
  have hnone : words.find? (·.isPrefixOf (b :: rest)) = none := by
    refine List.find?_eq_none.2 fun w hw => ?_
    cases w with
    | nil => simpa using h _ hw
    | cons c w =>
      have hc : isVisible c = false := by simpa using h _ hw
      have hne : c ≠ b := fun he => by rw [he, hb] at hc; cases hc
      simp [hne]
  simp [dropWordsAfter, leadingWord, hnone]

/-- No encoding of a white space character begins or ends with a visible byte. -/
theorem blanks_not_visible :
    (∀ w ∈ blanks, w.head?.any (!isVisible ·) = true) ∧
      ∀ w ∈ blanks.map List.reverse, w.head?.any (!isVisible ·) = true := by
  decide

theorem trimLeft_spaces (n : Nat) (t : Text) : trimLeft (spaces n ++ t) = trimLeft t := by
  induction n with
  | zero => rfl
  | succ n ih => exact ih

theorem trim_spaces_append (n : Nat) {t : Text} (h : ∀ b ∈ t, isVisible b = true) :
    trim (spaces n ++ t) = t := by
  have hleft : trimLeft t = t := by
    cases t with
    | nil => rfl
    | cons b rest => exact dropWordsAfter_zero blanks_not_visible.1 (h b (by simp))
  have hright : dropWordsAfter (blanks.map List.reverse) 0 t.reverse = t.reverse := by
    cases hr : t.reverse with
    | nil => rfl
    | cons b rest =>
      have hb : b ∈ t := by rw [← List.mem_reverse, hr]; simp
      exact dropWordsAfter_zero blanks_not_visible.2 (h b hb)
  rw [trim, trimLeft_spaces, hleft, trimRight, hright, List.reverse_reverse]

/-- **A word**: visible characters, at least one, that begin no comment. -/
structure Wordlike (t : Text) : Prop where
  visible : ∀ b ∈ t, isVisible b = true
  token : Token.isToken t = true

end Text

namespace Token

open Text

/-! ## Tokens of texts -/

/-- The token of a line, if it holds one. -/
def ofLine? (line : Text) : Option Text :=
  if isToken line.trim then some line.trim else none

/-- The numbers of the lines do not matter to the tokens. -/
theorem texts_eq (source : Text) : texts source = source.lines.filterMap ofLine? :=
  calc texts source
    _ = (source.lines.zipIdx 1).filterMap (ofLine? ∘ Prod.fst) := by
        rw [texts, scan, List.map_filterMap]
        congr 1
        funext x
        simp only [Function.comp_apply, ofLine?]
        split <;> rfl
    _ = ((source.lines.zipIdx 1).map Prod.fst).filterMap ofLine? := List.filterMap_map.symm
    _ = source.lines.filterMap ofLine? := by rw [List.zipIdx_map_fst]

/-- **The tokens of two texts with a line end between them** are the tokens of both. -/
theorem texts_append (a b : Text) : texts (a ++ newline ++ b) = texts a ++ texts b := by
  obtain ⟨y, hy, hb⟩ := unifyLineEnds_append a
  have hab : (a ++ newline ++ b).lines = splitOn 0x0A y ++ b.lines := by
    rw [List.append_assoc, lines]
    show splitOn _ (unifyLineEnds (a ++ 0x0A :: b)) = _
    rw [hb, splitOn_append]
    rfl
  have ha : a.lines.filterMap ofLine? = (splitOn 0x0A y).filterMap ofLine? := by
    rcases hy with hy | hy
    · rw [lines, hy]
    · -- the line that is cut off behind the last line end is empty
      rw [lines, hy, splitOn_append, List.filterMap_append]
      simp [splitOn, ofLine?, trim, trimLeft, trimRight, dropWordsAfter, isToken]
  rw [texts_eq, texts_eq, texts_eq, hab, List.filterMap_append, ha]

/-- **A line with a word** holds that word, whatever spaces stand before it. -/
theorem texts_line (n : Nat) {w : Text} (h : w.Wordlike) : texts (spaces n ++ w) = [w] := by
  have hno : ∀ b : UInt8, b = 0x0D ∨ b = 0x0A → b ∉ spaces n ++ w := by
    intro b hb hm
    rcases List.mem_append.1 hm with hm | hm
    · have hs : b = ascii ' ' := (List.mem_replicate.1 hm).2
      rcases hb with rfl | rfl <;> exact absurd hs (by decide)
    · have hv := h.visible b hm
      rcases hb with rfl | rfl <;> exact absurd hv (by decide)
  rw [texts_eq, lines, unifyLineEnds_of_not_mem (hno _ (.inl rfl)),
    splitOn_of_not_mem (hno _ (.inr rfl))]
  simp [ofLine?, trim_spaces_append n h.visible, h.token]

end Token

end TapeAsm
