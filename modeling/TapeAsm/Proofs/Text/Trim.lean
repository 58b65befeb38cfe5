import TapeAsm.Text.Blank

/-!
# What trimming leaves

`Text.trim_eq_iff`: trimming a line gives the one text that neither begins nor ends with a white
space character and has nothing but white space around it in the line (`Text.Trimmed`). No byte of
the line has to belong to a character for this.

From either end trimming drops words of a list as long as one stands there. What it comes to depends
only on no word beginning another (`Text.Code`, `Text.dropWords_eq_iff`), which holds of encodings
read forwards and backwards. The two ends do not get in each other's way: an encoding that reaches
into the white space at the other end would go on with the first byte of a character
(`Text.not_begins_append`).
-/

set_option autoImplicit false

namespace TapeAsm.Text

/-! ## Words at the beginning -/

/-- The text is made of words, one after the other. -/
inductive MadeOf (words : List Text) : Text → Prop
  | nil : MadeOf words []
  | word {w t : Text} : w ∈ words → MadeOf words t → MadeOf words (w ++ t)

/-- No word is empty, and none begins another. -/
structure Code (words : List Text) : Prop where
  ne_nil : ∀ w ∈ words, w ≠ []
  alone : ∀ w ∈ words, ∀ w' ∈ words, w <+: w' → w = w'

section
variable {words : List Text} {s t w : Text}

theorem MadeOf.single (hw : w ∈ words) : MadeOf words w := by
  have := MadeOf.word hw .nil
  rwa [List.append_nil] at this

theorem MadeOf.append (hs : MadeOf words s) (ht : MadeOf words t) : MadeOf words (s ++ t) := by
  induction hs with
  | nil => exact ht
  | word hw _ ih =>
    rw [List.append_assoc]
    exact .word hw ih

theorem MadeOf.reverse (h : MadeOf words t) : MadeOf (words.map List.reverse) t.reverse := by
  induction h with
  | nil => exact .nil
  | @word w t hw _ ih =>
    have hlast : MadeOf (words.map List.reverse) w.reverse := .single (List.mem_map_of_mem hw)
    rw [List.reverse_append]
    exact ih.append hlast

theorem leadingWord_append (hc : Code words) (hw : w ∈ words) (t : Text) :
    leadingWord words (w ++ t) = w.length := by
  cases hfind : words.find? (·.isPrefixOf (w ++ t)) with
  | none =>
    have := List.find?_eq_none.1 hfind w hw
    simp at this
  | some w' =>
    have hbegins : w' <+: w ++ t := by simpa using List.find?_some hfind
    have hmem := List.mem_of_find?_eq_some hfind
    -- both words begin the same text, so one of them begins the other
    have heq : w' = w := by
      rcases List.prefix_or_prefix_of_prefix hbegins (List.prefix_append w t) with h | h
      · exact hc.alone _ hmem _ hw h
      · exact (hc.alone _ hw _ hmem h).symm
    rw [leadingWord, hfind, heq]

theorem dropWordsAfter_append (words : List Text) (s t : Text) :
    dropWordsAfter words s.length (s ++ t) = dropWordsAfter words 0 t := by
  induction s with
  | nil => rfl
  | cons b s ih => exact ih

theorem dropWords_append (hc : Code words) (hs : MadeOf words s) (t : Text) :
    dropWordsAfter words 0 (s ++ t) = dropWordsAfter words 0 t := by
  induction hs with
  | nil => rfl
  | @word w s hw _ ih =>
    rw [List.append_assoc]
    obtain ⟨b, rest, rfl⟩ := List.exists_cons_of_ne_nil (hc.ne_nil w hw)
    have hlead := leadingWord_append hc hw (s ++ t)
    rw [List.cons_append] at hlead ⊢
    rw [dropWordsAfter, hlead]
    exact (dropWordsAfter_append words rest (s ++ t)).trans ih

theorem dropWords_self (h : ∀ w ∈ words, ¬ w <+: t) : dropWordsAfter words 0 t = t := by
  cases t with
  | nil => rfl
  | cons b rest =>
    have hnone : words.find? (·.isPrefixOf (b :: rest)) = none := by
      refine List.find?_eq_none.2 fun w hw => ?_
      simpa using h w hw
    rw [dropWordsAfter, leadingWord, hnone]

theorem exists_dropWords (hc : Code words) (t : Text) :
    ∃ s, MadeOf words s ∧ t = s ++ dropWordsAfter words 0 t ∧
      ∀ w ∈ words, ¬ w <+: dropWordsAfter words 0 t := by
  induction hlen : t.length using Nat.strongRecOn generalizing t with
  | ind n ih =>
    by_cases hw : ∃ w ∈ words, w <+: t
    · obtain ⟨w, hw, t, rfl⟩ := hw
      have hlt : t.length < n := by
        have := List.length_pos_iff.2 (hc.ne_nil w hw)
        rw [List.length_append] at hlen
        omega
      obtain ⟨s, hs, heq, hnone⟩ := ih _ hlt t rfl
      rw [dropWords_append hc (.single hw)]
      refine ⟨w ++ s, .word hw hs, ?_, hnone⟩
      rw [List.append_assoc, ← heq]
    · have hnone : ∀ w ∈ words, ¬ w <+: t := fun w hmem hp => hw ⟨w, hmem, hp⟩
      rw [dropWords_self hnone]
      exact ⟨[], .nil, rfl, hnone⟩

/-- **What is left behind the words at the beginning.** -/
theorem dropWords_eq_iff (hc : Code words) {r : Text} :
    dropWordsAfter words 0 t = r ↔
      (∃ s, MadeOf words s ∧ t = s ++ r) ∧ ∀ w ∈ words, ¬ w <+: r := by
  constructor
  · rintro rfl
    obtain ⟨s, hs, heq, hnone⟩ := exists_dropWords hc t
    exact ⟨⟨s, hs, heq⟩, hnone⟩
  · rintro ⟨⟨s, hs, rfl⟩, hnone⟩
    rw [dropWords_append hc hs, dropWords_self hnone]

end

/-! ## White space -/

/-- The text is white space, each character in full. -/
def AllBlank (t : Text) : Prop := MadeOf blanks t

/-- **A line without the white space around it.** -/
structure Trimmed (line t : Text) : Prop where
  around : ∃ before after, AllBlank before ∧ AllBlank after ∧ line = before ++ t ++ after
  begins : ∀ w ∈ blanks, ¬ w <+: t
  ends : ∀ w ∈ blanks, ¬ w <:+ t

/-- Is the byte one that only stands behind the first byte of a character? -/
def isContinuation (b : UInt8) : Bool := 0x80 ≤ b && b < 0xC0

theorem code_blanks : Code blanks := ⟨by decide, by decide +kernel⟩

theorem code_reverse_blanks : Code (blanks.map List.reverse) := ⟨by decide, by decide +kernel⟩

theorem blanks_bytes :
    ∀ w ∈ blanks, w.head?.all (!isContinuation ·) = true ∧ w.tail.all isContinuation = true := by
  decide

theorem trimLeft_eq_iff {t r : Text} :
    t.trimLeft = r ↔ (∃ s, AllBlank s ∧ t = s ++ r) ∧ ∀ w ∈ blanks, ¬ w <+: r :=
  dropWords_eq_iff code_blanks

theorem trimRight_eq_iff {t r : Text} :
    t.trimRight = r ↔ (∃ s, AllBlank s ∧ t = r ++ s) ∧ ∀ w ∈ blanks, ¬ w <:+ r := by
  rw [trimRight, List.reverse_eq_iff, dropWords_eq_iff code_reverse_blanks]
  refine and_congr ⟨?_, ?_⟩ ?_
  · rintro ⟨s, hs, heq⟩
    have htwice : (List.reverse ∘ List.reverse : Text → Text) = id := funext List.reverse_reverse
    have hs' := hs.reverse
    rw [List.map_map, htwice, List.map_id] at hs'
    refine ⟨s.reverse, hs', ?_⟩
    simpa using congrArg List.reverse heq
  · rintro ⟨s, hs, rfl⟩
    exact ⟨s.reverse, hs.reverse, by rw [List.reverse_append]⟩
  · simp only [List.forall_mem_map, List.reverse_prefix]

/-- White space behind a text does not make one of its ends the beginning of white space. -/
theorem not_begins_append {t after : Text} (ht : t ≠ []) (h : ∀ w ∈ blanks, ¬ w <+: t)
    (ha : AllBlank after) : ∀ w ∈ blanks, ¬ w <+: t ++ after := by
  intro w hw hp
  rcases List.prefix_or_prefix_of_prefix hp (List.prefix_append t after) with hwt | ⟨d, rfl⟩
  · exact h w hw hwt
  · cases d with
    | nil => exact h _ hw (by simp)
    | cons b d =>
      have hd : b :: d <+: after := (List.prefix_append_right_inj t).1 hp
      -- the byte `b` goes on with one character and begins another
      have hcont : isContinuation b = true := by
        have htail := (blanks_bytes _ hw).2
        rw [List.tail_append_of_ne_nil ht, List.all_append, List.all_cons] at htail
        simp only [Bool.and_eq_true] at htail
        exact htail.2.1
      cases ha with
      | nil => cases List.prefix_nil.1 hd
      | @word w' rest hw' _ =>
        obtain ⟨b', w', rfl⟩ := List.exists_cons_of_ne_nil (code_blanks.ne_nil w' hw')
        have hhead := (blanks_bytes _ hw').1
        rw [List.cons_append, List.cons_prefix_cons] at hd
        rw [← hd.1] at hhead
        simp [hcont] at hhead

/-- **Trimming gives the line without the white space around it**, and nothing else is that. -/
theorem trim_eq_iff {line t : Text} : line.trim = t ↔ Trimmed line t := by
  constructor
  · intro h
    obtain ⟨⟨before, hbefore, hline⟩, hbegins⟩ := trimLeft_eq_iff.1 (rfl : line.trimLeft = _)
    obtain ⟨⟨after, hafter, hrest⟩, hends⟩ := trimRight_eq_iff.1 h
    refine ⟨⟨before, after, hbefore, hafter, ?_⟩, fun w hw hp => ?_, hends⟩
    · rw [List.append_assoc, ← hrest]
      exact hline
    · refine hbegins w hw (hp.trans ?_)
      rw [hrest]
      exact List.prefix_append t after
  · rintro ⟨⟨before, after, hbefore, hafter, rfl⟩, hbegins, hends⟩
    by_cases ht : t = []
    · subst ht
      have hleft : trimLeft (before ++ [] ++ after) = [] := by
        refine trimLeft_eq_iff.2 ⟨⟨before ++ after, hbefore.append hafter, by simp⟩, ?_⟩
        intro w hw hp
        exact code_blanks.ne_nil w hw (List.prefix_nil.1 hp)
      rw [trim, hleft]
      rfl
    · have hleft : trimLeft (before ++ t ++ after) = t ++ after :=
        trimLeft_eq_iff.2
          ⟨⟨before, hbefore, List.append_assoc ..⟩, not_begins_append ht hbegins hafter⟩
      rw [trim, hleft]
      exact trimRight_eq_iff.2 ⟨⟨after, hafter, rfl⟩, hends⟩

theorem trimmed_trim (line : Text) : Trimmed line line.trim := trim_eq_iff.1 rfl

/-- More white space around a line does not matter. -/
theorem trim_around {before after : Text} (hbefore : AllBlank before) (hafter : AllBlank after)
    (line : Text) : trim (before ++ line ++ after) = line.trim := by
  obtain ⟨⟨inBefore, inAfter, hb, ha, hline⟩, hbegins, hends⟩ := trimmed_trim line
  refine trim_eq_iff.2 ⟨⟨before ++ inBefore, inAfter ++ after, hbefore.append hb,
    ha.append hafter, ?_⟩, hbegins, hends⟩
  calc before ++ line ++ after
    _ = before ++ (inBefore ++ line.trim ++ inAfter) ++ after := by rw [← hline]
    _ = before ++ inBefore ++ line.trim ++ (inAfter ++ after) := by simp

theorem trim_allBlank {line : Text} (h : AllBlank line) : line.trim = [] := by
  have := trim_around h .nil []
  rw [List.append_nil, List.append_nil] at this
  exact this

end TapeAsm.Text
