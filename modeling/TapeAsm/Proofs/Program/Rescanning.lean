import TapeAsm.Proofs.Program.Scanning

/-!
# Tokens scanned again

`Token.Settled t`: the text `t` is not empty and begins no comment, it holds no line end, and no
white space character stands at its ends. A character counts by its whole encoding, so other bytes
may stand there that are no text at all. As a line, such a text is its own token
(`Settled.ofLine?_eq`), and every token of a source is of this kind (`settled_of_mem_texts`): it is
part of a line, and what trimming has left of the line has nothing more to trim
(`Text.Trimmed.self`).

Hence tokens joined by line ends (`Text.joinLines`), whichever are chosen, are the tokens of the
text that they make (`texts_joinLines`), and `Token.texts_rescanned` says so for the tokens of a
source.
-/

set_option autoImplicit false

namespace TapeAsm

namespace Text

/-! ## Lines put together -/

/-- The lines with line ends between them, `ends i` being the one behind line `i`. -/
def joinLines (ends : Nat → LineEnd) : List Text → Text
  | [] => []
  | [line] => line
  | line :: next :: lines =>
    line ++ (ends 0).text ++ joinLines (fun i => ends (i + 1)) (next :: lines)

theorem respells_joinLines (ends : Nat → LineEnd) {line : Text} {lines : List Text}
    (h : ∀ l ∈ line :: lines, Unbroken l) :
    Respells (joinLines ends (line :: lines)) (line :: lines) := by
  induction lines generalizing ends line with
  | nil => exact .last (h line (by simp))
  | cons next lines ih =>
    obtain ⟨hline, hlines⟩ := List.forall_mem_cons.1 h
    exact .line hline trivial (ih (fun i => ends (i + 1)) hlines)

theorem Joined.unbroken {fits : LineEnd → Text → Prop} {t : Text} {lines : List Text}
    (h : Joined fits lines t) : ∀ line ∈ lines, Unbroken line := by
  induction h with
  | last hl => exact List.forall_mem_singleton.2 hl
  | line hl _ _ ih => exact List.forall_mem_cons.2 ⟨hl, ih⟩

/-! ## What is left of a line -/

theorem Trimmed.unbroken {line t : Text} (h : Trimmed line t) (hl : Unbroken line) :
    Unbroken t := by
  obtain ⟨⟨before, after, -, -, rfl⟩, -, -⟩ := h
  simp only [Unbroken, List.mem_append, not_or] at hl ⊢
  exact ⟨hl.1.1.2, hl.2.1.2⟩

theorem Trimmed.self {line t : Text} (h : Trimmed line t) : Trimmed t t :=
  ⟨⟨[], [], .nil, .nil, by simp⟩, h.begins, h.ends⟩

theorem trimmed_self_iff {t : Text} :
    Trimmed t t ↔ ∀ c, isBlank c = true → ¬ ofChar c <+: t ∧ ¬ ofChar c <:+ t := by
  constructor
  · intro h c hc
    have hmem : ofChar c ∈ blanks := List.mem_map_of_mem (List.contains_iff_mem.1 hc)
    exact ⟨h.begins _ hmem, h.ends _ hmem⟩
  · intro h
    have hblanks : ∀ w ∈ blanks, ¬ w <+: t ∧ ¬ w <:+ t := by
      intro w hw
      obtain ⟨c, hc, rfl⟩ := List.mem_map.1 hw
      exact h c (List.contains_iff_mem.2 hc)
    exact ⟨⟨[], [], .nil, .nil, by simp⟩, fun w hw => (hblanks w hw).1,
      fun w hw => (hblanks w hw).2⟩

end Text

namespace Token

open Text

/-- **A text that is its own token**, as a line. -/
structure Settled (t : Text) : Prop where
  ne_nil : t ≠ []
  no_comment : ¬ commentMark <+: t
  unbroken : Unbroken t
  no_blank : ∀ c, isBlank c = true → ¬ ofChar c <+: t ∧ ¬ ofChar c <:+ t

theorem Settled.ofLine?_eq {t : Text} (h : Settled t) : ofLine? t = some t := by
  have htrim : t.trim = t := trim_eq_iff.2 (trimmed_self_iff.2 h.no_blank)
  rw [ofLine?, htrim, if_pos (isToken_iff.2 ⟨h.ne_nil, h.no_comment⟩)]

theorem settled_of_ofLine? {line t : Text} (hl : Unbroken line) (h : ofLine? line = some t) :
    Settled t := by
  unfold ofLine? at h
  split at h
  · rename_i htoken
    obtain rfl := Option.some.inj h
    obtain ⟨hne, hc⟩ := isToken_iff.1 htoken
    have htrim := trimmed_trim line
    exact ⟨hne, hc, htrim.unbroken hl, trimmed_self_iff.1 htrim.self⟩
  · cases h

theorem settled_of_mem_texts {source t : Text} (h : t ∈ texts source) : Settled t := by
  have hlines : HasLines source source.lines := hasLines_iff.2 rfl
  rw [texts_eq] at h
  obtain ⟨line, hline, ht⟩ := List.mem_filterMap.1 h
  exact settled_of_ofLine? (hlines.unbroken line hline) ht

theorem filterMap_settled {tokens : List Text} (h : ∀ t ∈ tokens, Settled t) :
    tokens.filterMap ofLine? = tokens := by
  induction tokens with
  | nil => rfl
  | cons t tokens ih =>
    obtain ⟨ht, htokens⟩ := List.forall_mem_cons.1 h
    rw [List.filterMap_cons, ht.ofLine?_eq, ih htokens]

theorem texts_joinLines (ends : Nat → LineEnd) {tokens : List Text}
    (h : ∀ t ∈ tokens, Settled t) : texts (joinLines ends tokens) = tokens := by
  cases tokens with
  | nil => rfl
  | cons t tokens =>
    have hlines := respells_joinLines ends fun l hl => (h l hl).unbroken
    rw [texts_of_respells hlines, filterMap_settled h]

/-- **Tokens are stable**: joined by whatever line ends, the tokens of a source are scanned as they
are. None is empty or a comment, holds a line end, or begins or ends with white space. -/
theorem texts_rescanned (source : Text) :
    (∀ ends : Nat → LineEnd, texts (joinLines ends (texts source)) = texts source) ∧
      ∀ t ∈ texts source, Settled t :=
  ⟨fun ends => texts_joinLines ends fun _ => settled_of_mem_texts, fun _ => settled_of_mem_texts⟩

/-- Tokens with half a white space character at each end, the halves of one parted by no more than a
carriage return when the tokens are joined. -/
theorem texts_rescanned_stray :
    texts [0xE2, 0x80, 0x83, 0xA0, 0x61, 0xC2, 0xC2, 0xA0, 0x0D, 0x0A, 0x2F, 0x2F, 0x0D, 0xA0, 0xE3,
        0x80] = [[0xA0, 0x61, 0xC2], [0xA0, 0xE3, 0x80]] ∧
    texts [0xA0, 0x61, 0xC2, 0x0D, 0xA0, 0xE3, 0x80] =
      [[0xA0, 0x61, 0xC2], [0xA0, 0xE3, 0x80]] ∧
    Settled [0xA0, 0x61, 0xC2] := by
  have htexts : texts [0xE2, 0x80, 0x83, 0xA0, 0x61, 0xC2, 0xC2, 0xA0, 0x0D, 0x0A, 0x2F, 0x2F, 0x0D,
      0xA0, 0xE3, 0x80] = [[0xA0, 0x61, 0xC2], [0xA0, 0xE3, 0x80]] := by
    decide +kernel
  obtain ⟨hsame, hsettled⟩ := texts_rescanned
    [0xE2, 0x80, 0x83, 0xA0, 0x61, 0xC2, 0xC2, 0xA0, 0x0D, 0x0A, 0x2F, 0x2F, 0x0D, 0xA0, 0xE3, 0x80]
  rw [htexts] at hsame hsettled
  exact ⟨htexts, hsame fun _ => .carriageReturn, hsettled _ (by simp)⟩

end Token

end TapeAsm
