import TapeAsm.Program.Token
import TapeAsm.Proofs.Program.Spelling

/-!
# Balanced loops

A token list is balanced if no prefix has more loop ends than loop starts and there are as many of
both. `Program.parse_ok_iff`: the lists that parse are the balanced ones among those of keywords.
`Program.fault_of_valid`: on keywords only, what is wrong is a bracket, never a token.
`Program.parse_first_unrecognized`: where the loops are balanced, it is the first token outside the
vocabulary.

All are read off the parser token by token. `Closes depth tokens` is what the tokens still to come
have to satisfy when `depth` loops are open, and each token changes the depth that is asked of the
others (`closes_other`, `closes_start`, `closes_end`).
-/

set_option autoImplicit false

namespace TapeAsm

/-- **Balance**: no prefix has more loop ends than loop starts, and there are as many of both. -/
structure Balanced (tokens : List Text) : Prop where
  prefixes : ∀ before, before <+: tokens →
    before.count Keyword.loopEnd.text ≤ before.count Keyword.loopStart.text
  totals : tokens.count Keyword.loopEnd.text = tokens.count Keyword.loopStart.text

/-! ## Balance behind open loops -/

/-- The tokens close `depth` loops that are open before them, and every loop of their own. -/
structure Closes (depth : Nat) (tokens : List Text) : Prop where
  prefixes : ∀ before, before <+: tokens →
    before.count Keyword.loopEnd.text ≤ depth + before.count Keyword.loopStart.text
  totals : tokens.count Keyword.loopEnd.text = depth + tokens.count Keyword.loopStart.text

theorem closes_zero_iff {tokens : List Text} : Closes 0 tokens ↔ Balanced tokens := by
  constructor
  · intro ⟨hp, ht⟩
    exact ⟨fun b hb => by simpa using hp b hb, by simpa using ht⟩
  · intro ⟨hp, ht⟩
    exact ⟨fun b hb => by simpa using hp b hb, by simpa using ht⟩

theorem closes_nil_iff {depth : Nat} : Closes depth [] ↔ depth = 0 := by
  constructor
  · intro h
    simpa using h.totals.symm
  · rintro rfl
    refine ⟨fun b hb => ?_, rfl⟩
    rw [List.prefix_nil.1 hb]
    simp

/-- The prefixes of a list with a first token. -/
theorem forall_prefix_cons {token : Text} {rest : List Text} {P : List Text → Prop} :
    (∀ before, before <+: token :: rest → P before) ↔
      P [] ∧ ∀ before, before <+: rest → P (token :: before) := by
  constructor
  · intro h
    exact ⟨h [] List.nil_prefix, fun b hb => h _ (List.cons_prefix_cons.2 ⟨rfl, hb⟩)⟩
  · rintro ⟨hnil, hcons⟩ b hb
    rcases List.prefix_cons_iff.1 hb with rfl | ⟨c, rfl, hc⟩
    · exact hnil
    · exact hcons c hc

theorem closes_cons_iff {depth : Nat} {token : Text} {rest : List Text} :
    Closes depth (token :: rest) ↔
      (∀ before, before <+: rest →
        (token :: before).count Keyword.loopEnd.text ≤
          depth + (token :: before).count Keyword.loopStart.text) ∧
      (token :: rest).count Keyword.loopEnd.text =
        depth + (token :: rest).count Keyword.loopStart.text := by
  constructor
  · intro ⟨hp, ht⟩
    exact ⟨(forall_prefix_cons.1 hp).2, ht⟩
  · intro ⟨hp, ht⟩
    exact ⟨forall_prefix_cons.2 ⟨by simp, hp⟩, ht⟩

section
variable {depth : Nat} {rest : List Text}

theorem closes_other {token : Text} (hs : token ≠ Keyword.loopStart.text)
    (he : token ≠ Keyword.loopEnd.text) : Closes depth (token :: rest) ↔ Closes depth rest := by
  rw [closes_cons_iff]
  simp only [List.count_cons_of_ne hs, List.count_cons_of_ne he]
  exact ⟨fun h => ⟨h.1, h.2⟩, fun h => ⟨h.1, h.2⟩⟩

theorem closes_simple {k : Keyword} {op : Op} (hk : k.op? = some op) :
    Closes depth (k.text :: rest) ↔ Closes depth rest :=
  closes_other (Keyword.text_ne_of_op? hk rfl) (Keyword.text_ne_of_op? hk rfl)

theorem closes_start :
    Closes depth (Keyword.loopStart.text :: rest) ↔ Closes (depth + 1) rest := by
  have hne : Keyword.loopStart.text ≠ Keyword.loopEnd.text := by decide
  rw [closes_cons_iff]
  simp only [List.count_cons_of_ne hne, List.count_cons_self]
  constructor
  · intro ⟨hp, ht⟩
    exact ⟨fun b hb => by have := hp b hb; omega, by omega⟩
  · intro ⟨hp, ht⟩
    exact ⟨fun b hb => by have := hp b hb; omega, by omega⟩

theorem closes_end :
    Closes (depth + 1) (Keyword.loopEnd.text :: rest) ↔ Closes depth rest := by
  have hne : Keyword.loopEnd.text ≠ Keyword.loopStart.text := by decide
  rw [closes_cons_iff]
  simp only [List.count_cons_of_ne hne, List.count_cons_self]
  constructor
  · intro ⟨hp, ht⟩
    exact ⟨fun b hb => by have := hp b hb; omega, by omega⟩
  · intro ⟨hp, ht⟩
    exact ⟨fun b hb => by have := hp b hb; omega, by omega⟩

theorem not_closes_end : ¬ Closes 0 (Keyword.loopEnd.text :: rest) := by
  intro h
  have := h.prefixes [Keyword.loopEnd.text] (by simp)
  revert this
  decide

end

/-! ## The parser -/

namespace Program

theorem valid_cons {token : Text} {rest : List Text} :
    Token.valid (token :: rest) = true ↔ isKeyword token = true ∧ Token.valid rest = true := by
  simp [Token.valid]

/-- What is still to come parses if it is of keywords and closes all open loops. -/
theorem parseFrom_ok_iff {tokens : List Text} {i : Nat} {level : Program}
    {outer : List OpenLoop} :
    (∃ p, parseFrom i level outer tokens = .ok p) ↔
      Token.valid tokens = true ∧ Closes outer.length tokens := by
  induction tokens generalizing i level outer with
  | nil =>
    cases outer with
    | nil => simp [parseFrom, Token.valid, closes_nil_iff]
    | cons loop outer => simp [parseFrom, closes_nil_iff]
  | cons token rest ih =>
    rw [valid_cons]
    obtain ⟨k, op, hk, rfl⟩ | rfl | rfl | hn := token_cases token
    · rw [parseFrom_simple _ _ _ _ hk, ih, closes_simple hk]
      simp [Keyword.isKeyword_text]
    · rw [parseFrom_start, ih, closes_start]
      simp [Keyword.isKeyword_text]
    · cases outer with
      | nil =>
        rw [parseFrom_unmatched]
        simp [not_closes_end]
      | cons loop outer =>
        rw [parseFrom_end, ih, List.length_cons, closes_end]
        simp [Keyword.isKeyword_text]
    · rw [parseFrom_unrecognized _ _ _ _ hn]
      simp [isKeyword, hn]

/-- **The token lists that parse** are those of keywords with balanced loops. -/
theorem parse_ok_iff {tokens : List Text} :
    (∃ p, parse tokens = .ok p) ↔ Token.valid tokens = true ∧ Balanced tokens := by
  rw [← closes_zero_iff]
  exact parseFrom_ok_iff

/-- Parsing finds a token outside the vocabulary only where there is one. -/
theorem fault_of_valid {tokens : List Text} {i : Nat} {level : Program} {outer : List OpenLoop}
    {e : ParseError} (h : parseFrom i level outer tokens = .error e)
    (hv : Token.valid tokens = true) : e.fault = .unmatched ∨ e.fault = .unclosed := by
  induction tokens generalizing i level outer with
  | nil =>
    cases outer with
    | nil => cases h
    | cons loop outer => cases h; exact .inr rfl
  | cons token rest ih =>
    obtain ⟨hk, hrest⟩ := valid_cons.1 hv
    obtain ⟨k, op, hop, rfl⟩ | rfl | rfl | hn := token_cases token
    · exact ih (by rwa [parseFrom_simple _ _ _ _ hop] at h) hrest
    · exact ih (by rwa [parseFrom_start] at h) hrest
    · cases outer with
      | nil =>
        rw [parseFrom_unmatched] at h
        cases h
        exact .inl rfl
      | cons loop outer => exact ih (by rwa [parseFrom_end] at h) hrest
    · simp [isKeyword, hn] at hk

/-- Where the loops are balanced, reading stops at the first token outside the vocabulary. -/
theorem parseFrom_first_unrecognized {before after : List Text} {token : Text} {i : Nat}
    {level : Program} {outer : List OpenLoop} (hv : Token.valid before = true)
    (hn : Keyword.ofText? token = none)
    (hc : Closes outer.length (before ++ token :: after)) :
    parseFrom i level outer (before ++ token :: after) =
      .error ⟨.unrecognized, i + before.length, token⟩ := by
  induction before generalizing i level outer with
  | nil => exact parseFrom_unrecognized _ _ _ _ hn
  | cons first before ih =>
    obtain ⟨hk, hbefore⟩ := valid_cons.1 hv
    have hlen : i + (first :: before).length = i + 1 + before.length := by simp; omega
    rw [List.cons_append] at hc ⊢
    rw [hlen]
    obtain ⟨k, op, hop, rfl⟩ | rfl | rfl | hnone := token_cases first
    · rw [closes_simple hop] at hc
      rw [parseFrom_simple _ _ _ _ hop]
      exact ih hbefore hc
    · rw [closes_start] at hc
      rw [parseFrom_start]
      exact ih hbefore hc
    · cases outer with
      | nil => exact absurd hc not_closes_end
      | cons loop outer =>
        rw [List.length_cons, closes_end] at hc
        rw [parseFrom_end]
        exact ih hbefore hc
    · simp [isKeyword, hnone] at hk

theorem parse_first_unrecognized {before after : List Text} {token : Text}
    (hv : Token.valid before = true) (hn : Keyword.ofText? token = none)
    (hb : Balanced (before ++ token :: after)) :
    parse (before ++ token :: after) = .error ⟨.unrecognized, before.length, token⟩ := by
  have hc : Closes ([] : List OpenLoop).length (before ++ token :: after) := closes_zero_iff.2 hb
  rw [parse, parseFrom_first_unrecognized hv hn hc, Nat.zero_add]

end Program

end TapeAsm
