import TapeAsm.Program.Parse

/-!
# The grammar of programs

`Program.Spells tokens p`: the token list `tokens` is a derivation of the program `p` from the
grammar of one rule, a program being a sequence of simple keywords and of programs within loop
brackets. `Program.parse_eq_ok_iff`: parsing succeeds on exactly the derivable lists, with the
derived program.

The parser keeps a level under way and the loops around it. `Program.Reading` relates these to the
tokens read so far, the half-built bodies of all open loops at once; every token keeps the relation
(`Reading.push`, `Reading.opens`, `Reading.closes`), and at the end it is a derivation.
-/

set_option autoImplicit false

namespace TapeAsm

/-! ## Keywords -/

namespace Keyword

/-- The operation of a keyword that stands for one. -/
def op? : Keyword → Option Op
  | inc => some .inc
  | dec => some .dec
  | left => some .left
  | right => some .right
  | print => some .print
  | loopStart => none
  | loopEnd => none

@[simp] theorem ofText?_text (k : Keyword) : ofText? k.text = some k := by cases k <;> rfl

theorem eq_text_of_ofText? {t : Text} {k : Keyword} (h : ofText? t = some k) : t = k.text := by
  have := List.find?_some h
  exact (of_decide_eq_true this).symm

theorem isKeyword_text (k : Keyword) : isKeyword k.text = true := by simp [isKeyword]

theorem text_inj {k k' : Keyword} (h : k.text = k'.text) : k = k' := by
  have := congrArg ofText? h
  simpa using this

/-- A keyword that stands for an operation is no bracket. -/
theorem text_ne_of_op? {k k' : Keyword} {op : Op} (hk : k.op? = some op) (hk' : k'.op? = none) :
    k.text ≠ k'.text := by
  intro h
  rw [text_inj h, hk'] at hk
  cases hk

end Keyword

namespace Program

/-! ## Derivations -/

/-- **The grammar**: a token list and the program that it spells. -/
inductive Spells : List Text → Program → Prop
  | nil : Spells [] []
  | simple {k : Keyword} {op : Op} {tokens : List Text} {p : Program} :
      k.op? = some op → Spells tokens p → Spells (k.text :: tokens) (.simple op :: p)
  | loop {inner tokens : List Text} {body p : Program} :
      Spells inner body → Spells tokens p →
      Spells (Keyword.loopStart.text :: (inner ++ Keyword.loopEnd.text :: tokens))
        (.loop body :: p)

namespace Spells

theorem append {a b : List Text} {p q : Program} (ha : Spells a p) (hb : Spells b q) :
    Spells (a ++ b) (p ++ q) := by
  induction ha with
  | nil => exact hb
  | simple hk _ ih => exact .simple hk ih
  | loop hi _ _ ih => simpa using Spells.loop hi ih

/-- The tokens of the first instruction, and those of the others. -/
theorem uncons {tokens : List Text} {i : Instr} {p : Program} (h : Spells tokens (i :: p)) :
    ∃ first rest, tokens = first ++ rest ∧ Spells first [i] ∧ Spells rest p := by
  cases h with
  | simple hk hp => exact ⟨_, _, rfl, .simple hk .nil, hp⟩
  | loop hi hp => exact ⟨_, _, by simp, .loop hi .nil, hp⟩

theorem eq_nil {tokens : List Text} (h : Spells tokens []) : tokens = [] := by cases h; rfl

theorem nil_eq {p : Program} (h : Spells [] p) : p = [] := by cases h; rfl

/-- The tokens of one instruction: a simple keyword, or a derivation within loop brackets. -/
theorem single {tokens : List Text} {i : Instr} (h : Spells tokens [i]) :
    (∃ k op, Keyword.op? k = some op ∧ tokens = [k.text] ∧ i = .simple op) ∨
      ∃ inner body, Spells inner body ∧ i = .loop body ∧
        tokens = Keyword.loopStart.text :: (inner ++ [Keyword.loopEnd.text]) := by
  cases h with
  | simple hk hp => exact .inl ⟨_, _, hk, by rw [hp.eq_nil], rfl⟩
  | loop hi hp => exact .inr ⟨_, _, hi, rfl, by rw [hp.eq_nil]⟩

end Spells

/-! ## What the parser has read -/

/-- `Reading tokens level outer`: having read `tokens`, the parser is on a level with the
instructions `level`, the latest first, within the loops `outer`. -/
inductive Reading : List Text → Program → List OpenLoop → Prop
  | top {tokens : List Text} {level : Program} :
      Spells tokens level.reverse → Reading tokens level []
  | inside {before inner : List Text} {level : Program} {loop : OpenLoop}
      {outer : List OpenLoop} :
      Reading before loop.before outer → Spells inner level.reverse →
      Reading (before ++ Keyword.loopStart.text :: inner) level (loop :: outer)

namespace Reading

variable {tokens : List Text} {level : Program} {outer : List OpenLoop}

theorem push {first : List Text} {i : Instr} (h : Reading tokens level outer)
    (hi : Spells first [i]) : Reading (tokens ++ first) (i :: level) outer := by
  cases h with
  | top hl => exact .top (by simpa using hl.append hi)
  | inside hb hl =>
    rw [List.append_assoc, List.cons_append]
    exact .inside hb (by simpa using hl.append hi)

theorem opens (h : Reading tokens level outer) (i : Nat) :
    Reading (tokens ++ [Keyword.loopStart.text]) [] (⟨i, level⟩ :: outer) :=
  .inside h .nil

theorem closes {loop : OpenLoop} (h : Reading tokens level (loop :: outer)) :
    Reading (tokens ++ [Keyword.loopEnd.text]) (.loop level.reverse :: loop.before) outer := by
  cases h with
  | inside hb hl =>
    have := hb.push (.loop hl .nil)
    simpa using this

end Reading

/-! ## The parser -/

section
variable (i : Nat) (level : Program) (outer : List OpenLoop) (rest : List Text)

theorem parseFrom_simple {k : Keyword} {op : Op} (hk : k.op? = some op) :
    parseFrom i level outer (k.text :: rest) =
      parseFrom (i + 1) (.simple op :: level) outer rest := by
  cases k <;> cases hk <;> simp [parseFrom]

theorem parseFrom_start :
    parseFrom i level outer (Keyword.loopStart.text :: rest) =
      parseFrom (i + 1) [] (⟨i, level⟩ :: outer) rest := by
  simp [parseFrom]

theorem parseFrom_end (loop : OpenLoop) :
    parseFrom i level (loop :: outer) (Keyword.loopEnd.text :: rest) =
      parseFrom (i + 1) (.loop level.reverse :: loop.before) outer rest := by
  simp [parseFrom]

theorem parseFrom_unmatched :
    parseFrom i level [] (Keyword.loopEnd.text :: rest) =
      .error ⟨.unmatched, i, Keyword.loopEnd.text⟩ := by
  simp [parseFrom]

theorem parseFrom_unrecognized {token : Text} (h : Keyword.ofText? token = none) :
    parseFrom i level outer (token :: rest) = .error ⟨.unrecognized, i, token⟩ := by
  simp [parseFrom, h]

end

/-- A token is a simple keyword, a bracket, or outside the vocabulary. -/
theorem token_cases (token : Text) :
    (∃ k op, Keyword.op? k = some op ∧ token = k.text) ∨ token = Keyword.loopStart.text ∨
      token = Keyword.loopEnd.text ∨ Keyword.ofText? token = none := by
  cases h : Keyword.ofText? token with
  | none => exact .inr (.inr (.inr rfl))
  | some k =>
    have ht := Keyword.eq_text_of_ofText? h
    cases hk : k.op? with
    | some op => exact .inl ⟨k, op, hk, ht⟩
    | none =>
      cases k with
      | loopStart => exact .inr (.inl ht)
      | loopEnd => exact .inr (.inr (.inl ht))
      | _ => cases hk

/-- A derivable list takes the parser on by the instructions that it spells. -/
theorem parseFrom_append {tokens : List Text} {p : Program} (h : Spells tokens p) (i : Nat)
    (level : Program) (outer : List OpenLoop) (rest : List Text) :
    parseFrom i level outer (tokens ++ rest) =
      parseFrom (i + tokens.length) (p.reverse ++ level) outer rest := by
  induction h generalizing i level outer rest with
  | nil => rfl
  | simple hk _ ih =>
    rw [List.cons_append, parseFrom_simple _ _ _ _ hk, ih]
    simp [Nat.add_assoc, Nat.add_comm 1]
  | @loop inner tokens body p _ _ ihb ihp =>
    rw [List.cons_append, List.append_assoc, parseFrom_start, ihb, List.cons_append,
      parseFrom_end, ihp]
    congr 1
    · simp; omega
    · simp [Instr.loop]

/-- **A successful parse is a derivation** of all the tokens, those read before included. -/
theorem spells_of_parseFrom {tokens : List Text} {i : Nat} {level p : Program}
    {outer : List OpenLoop} {before : List Text} (h : parseFrom i level outer tokens = .ok p)
    (hr : Reading before level outer) : Spells (before ++ tokens) p := by
  induction tokens generalizing i level outer before with
  | nil =>
    cases hr with
    | top hl =>
      cases h
      simpa using hl
    | inside _ _ => cases h
  | cons token rest ih =>
    obtain ⟨k, op, hk, rfl⟩ | rfl | rfl | hn := token_cases token
    · rw [parseFrom_simple _ _ _ _ hk] at h
      simpa using ih h (hr.push (.simple hk .nil))
    · rw [parseFrom_start] at h
      simpa using ih h (hr.opens i)
    · cases outer with
      | nil => rw [parseFrom_unmatched] at h; cases h
      | cons loop outer =>
        rw [parseFrom_end] at h
        simpa using ih h hr.closes
    · rw [parseFrom_unrecognized _ _ _ _ hn] at h
      cases h

/-- **Parsing succeeds on exactly the derivable token lists**, with the derived program. -/
theorem parse_eq_ok_iff {tokens : List Text} {p : Program} :
    parse tokens = .ok p ↔ Spells tokens p := by
  constructor
  · intro h
    exact spells_of_parseFrom h (.top .nil)
  · intro h
    have := parseFrom_append h 0 [] [] []
    simpa [parse, parseFrom] using this

end Program

end TapeAsm
