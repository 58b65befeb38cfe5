import TapeAsm.Proofs.Program.Balance

/-!
# Nodes of program trees

Trees may hold more than the source language can say: any operation, and a body on any of them.
`Program.Node` ranges over all nodes of a tree, `Program.Reaches` over those that the bodies of
loops lead to, and `Program.induct` is induction along the latter.

`Program.parse_grammar`: parsing succeeds on exactly the token lists of the grammar, which are the
balanced ones among those of keywords, and gives the tree of the only derivation. Every node of that
tree is an instruction of the language (`Instr.Proper`).
-/

set_option autoImplicit false

namespace TapeAsm

/-- Does the operation have a meaning? -/
def Op.known : Op → Bool
  | .unknown _ _ => false
  | _ => true

/-- An instruction of the source language: its operation has a meaning, and a body is a loop's. -/
structure Instr.Proper (i : Instr) : Prop where
  known : i.op.known = true
  body : i.op ≠ .loop → i.body = []

namespace Program

/-! ## Nodes -/

/-- `Holds through p i`: the instruction `i` is on the level of `p`, or `p` holds it in the body of
an instruction whose operation satisfies `through`. -/
inductive Holds (through : Op → Prop) : Program → Instr → Prop
  | here {p : Program} {i : Instr} : i ∈ p → Holds through p i
  | inside {p : Program} {i j : Instr} :
      j ∈ p → through j.op → Holds through j.body i → Holds through p i

/-- The nodes of a program, in whatever body. -/
abbrev Node : Program → Instr → Prop := Holds fun _ => True

/-- The nodes that the bodies of loops lead to. -/
abbrev Reaches : Program → Instr → Prop := Holds (· = .loop)

section
variable {through : Op → Prop} {i j : Instr} {p : Program}

theorem not_holds_nil : ¬ Holds through [] i := by
  intro h
  cases h with
  | here hi => cases hi
  | inside hj _ _ => cases hj

theorem holds_cons_iff :
    Holds through (j :: p) i ↔
      i = j ∨ (through j.op ∧ Holds through j.body i) ∨ Holds through p i := by
  constructor
  · intro h
    cases h with
    | here hi =>
      obtain rfl | hi := List.mem_cons.1 hi
      · exact .inl rfl
      · exact .inr (.inr (.here hi))
    | inside hk ht hb =>
      obtain rfl | hk := List.mem_cons.1 hk
      · exact .inr (.inl ⟨ht, hb⟩)
      · exact .inr (.inr (.inside hk ht hb))
  · rintro (rfl | ⟨ht, hb⟩ | h)
    · exact .here (by simp)
    · exact .inside (by simp) ht hb
    · cases h with
      | here hi => exact .here (by simp [hi])
      | inside hk ht hb => exact .inside (by simp [hk]) ht hb

end

/-- **Induction over a program**, into the bodies of loops only. -/
theorem induct {motive : Program → Prop} (nil : motive [])
    (plain : ∀ (op : Op) (body rest : Program), op ≠ .loop → motive rest →
      motive (.node op body :: rest))
    (loop : ∀ body rest : Program, motive body → motive rest → motive (.loop body :: rest)) :
    ∀ p, motive p
  | [] => nil
  | .node op body :: rest => by
    by_cases h : op = .loop
    · subst h
      exact loop body rest (induct nil plain loop body) (induct nil plain loop rest)
    · exact plain op body rest h (induct nil plain loop rest)

/-! ## What parsing accepts -/

theorem proper_of_op? {k : Keyword} {op : Op} (hk : k.op? = some op) :
    (Instr.simple op).Proper := by
  refine ⟨?_, fun _ => rfl⟩
  cases k <;> cases hk <;> rfl

/-- The nodes of a derived program are instructions of the language. -/
theorem Spells.proper {tokens : List Text} {p : Program} (h : Spells tokens p) {i : Instr}
    (hi : p.Node i) : i.Proper := by
  induction h with
  | nil => exact absurd hi not_holds_nil
  | simple hk _ ih =>
    obtain rfl | ⟨-, hb⟩ | hp := holds_cons_iff.1 hi
    · exact proper_of_op? hk
    · exact absurd hb not_holds_nil
    · exact ih hp
  | loop _ _ ihb ihp =>
    obtain rfl | ⟨-, hb⟩ | hp := holds_cons_iff.1 hi
    · exact ⟨rfl, fun hne => absurd rfl hne⟩
    · exact ihb hb
    · exact ihp hp

/-- The grammar is unambiguous. -/
theorem Spells.unique {tokens : List Text} {p q : Program} (hp : Spells tokens p)
    (hq : Spells tokens q) : q = p := by
  have h := parse_eq_ok_iff.2 hp
  rw [parse_eq_ok_iff.2 hq] at h
  cases h
  rfl

/-- **Parsing accepts exactly its grammar**, and so exactly the lists of keywords with balanced
loops. What it gives is the tree of the only derivation, and every node of it is an instruction of
the language. -/
theorem parse_grammar (tokens : List Text) :
    ((∃ p, parse tokens = .ok p) ↔ ∃ p, Spells tokens p) ∧
    ((∃ p, parse tokens = .ok p) ↔
      (∀ t ∈ tokens, isKeyword t = true) ∧ Balanced tokens) ∧
    ∀ p, parse tokens = .ok p →
      Spells tokens p ∧ (∀ q, Spells tokens q → q = p) ∧ ∀ i, p.Node i → i.Proper := by
  refine ⟨exists_congr fun _ => parse_eq_ok_iff, ?_, fun p hp => ?_⟩
  · rw [parse_ok_iff, Token.valid, List.all_eq_true]
  · have hs := parse_eq_ok_iff.1 hp
    exact ⟨hs, fun q hq => hs.unique hq, fun i hi => hs.proper hi⟩

/-- A loop in a loop behind a simple keyword, and the same keywords out of balance. -/
theorem parse_grammar_nested :
    (∃ p, parse [Keyword.inc.text, Keyword.loopStart.text, Keyword.loopStart.text,
        Keyword.loopEnd.text, Keyword.loopEnd.text] = .ok p ∧
      Spells [Keyword.inc.text, Keyword.loopStart.text, Keyword.loopStart.text,
        Keyword.loopEnd.text, Keyword.loopEnd.text] p ∧
      (Instr.loop []).Proper) ∧
    ¬ Balanced [Keyword.inc.text, Keyword.loopEnd.text, Keyword.loopStart.text,
      Keyword.loopStart.text, Keyword.loopEnd.text] := by
  refine ⟨?_, fun hb => ?_⟩
  · obtain ⟨hs, -, hn⟩ := (parse_grammar [Keyword.inc.text, Keyword.loopStart.text,
      Keyword.loopStart.text, Keyword.loopEnd.text, Keyword.loopEnd.text]).2.2
      [.simple .inc, .loop [.loop []]] rfl
    have hin : Node [.simple .inc, .loop [.loop []]] (.loop []) :=
      .inside (j := .loop [.loop []]) (by simp) trivial (.here (by simp [Instr.loop, Instr.body]))
    exact ⟨_, rfl, hs, hn _ hin⟩
  · obtain ⟨p, hp⟩ := (parse_grammar [Keyword.inc.text, Keyword.loopEnd.text,
      Keyword.loopStart.text, Keyword.loopStart.text, Keyword.loopEnd.text]).2.1.2
      ⟨by decide, hb⟩
    cases hp

end Program

end TapeAsm
