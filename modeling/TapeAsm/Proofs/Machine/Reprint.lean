import TapeAsm.Proofs.Machine.Interpretation
import TapeAsm.Proofs.Program.RoundTrip

/-!
# Running what was printed

Execution looks into the bodies of loops only, so a program and its stripped form run alike, event
by event and on every machine, one whose pointer is off the tape included
(`Machine.execute_strip`). With what printing and reading do to a tree this gives the two round
trips: `Machine.reparse_format` starts from a tree, `Machine.reformat_source` from a source.
-/

set_option autoImplicit false

namespace TapeAsm

/-- The level without the bodies of operations that are no loops. -/
def Level.strip (level : Level) : Level := ⟨level.rest.strip, level.body.strip⟩

/-- The visit with its entered levels stripped. -/
def Visit.strip : Visit → Visit
  | .moved m events entered => .moved m events (entered.map Level.strip)
  | .stopped m events ending => .stopped m events ending

/-! ## Steps of stripped programs -/

theorem Instr.op_strip (i : Instr) : i.strip.op = i.op := by
  obtain ⟨op, body⟩ := i
  cases op <;> rfl

/-- The next instruction of stripped levels is the stripped next instruction. -/
theorem Level.next?_strip (cell : Except Fault Int) :
    ∀ levels : List Level, Level.next? cell (levels.map Level.strip) =
      (Level.next? cell levels).map (Option.map fun (i, rest) => (i.strip, rest.map Level.strip))
  | [] => rfl
  | ⟨_ :: _, _⟩ :: _ => rfl
  | ⟨[], []⟩ :: outer => next?_strip cell outer
  | ⟨[], instr :: rest⟩ :: outer => by
    have ih := next?_strip cell outer
    cases cell with
    | error fault => rfl
    | ok value =>
      simp only [List.map_cons, Level.strip, Program.strip, Level.next?]
      split
      · exact ih
      · rfl

namespace Machine

theorem perform_strip (m : Machine) (events : List Event) (i : Instr) :
    m.perform events i.strip = (m.perform events i).strip := by
  obtain ⟨op, body⟩ := i
  cases op with
  | loop =>
    simp only [perform, Instr.strip, Instr.loop, Instr.op, Instr.body]
    cases m.cell with
    | error fault => rfl
    | ok value =>
      by_cases hv : value = 0
      · simp only [if_pos hv]
        rfl
      · simp only [if_neg hv]
        cases body <;> rfl
  | left => simp only [perform, Instr.strip, Instr.simple, Instr.op]; split <;> rfl
  | right => simp only [perform, Instr.strip, Instr.simple, Instr.op]; split <;> rfl
  | unknown code outside => rfl
  | _ =>
    simp only [perform, Instr.strip, Instr.simple, Instr.op]
    cases m.cell <;> rfl

theorem visit_strip (m : Machine) (i : Instr) : m.visit i.strip = (m.visit i).strip := by
  simp only [visit, Instr.op_strip, perform_strip]
  split
  · rfl
  · split
    · split <;> rfl
    · rfl

theorem run_strip (fuel : Nat) (levels : List Level) (m : Machine) (log : Array Event) :
    m.run fuel (levels.map Level.strip) log = m.run fuel levels log := by
  induction fuel generalizing levels m log with
  | zero => rfl
  | succ fuel ih =>
    rw [run, run, Level.next?_strip]
    cases Level.next? m.cell levels with
    | error fault => rfl
    | ok next =>
      match next with
      | none => rfl
      | some (i, rest) =>
        simp only [Except.map, Option.map, visit_strip]
        cases m.visit i with
        | stopped m' events ending => rfl
        | moved m' events entered =>
          simp only [Visit.strip]
          rw [← List.map_append, ih]

/-- **Bodies that nothing looks at do not matter** to execution. -/
theorem execute_strip (m : Machine) (p : Program) : m.execute p.strip = m.execute p :=
  m.run_strip m.budget [⟨p, []⟩] #[]

/-! ## Round trips -/

/-- **From a tree to its text and back.** Where every operation that loops lead to has a meaning,
the text of a tree reads as the tree without the bodies that nothing looks at, and the two cannot be
told apart by their measures, their text or their execution. Otherwise reading fails at the line of
the first operation without a meaning. -/
theorem reparse_format (t : Program) :
    ((∀ i, t.Reaches i → i.op.known = true) →
      Program.parse (Token.texts t.format) = .ok t.strip ∧
      t.strip.depth = t.depth ∧ t.strip.count = t.count ∧ t.strip.format = t.format ∧
      ∀ m : Machine, m.execute t.strip = m.execute t) ∧
    ((¬ ∀ i, t.Reaches i → i.op.known = true) →
      ∃ before op plain after, t.lexemes = before ++ .op op plain :: after ∧ op.known = false ∧
        (∀ x ∈ before, x.known = true) ∧
        Program.parse (Token.texts t.format) =
          .error ⟨.unrecognized, before.length, op.name⟩) := by
  refine ⟨fun h => ?_, Program.parse_texts_format_unknown⟩
  exact ⟨Program.parse_texts_format h, t.depth_strip, t.count_strip, t.layout_strip 0,
    fun m => m.execute_strip t⟩

/-- A tree with an unknown operation where nothing looks, and one with it in a loop. -/
theorem reparse_format_instances :
    (Program.parse (Token.texts (Program.format [.node .inc [.simple .dec],
          .loop [.node .print [.simple (.unknown 9 (.inr (by decide)))], .loop []]])) =
        .ok [.simple .inc, .loop [.simple .print, .loop []]] ∧
      ∀ m : Machine, m.execute [.simple .inc, .loop [.simple .print, .loop []]] =
        m.execute [.node .inc [.simple .dec],
          .loop [.node .print [.simple (.unknown 9 (.inr (by decide)))], .loop []]]) ∧
    Program.parse (Token.texts (Program.format
        [.simple .inc, .loop [.simple (.unknown 7 (.inr (by decide))), .loop []]])) =
      .error ⟨.unrecognized, 2, "Op(7)"⟩ := by
  constructor
  · obtain ⟨hp, -, -, -, he⟩ := (reparse_format [.node .inc [.simple .dec],
      .loop [.node .print [.simple (.unknown 9 (.inr (by decide)))], .loop []]]).1
      ((Program.known_lexemes_iff _).1 (by decide))
    exact ⟨hp, he⟩
  · obtain ⟨before, op, plain, after, hl, hop, hb, hp⟩ := (reparse_format
      [.simple .inc, .loop [.simple (.unknown 7 (.inr (by decide))), .loop []]]).2
      fun h => absurd ((Program.known_lexemes_iff _).2 h) (by decide)
    -- the lexemes before the unknown operation are the increment and the loop start
    match before with
    | [] => cases hl; cases hop
    | [_] => cases hl
    | [_, _] => cases hl; exact hp
    | _ :: _ :: x :: _ =>
      have hx : some (.op (.unknown 7 (.inr (by decide))) nofun) = some x := congrArg (·[2]?) hl
      have hk := hb x (by simp)
      cases hx
      cases hk

/-- The text of a parsed program has the tokens that were parsed. -/
theorem texts_format_of_parse {tokens : List Text} {p : Program}
    (h : Program.parse tokens = .ok p) : Token.texts p.format = tokens := by
  rw [Program.texts_format]
  exact (Program.parse_eq_ok_iff.1 h).tokens_eq.symm

/-- **From a source to its program and back.** The text of the program has the tokens of the source,
so no two token lists have the same program, and the text is interpreted as the source is. -/
theorem reformat_source {source : Text} {p : Program}
    (h : Program.parse (Token.texts source) = .ok p) :
    Token.texts p.format = Token.texts source ∧
    (∀ (a b : List Text) (q : Program),
      Program.parse a = .ok q → Program.parse b = .ok q → a = b) ∧
    (∃ q, Program.parse (Token.texts p.format) = .ok q ∧ q.format = p.format) ∧
    ∀ m : Machine, (m.interpret p.format).2 = (m.interpret source).2 ∧
      (m.interpret p.format).1.machine = (m.interpret source).1.machine := by
  have ht := texts_format_of_parse h
  have hp : Program.parse (Token.texts p.format) = .ok p := by rw [ht, h]
  refine ⟨ht, fun a b q ha hb => ?_, ⟨p, hp, rfl⟩, fun m => ?_⟩
  · rw [← texts_format_of_parse ha, texts_format_of_parse hb]
  · obtain ⟨hm, hs⟩ := interpret_of_parse (m := m) h
    obtain ⟨hm', hs'⟩ := interpret_of_parse (m := m) hp
    exact ⟨hs'.trans hs.symm, hm'.trans hm.symm⟩

/-- A source with a comment, padding, an empty line and all three line ends. -/
theorem reformat_source_padded :
    Program.parse (Token.texts "// a comment\r\n  INC\t\r\rLOOP_START\n LOOP_END") =
      .ok [.simple .inc, .loop []] ∧
    Token.texts (Program.format [.simple .inc, .loop []]) =
      Token.texts "// a comment\r\n  INC\t\r\rLOOP_START\n LOOP_END" := by
  have ht : Token.texts "// a comment\r\n  INC\t\r\rLOOP_START\n LOOP_END" =
      [Keyword.inc.text, Keyword.loopStart.text, Keyword.loopEnd.text] := by decide +kernel
  have hp : Program.parse (Token.texts "// a comment\r\n  INC\t\r\rLOOP_START\n LOOP_END") =
      .ok [.simple .inc, .loop []] := by
    rw [ht]
    rfl
  exact ⟨hp, (reformat_source hp).1⟩

end Machine

end TapeAsm
