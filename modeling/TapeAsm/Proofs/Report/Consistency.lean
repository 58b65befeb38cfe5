import TapeAsm.Proofs.Machine.Reprint
import TapeAsm.Proofs.Machine.Sequence
import TapeAsm.Proofs.Tool.Verdict

/-!
# What a report says about a run

A report takes its fields from the run, the machine and the failure, and these have to agree with
each other. `Report.Consistent` lists what a reader may rely on, and `Report.ofSource_consistent`
says that every report of a source interpreted on a new machine is so.

The three cases of an interpretation (`Machine.interpret_lexical`, `Machine.interpret_structural`,
`Machine.interpret_executed`) give the report in each of them; contexts around a failure change
neither its kind (`Failure.kind_within`) nor its message. What remains is the round trip of the
program's text (`Machine.texts_format_of_parse`) and the account of the steps
(`Machine.steps_of_executed`).
-/

set_option autoImplicit false

namespace TapeAsm

/-! ## Failures within contexts -/

namespace Failure

/-- A failure within contexts, the outermost first. -/
def within (contexts : List Text) (failure : Failure) : Failure := contexts.foldr wrapped failure

variable (contexts : List Text)

theorem carries_within (m : Mark) (failure : Failure) :
    (failure.within contexts).carries m = failure.carries m := by
  induction contexts with
  | nil => rfl
  | cons context contexts ih => exact ih

theorem leaves_within (failure : Failure) :
    (failure.within contexts).leaves = failure.leaves := by
  induction contexts with
  | nil => rfl
  | cons context contexts ih => exact ih

theorem kind_within (failure : Failure) : (failure.within contexts).kind = failure.kind := by
  simp only [kind, carries_within]

/-- The mark of a structural fault is none of the other kinds. -/
theorem kind_ofParseError (e : ParseError) :
    (structural (.ofParseError e)).kind = .structural := by
  obtain ⟨fault, index, token⟩ := e
  cases fault <;> rfl

theorem message_lexical (e : Lexical) : ((lexical e).within contexts).message = e.message := by
  simp [message, lexical?, leaves_within, leaves]

theorem message_structural (e : Structural) :
    ((structural e).within contexts).message = e.message := by
  simp [message, lexical?, structural?, leaves_within, leaves]

theorem message_stepLimit (e : StepLimit) :
    ((stepLimit e).within contexts).message = e.message := by
  simp [message, lexical?, structural?, stepLimit?, leaves_within, leaves]

end Failure

theorem Mark.text_ne_nil (m : Mark) : m.text ≠ [] := by cases m <;> decide

theorem Lexical.message_ne_nil (e : Lexical) : e.message ≠ [] := by
  simp [message, Mark.text_ne_nil]

theorem Structural.message_ne_nil (e : Structural) : e.message ≠ [] := by
  simp [message, Mark.text_ne_nil]

theorem StepLimit.message_ne_nil (e : StepLimit) : e.message ≠ [] := by
  simp [message, Mark.text_ne_nil]

theorem FailureKind.text_inj {a b : FailureKind} : a.text = b.text ↔ a = b := by
  constructor
  · intro h
    cases a <;> cases b <;> first | rfl | exact absurd h (by decide)
  · rintro rfl
    rfl

theorem FailureKind.text_ne_nil (k : FailureKind) : k.text ≠ [] := by cases k <;> decide

/-! ## Steps and the limit -/

/-- On a new machine the limit has been passed exactly where the execution was halted. -/
theorem Machine.steps_of_executed {config : Config}
    (hroom : config.withDefaults.maxSteps < Word.max) (p : Program) :
    (∃ e, ((new config).execute p).ending = .halted e) ↔
      config.withDefaults.maxSteps < ((new config).execute p).machine.steps := by
  have hl : (new config).WithinLimit :=
    ⟨show Word.min ≤ 0 by decide, Int.le_of_lt (withDefaults_pos config).2.2, hroom⟩
  have hc : (new config).config = config.withDefaults := rfl
  obtain ⟨he, -, hle⟩ | ⟨op, he, hs⟩ := execute_account (new_sound config).inRange hl p
  · rw [hc] at hle
    simp only [he, reduceCtorEq, exists_false, false_iff]
    omega
  · rw [hc] at hs
    simp only [he, Ending.halted.injEq, exists_eq', true_iff]
    omega

namespace Report

/-! ## Reports -/

/-- The report of a source interpreted on a new machine, with contexts put around a failure. -/
def ofSource (config : Config) (contexts : List Text) (source : Text) : Report :=
  let (session, stop) := (Machine.new config).interpret source
  make (some session.run) session.machine
    ((Tool.Setup.failureOf stop).map (Failure.within contexts))

/-- **What a reader may rely on** in the report of an interpretation that failed or did not. -/
structure Consistent (failed : Bool) (r : Report) : Prop where
  kind_ne_other : r.errorKind ≠ FailureKind.other.text
  error_iff : r.error = [] ↔ failed = false
  kind_iff : r.errorKind = [] ↔ failed = false
  lexical_iff : r.errorKind = FailureKind.lexical.text ↔ r.valid = false
  /-- What does not parse leaves the machine as it was, and there is no program. -/
  refused : r.errorKind = FailureKind.lexical.text ∨ r.errorKind = FailureKind.structural.text →
    r.instructions = 0 ∧ r.depth = 0 ∧ r.steps = 0 ∧ r.pointer = 0 ∧ r.program = [] ∧ r.output = []
  /-- Otherwise the text of the program is that of the tokens and the tree counted. -/
  parsed : ¬ (r.errorKind = FailureKind.lexical.text ∨ r.errorKind = FailureKind.structural.text) →
    (Token.texts r.program).length = r.tokens ∧
      ∃ p, Program.parse (Token.texts r.program) = .ok p ∧
        (p.count : Int) = r.instructions ∧ (p.depth : Int) = r.depth
  limit_iff : r.config.maxSteps < Word.max →
    (r.errorKind = FailureKind.stepLimit.text ↔ r.config.maxSteps < r.steps)

section
variable (config : Config) (contexts : List Text) {source : Text}

theorem ofSource_lexical (hv : Token.valid (Token.texts source) = false) :
    ∃ e : Lexical, ofSource config contexts source =
      ⟨(Token.scan source).length, false, 0, 0, 0, 0, [], config.withDefaults, e.message,
        FailureKind.lexical.text, []⟩ := by
  refine ⟨⟨(Token.scan source).filter fun t => !isKeyword t.text⟩, ?_⟩
  simp only [ofSource, Machine.interpret_lexical _ _ hv, make, Tool.Setup.failureOf,
    Option.map_some, Option.getD_some, Failure.kind_within, Failure.message_lexical]
  rfl

theorem ofSource_structural {error : ParseError} (hv : Token.valid (Token.texts source) = true)
    (hp : Program.parse (Token.texts source) = .error error) :
    ∃ e : Structural, ofSource config contexts source =
      ⟨(Token.scan source).length, true, 0, 0, 0, 0, [], config.withDefaults, e.message,
        FailureKind.structural.text, []⟩ := by
  refine ⟨.ofParseError error, ?_⟩
  simp only [ofSource, Machine.interpret_structural _ _ hv hp, make, Tool.Setup.failureOf,
    Option.map_some, Option.getD_some, Failure.kind_within, Failure.message_structural,
    Failure.kind_ofParseError]
  rfl

/-- The report of a program that was executed, with what is said of a failure. -/
def ofExecuted (tokens : Int) (p : Program) (error kind : Text) : Report :=
  let m := ((Machine.new config).execute p).machine
  ⟨tokens, true, p.count, p.depth, m.steps, m.pointer, m.render, config.withDefaults, error, kind,
    p.format⟩

theorem ofSource_executed {p : Program} (hp : Program.parse (Token.texts source) = .ok p) :
    ofSource config contexts source =
      match ((Machine.new config).execute p).ending with
      | .halted e =>
        ofExecuted config (Token.scan source).length p e.message FailureKind.stepLimit.text
      | _ => ofExecuted config (Token.scan source).length p [] [] := by
  have hc : ((Machine.new config).execute p).machine.config = config.withDefaults :=
    Machine.config_execute (Machine.new_sound config).inRange p
  have hv := (Program.parse_ok_iff.1 ⟨p, hp⟩).1
  simp only [ofSource, Machine.interpret_executed _ _ hv hp, make, hc]
  cases ((Machine.new config).execute p).ending with
  | finished => rfl
  | crashed fault => rfl
  | halted e =>
    simp only [Machine.stopOf, Tool.Setup.failureOf, Option.map_some, Option.getD_some,
      Failure.kind_within, Failure.message_stepLimit]
    rfl

/-- What is refused before it is executed has a consistent report. -/
theorem consistent_refused {tokens : Int} {valid : Bool} {error : Text} {kind : FailureKind}
    (he : error ≠ []) (hk : kind = .lexical ∧ valid = false ∨ kind = .structural ∧ valid = true) :
    Consistent true ⟨tokens, valid, 0, 0, 0, 0, [], config.withDefaults, error, kind.text, []⟩ := by
  have hpos := (Machine.withDefaults_pos config).2.2
  obtain ⟨rfl, rfl⟩ | ⟨rfl, rfl⟩ := hk
  all_goals
    refine ⟨?_, ?_, ?_, ?_, ?_, ?_, fun _ => ?_⟩ <;>
      simp [FailureKind.text_inj, FailureKind.text_ne_nil, he]
    omega

/-- What was executed has a consistent report, if the failure told is that of the limit. -/
theorem consistent_ofExecuted {p : Program} (hp : Program.parse (Token.texts source) = .ok p)
    {failed : Bool} {error kind : Text}
    (hf : failed = false ∧ error = [] ∧ kind = [] ∨
      failed = true ∧ error ≠ [] ∧ kind = FailureKind.stepLimit.text)
    (hlimit : config.withDefaults.maxSteps < Word.max →
      (failed = true ↔
        config.withDefaults.maxSteps < ((Machine.new config).execute p).machine.steps)) :
    Consistent failed (ofExecuted config (Token.scan source).length p error kind) := by
  have ht : Token.texts p.format = Token.texts source := Machine.texts_format_of_parse hp
  have hparsed : ((Token.texts p.format).length : Int) = (Token.scan source).length ∧
      ∃ q, Program.parse (Token.texts p.format) = .ok q ∧
        (q.count : Int) = p.count ∧ (q.depth : Int) = p.depth := by
    rw [ht]
    exact ⟨by simp [Token.texts], p, hp, rfl, rfl⟩
  obtain ⟨rfl, rfl, rfl⟩ | ⟨rfl, he, rfl⟩ := hf
  · have hne := fun k => (FailureKind.text_ne_nil k).symm
    refine ⟨?_, ?_, ?_, ?_, ?_, fun _ => hparsed, fun hroom => ?_⟩
    · exact hne _
    · simp [ofExecuted]
    · simp [ofExecuted]
    · simp [ofExecuted, hne]
    · simp [ofExecuted, hne]
    · simpa [ofExecuted, hne] using hlimit hroom
  · refine ⟨?_, ?_, ?_, ?_, ?_, fun _ => hparsed, fun hroom => ?_⟩
    · simp [ofExecuted, FailureKind.text_inj]
    · simp [ofExecuted, he]
    · simp [ofExecuted, FailureKind.text_ne_nil]
    · simp [ofExecuted, FailureKind.text_inj]
    · simp [ofExecuted, FailureKind.text_inj]
    · simpa [ofExecuted] using hlimit hroom

end

/-- **Every report of an interpretation is consistent.** Under a limit that a word exceeds, every
interpretation returns. -/
theorem ofSource_consistent (config : Config) (contexts : List Text) (source : Text) :
    ((∀ fault, ((Machine.new config).interpret source).2 ≠ some (.crashed fault)) →
      Consistent ((Machine.new config).interpret source).2.isSome
        (ofSource config contexts source)) ∧
    (config.maxSteps < Word.max →
      ∀ fault, ((Machine.new config).interpret source).2 ≠ some (.crashed fault)) := by
  refine ⟨fun hret => ?_, fun hroom fault hf => ?_⟩
  · cases hv : Token.valid (Token.texts source) with
    | false =>
      obtain ⟨e, hr⟩ := ofSource_lexical config contexts hv
      rw [hr, Machine.interpret_lexical _ _ hv]
      exact consistent_refused config e.message_ne_nil (.inl ⟨rfl, rfl⟩)
    | true =>
      cases hp : Program.parse (Token.texts source) with
      | error error =>
        obtain ⟨e, hr⟩ := ofSource_structural config contexts hv hp
        rw [hr, Machine.interpret_structural _ _ hv hp]
        exact consistent_refused config e.message_ne_nil (.inr ⟨rfl, rfl⟩)
      | ok p =>
        rw [Tool.stop_of_parse _ hp] at hret ⊢
        rw [ofSource_executed config contexts hp]
        have hsteps := fun hroom : config.withDefaults.maxSteps < Word.max =>
          Machine.steps_of_executed hroom p
        cases he : ((Machine.new config).execute p).ending with
        | finished =>
          refine consistent_ofExecuted config hp (.inl ⟨rfl, rfl, rfl⟩) fun hroom => ?_
          simpa [he, Machine.stopOf] using hsteps hroom
        | halted e =>
          refine consistent_ofExecuted config hp (.inr ⟨rfl, e.message_ne_nil, rfl⟩) fun hroom => ?_
          simpa [he, Machine.stopOf] using hsteps hroom
        | crashed fault => exact absurd (by rw [he]; rfl) (hret fault)
  · obtain ⟨p, -, he⟩ := Tool.stop_crashed source hf
    have hlt : (Machine.new config).config.maxSteps < Word.max :=
      Int.lt_of_not_ge fun hge =>
        absurd (Machine.le_maxSteps_of_withDefaults hge) (Int.not_le.2 hroom)
    exact Machine.execute_ne_endless (Machine.new_sound config).inRange hlt p he

/-- An empty loop under a limit of ten steps, reported within a context. -/
theorem ofSource_consistent_halted :
    (⟨2, 255, 10, false⟩ : Config).maxSteps < Word.max ∧
    (ofSource ⟨2, 255, 10, false⟩ ["run"] "INC\nLOOP_START\nLOOP_END\n").errorKind =
      FailureKind.stepLimit.text ∧
    Consistent true (ofSource ⟨2, 255, 10, false⟩ ["run"] "INC\nLOOP_START\nLOOP_END\n") := by
  have ht : Token.texts "INC\nLOOP_START\nLOOP_END\n" =
      [Keyword.inc.text, Keyword.loopStart.text, Keyword.loopEnd.text] := by decide +kernel
  have hp : Program.parse (Token.texts "INC\nLOOP_START\nLOOP_END\n") =
      .ok [.simple .inc, .loop []] := by
    rw [ht]
    rfl
  have he : ((Machine.new ⟨2, 255, 10, false⟩).execute [.simple .inc, .loop []]).ending =
      .halted ⟨11, 10, .loop⟩ := by decide
  obtain ⟨hc, hret⟩ := ofSource_consistent ⟨2, 255, 10, false⟩ ["run"]
    "INC\nLOOP_START\nLOOP_END\n"
  have hcons := hc (hret (by decide))
  rw [Tool.stop_of_parse _ hp, he] at hcons
  refine ⟨by decide, (hcons.limit_iff ?_).2 ?_, hcons⟩
  · rw [ofSource_executed _ _ hp, he]
    decide
  · rw [ofSource_executed _ _ hp, he]
    decide

end Report

end TapeAsm
