import TapeAsm.Proofs.Machine.Calls
import TapeAsm.Tool.Run

/-!
# The verdict on a source

Every source falls into one of three classes: a token outside the vocabulary, loops that are not
balanced, or a program. `interpret_structural_of_unbalanced` and `interpret_program` give the second
and the third their results on any machine, as `Machine.interpret_lexical` does the first.

The exit code follows from what stopped the interpretation and from the console, whatever console it
is (`exit_run`). It is zero exactly on success and one exactly on failure, provided that the run
returns (`Returns`): a tape that no memory holds, a program without an end, and a console that runs
into a fault leave no code at all (`exit_of_not_returns`). One that looks at a view of negative size
is such a console (`Console.viewing`).
-/

set_option autoImplicit false

namespace TapeAsm.Tool

/-! ## Sources -/

theorem valid_texts_iff {source : Text} :
    Token.valid (Token.texts source) = true ↔ ∀ t ∈ Token.scan source, isKeyword t.text = true := by
  simp [Token.valid, Token.texts]

section
variable (m : Machine) {source : Text}

/-- Keywords that are not balanced are reported for a bracket, never for a token. -/
theorem interpret_structural_of_unbalanced (hv : Token.valid (Token.texts source) = true)
    (hb : ¬ Balanced (Token.texts source)) :
    ∃ e : Structural, (e.cause = .unmatched ∨ e.cause = .unclosed) ∧
      m.interpret source =
        (⟨m, ⟨source, Token.scan source, true, []⟩, #[]⟩, some (.failed (.structural e))) := by
  cases hp : Program.parse (Token.texts source) with
  | ok p => exact absurd (Program.parse_ok_iff.1 ⟨p, hp⟩).2 hb
  | error e =>
    refine ⟨.ofParseError e, ?_, m.interpret_structural source hv hp⟩
    obtain hf | hf := Program.fault_of_valid hp hv
    · exact .inl (by rw [Structural.ofParseError, hf]; rfl)
    · exact .inr (by rw [Structural.ofParseError, hf]; rfl)

/-- Balanced keywords are a program, and interpreting them is executing it. -/
theorem interpret_program (hv : Token.valid (Token.texts source) = true)
    (hb : Balanced (Token.texts source)) :
    ∃ p, Program.parse (Token.texts source) = .ok p ∧
      m.interpret source =
        (⟨(m.execute p).machine, ⟨source, Token.scan source, true, p⟩,
            #[.execute p.count p.depth m.config.maxSteps] ++ (m.execute p).log⟩,
          Machine.stopOf (m.execute p).ending) := by
  obtain ⟨p, hp⟩ := Program.parse_ok_iff.2 ⟨hv, hb⟩
  exact ⟨p, hp, m.interpret_executed source hv hp⟩

end

/-! ## Success -/

/-- The source is a program, and executing it on a new machine finishes. -/
structure Succeeds (config : Config) (source : Text) : Prop where
  valid : Token.valid (Token.texts source) = true
  balanced : Balanced (Token.texts source)
  finished : ∃ p, Program.parse (Token.texts source) = .ok p ∧
    ((Machine.new config).execute p).ending = .finished

/-- What stops the interpretation of a program is what its execution ends with. -/
theorem stop_of_parse (m : Machine) {source : Text} {p : Program}
    (hp : Program.parse (Token.texts source) = .ok p) :
    (m.interpret source).2 = Machine.stopOf (m.execute p).ending :=
  (Machine.interpret_of_parse hp).2

/-- What does not parse is stopped by a failure. -/
theorem stop_of_parse_error (m : Machine) {source : Text} {e : ParseError}
    (hp : Program.parse (Token.texts source) = .error e) :
    ∃ failure, (m.interpret source).2 = some (.failed failure) := by
  cases hv : Token.valid (Token.texts source) with
  | false => exact ⟨_, by rw [m.interpret_lexical source hv]⟩
  | true => exact ⟨_, by rw [m.interpret_structural source hv hp]⟩

/-- **Success is an interpretation that nothing stops.** -/
theorem succeeds_iff {config : Config} {source : Text} :
    Succeeds config source ↔ ((Machine.new config).interpret source).2 = none := by
  constructor
  · intro ⟨_, _, p, hp, hf⟩
    rw [stop_of_parse _ hp, hf]
    rfl
  · intro hn
    cases hp : Program.parse (Token.texts source) with
    | error e =>
      obtain ⟨failure, hs⟩ := stop_of_parse_error (Machine.new config) hp
      rw [hs] at hn
      cases hn
    | ok p =>
      obtain ⟨hv, hb⟩ := Program.parse_ok_iff.1 ⟨p, hp⟩
      refine ⟨hv, hb, p, hp, ?_⟩
      rw [stop_of_parse _ hp] at hn
      cases he : ((Machine.new config).execute p).ending with
      | finished => rfl
      | halted error => rw [he] at hn; cases hn
      | crashed fault => rw [he] at hn; cases hn

/-! ## The exit code -/

/-- The fault that the console runs into on a machine, if it is opened. -/
def Setup.consoleFault (s : Setup) (m : Machine) : Option Fault :=
  if s.flags.tap && s.mode.interactive then (s.console s.input m).2 else none

theorem tap_snd (s : Setup) (level : Log.Level) (m : Machine) :
    (s.tap level m).2 = s.consoleFault m := by
  unfold Setup.tap Setup.consoleFault
  split <;> rfl

/-- **The run returns**: there is memory for the tape, the program has an end, and the console runs
into no fault. -/
structure Returns (s : Setup) (source : Text) : Prop where
  allocatable : s.config.allocatable = true
  ends : ∀ p, Program.parse (Token.texts source) = .ok p →
    ((Machine.new s.config).execute p).ending ≠ .crashed .endless
  answered : s.consoleFault ((Machine.new s.config).interpret source).1.machine = none

section
variable (s : Setup) (level : Log.Level) (source : Text)

/-- A run whose tape no memory holds crashes. -/
theorem exit_run_of_not_allocatable (h : s.config.allocatable = false) :
    (run s level source).exit = .crashed := by
  simp [run, h]

/-- The exit code, from what stopped the interpretation and from the console. -/
theorem exit_run (h : s.config.allocatable = true) :
    (run s level source).exit =
      match ((Machine.new s.config).interpret source).2,
        s.consoleFault ((Machine.new s.config).interpret source).1.machine with
      | some (.crashed _), _ => .crashed
      | _, some _ => .crashed
      | some (.failed _), none => .code 1
      | none, none => .code 0 := by
  rw [← tap_snd s (if s.config.debug then .debug else level), run]
  dsimp only
  rw [if_pos h]
  rcases (Machine.new s.config).interpret source with ⟨session, stopped⟩
  dsimp only
  rcases s.tap (if s.config.debug then .debug else level) session.machine with ⟨talk, _ | fault⟩
  · rcases stopped with _ | failure | fault <;> rfl
  · rcases stopped with _ | failure | fault <;> rfl

/-- On a new machine, only a program without an end is stopped by a fault. -/
theorem stop_crashed {config : Config} {fault : Fault}
    (h : ((Machine.new config).interpret source).2 = some (.crashed fault)) :
    ∃ p, Program.parse (Token.texts source) = .ok p ∧
      ((Machine.new config).execute p).ending = .crashed .endless := by
  cases hp : Program.parse (Token.texts source) with
  | error e =>
    obtain ⟨failure, hs⟩ := stop_of_parse_error (Machine.new config) hp
    rw [hs] at h
    cases h
  | ok p =>
    refine ⟨p, rfl, ?_⟩
    rw [stop_of_parse _ hp] at h
    cases he : ((Machine.new config).execute p).ending with
    | finished => rw [he] at h; cases h
    | halted error => rw [he] at h; cases h
    | crashed cause =>
      have hf : (Call.execute p).fault? (Machine.new config) = some cause := by
        simp [Call.fault?, he]
      rw [(Machine.fault_execute (Machine.new_sound config).inRange p hf).1]

/-- **A run that returns exits with zero on success and with one on failure.** -/
theorem exit_of_returns (h : Returns s source) :
    (Succeeds s.config source ∧ (run s level source).exit = .code 0) ∨
      (¬ Succeeds s.config source ∧ (run s level source).exit = .code 1) := by
  rw [succeeds_iff, exit_run s level source h.allocatable, h.answered]
  cases hs : ((Machine.new s.config).interpret source).2 with
  | none => exact .inl ⟨rfl, rfl⟩
  | some stop =>
    cases stop with
    | failed failure => exact .inr ⟨nofun, rfl⟩
    | crashed fault =>
      obtain ⟨p, hp, he⟩ := stop_crashed source hs
      exact absurd he (h.ends p hp)

/-- A run that does not return has no exit code. -/
theorem exit_of_not_returns (h : ¬ Returns s source) : (run s level source).exit = .crashed := by
  by_cases ha : s.config.allocatable = true
  · rw [exit_run s level source ha]
    cases hc : s.consoleFault ((Machine.new s.config).interpret source).1.machine with
    | some fault =>
      rcases ((Machine.new s.config).interpret source).2 with _ | failure | fault <;> rfl
    | none =>
      -- the console is not to blame, so the program has no end
      obtain ⟨p, hp, he⟩ : ∃ p, Program.parse (Token.texts source) = .ok p ∧
          ((Machine.new s.config).execute p).ending = .crashed .endless :=
        Classical.byContradiction fun hn => h ⟨ha, fun p hp he => hn ⟨p, hp, he⟩, hc⟩
      rw [stop_of_parse _ hp, he]
      rfl
  · exact exit_run_of_not_allocatable s level source (Bool.eq_false_iff.2 ha)

/-- Nothing but the memory, the console and a limit that the counter cannot pass keeps a run from
returning. -/
theorem returns_of_unattended {s : Setup} (ha : s.config.allocatable = true)
    (hroom : s.config.maxSteps < Word.max)
    (hc : (s.flags.tap && s.mode.interactive) = false) : Returns s source := by
  refine ⟨ha, fun p _ => ?_, by simp [Setup.consoleFault, hc]⟩
  refine Machine.execute_ne_endless (Machine.new_sound s.config).inRange ?_ p
  refine Int.lt_of_not_ge fun hle => ?_
  exact absurd (Machine.le_maxSteps_of_withDefaults hle) (Int.not_le.2 hroom)

end

/-- **The verdict on a source.** A source with a token outside the vocabulary is refused with those
tokens, one of keywords with unbalanced loops for a bracket, and both leave the machine as it was,
with nothing logged; every other source is executed. The exit code of a run tells success from
failure, wherever the run returns; and it returns, if there is memory for the tape and the counter
can pass the limit, unless a human is given a console. -/
theorem run_verdict (source : Text) :
    (∀ m : Machine,
      ((∃ t ∈ Token.scan source, isKeyword t.text = false) →
        m.interpret source =
          (⟨m, ⟨source, Token.scan source, false, []⟩, #[]⟩,
            some (.failed
              (.lexical ⟨(Token.scan source).filter fun t => !isKeyword t.text⟩)))) ∧
      ((∀ t ∈ Token.scan source, isKeyword t.text = true) → ¬ Balanced (Token.texts source) →
        ∃ e : Structural, (e.cause = .unmatched ∨ e.cause = .unclosed) ∧
          m.interpret source =
            (⟨m, ⟨source, Token.scan source, true, []⟩, #[]⟩, some (.failed (.structural e)))) ∧
      ((∀ t ∈ Token.scan source, isKeyword t.text = true) → Balanced (Token.texts source) →
        ∃ p, Program.parse (Token.texts source) = .ok p ∧
          m.interpret source =
            (⟨(m.execute p).machine, ⟨source, Token.scan source, true, p⟩,
                #[.execute p.count p.depth m.config.maxSteps] ++ (m.execute p).log⟩,
              Machine.stopOf (m.execute p).ending))) ∧
    ∀ (s : Setup) (level : Log.Level),
      (Returns s source →
        ((run s level source).exit = .code 0 ↔ Succeeds s.config source) ∧
        ((run s level source).exit = .code 1 ↔ ¬ Succeeds s.config source)) ∧
      (¬ Returns s source → (run s level source).exit = .crashed) ∧
      (s.config.allocatable = true → s.config.maxSteps < Word.max →
        (s.flags.tap && s.mode.interactive) = false → Returns s source) := by
  refine ⟨fun m => ⟨fun ⟨t, ht, hk⟩ => ?_, fun hv => ?_, fun hv => ?_⟩, fun s level => ⟨fun h => ?_,
    exit_of_not_returns s level source, returns_of_unattended source⟩⟩
  · refine m.interpret_lexical source (Bool.eq_false_iff.2 fun hv => ?_)
    rw [valid_texts_iff.1 hv t ht] at hk
    cases hk
  · exact interpret_structural_of_unbalanced m (valid_texts_iff.2 hv)
  · exact interpret_program m (valid_texts_iff.2 hv)
  · obtain ⟨hs, he⟩ | ⟨hs, he⟩ := exit_of_returns s level source h
    · simp [hs, he]
    · simp [hs, he]

/-- The console of one who looks at a view of some size, and at nothing else. -/
def Console.viewing (size : Int) : Console := fun _ m =>
  match m.view size with
  | .ok t => (.piece .console t, none)
  | .error fault => ([], some fault)

/-- A run at a terminal whose machine is looked at afterwards. -/
def viewing (size : Int) : Setup where
  config := ⟨3, 255, 100, false⟩
  flags := { tap := true }
  mode := .production
  span := []
  input := "view(" ++ Text.ofInt size ++ ")\n"
  console := .viewing size
  color := false
  capacity := none
  describe := Failure.message

theorem parse_print : Program.parse (Token.texts "PRINT") = .ok [.simple .print] := by
  have ht : Token.texts "PRINT" = [Keyword.print.text] := by decide +kernel
  rw [ht]
  rfl

theorem succeeds_print : Succeeds ⟨3, 255, 100, false⟩ "PRINT" := by
  obtain ⟨hv, hb⟩ := Program.parse_ok_iff.1 ⟨_, parse_print⟩
  exact ⟨hv, hb, _, parse_print, by decide⟩

/-- What the console runs into on the machine that has printed its first cell. -/
theorem consoleFault_viewing (size : Int) :
    (viewing size).consoleFault
        ((Machine.new ⟨3, 255, 100, false⟩).interpret "PRINT").1.machine =
      (Console.viewing size [] ⟨#[0, 0, 0], 0, #[0], 1, ⟨3, 255, 100, false⟩⟩).2 := by
  have hm : ((Machine.new ⟨3, 255, 100, false⟩).execute [.simple .print]).machine =
      ⟨#[0, 0, 0], 0, #[0], 1, ⟨3, 255, 100, false⟩⟩ := by decide
  rw [Machine.interpret_executed _ _ succeeds_print.valid parse_print, hm]
  rfl

theorem returns_viewing : Returns (viewing 10) "PRINT" :=
  ⟨by decide, fun _ _ => Machine.execute_ne_endless (by decide) (by decide) _,
    (consoleFault_viewing 10).trans (by decide +kernel)⟩

theorem not_returns_viewing_negative : ¬ Returns (viewing (-1)) "PRINT" := by
  intro h
  have hf := (consoleFault_viewing (-1)).symm.trans h.answered
  revert hf
  decide +kernel

theorem run_verdict_instances :
    ((Machine.new ⟨3, 255, 100, false⟩).interpret "INC\nFOO").2 =
      some (.failed (.lexical ⟨[⟨"FOO", 2⟩]⟩)) ∧
    (∃ e : Structural, (e.cause = .unmatched ∨ e.cause = .unclosed) ∧
      ((Machine.new ⟨3, 255, 100, false⟩).interpret "LOOP_END\nLOOP_START").2 =
        some (.failed (.structural e))) ∧
    (∃ p, Program.parse (Token.texts "PRINT") = .ok p ∧
      ((Machine.new ⟨3, 255, 100, false⟩).interpret "PRINT").1.run.program = p) ∧
    (run (viewing 10) .info "PRINT").exit = .code 0 ∧
    (run (viewing (-1)) .info "PRINT").exit = .crashed ∧
    Returns { viewing (-1) with mode := .development } "PRINT" := by
  refine ⟨?_, ?_, ?_, ?_, ?_, ?_⟩
  · have ht : ((Token.scan "INC\nFOO").filter fun t => !isKeyword t.text) = [⟨"FOO", 2⟩] := by
      decide +kernel
    rw [((run_verdict "INC\nFOO").1 _).1 (by decide +kernel), ht]
  · have hb : ¬ Balanced (Token.texts "LOOP_END\nLOOP_START") := fun h =>
      absurd (h.prefixes [Keyword.loopEnd.text] (by decide +kernel)) (by decide)
    obtain ⟨e, hc, he⟩ := ((run_verdict "LOOP_END\nLOOP_START").1 (.new ⟨3, 255, 100, false⟩)).2.1
      (by decide +kernel) hb
    exact ⟨e, hc, by rw [he]⟩
  · obtain ⟨p, hp, he⟩ := ((run_verdict "PRINT").1 (.new ⟨3, 255, 100, false⟩)).2.2
      (by decide +kernel) succeeds_print.balanced
    exact ⟨p, hp, by rw [he]⟩
  · exact (((run_verdict "PRINT").2 _ _).1 returns_viewing).1.2 succeeds_print
  · exact ((run_verdict "PRINT").2 _ _).2.1 not_returns_viewing_negative
  · exact ((run_verdict "PRINT").2 _ .info).2.2 (by decide) (by decide) (by decide)

/-- A look at a view of negative size crashes a run whose program succeeded. -/
theorem exit_asking_negative_view :
    Succeeds (viewing (-1)).config "PRINT" ∧
      (run (viewing (-1)) .info "PRINT").exit = .crashed :=
  ⟨succeeds_print, exit_of_not_returns _ _ _ not_returns_viewing_negative⟩

end TapeAsm.Tool
