import TapeAsm.Proofs.Machine.Calls
import TapeAsm.Proofs.Machine.Sequence

/-!
# Halted machines

A machine whose counter has passed the limit refuses every program (`Machine.refuses_of_past`): it
counts one step, fails, and leaves the tape alone. Each refusal counts, so a halted machine stays
halted until its counter has come to the greatest word (`Machine.after_past`). The step after that
wraps around, and the machine performs instructions again (`Machine.performs_of_allowed`). Where the
limit itself is the greatest word there is no step past it: an empty loop still halts the machine,
but nothing is refused afterwards. `Machine.halted_until_wrap` puts this together for every
configuration and all calls.
-/

set_option autoImplicit false

namespace TapeAsm.Machine

/-- **Every program with an instruction is refused**: it fails past the limit and leaves the tape
alone. -/
def Refuses (m : Machine) : Prop :=
  ∀ q : Program, q ≠ [] → ∃ step op, m.config.maxSteps < step ∧
    (m.execute q).ending = .halted ⟨step, m.config.maxSteps, op⟩ ∧
    (m.execute q).machine.tape = m.tape

/-- **Every instruction but a loop is performed** when it is executed on its own. -/
def Performs (m : Machine) : Prop :=
  ∀ op : Op, op ≠ .loop → (m.execute [.simple op]).ending = .finished ∧
    (m.execute [.simple op]).machine.tape = (m.act op).tape

/-- How many of some programs have an instruction. -/
def tries (programs : List Program) : Nat := programs.countP (!·.isEmpty)

/-! ## Single calls -/

theorem exists_budget_eq (m : Machine) : ∃ fuel, m.budget = fuel + 1 := by
  unfold budget
  split
  · exact ⟨_, rfl⟩
  · exact ⟨Nat.pow 2 64 - 1, rfl⟩

theorem execute_nil (m : Machine) : m.execute [] = ⟨m, #[], .finished⟩ := by
  obtain ⟨fuel, hfuel⟩ := m.exists_budget_eq
  rw [execute, hfuel]
  rfl

section
variable {m : Machine}

theorem execute_past (h : m.config.maxSteps < m.steps) (hmin : Word.min ≤ m.steps)
    (hmax : m.steps < Word.max) (i : Instr) (q : Program) :
    m.execute (i :: q) =
      ⟨{ m with steps := m.steps + 1 }, #[],
        .halted ⟨m.steps + 1, m.config.maxSteps, i.op⟩⟩ := by
  obtain ⟨fuel, hfuel⟩ := m.exists_budget_eq
  have htick : m.tick = { m with steps := m.steps + 1 } := by rw [tick, Word.succ_eq hmin hmax]
  have hlim : m.config.maxSteps < m.steps + 1 := by omega
  have hvisit : m.visit i =
      .stopped { m with steps := m.steps + 1 } []
        (.halted ⟨m.steps + 1, m.config.maxSteps, i.op⟩) := by
    rw [visit, htick]
    exact if_pos hlim
  -- the first visit is refused before anything is performed, so only the counter has moved
  rw [execute, hfuel]
  simp only [run, Level.next?, hvisit]
  rfl

theorem refuses_of_past (h : m.config.maxSteps < m.steps) (hmin : Word.min ≤ m.steps)
    (hmax : m.steps < Word.max) : m.Refuses := by
  intro q hq
  obtain ⟨i, q, rfl⟩ := List.exists_cons_of_ne_nil hq
  refine ⟨m.steps + 1, i.op, by omega, ?_⟩
  rw [execute_past h hmin hmax]
  exact ⟨rfl, rfl⟩

/-- A step that the limit allows leaves fuel for the end of the run. -/
theorem exists_budget_eq_add_two (hlim : ¬ m.config.maxSteps < m.tick.steps) :
    ∃ fuel, m.budget = fuel + 2 := by
  have hword : Word.min ≤ m.tick.steps := Word.min_le_wrap _
  unfold budget
  split
  · rename_i h
    obtain ⟨hle, hroom⟩ := h
    have hne : m.steps ≠ m.config.maxSteps := by
      intro heq
      have htick : m.tick.steps = m.steps + 1 := Word.succ_eq (by omega) (by omega)
      omega
    exact ⟨(m.config.maxSteps - m.steps).toNat - 1, by omega⟩
  · exact ⟨Nat.pow 2 64 - 2, rfl⟩

theorem performs_of_allowed (hr : m.InRange) (hlim : ¬ m.config.maxSteps < m.tick.steps) :
    m.Performs := by
  intro op hop
  obtain ⟨fuel, hfuel⟩ := exists_budget_eq_add_two hlim
  have hv : Visits m (.simple op) (.moved (m.tick.act op) _ []) :=
    .act hlim fun h => absurd h hop
  have hdone : Level.Next (m.tick.act op).value [⟨[], []⟩] none := .leave (.inl rfl) .done
  rw [execute, hfuel, run_move (fuel + 1) _ hr .here hv, List.nil_append,
    run_finish fuel _ (act_inRange (tick_inRange hr) op) hdone]
  exact ⟨rfl, m.tick_act_tape op⟩

/-! ## Calls in turn -/

/-- Past the limit, programs count their tries and do nothing else. -/
theorem after_past (h : m.config.maxSteps < m.steps) (hmin : Word.min ≤ m.steps)
    (programs : List Program) (hmax : m.steps + tries programs ≤ Word.max) :
    m.after (programs.map .execute) = { m with steps := m.steps + tries programs } := by
  induction programs generalizing m with
  | nil => simp [after, tries]
  | cons q programs ih =>
    cases q with
    | nil =>
      have hcall : Call.machine m (.execute []) = m := congrArg Execution.machine m.execute_nil
      have htries : tries ([] :: programs) = tries programs := rfl
      rw [htries] at hmax ⊢
      rw [List.map_cons, after, List.foldl_cons, hcall]
      exact ih h hmin hmax
    | cons i q =>
      have htries : tries ((i :: q) :: programs) = tries programs + 1 := by simp [tries]
      rw [htries] at hmax ⊢
      have hcall : Call.machine m (.execute (i :: q)) = { m with steps := m.steps + 1 } :=
        congrArg Execution.machine (execute_past h hmin (by omega) i q)
      rw [List.map_cons, after, List.foldl_cons, hcall]
      refine (ih (m := { m with steps := m.steps + 1 }) ?_ ?_ ?_).trans ?_
      · exact Int.lt_add_one_of_le (Int.le_of_lt h)
      · exact Int.le_add_one hmin
      · simp only; omega
      · simp only [Machine.mk.injEq, true_and, and_true]; omega

end

/-! ## How a machine is halted -/

/-- What is reported is the limit and the counter. The counter has passed the limit, unless an empty
loop has put it behind the greatest word. -/
theorem Runs.halted {levels : List Level} {m : Machine} {log : Array Event} {e : Execution}
    {error : StepLimit} (h : Runs levels m log e) (he : e.ending = .halted error) :
    error.step = e.machine.steps ∧ error.limit = m.config.maxSteps ∧
      (error.limit < error.step ∨
        error = ⟨Word.succ m.config.maxSteps, m.config.maxSteps, .loop⟩) := by
  induction h with
  | finish _ => cases he
  | stop _ hv =>
    cases hv with
    | limit hlim =>
      cases he
      exact ⟨rfl, rfl, .inl hlim⟩
    | spin _ _ _ _ =>
      cases he
      exact ⟨rfl, rfl, .inr rfl⟩
  | @move _ _ _ m m' _ _ _ _ _ hv _ ih =>
    have hc : m'.config = m.config := hv.config
    rw [← hc]
    exact ih he
  | cut => cases he

/-- The counter that an empty loop reports is past the limit, unless the limit is the greatest
word. -/
theorem lt_succ_or_eq {limit : Int} (hpos : 0 < limit) (hmax : limit ≤ Word.max) :
    limit < Word.succ limit ∨ limit = Word.max := by
  by_cases heq : limit = Word.max
  · exact .inr heq
  · have hmin := Word.min_eq
    refine .inl ?_
    rw [Word.succ_eq (by omega) (by omega)]
    omega

theorem withDefaults_maxSteps_le {config : Config} (h : config.maxSteps ≤ Word.max) :
    config.withDefaults.maxSteps ≤ Word.max := by
  simp only [Config.withDefaults, Config.positiveOr]
  split
  · decide
  · exact h

/-- A machine halted past its limit refuses programs until its counter has come to the greatest
word, and then performs them again. -/
theorem refuses_until_wrap {m : Machine} (hr : m.InRange) (hpos : 0 < m.config.maxSteps)
    (hpast : m.config.maxSteps < m.steps) (later : List Program) :
    (m.steps + tries later < Word.max →
      (m.after (later.map .execute)).Refuses ∧
        (m.after (later.map .execute)).tape = m.tape) ∧
    (m.steps + tries later = Word.max → (m.after (later.map .execute)).Performs) := by
  have hmin : Word.min ≤ m.steps := by
    rw [Word.min_eq]
    omega
  constructor
  · intro hlt
    rw [after_past hpast hmin later (by omega)]
    refine ⟨refuses_of_past ?_ ?_ ?_, rfl⟩
    · simp only
      omega
    · simp only
      omega
    · exact hlt
  · intro heq
    rw [after_past hpast hmin later (by omega), heq]
    -- the next step is counted with the least word, which no positive limit refuses
    have hwrap : Word.succ Word.max = Word.min := by decide
    refine performs_of_allowed ⟨hr.nonneg, hr.lt_size⟩ ?_
    simp only [tick, hwrap, Word.min_eq]
    omega

/-- **A halted machine stays halted until its counter wraps around.** The error of a call that halts
a machine is past the limit, and from then on every program with an instruction is refused as long
as the counter has not come to the greatest word; there the machine is halted no longer. The
exception is a limit that is the greatest word: the counter that an empty loop reports is then the
least word, and the machine is not halted at all. -/
theorem halted_until_wrap {config : Config} (hvalue : config.maxValue ≤ Word.max)
    (hsteps : config.maxSteps ≤ Word.max) (calls : List Call) (p : Program) {e : Execution}
    (he : ((new config).after calls).execute p = e) {error : StepLimit}
    (herror : e.ending = .halted error) :
    error.limit = config.withDefaults.maxSteps ∧
    ((error.limit < error.step ∧ ∀ later : List Program,
        (error.step + tries later < Word.max →
          (e.machine.after (later.map .execute)).Refuses ∧
            (e.machine.after (later.map .execute)).tape = e.machine.tape) ∧
        (error.step + tries later = Word.max →
          (e.machine.after (later.map .execute)).Performs)) ∨
      (error = ⟨Word.min, Word.max, .loop⟩ ∧ ∀ later : List Program,
        (e.machine.after (later.map .execute)).Performs)) := by
  subst he
  have hmax := withDefaults_maxValue_le hvalue
  have hsound : Sound config ((new config).after calls) := (new_sound config).after hmax calls
  have hsound' := hsound.execute hmax p
  obtain ⟨-, -, hpos⟩ := withDefaults_pos config
  obtain ⟨hstep, hlimit, hpast⟩ := (runs_execute hsound.inRange p).halted herror
  rw [hsound.config_eq] at hlimit hpast
  refine ⟨hlimit, ?_⟩
  have hcases : error.limit < error.step ∨ error = ⟨Word.min, Word.max, .loop⟩ := by
    obtain hlt | rfl := hpast
    · exact .inl hlt
    · obtain hlt | heq := lt_succ_or_eq hpos (withDefaults_maxSteps_le hsteps)
      · exact .inl hlt
      · rw [heq]
        exact .inr (by decide)
  obtain hlt | rfl := hcases
  · refine .inl ⟨hlt, fun later => ?_⟩
    rw [hstep] at hlt ⊢
    refine refuses_until_wrap hsound'.inRange ?_ ?_ later
    · rw [hsound'.config_eq]
      exact hpos
    · rw [hsound'.config_eq, ← hlimit]
      exact hlt
  · refine .inr ⟨rfl, fun later => ?_⟩
    have hsound'' := hsound'.after hmax (later.map .execute)
    refine performs_of_allowed hsound''.inRange ?_
    rw [hsound''.config_eq, ← hlimit]
    exact Int.not_lt.2 (Word.wrap_le_max _)

/-- A machine that an empty loop has halted, after two further calls. -/
theorem halted_until_wrap_reused :
    (⟨1, 255, 3, false⟩ : Config).maxValue ≤ Word.max ∧
    (⟨1, 255, 3, false⟩ : Config).maxSteps ≤ Word.max ∧
    ((new ⟨1, 255, 3, false⟩).execute [.simple .inc, .loop []]).ending =
      .halted ⟨4, 3, .loop⟩ ∧
    (((new ⟨1, 255, 3, false⟩).execute [.simple .inc, .loop []]).machine.after
      ([[], [.simple .print]].map .execute)).Refuses := by
  have hend : ((new ⟨1, 255, 3, false⟩).execute [.simple .inc, .loop []]).ending =
      .halted ⟨4, 3, .loop⟩ := by decide
  have hvalue : (⟨1, 255, 3, false⟩ : Config).maxValue ≤ Word.max := by decide
  have hsteps : (⟨1, 255, 3, false⟩ : Config).maxSteps ≤ Word.max := by decide
  refine ⟨hvalue, hsteps, hend, ?_⟩
  obtain ⟨-, ⟨-, hlater⟩ | ⟨hleast, -⟩⟩ :=
    halted_until_wrap hvalue hsteps [] [.simple .inc, .loop []] rfl hend
  · exact ((hlater [[], [.simple .print]]).1 (by decide)).1
  · exact absurd hleast (by decide)

/-- A limit just below the greatest word: the machine is halted in an empty loop, and performs the
next call all the same, its counter having wrapped around. Under the greatest word as the limit, the
counter reported is not past it. -/
theorem performs_after_halt :
    ((new ⟨1, 255, Word.max - 1, false⟩).execute [.simple .inc, .loop []]).ending =
      .halted ⟨Word.max, Word.max - 1, .loop⟩ ∧
    (((new ⟨1, 255, Word.max - 1, false⟩).execute
        [.simple .inc, .loop []]).machine.execute [.simple .inc]).ending = .finished ∧
    (((new ⟨1, 255, Word.max - 1, false⟩).execute
        [.simple .inc, .loop []]).machine.execute [.simple .inc]).machine.memory = #[2] ∧
    ((new ⟨1, 255, Word.max, false⟩).execute [.simple .inc, .loop []]).ending =
      .halted ⟨Word.min, Word.max, .loop⟩ := by
  decide

end TapeAsm.Machine
