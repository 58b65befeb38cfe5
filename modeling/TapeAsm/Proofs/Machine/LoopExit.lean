import TapeAsm.Proofs.Machine.Loops

/-!
# Behind a loop

A loop is left on a zero cell only, whichever cell that is by then. `InLoop levels`: all that is
left to do is in a loop that has a body. A visit keeps this, in whatever inner loops it takes place
(`InLoop.next`, `InLoop.entered`), so a run that finishes from there does so at the end of a pass,
where the loop's own test found a zero (`Runs.value_eq_zero`).

A second loop behind the first stands on that zero: it is passed over for one step, with or without
a body (`execute_loop_of_zero`), or refused if no step is left. `Machine.execute_behind_loop` says
this of all programs that end with a loop.
-/

set_option autoImplicit false

namespace TapeAsm.Machine

/-! ## Leaving a loop -/

/-- All that is left to do is in a loop that has a body. -/
def InLoop (levels : List Level) : Prop :=
  ∃ inner rest body, body ≠ [] ∧ levels = inner ++ [⟨rest, body⟩, ⟨[], []⟩]

namespace InLoop

variable {levels rest : List Level} {value : Int} {i : Instr}

theorem eq_zero (h : InLoop levels) (hn : Level.Next value levels none) : value = 0 := by
  obtain ⟨inner, r, body, hb, rfl⟩ := h
  induction inner with
  | nil =>
    cases hn with
    | leave hz _ => exact hz.resolve_left hb
  | cons level inner ih =>
    cases hn with
    | leave _ hn => exact ih hn

theorem next (h : InLoop levels) (hn : Level.Next value levels (some (i, rest))) :
    InLoop rest := by
  obtain ⟨inner, r, body, hb, rfl⟩ := h
  induction inner with
  | nil =>
    cases hn with
    | here => exact ⟨[], _, body, hb, rfl⟩
    | again _ => exact ⟨[], _, _, hb, rfl⟩
    | leave _ hn =>
      -- nothing is left behind the loop
      cases hn with
      | leave _ hn => cases hn
  | cons level inner ih =>
    cases hn with
    | here => exact ⟨_ :: inner, r, body, hb, rfl⟩
    | again _ => exact ⟨_ :: inner, r, body, hb, rfl⟩
    | leave _ hn => exact ih hn

theorem entered (h : InLoop levels) (inner : List Level) : InLoop (inner ++ levels) := by
  obtain ⟨inner', r, body, hb, rfl⟩ := h
  exact ⟨inner ++ inner', r, body, hb, (List.append_assoc ..).symm⟩

end InLoop

/-- **A run that finishes in a loop** leaves it on a zero cell. -/
theorem Runs.value_eq_zero {levels : List Level} {m : Machine} {log : Array Event} {e : Execution}
    (h : Runs levels m log e) (hin : InLoop levels) (hf : e.ending = .finished) :
    e.machine.value = 0 := by
  induction h with
  | finish hn => exact hin.eq_zero hn
  | stop _ hv => cases hv <;> cases hf
  | move hn _ _ ih => exact ih ((hin.next hn).entered _) hf
  | cut => cases hf

/-! ## One loop -/

section
variable {m : Machine} (hr : m.InRange) (body : Program)
include hr

theorem value_execute_loop (hf : (m.execute [.loop body]).ending = .finished) :
    (m.execute [.loop body]).machine.value = 0 := by
  have hrun := runs_execute hr [.loop body]
  generalize m.execute [.loop body] = e at hrun hf
  cases hrun with
  | finish hn => cases hn
  | stop _ hv => cases hv <;> cases hf
  | move hn hv hrest =>
    cases hn
    cases hv with
    | act _ hz =>
      -- a loop that is passed over is the last visit
      cases hrest with
      | finish _ => exact hz rfl
      | stop hn _ => cases hn with | leave _ hn => cases hn
      | move hn _ _ => cases hn with | leave _ hn => cases hn
      | cut => cases hf
    | enter _ _ _ hb => exact hrest.value_eq_zero ⟨[], _, _, hb, rfl⟩ hf
  | cut => cases hf

variable (hl : m.WithinLimit)
include hl

theorem execute_loop_of_zero (hz : m.value = 0) (hlt : m.steps < m.config.maxSteps) :
    ∃ log, m.execute [.loop body] = ⟨m.tick, log, .finished⟩ := by
  have hlim : ¬ m.config.maxSteps < m.tick.steps := by
    rw [hl.tick]
    omega
  have hvisit : Visits m (.loop body) _ := .act hlim fun _ => hz
  have hrun : Runs [⟨[.loop body], []⟩] m #[] ⟨m.tick, _, .finished⟩ :=
    .move .here hvisit (.finish (.leave (.inl rfl) .done))
  exact ⟨_, hrun.execute_eq hr hl.room nofun⟩

theorem execute_loop_of_spent (hge : ¬ m.steps < m.config.maxSteps) :
    ∃ log, m.execute [.loop body] =
      ⟨m.tick, log, .halted ⟨m.tick.steps, m.config.maxSteps, .loop⟩⟩ := by
  have hlim : m.config.maxSteps < m.tick.steps := by
    rw [hl.tick]
    omega
  have hrun : Runs [⟨[.loop body], []⟩] m #[] _ := .stop .here (.limit hlim)
  exact ⟨_, hrun.execute_eq hr hl.room nofun⟩

end

/-! ## Programs that end with a loop -/

theorem value_execute_append_loop {m : Machine} (hr : m.InRange)
    (hroom : m.config.maxSteps < Word.max) {q body : Program}
    (hf : (m.execute (q ++ [.loop body])).ending = .finished) :
    (m.execute (q ++ [.loop body])).machine.value = 0 := by
  have hq := finished_of_execute_append hr hroom hf
  rw [execute_append hr hroom hq] at hf ⊢
  exact value_execute_loop (inRange_execute hr q) body hf

/-- **A loop leaves a zero cell, and a loop behind it does nothing.** A program that ends with a
loop finishes on a zero cell. With another loop behind it, whatever the body, it comes to the same
tape one step later, or it is halted at that loop if the program has used up the limit. -/
theorem execute_behind_loop {m : Machine} (hr : m.InRange) (hl : m.WithinLimit) {p : Program}
    {last : Instr} (hlast : p.getLast? = some last) (hloop : last.op = .loop) {e : Execution}
    (he : m.execute p = e) (hf : e.ending = .finished) :
    e.machine.cell = .ok 0 ∧
    ∀ (body : Program) (e' : Execution), m.execute (p ++ [.loop body]) = e' →
      e'.machine.tape = e.machine.tape ∧
      (e.machine.steps < m.config.maxSteps →
        e'.ending = .finished ∧ e'.machine.steps = e.machine.steps + 1) ∧
      (¬ e.machine.steps < m.config.maxSteps →
        e'.ending = .halted ⟨m.config.maxSteps + 1, m.config.maxSteps, .loop⟩ ∧
        e'.machine.steps = m.config.maxSteps + 1) := by
  subst he
  have hz : (m.execute p).machine.value = 0 := by
    obtain ⟨q, rfl⟩ := List.getLast?_eq_some_iff.1 hlast
    obtain ⟨op, inner⟩ := last
    obtain rfl : op = .loop := hloop
    exact value_execute_append_loop hr hl.room hf
  have hr' := inRange_execute hr p
  have hl' := withinLimit_execute hr hl hf
  have hc := config_execute hr p
  have happend := execute_append hr hl.room hf
  generalize m.execute p = e at *
  refine ⟨(cell_eq hr').trans (congrArg _ hz), ?_⟩
  rintro body e' rfl
  rw [happend, ← hc]
  by_cases hlt : e.machine.steps < e.machine.config.maxSteps
  · obtain ⟨log, hdead⟩ := execute_loop_of_zero hr' body hl' hz hlt
    rw [hdead]
    exact ⟨rfl, fun _ => ⟨rfl, hl'.tick⟩, fun hge => absurd hlt hge⟩
  · obtain ⟨log, hhalt⟩ := execute_loop_of_spent hr' body hl' hlt
    have hspent : e.machine.tick.steps = e.machine.config.maxSteps + 1 := by
      have := hl'.le
      rw [hl'.tick]
      omega
    rw [hhalt, hspent]
    exact ⟨rfl, fun h => absurd h hlt, fun _ => ⟨rfl, rfl⟩⟩

/-- A loop that walks to another cell before its test, with one step left behind it for a loop
without a body, and with none left. -/
theorem execute_behind_loop_walked :
    InRange ⟨#[1, 0], 0, #[], 0, ⟨2, 2, 3, false⟩⟩ ∧
    WithinLimit ⟨#[1, 0], 0, #[], 0, ⟨2, 2, 3, false⟩⟩ ∧
    (execute ⟨#[1, 0], 0, #[], 0, ⟨2, 2, 3, false⟩⟩
        [.loop [.simple .right]]).machine.cell = .ok 0 ∧
    (execute ⟨#[1, 0], 0, #[], 0, ⟨2, 2, 3, false⟩⟩
        ([.loop [.simple .right]] ++ [.loop []])).ending = .finished ∧
    (execute ⟨#[1, 0], 0, #[], 1, ⟨2, 2, 3, false⟩⟩
        ([.loop [.simple .right]] ++ [.loop [.simple .print]])).ending =
      .halted ⟨4, 3, .loop⟩ := by
  have hr : InRange ⟨#[1, 0], 0, #[], 0, ⟨2, 2, 3, false⟩⟩ := by decide
  have hr' : InRange ⟨#[1, 0], 0, #[], 1, ⟨2, 2, 3, false⟩⟩ := by decide
  have hl : WithinLimit ⟨#[1, 0], 0, #[], 0, ⟨2, 2, 3, false⟩⟩ := by decide
  have hl' : WithinLimit ⟨#[1, 0], 0, #[], 1, ⟨2, 2, 3, false⟩⟩ := by decide
  have hlast : [Instr.loop [.simple .right]].getLast? = some (.loop [.simple .right]) := rfl
  obtain ⟨hcell, hbehind⟩ := execute_behind_loop hr hl hlast rfl rfl (by decide)
  obtain ⟨-, hbehind'⟩ := execute_behind_loop hr' hl' hlast rfl rfl (by decide)
  refine ⟨hr, hl, hcell, ?_, ?_⟩
  · exact ((hbehind [] _ rfl).2.1 (by decide)).1
  · exact ((hbehind' [.simple .print] _ rfl).2.2 (by decide)).1

end TapeAsm.Machine
