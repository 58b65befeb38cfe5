import TapeAsm.Proofs.Machine.Visit

/-!
# Runs

`Machine.Runs levels m log e`: from the machine `m`, with `levels` left to do and `log` behind it, a
run comes to `e`. The relation has no fuel: every run of a machine with the pointer on the tape is
one (`Machine.runs_run`), a run that fuel cuts short included, so what holds along all runs is
proved by induction on `Runs`.

The counter decides that runs stop. `Machine.remaining` is the number of visits after which it
passes the limit, wherever it stands, as long as a greater word than the limit exists; with that
much fuel a run is not cut short (`Machine.run_ne_endless`) and more fuel changes nothing
(`Machine.run_mono`). `Machine.execute_stops` puts this together with the exact account of the steps
(`Runs.account`).
-/

set_option autoImplicit false

namespace TapeAsm

/-! ## The next instruction -/

/-- **What is visited next**, and what is left after it, when the current cell has a value. -/
inductive Level.Next (value : Int) : List Level → Option (Instr × List Level) → Prop
  | done : Next value [] none
  | here {i : Instr} {rest body : Program} {outer : List Level} :
      Next value (⟨i :: rest, body⟩ :: outer) (some (i, ⟨rest, body⟩ :: outer))
  /-- A loop starts over. -/
  | again {i : Instr} {rest : Program} {outer : List Level} : value ≠ 0 →
      Next value (⟨[], i :: rest⟩ :: outer) (some (i, ⟨rest, i :: rest⟩ :: outer))
  /-- A level has run out: the program's own, or a loop on a zero cell. -/
  | leave {body : Program} {outer : List Level} {next : Option (Instr × List Level)} :
      body = [] ∨ value = 0 → Next value outer next → Next value (⟨[], body⟩ :: outer) next

theorem Level.exists_next (value : Int) :
    ∀ levels : List Level, ∃ next, Level.next? (.ok value) levels = .ok next ∧
      Level.Next value levels next
  | [] => ⟨none, rfl, .done⟩
  | ⟨_ :: _, _⟩ :: _ => ⟨_, rfl, .here⟩
  | ⟨[], []⟩ :: outer =>
    have ⟨next, h, hn⟩ := exists_next value outer
    ⟨next, h, .leave (.inl rfl) hn⟩
  | ⟨[], instr :: rest⟩ :: outer => by
    by_cases hv : value = 0
    · obtain ⟨next, h, hn⟩ := exists_next value outer
      exact ⟨next, by simpa [Level.next?, hv] using hv ▸ h, .leave (.inr hv) hn⟩
    · exact ⟨_, by simp [Level.next?, hv], .again hv⟩

/-- The machine that a visit leaves behind. -/
def Visit.machine : Visit → Machine
  | .moved m _ _ => m
  | .stopped m _ _ => m

namespace Machine

/-! ## What every visit keeps -/

namespace Visits

variable {m : Machine} {i : Instr} {v : Visit}

theorem config (h : Visits m i v) : v.machine.config = m.config := by
  cases h with
  | limit _ => rfl
  | act _ _ => exact act_config m.tick i.op
  | enter _ _ _ _ => rfl
  | spin _ _ _ _ => rfl

theorem inRange (h : Visits m i v) (hr : m.InRange) : v.machine.InRange := by
  cases h with
  | limit _ => exact tick_inRange hr
  | act _ _ => exact act_inRange (tick_inRange hr) i.op
  | enter _ _ _ _ => exact tick_inRange hr
  | spin _ _ _ _ => exact ⟨hr.nonneg, hr.lt_size⟩

theorem output (h : Visits m i v) : m.output.toList <+: v.machine.output.toList := by
  cases h with
  | limit _ => exact List.prefix_refl _
  | act _ _ => exact act_output m.tick i.op
  | enter _ _ _ _ => exact List.prefix_refl _
  | spin _ _ _ _ => exact List.prefix_refl _

end Visits

/-! ## Runs without fuel -/

/-- **A run**, from what is left to do and what has been logged to what it leaves behind. The last
rule cuts it short, anywhere. -/
inductive Runs : List Level → Machine → Array Event → Execution → Prop
  | finish {levels : List Level} {m : Machine} {log : Array Event} :
      Level.Next m.value levels none → Runs levels m log ⟨m, log, .finished⟩
  | stop {levels rest : List Level} {m m' : Machine} {log : Array Event} {i : Instr}
      {events : List Event} {ending : Ending} :
      Level.Next m.value levels (some (i, rest)) → Visits m i (.stopped m' events ending) →
      Runs levels m log ⟨m', log ++ events, ending⟩
  | move {levels rest entered : List Level} {m m' : Machine} {log : Array Event} {i : Instr}
      {events : List Event} {e : Execution} :
      Level.Next m.value levels (some (i, rest)) → Visits m i (.moved m' events entered) →
      Runs (entered ++ rest) m' (log ++ events) e → Runs levels m log e
  | cut {levels : List Level} {m : Machine} {log : Array Event} :
      Runs levels m log ⟨m, log, .crashed .endless⟩

/-- The first visit of a run with fuel, and how the run goes on. -/
theorem run_succ (fuel : Nat) (levels : List Level) {m : Machine} (log : Array Event)
    (h : m.InRange) :
    (Level.Next m.value levels none ∧ m.run (fuel + 1) levels log = ⟨m, log, .finished⟩) ∨
    ∃ i rest, Level.Next m.value levels (some (i, rest)) ∧
      ((∃ m' events ending, Visits m i (.stopped m' events ending) ∧
          m.run (fuel + 1) levels log = ⟨m', log ++ events, ending⟩) ∨
        ∃ m' events entered, Visits m i (.moved m' events entered) ∧
          m.run (fuel + 1) levels log = m'.run fuel (entered ++ rest) (log ++ events)) := by
  obtain ⟨next, hn, hnext⟩ := Level.exists_next m.value levels
  match next with
  | none => exact .inl ⟨hnext, by simp only [run, cell_eq h, hn]⟩
  | some (i, rest) =>
    refine .inr ⟨i, rest, hnext, ?_⟩
    have hv := visits_visit h i
    cases hvi : m.visit i with
    | stopped m' events ending =>
      exact .inl ⟨m', events, ending, hvi ▸ hv, by simp only [run, cell_eq h, hn, hvi]⟩
    | moved m' events entered =>
      exact .inr ⟨m', events, entered, hvi ▸ hv, by simp only [run, cell_eq h, hn, hvi]⟩

theorem runs_run (fuel : Nat) (levels : List Level) {m : Machine} (log : Array Event)
    (h : m.InRange) : Runs levels m log (m.run fuel levels log) := by
  induction fuel generalizing levels m log with
  | zero => exact .cut
  | succ fuel ih =>
    obtain ⟨hn, he⟩ | ⟨i, rest, hn, ⟨m', events, ending, hv, he⟩ | ⟨m', events, entered, hv, he⟩⟩ :=
      run_succ fuel levels log h
    · exact he ▸ .finish hn
    · exact he ▸ .stop hn hv
    · exact he ▸ .move hn hv (ih _ _ (hv.inRange h))

/-- **What every visit keeps, every run keeps.** -/
theorem Runs.keeps {I : Machine → Prop} {levels : List Level} {m : Machine} {log : Array Event}
    {e : Execution} (h : Runs levels m log e)
    (hI : ∀ {m : Machine} {i : Instr} {v : Visit}, Visits m i v → I m → I v.machine)
    (hm : I m) : I e.machine := by
  induction h with
  | finish _ => exact hm
  | stop _ hv => exact hI hv hm
  | move _ hv _ ih => exact ih (hI hv hm)
  | cut => exact hm

/-- A run on the tape crashes only where it is cut short. -/
theorem Runs.crashed {levels : List Level} {m : Machine} {log : Array Event} {e : Execution}
    {fault : Fault} (h : Runs levels m log e) (he : e.ending = .crashed fault) :
    fault = .endless := by
  induction h with
  | finish _ => cases he
  | stop _ hv => cases hv <;> cases he
  | move _ _ _ ih => exact ih he
  | cut => cases he; rfl

/-! ## Runs stop -/

/-- The number of visits after which the counter, wherever it stands, has passed the limit. -/
def remaining (m : Machine) : Nat :=
  ((m.config.maxSteps - m.steps) % 18446744073709551616).toNat + 1

theorem remaining_le (m : Machine) : m.remaining ≤ Nat.pow 2 64 := by
  have : Nat.pow 2 64 = 18446744073709551616 := rfl
  unfold remaining
  omega

/-- A counted visit is one of the remaining ones, and not the last. -/
theorem remaining_of_counted {m m' : Machine} (hroom : m.config.maxSteps < Word.max)
    (hlim : ¬ m.config.maxSteps < m.tick.steps) (hc : m'.config = m.config)
    (hs : m'.steps = m.tick.steps) : m'.remaining + 1 = m.remaining := by
  have hmin : Word.min ≤ m.tick.steps := Word.min_le_wrap _
  have hmax : m.tick.steps ≤ Word.max := Word.wrap_le_max _
  obtain ⟨k, hk⟩ : ∃ k, m.tick.steps = m.steps + 1 + 18446744073709551616 * k :=
    Word.exists_wrap_eq _
  rw [Word.min_eq] at hmin
  rw [Word.max_eq] at hmax hroom
  unfold remaining
  rw [hc, hs]
  omega

theorem Visits.counted {m m' : Machine} {i : Instr} {events : List Event} {entered : List Level}
    (h : Visits m i (.moved m' events entered)) :
    ¬ m.config.maxSteps < m.tick.steps ∧ m'.config = m.config ∧ m'.steps = m.tick.steps := by
  cases h with
  | act hlim _ => exact ⟨hlim, act_config m.tick i.op, act_steps m.tick i.op⟩
  | enter hlim _ _ _ => exact ⟨hlim, rfl, rfl⟩

/-- **A run is not cut short** if there is fuel for the remaining visits. -/
theorem run_ne_endless {fuel : Nat} (levels : List Level) {m : Machine} (log : Array Event)
    (h : m.InRange) (hroom : m.config.maxSteps < Word.max) (hf : m.remaining ≤ fuel) :
    (m.run fuel levels log).ending ≠ .crashed .endless := by
  induction fuel generalizing levels m log with
  | zero => simp [remaining] at hf
  | succ fuel ih =>
    obtain ⟨-, he⟩ | ⟨i, rest, -, ⟨m', events, ending, hv, he⟩ | ⟨m', events, entered, hv, he⟩⟩ :=
      run_succ fuel levels log h
    · rw [he]
      simp
    · rw [he]
      cases hv <;> simp
    · rw [he]
      obtain ⟨hlim, hc, hs⟩ := hv.counted
      have := remaining_of_counted hroom hlim hc hs
      exact ih _ _ (hv.inRange h) (hc ▸ hroom) (by omega)

/-- More fuel changes nothing where a run was not cut short. -/
theorem run_mono {fuel fuel' : Nat} (levels : List Level) (m : Machine) (log : Array Event)
    (hf : fuel ≤ fuel') (h : (m.run fuel levels log).ending ≠ .crashed .endless) :
    m.run fuel' levels log = m.run fuel levels log := by
  induction fuel generalizing fuel' levels m log with
  | zero => exact absurd rfl h
  | succ fuel ih =>
    obtain ⟨fuel', rfl⟩ : ∃ n, fuel' = n + 1 := ⟨fuel' - 1, by omega⟩
    rw [run] at h ⊢
    rw [run]
    split at h
    · rfl
    · rfl
    · rename_i instr rest hn
      cases hv : m.visit instr with
      | stopped m' events ending => rfl
      | moved m' events entered =>
        simp only [hv] at h ⊢
        exact ih _ _ _ (by omega) h

/-! ## The account of the steps -/

/-- The counter is a word that has not passed the limit, and the limit leaves room for one more. -/
structure WithinLimit (m : Machine) : Prop where
  word : Word.min ≤ m.steps
  le : m.steps ≤ m.config.maxSteps
  room : m.config.maxSteps < Word.max

instance (m : Machine) : Decidable m.WithinLimit :=
  decidable_of_iff
    (Word.min ≤ m.steps ∧ m.steps ≤ m.config.maxSteps ∧ m.config.maxSteps < Word.max)
    ⟨fun ⟨h₁, h₂, h₃⟩ => ⟨h₁, h₂, h₃⟩, fun ⟨h₁, h₂, h₃⟩ => ⟨h₁, h₂, h₃⟩⟩

theorem WithinLimit.tick {m : Machine} (h : m.WithinLimit) : m.tick.steps = m.steps + 1 :=
  Word.succ_eq h.word (by have := h.le; have := h.room; omega)

theorem WithinLimit.succ {m : Machine} (h : m.WithinLimit) :
    Word.succ m.config.maxSteps = m.config.maxSteps + 1 :=
  Word.succ_eq (by have := h.word; have := h.le; omega) h.room

theorem WithinLimit.moved {m m' : Machine} {i : Instr} {events : List Event}
    {entered : List Level} (h : m.WithinLimit) (hv : Visits m i (.moved m' events entered)) :
    m'.WithinLimit ∧ m'.steps = m.steps + 1 := by
  obtain ⟨hlim, hc, hs⟩ := hv.counted
  rw [h.tick] at hlim hs
  have := h.word
  exact ⟨⟨by omega, by rw [hc]; omega, hc ▸ h.room⟩, hs⟩

theorem WithinLimit.stopped {m m' : Machine} {i : Instr} {events : List Event} {ending : Ending}
    (h : m.WithinLimit) (hv : Visits m i (.stopped m' events ending)) :
    m'.steps = m.config.maxSteps + 1 ∧
      ∃ op, ending = .halted ⟨m.config.maxSteps + 1, m.config.maxSteps, op⟩ := by
  cases hv with
  | limit hlim =>
    rw [h.tick] at hlim ⊢
    have : m.steps = m.config.maxSteps := by have := h.le; omega
    exact ⟨by rw [this], i.op, by rw [this]⟩
  | spin _ _ _ _ => exact ⟨h.succ, .loop, by rw [h.succ]⟩

/-- The instructions that the levels still have to visit, further passes of loops apart. -/
def pending : List Level → Nat
  | [] => 0
  | level :: outer => level.rest.length + pending outer

theorem pending_append (entered rest : List Level) :
    pending (entered ++ rest) = pending entered + pending rest := by
  induction entered with
  | nil => simp [pending]
  | cons level entered ih =>
    rw [List.cons_append, pending, pending, ih]
    omega

theorem pending_of_done {value : Int} {levels : List Level}
    (h : Level.Next value levels none) : pending levels = 0 := by
  generalize hnext : none = next at h
  induction h with
  | done => rfl
  | here => cases hnext
  | again _ => cases hnext
  | leave _ _ ih => simpa [pending] using ih hnext

theorem pending_of_next {value : Int} {levels rest : List Level} {i : Instr}
    (h : Level.Next value levels (some (i, rest))) : pending levels ≤ pending rest + 1 := by
  generalize hnext : some (i, rest) = next at h
  induction h with
  | done => cases hnext
  | here => cases hnext; simp [pending]; omega
  | again _ => cases hnext; simp [pending]; omega
  | leave _ _ ih => simpa [pending] using ih hnext

/-- **The account of a run**: it visits everything pending and stays within the limit, or it ends
one step past the limit, or it is cut short. -/
theorem Runs.account {levels : List Level} {m : Machine} {log : Array Event} {e : Execution}
    (h : Runs levels m log e) (hl : m.WithinLimit) :
    (e.ending = .finished ∧ m.steps + pending levels ≤ e.machine.steps ∧
      e.machine.steps ≤ m.config.maxSteps) ∨
    (∃ op, e.ending = .halted ⟨m.config.maxSteps + 1, m.config.maxSteps, op⟩ ∧
      e.machine.steps = m.config.maxSteps + 1) ∨
    e.ending = .crashed .endless := by
  induction h with
  | finish hn => exact .inl ⟨rfl, by simp [pending_of_done hn], hl.le⟩
  | stop _ hv =>
    obtain ⟨hs, op, rfl⟩ := hl.stopped hv
    exact .inr (.inl ⟨op, rfl, hs⟩)
  | @move levels rest entered m m' log i events e hn hv _ ih =>
    obtain ⟨hl', hs⟩ := hl.moved hv
    have hc : m'.config = m.config := hv.config
    rw [hc] at ih
    obtain ⟨he, hge, hle⟩ | hr := ih hl'
    · -- the visit took at most one of the pending instructions, and cost one step
      have hp := pending_of_next hn
      rw [pending_append] at hge
      exact .inl ⟨he, by omega, hle⟩
    · exact .inr hr
  | cut => exact .inr (.inr rfl)

theorem remaining_le_budget (m : Machine) : m.remaining ≤ m.budget := by
  unfold budget
  split
  · unfold remaining
    omega
  · exact m.remaining_le

theorem runs_execute {m : Machine} (h : m.InRange) (program : Program) :
    Runs [⟨program, []⟩] m #[] (m.execute program) := runs_run _ _ _ h

theorem execute_ne_endless {m : Machine} (h : m.InRange) (hroom : m.config.maxSteps < Word.max)
    (program : Program) : (m.execute program).ending ≠ .crashed .endless :=
  run_ne_endless _ _ h hroom m.remaining_le_budget

/-- A program is visited to its end within the limit, or it is halted one step past it. -/
theorem execute_account {m : Machine} (hr : m.InRange) (hl : m.WithinLimit) (program : Program) :
    ((m.execute program).ending = .finished ∧
        m.steps + program.length ≤ (m.execute program).machine.steps ∧
        (m.execute program).machine.steps ≤ m.config.maxSteps) ∨
      ∃ op, (m.execute program).ending =
          .halted ⟨(m.execute program).machine.steps, m.config.maxSteps, op⟩ ∧
        (m.execute program).machine.steps = m.config.maxSteps + 1 := by
  obtain ⟨he, hge, hle⟩ | ⟨op, he, hs⟩ | hend :=
    (runs_execute hr program).account hl
  · exact .inl ⟨he, by simpa [pending] using hge, hle⟩
  · exact .inr ⟨op, by rw [← hs] at he; exact he, hs⟩
  · exact absurd hend (execute_ne_endless hr hl.room program)

/-- **Execution always stops, with an exact account of its steps.** It stops within its budget, so
that more fuel changes nothing. -/
theorem execute_stops {m : Machine} (hr : m.InRange) (hl : m.WithinLimit) (program : Program) :
    (∀ fuel, m.budget ≤ fuel → m.run fuel [⟨program, []⟩] #[] = m.execute program) ∧
    (((m.execute program).ending = .finished ∧
        m.steps + program.length ≤ (m.execute program).machine.steps ∧
        (m.execute program).machine.steps ≤ m.config.maxSteps) ∨
      ∃ op, (m.execute program).ending =
          .halted ⟨(m.execute program).machine.steps, m.config.maxSteps, op⟩ ∧
        (m.execute program).machine.steps = m.config.maxSteps + 1) := by
  refine ⟨fun fuel hf => ?_, execute_account hr hl program⟩
  exact run_mono _ _ _ hf (execute_ne_endless hr hl.room program)

/-- An empty loop on a non-zero cell is stopped at the limit, however much fuel there is. -/
theorem execute_stops_empty_loop :
    InRange ⟨#[1], 0, #[], 2, ⟨1, 1, 7, true⟩⟩ ∧ WithinLimit ⟨#[1], 0, #[], 2, ⟨1, 1, 7, true⟩⟩ ∧
    ∀ fuel ≥ budget ⟨#[1], 0, #[], 2, ⟨1, 1, 7, true⟩⟩,
      (run fuel [⟨[.simple .inc, .loop []], []⟩] ⟨#[1], 0, #[], 2, ⟨1, 1, 7, true⟩⟩ #[]).ending =
        .halted ⟨8, 7, .loop⟩ := by
  refine ⟨by decide, by decide, fun fuel hf => ?_⟩
  rw [(execute_stops (by decide) (by decide) _).1 fuel hf]
  decide

end Machine

end TapeAsm
