import TapeAsm.Proofs.Machine.Calls
import TapeAsm.Proofs.Machine.Trace

/-!
# Machines in lockstep

Two machines that differ in their tapes may still go through a program side by side. What this takes
is asked of single operations: `Machine.Lockstep R allowed f warning` says that machines related by
`R` have the same value under the pointer and the same counter and limit, and that an operation on
the one and the operation that `f` puts in its place on the other lead to related machines and to
corresponding warnings, as long as the first gives allowed warnings only.

Visits of related machines then correspond (`Lockstep.moved`, `Lockstep.stopped`), and so do runs,
by induction on the fuel (`Lockstep.run`): whatever the limit, one run goes on for ever exactly if
the other does. `Lockstep.execute` is the case of whole programs, with the operations renamed
throughout the tree (`Program.rename`).
-/

set_option autoImplicit false

namespace TapeAsm

/-! ## Renamed operations -/

mutual

/-- The instruction with other operations, in every body. -/
def Instr.rename (f : Op → Op) : Instr → Instr
  | .node op body => .node (f op) (Program.rename f body)

/-- The program with other operations, in every body. -/
def Program.rename (f : Op → Op) : Program → Program
  | [] => []
  | instr :: rest => instr.rename f :: Program.rename f rest

end

/-- The level with other operations. -/
def Level.rename (f : Op → Op) (level : Level) : Level := ⟨level.rest.rename f, level.body.rename f⟩

/-- The ending with another operation in the report of an exceeded limit. -/
def Ending.rename (f : Op → Op) : Ending → Ending
  | .halted error => .halted { error with op := f error.op }
  | ending => ending

section
variable (f : Op → Op)

@[simp] theorem Instr.op_rename (i : Instr) : (i.rename f).op = f i.op := by
  cases i
  rfl

@[simp] theorem Instr.body_rename (i : Instr) : (i.rename f).body = i.body.rename f := by
  cases i
  rfl

theorem Program.rename_eq_nil {p : Program} : p.rename f = [] ↔ p = [] := by
  cases p <;> simp [Program.rename]

mutual

theorem Instr.rename_id : ∀ i : Instr, i.rename id = i
  | .node op body => by rw [Instr.rename, Program.rename_id, id]

theorem Program.rename_id : ∀ p : Program, p.rename id = p
  | [] => rfl
  | i :: rest => by rw [Program.rename, Instr.rename_id, Program.rename_id]

end

theorem Ending.rename_id (ending : Ending) : ending.rename id = ending := by cases ending <;> rfl

theorem Level.Next.rename {value : Int} {levels : List Level}
    {next : Option (Instr × List Level)} (h : Level.Next value levels next) :
    Level.Next value (levels.map (Level.rename f))
      (next.map fun (i, rest) => (i.rename f, rest.map (Level.rename f))) := by
  induction h with
  | done => exact .done
  | here => exact .here
  | again hv => exact .again hv
  | leave hv _ ih => exact .leave (hv.imp_left (Program.rename_eq_nil f).2) ih

end

namespace Machine

/-! ## Lockstep -/

/-- **Machines go through operations side by side.** -/
structure Lockstep (R : Machine → Machine → Prop) (allowed : Event → Prop) (f : Op → Op)
    (warning : Event → Event) : Prop where
  inRange : ∀ {m m' : Machine}, R m m' → m.InRange ∧ m'.InRange
  value : ∀ {m m' : Machine}, R m m' → m'.value = m.value
  steps : ∀ {m m' : Machine}, R m m' → m'.steps = m.steps
  limit : ∀ {m m' : Machine}, R m m' → m'.config.maxSteps = m.config.maxSteps
  counted : ∀ {m m' : Machine}, R m m' → ∀ steps : Int, R { m with steps } { m' with steps }
  loop : ∀ {op : Op}, f op = .loop ↔ op = .loop
  act : ∀ {m m' : Machine}, R m m' → ∀ {op : Op}, (∀ w ∈ m.warning op, allowed w) →
    R (m.act op) (m'.act (f op)) ∧ m'.warning (f op) = (m.warning op).map warning

/-- The warnings among events, as the other machine gives them. -/
def Answers (warning : Event → Event) (events events' : List Event) : Prop :=
  events'.filter Event.isWarning = (events.filter Event.isWarning).map warning

theorem Answers.append {warning : Event → Event} {a a' b b' : List Event}
    (ha : Answers warning a a') (hb : Answers warning b b') :
    Answers warning (a ++ b) (a' ++ b') := by
  unfold Answers at *
  rw [List.filter_append, List.filter_append, ha, hb, List.map_append]

theorem answers_record (warning : Event → Event) (m m' : Machine) (op op' : Op) :
    Answers warning (m.record op) (m'.record op') := by
  unfold Answers
  rw [filter_record, filter_record]
  rfl

/-- What was logged before a run is the beginning of its log. -/
theorem Runs.log_mono {levels : List Level} {m : Machine} {log : Array Event} {e : Execution}
    (h : Runs levels m log e) : log.toList <+: e.log.toList := by
  induction h with
  | finish _ => exact List.prefix_refl _
  | stop _ _ => simp
  | move _ _ _ ih =>
    rw [Array.toList_appendList] at ih
    exact (List.prefix_append _ _).trans ih
  | cut => exact List.prefix_refl _

namespace Lockstep

variable {R : Machine → Machine → Prop} {allowed : Event → Prop} {f : Op → Op}
  {warning : Event → Event} {m m' n : Machine} {i : Instr} {events : List Event}

theorem tick (hL : Lockstep R allowed f warning) (h : R m m') : R m.tick m'.tick := by
  have hsteps := hL.steps h
  unfold Machine.tick
  rw [hsteps]
  exact hL.counted h _

/-- The limit refuses a step of both machines or of neither. -/
theorem past_iff (hL : Lockstep R allowed f warning) (h : R m m') :
    m'.config.maxSteps < m'.tick.steps ↔ m.config.maxSteps < m.tick.steps := by
  rw [hL.limit h, hL.steps (hL.tick h)]

theorem looping (hL : Lockstep R allowed f warning) (h : R m m') (hop : i.op = .loop)
    (hz : m.value ≠ 0) : (i.rename f).op = .loop ∧ m'.value ≠ 0 := by
  rw [Instr.op_rename, hL.loop, hL.value h]
  exact ⟨hop, hz⟩

theorem moved {entered : List Level} (hL : Lockstep R allowed f warning) (h : R m m')
    (hv : Visits m i (.moved n events entered))
    (ha : ∀ w ∈ events, w.isWarning = true → allowed w) :
    ∃ n' events', Visits m' (i.rename f) (.moved n' events' (entered.map (Level.rename f))) ∧
      R n n' ∧ Answers warning events events' := by
  have htick := hL.tick h
  cases hv with
  | act hlim hz =>
    have hlim' := mt (hL.past_iff h).1 hlim
    have hz' : (i.rename f).op = .loop → m'.value = 0 := by
      rw [Instr.op_rename, hL.loop, hL.value h]
      exact hz
    -- the record of a step is no warning, so only the operation's own warning has to be allowed
    have hallowed : ∀ w ∈ m.tick.warning i.op, allowed w := by
      intro w hw
      have hwarning : w ∈ (m.tick.warning i.op).filter Event.isWarning := by
        rw [filter_warning]
        exact hw
      exact ha w (List.mem_append_right _ hw) (List.mem_filter.1 hwarning).2
    obtain ⟨hact, hwarn⟩ := hL.act htick hallowed
    refine ⟨_, _, .act hlim' hz', by rwa [Instr.op_rename], (answers_record ..).append ?_⟩
    unfold Answers
    rw [filter_warning, filter_warning, Instr.op_rename, hwarn]
  | enter hlim hop hz hb =>
    obtain ⟨hop', hz'⟩ := hL.looping h hop hz
    have hb' : (i.rename f).body ≠ [] := by
      rw [Instr.body_rename, ne_eq, Program.rename_eq_nil]
      exact hb
    have hv' := Visits.enter (mt (hL.past_iff h).1 hlim) hop' hz' hb'
    rw [Instr.body_rename] at hv'
    exact ⟨_, _, hv', htick, answers_record ..⟩

theorem stopped {ending : Ending} (hL : Lockstep R allowed f warning) (h : R m m')
    (hv : Visits m i (.stopped n events ending)) :
    ∃ n' events', Visits m' (i.rename f) (.stopped n' events' (ending.rename f)) ∧
      R n n' ∧ Answers warning events events' := by
  have htick := hL.tick h
  cases hv with
  | limit hlim =>
    have hv' := Visits.limit (i := i.rename f) ((hL.past_iff h).2 hlim)
    rw [hL.steps htick, hL.limit h, Instr.op_rename] at hv'
    exact ⟨_, _, hv', htick, rfl⟩
  | spin hlim hop hz hb =>
    obtain ⟨hop', hz'⟩ := hL.looping h hop hz
    have hb' : (i.rename f).body = [] := by
      rw [Instr.body_rename, Program.rename_eq_nil]
      exact hb
    have hv' := Visits.spin (mt (hL.past_iff h).1 hlim) hop' hz' hb'
    have hspent : R m.tick.spent m'.tick.spent := by
      unfold Machine.spent
      rw [hL.limit htick]
      exact hL.counted htick _
    have hloop : f .loop = .loop := hL.loop.2 rfl
    rw [hL.limit h] at hv'
    simp only [Ending.rename, hloop]
    exact ⟨_, _, hv', hspent, answers_record ..⟩

/-- **Runs of machines in lockstep correspond**, visit by visit. -/
theorem run (hL : Lockstep R allowed f warning) (fuel : Nat) {levels : List Level}
    {log log' : Array Event} (h : R m m') (hlog : Answers warning log.toList log'.toList)
    (ha : ∀ w ∈ (m.run fuel levels log).warnings, allowed w) :
    R (m.run fuel levels log).machine
        (m'.run fuel (levels.map (Level.rename f)) log').machine ∧
      (m'.run fuel (levels.map (Level.rename f)) log').ending =
        (m.run fuel levels log).ending.rename f ∧
      (m'.run fuel (levels.map (Level.rename f)) log').warnings =
        (m.run fuel levels log).warnings.map warning := by
  induction fuel generalizing levels m m' log log' with
  | zero => exact ⟨h, rfl, hlog⟩
  | succ fuel ih =>
    obtain ⟨hr, hr'⟩ := hL.inRange h
    have hnext : ∀ {next}, Level.Next m.value levels next →
        Level.Next m'.value (levels.map (Level.rename f))
          (next.map fun (i, rest) => (i.rename f, rest.map (Level.rename f))) := by
      intro next hn
      rw [hL.value h]
      exact hn.rename f
    obtain ⟨hn, he⟩ | ⟨i, rest, hn, ⟨n, events, ending, hv, he⟩ | ⟨n, events, entered, hv, he⟩⟩ :=
      run_succ fuel levels log hr
    · rw [run_finish fuel log' hr' (hnext hn), he]
      exact ⟨h, rfl, hlog⟩
    · obtain ⟨n', events', hv', hn', hevents⟩ := hL.stopped h hv
      rw [run_stop fuel log' hr' (hnext hn) hv', he]
      refine ⟨hn', rfl, ?_⟩
      have := hlog.append hevents
      simpa only [Execution.warnings, Answers, Array.toList_appendList] using this
    · -- the events of the first visit are in the log at the end, where only allowed warnings are
      have hfirst : ∀ w ∈ events, w.isWarning = true → allowed w := by
        intro w hw hwarning
        have hrest := (runs_run fuel (entered ++ rest) (log ++ events) (hv.inRange hr)).log_mono
        refine ha w (List.mem_filter.2 ⟨?_, hwarning⟩)
        rw [he]
        refine hrest.subset ?_
        rw [Array.toList_appendList]
        exact List.mem_append_right _ hw
      obtain ⟨n', events', hv', hn', hevents⟩ := hL.moved h hv hfirst
      rw [he] at ha ⊢
      rw [run_move fuel log' hr' (hnext hn) hv', ← List.map_append]
      refine ih hn' ?_ ha
      rw [Array.toList_appendList, Array.toList_appendList]
      exact hlog.append hevents

/-- **Programs on machines in lockstep**, the operations of the one renamed. -/
theorem execute (hL : Lockstep R allowed f warning) (h : R m m') (p : Program)
    (ha : ∀ w ∈ (m.execute p).warnings, allowed w) :
    R (m.execute p).machine (m'.execute (p.rename f)).machine ∧
      (m'.execute (p.rename f)).ending = (m.execute p).ending.rename f ∧
      (m'.execute (p.rename f)).warnings = (m.execute p).warnings.map warning := by
  have hbudget : m'.budget = m.budget := by
    unfold budget
    rw [hL.steps h, hL.limit h]
  have hempty : Answers warning (#[] : Array Event).toList (#[] : Array Event).toList := rfl
  unfold Machine.execute at ha ⊢
  rw [hbudget]
  exact hL.run m.budget h hempty ha

end Lockstep

end Machine

end TapeAsm
