import TapeAsm.Proofs.Machine.Sequence

/-!
# The trace of a run

A machine that logs every step leaves a trace: one record for each counted visit, with its number,
its operation and the pointer before it. `Machine.execute_traced` says that the trace is inert and
complete. Inert: runs with and without it end alike and warn alike (`Runs.debugging`). Complete: a
run logs what going straight through the operations that it visits would log, and leaves the same
tape behind, loops or no loops (`Runs.through`). What a trace says about numbers, operations and
edges is then proved of straight lines of operations, by induction on them.
-/

set_option autoImplicit false

namespace TapeAsm

/-! ## Records and warnings -/

/-- What is recorded of a step, the view of the tape apart. -/
structure StepRecord where
  step : Int
  op : Op
  pointer : Int
  deriving DecidableEq, Repr

namespace Event

/-- The step that an event records, if it does. -/
def record? : Event → Option StepRecord
  | .step number op pointer _ => some ⟨number, op, pointer⟩
  | _ => none

/-- Does the event warn of an edge of the tape? -/
def isWarning : Event → Bool
  | .leftEdge _ => true
  | .rightEdge _ _ => true
  | _ => false

end Event

/-- The warning that a recorded step calls for, on a tape of the given size. -/
def StepRecord.warning (size : Nat) (r : StepRecord) : List Event :=
  match r.op with
  | .left => if r.pointer = 0 then [.leftEdge r.step] else []
  | .right => if r.pointer = size - 1 then [.rightEdge r.step r.pointer] else []
  | _ => []

theorem StepRecord.leftEdge_mem_warning {size : Nat} {r : StepRecord} {k : Int} :
    .leftEdge k ∈ r.warning size ↔ r = ⟨k, .left, 0⟩ := by
  obtain ⟨step, op, pointer⟩ := r
  cases op with
  | left => by_cases h : pointer = 0 <;> simp [warning, h, eq_comm]
  | right => by_cases h : pointer = size - 1 <;> simp [warning, h]
  | _ => simp [warning]

theorem StepRecord.rightEdge_mem_warning {size : Nat} {r : StepRecord} {k pointer : Int} :
    .rightEdge k pointer ∈ r.warning size ↔
      r = ⟨k, .right, pointer⟩ ∧ pointer = size - 1 := by
  obtain ⟨step, op, pointer'⟩ := r
  cases op with
  | left => by_cases h : pointer' = 0 <;> simp [warning, h]
  | right =>
    by_cases h : pointer' = size - 1
    · simp only [warning, if_pos h]
      grind
    · simp only [warning, if_neg h]
      grind
  | _ => simp [warning]

/-- The recorded steps of an execution, in order. -/
def Execution.records (e : Execution) : List StepRecord := e.log.toList.filterMap Event.record?

/-- The warnings of an execution, in order. -/
def Execution.warnings (e : Execution) : List Event := e.log.toList.filter Event.isWarning

theorem Execution.mem_log_iff {e : Execution} {event : Event} (h : event.isWarning = true) :
    event ∈ e.log ↔ event ∈ e.warnings := by
  simp [warnings, h]

namespace Machine

/-- The machine with or without a trace. -/
def debugging (m : Machine) (debug : Bool) : Machine :=
  { m with config := { m.config with debug } }

/-- The machine after the effects of operations, one after the other. -/
def replay (m : Machine) (ops : List Op) : Machine := ops.foldl act m

section
variable {m : Machine}

theorem record_of_debug (hr : m.InRange) (hd : m.config.debug = true) (op : Op) :
    ∃ memory, m.record op = [.step m.steps op m.pointer memory] := by
  obtain ⟨memory, hview⟩ := view_ok hr
  exact ⟨memory, by simp only [record, hview, hd, if_true]⟩

theorem filter_record (m : Machine) (op : Op) : (m.record op).filter Event.isWarning = [] := by
  unfold record
  split
  · split <;> rfl
  · rfl

theorem filterMap_warning (m : Machine) (op : Op) : (m.warning op).filterMap Event.record? = [] := by
  cases op <;> simp only [warning] <;> try split
  all_goals rfl

/-! ## Runs with and without a trace -/

theorem act_debugging (m : Machine) (debug : Bool) (op : Op) :
    (m.debugging debug).act op = (m.act op).debugging debug := by
  have h := m.act_update m.steps (m.debugging debug).config rfl op
  simpa only [debugging, act_config, act_steps] using h

section
variable {i : Instr} {m' : Machine} {events : List Event}

theorem Visits.debugging_moved {entered : List Level} (h : Visits m i (.moved m' events entered))
    (debug : Bool) :
    ∃ events', Visits (m.debugging debug) i (.moved (m'.debugging debug) events' entered) ∧
      events'.filter Event.isWarning = events.filter Event.isWarning := by
  cases h with
  | act hlim hz =>
    rw [← act_debugging]
    refine ⟨_, .act hlim hz, ?_⟩
    rw [List.filter_append, List.filter_append, filter_record, filter_record]
    rfl
  | enter hlim hop hv hb =>
    refine ⟨_, .enter hlim hop hv hb, ?_⟩
    rw [filter_record, filter_record]

theorem Visits.debugging_stopped {ending : Ending} (h : Visits m i (.stopped m' events ending))
    (debug : Bool) :
    ∃ events', Visits (m.debugging debug) i (.stopped (m'.debugging debug) events' ending) ∧
      events'.filter Event.isWarning = events.filter Event.isWarning := by
  cases h with
  | limit hlim => exact ⟨_, .limit hlim, rfl⟩
  | spin hlim hop hv hb =>
    refine ⟨_, .spin hlim hop hv hb, ?_⟩
    rw [filter_record, filter_record]

end

/-- **A trace is inert**: with it or without it, a run ends alike and gives the same warnings. -/
theorem Runs.debugging {levels : List Level} {log : Array Event} {e : Execution}
    (h : Runs levels m log e) (debug : Bool) (log' : Array Event)
    (hlog : log'.toList.filter Event.isWarning = log.toList.filter Event.isWarning) :
    ∃ e', Runs levels (m.debugging debug) log' e' ∧ e'.ending = e.ending ∧
      e'.machine = e.machine.debugging debug ∧ e'.warnings = e.warnings := by
  induction h generalizing log' with
  | finish hn => exact ⟨_, .finish hn, rfl, rfl, hlog⟩
  | stop hn hv =>
    obtain ⟨events', hv', hevents⟩ := hv.debugging_stopped debug
    refine ⟨_, .stop hn hv', rfl, rfl, ?_⟩
    simp only [Execution.warnings, Array.toList_appendList, List.filter_append, hlog, hevents]
  | move hn hv _ ih =>
    obtain ⟨events', hv', hevents⟩ := hv.debugging_moved debug
    obtain ⟨e', hrest, he'⟩ := ih (log' ++ events')
      (by simp only [Array.toList_appendList, List.filter_append, hlog, hevents])
    exact ⟨e', .move hn hv' hrest, he'⟩
  | cut => exact ⟨_, .cut, rfl, rfl, hlog⟩

end

/-! ## Straight lines of operations -/

/-- The machine after operations, each counted as a step. -/
def through (m : Machine) : List Op → Machine
  | [] => m
  | op :: ops => (m.tick.act op).through ops

/-- What is logged on the way through operations. -/
def eventsThrough (m : Machine) : List Op → List Event
  | [] => []
  | op :: ops => m.tick.record op ++ m.tick.warning op ++ (m.tick.act op).eventsThrough ops

section
variable {i : Instr} {m m' : Machine} {events : List Event}

/-- A run that goes on after a visit has performed its operation. -/
theorem Visits.through_moved {entered : List Level} (h : Visits m i (.moved m' events entered)) :
    m' = m.tick.act i.op ∧ events = m.tick.record i.op ++ m.tick.warning i.op := by
  cases h with
  | act _ _ => exact ⟨rfl, rfl⟩
  | enter _ hop _ _ =>
    rw [hop]
    exact ⟨rfl, (List.append_nil _).symm⟩

/-- A visit that ends a run is recorded if the limit allows it, and has no effect. -/
theorem Visits.through_stopped {ending : Ending} (h : Visits m i (.stopped m' events ending)) :
    ∃ ops, (ops = [] ∨ ops = [i.op] ∧ ¬ m.config.maxSteps < m.tick.steps) ∧
      m'.tape = (m.through ops).tape ∧ events = m.eventsThrough ops ∧ ending ≠ .finished := by
  cases h with
  | limit _ => exact ⟨[], .inl rfl, rfl, rfl, nofun⟩
  | spin hlim hop _ _ =>
    refine ⟨[i.op], .inr ⟨rfl, hlim⟩, ?_, ?_, nofun⟩
    · rw [hop]
      rfl
    · rw [hop]
      simp [eventsThrough, warning]

end

/-- **A trace is complete**: a run logs what going straight through the operations that it visits
logs, and it leaves the same tape behind. -/
theorem Runs.through {levels : List Level} {m : Machine} {log : Array Event} {e : Execution}
    (h : Runs levels m log e) (hl : m.WithinLimit) :
    ∃ ops : List Op, m.steps + ops.length ≤ m.config.maxSteps ∧
      e.log.toList = log.toList ++ m.eventsThrough ops ∧
      e.machine.tape = (m.through ops).tape ∧
      (e.ending = .finished → e.machine.steps = m.steps + ops.length) := by
  induction h with
  | finish _ => exact ⟨[], by simpa using hl.le, by simp [eventsThrough], rfl, by simp⟩
  | @stop levels rest m m' log i events ending _ hv =>
    obtain ⟨ops, hops, htape, rfl, hne⟩ := hv.through_stopped
    refine ⟨ops, ?_, by simp, htape, fun hf => absurd hf hne⟩
    have hle := hl.le
    have htick := hl.tick
    obtain rfl | ⟨rfl, hlim⟩ := hops
    · simpa using hle
    · simp only [List.length_singleton]
      omega
  | @move levels rest entered m m' log i events e _ hv _ ih =>
    obtain ⟨hl', hs⟩ := hl.moved hv
    have hc : m'.config = m.config := hv.config
    obtain ⟨hm, rfl⟩ := hv.through_moved
    obtain ⟨ops, hle, hlog, htape, hsteps⟩ := ih hl'
    -- the operation visited comes before those of the rest of the run
    refine ⟨i.op :: ops, ?_, ?_, ?_, fun hf => ?_⟩
    · rw [hc] at hle
      simp only [List.length_cons]
      omega
    · rw [hlog, hm]
      simp [eventsThrough]
    · rw [htape, hm]
      rfl
    · have := hsteps hf
      simp only [List.length_cons]
      omega
  | cut => exact ⟨[], by simpa using hl.le, by simp [eventsThrough], rfl, nofun⟩

/-! ## What a trace says -/

section
variable {m : Machine}

/-- The record of a step says which warning it calls for. -/
theorem warning_eq (hr : m.InRange) (op : Op) :
    m.warning op = StepRecord.warning m.memory.size ⟨m.steps, op, m.pointer⟩ := by
  obtain ⟨hnonneg, hlt⟩ := hr
  cases op with
  | left =>
    have hedge : ¬ 0 < m.pointer ↔ m.pointer = 0 := by omega
    simp only [warning, StepRecord.warning, ← hedge, ite_not]
  | right =>
    have hedge : ¬ m.pointer < m.memory.size - 1 ↔ m.pointer = m.memory.size - 1 := by omega
    simp only [warning, StepRecord.warning, ← hedge, ite_not]
  | _ => rfl

theorem filter_warning (m : Machine) (op : Op) :
    (m.warning op).filter Event.isWarning = m.warning op := by
  cases op <;> simp only [warning] <;> try split
  all_goals rfl

/-- The records of operations performed without loops, one for each. -/
def recordsThrough (m : Machine) (ops : List Op) : List StepRecord :=
  (m.eventsThrough ops).filterMap Event.record?

variable (hr : m.InRange) (hd : m.config.debug = true)
include hr hd

theorem recordsThrough_cons (op : Op) (ops : List Op) :
    m.recordsThrough (op :: ops) =
      ⟨m.tick.steps, op, m.pointer⟩ :: (m.tick.act op).recordsThrough ops := by
  obtain ⟨memory, hrecord⟩ := record_of_debug (tick_inRange hr) hd op
  simp only [recordsThrough, eventsThrough, List.filterMap_append, hrecord, filterMap_warning,
    List.append_nil]
  rfl

theorem map_op_recordsThrough (ops : List Op) :
    (m.recordsThrough ops).map StepRecord.op = ops := by
  induction ops generalizing m with
  | nil => rfl
  | cons op ops ih =>
    have hr' := act_inRange (tick_inRange hr) op
    rw [recordsThrough_cons hr hd, List.map_cons, ih hr' (by rw [act_config]; exact hd)]

theorem length_recordsThrough (ops : List Op) : (m.recordsThrough ops).length = ops.length := by
  rw [← List.length_map StepRecord.op, map_op_recordsThrough hr hd]

theorem map_step_recordsThrough (ops : List Op) (hmin : Word.min ≤ m.steps)
    (hmax : m.steps + ops.length ≤ Word.max) :
    (m.recordsThrough ops).map StepRecord.step =
      (List.range ops.length).map fun (k : Nat) => m.steps + 1 + k := by
  induction ops generalizing m with
  | nil => rfl
  | cons op ops ih =>
    rw [List.length_cons] at hmax
    have hr' := act_inRange (tick_inRange hr) op
    have htick : m.tick.steps = m.steps + 1 := Word.succ_eq hmin (by omega)
    have hrest := ih hr' (by rw [act_config]; exact hd) (by rw [act_steps]; omega)
      (by rw [act_steps]; omega)
    rw [recordsThrough_cons hr hd, List.map_cons, hrest, List.length_cons,
      List.range_succ_eq_map, List.map_cons, List.map_map, act_steps, htick]
    rw [List.cons.injEq]
    refine ⟨by simp, List.map_congr_left fun k _ => ?_⟩
    simp only [Function.comp]
    omega

/-- The warnings are those that the records call for. -/
theorem filter_eventsThrough (ops : List Op) :
    (m.eventsThrough ops).filter Event.isWarning =
      (m.recordsThrough ops).flatMap (StepRecord.warning m.memory.size) := by
  induction ops generalizing m with
  | nil => rfl
  | cons op ops ih =>
    have ht := tick_inRange hr
    have hrest := ih (act_inRange ht op) (by rw [act_config]; exact hd)
    rw [act_size] at hrest
    rw [recordsThrough_cons hr hd, List.flatMap_cons, eventsThrough, List.filter_append,
      List.filter_append, filter_record, filter_warning, hrest, warning_eq ht]
    rfl

end

/-- Replaying operations leaves the tape that counting them as steps leaves. -/
theorem replay_tape {m m' : Machine} (ops : List Op) (h : m.tape = m'.tape)
    (hmax : m.config.maxValue = m'.config.maxValue) :
    (m.replay ops).tape = (m'.through ops).tape := by
  induction ops generalizing m m' with
  | nil => exact h
  | cons op ops ih =>
    have htape : (m.act op).tape = (m'.tick.act op).tape := by
      rw [tick_act_tape, act_tape h hmax op]
    exact ih htape (by rw [act_config, act_config]; exact hmax)

/-! ## Programs with and without a trace -/

/-- A program ends alike with a trace and without, and gives the same warnings. -/
theorem execute_debugging {m : Machine} (hr : m.InRange) (hroom : m.config.maxSteps < Word.max)
    (p : Program) (debug : Bool) :
    ((m.debugging debug).execute p).ending = (m.execute p).ending ∧
      ((m.debugging debug).execute p).machine = (m.execute p).machine.debugging debug ∧
      ((m.debugging debug).execute p).warnings = (m.execute p).warnings := by
  obtain ⟨e, hruns, hend, hmachine, hwarnings⟩ :=
    (runs_execute hr p).debugging debug #[] rfl
  have hne : e.ending ≠ .crashed .endless := by
    rw [hend]
    exact execute_ne_crashed hr hroom p .endless
  rw [hruns.execute_eq ⟨hr.nonneg, hr.lt_size⟩ hroom hne]
  exact ⟨hend, hmachine, hwarnings⟩

section
variable {m : Machine} (hr : m.InRange) (hl : m.WithinLimit) (hd : m.config.debug = true)
  (p : Program)
include hr hl hd

/-- The trace of a program is that of a straight line of operations. -/
theorem execute_through : ∃ ops : List Op,
    (m.steps + ops.length ≤ m.config.maxSteps) ∧ (m.execute p).records = m.recordsThrough ops ∧
      (m.execute p).warnings = (m.recordsThrough ops).flatMap (StepRecord.warning m.memory.size) ∧
      (m.execute p).machine.tape = (m.through ops).tape ∧
      ((m.execute p).ending = .finished →
        (m.execute p).machine.steps = m.steps + ops.length) := by
  obtain ⟨ops, hle, hlog, htape, hsteps⟩ := (runs_execute hr p).through hl
  refine ⟨ops, hle, ?_, ?_, htape, hsteps⟩
  · exact congrArg (List.filterMap Event.record?) hlog
  · rw [← filter_eventsThrough hr hd]
    exact congrArg (List.filter Event.isWarning) hlog

theorem step_records :
    (m.execute p).records.map StepRecord.step =
      (List.range (m.execute p).records.length).map fun (k : Nat) => m.steps + 1 + k := by
  obtain ⟨ops, hle, hrecords, -, -, -⟩ := execute_through hr hl hd p
  have hroom := hl.room
  rw [hrecords, length_recordsThrough hr hd]
  exact map_step_recordsThrough hr hd ops hl.word (by omega)

theorem steps_of_records (hf : (m.execute p).ending = .finished) :
    (m.execute p).machine.steps = m.steps + (m.execute p).records.length := by
  obtain ⟨ops, -, hrecords, -, -, hsteps⟩ := execute_through hr hl hd p
  rw [hrecords, length_recordsThrough hr hd, hsteps hf]

theorem replay_records {start : Machine} (htape : start.tape = m.tape)
    (hmax : start.config.maxValue = m.config.maxValue) :
    (start.replay ((m.execute p).records.map StepRecord.op)).tape = (m.execute p).machine.tape := by
  obtain ⟨ops, -, hrecords, -, hend, -⟩ := execute_through hr hl hd p
  rw [hrecords, map_op_recordsThrough hr hd, hend]
  exact replay_tape ops htape hmax

theorem warnings_of_records :
    (m.execute p).warnings =
      (m.execute p).records.flatMap (StepRecord.warning m.memory.size) := by
  obtain ⟨ops, -, hrecords, hwarnings, -, -⟩ := execute_through hr hl hd p
  rw [hrecords, hwarnings]

end

/-- **The trace is inert and complete.** With it a program ends with the same error or none, in the
same state and with the same warnings as without it. Its records are numbered consecutively from the
step after the first counter, up to the last counter if the program finishes. Replaying the recorded
operations gives the tape that the run leaves behind. A warning is given for a step exactly if its
record is of a move off the tape. -/
theorem execute_traced {m : Machine} (hr : m.InRange) (hl : m.WithinLimit) (p : Program)
    {on off : Execution} (hon : (m.debugging true).execute p = on)
    (hoff : (m.debugging false).execute p = off) :
    (on.ending = off.ending ∧ on.machine = off.machine.debugging true ∧
      on.warnings = off.warnings) ∧
    (on.records.map StepRecord.step =
        (List.range on.records.length).map fun (k : Nat) => m.steps + 1 + k) ∧
    (on.ending = .finished → on.machine.steps = m.steps + on.records.length) ∧
    (m.replay (on.records.map StepRecord.op)).tape = on.machine.tape ∧
    (∀ k : Int, .leftEdge k ∈ on.log ↔ ⟨k, .left, 0⟩ ∈ on.records) ∧
    (∀ k pointer : Int, .rightEdge k pointer ∈ on.log ↔
      ⟨k, .right, pointer⟩ ∈ on.records ∧ pointer = m.memory.size - 1) := by
  subst hon hoff
  have hr' : (m.debugging true).InRange := ⟨hr.nonneg, hr.lt_size⟩
  have hl' : (m.debugging true).WithinLimit := ⟨hl.word, hl.le, hl.room⟩
  have hroff : (m.debugging false).InRange := ⟨hr.nonneg, hr.lt_size⟩
  have hwarnings := warnings_of_records hr' hl' rfl p
  refine ⟨execute_debugging hroff hl.room p true, step_records hr' hl' rfl p,
    steps_of_records hr' hl' rfl p, replay_records hr' hl' rfl p rfl rfl, fun k => ?_,
    fun k pointer => ?_⟩
  · rw [Execution.mem_log_iff rfl, hwarnings, List.mem_flatMap]
    simp only [StepRecord.leftEdge_mem_warning, exists_eq_right]
  · rw [Execution.mem_log_iff rfl, hwarnings, List.mem_flatMap]
    simp only [StepRecord.rightEdge_mem_warning]
    constructor
    · rintro ⟨r, hmem, rfl, hpointer⟩
      exact ⟨hmem, hpointer⟩
    · rintro ⟨hmem, hpointer⟩
      exact ⟨_, hmem, rfl, hpointer⟩

/-- A run that moves off both edges and is halted in an empty loop: the loop is recorded under its
own number, and the error reports the one past the limit. -/
theorem execute_traced_halted :
    InRange ⟨#[1], 0, #[], 4, ⟨1, 9, 20, false⟩⟩ ∧
    WithinLimit ⟨#[1], 0, #[], 4, ⟨1, 9, 20, false⟩⟩ ∧
    (execute (debugging ⟨#[1], 0, #[], 4, ⟨1, 9, 20, false⟩⟩ true)
      [.simple .left, .loop [.simple .right, .simple .inc, .loop []]]).ending =
        .halted ⟨21, 20, .loop⟩ ∧
    (execute (debugging ⟨#[1], 0, #[], 4, ⟨1, 9, 20, false⟩⟩ true)
      [.simple .left, .loop [.simple .right, .simple .inc, .loop []]]).records =
        [⟨5, .left, 0⟩, ⟨6, .loop, 0⟩, ⟨7, .right, 0⟩, ⟨8, .inc, 0⟩, ⟨9, .loop, 0⟩] ∧
    .rightEdge 7 0 ∈ (execute (debugging ⟨#[1], 0, #[], 4, ⟨1, 9, 20, false⟩⟩ true)
      [.simple .left, .loop [.simple .right, .simple .inc, .loop []]]).log := by
  have hr : InRange ⟨#[1], 0, #[], 4, ⟨1, 9, 20, false⟩⟩ := by decide
  have hl : WithinLimit ⟨#[1], 0, #[], 4, ⟨1, 9, 20, false⟩⟩ := by decide
  have hrecords : (execute (debugging ⟨#[1], 0, #[], 4, ⟨1, 9, 20, false⟩⟩ true)
      [.simple .left, .loop [.simple .right, .simple .inc, .loop []]]).records =
        [⟨5, .left, 0⟩, ⟨6, .loop, 0⟩, ⟨7, .right, 0⟩, ⟨8, .inc, 0⟩, ⟨9, .loop, 0⟩] := by decide
  have htraced := execute_traced hr hl
    [.simple .left, .loop [.simple .right, .simple .inc, .loop []]] rfl rfl
  refine ⟨hr, hl, by decide, hrecords, ?_⟩
  exact (htraced.2.2.2.2.2 7 0).2 ⟨by rw [hrecords]; decide, by decide⟩

end Machine

end TapeAsm
