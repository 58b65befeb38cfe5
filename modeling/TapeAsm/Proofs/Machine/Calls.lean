import TapeAsm.Proofs.Machine.Interpretation
import TapeAsm.Proofs.Machine.Run

/-!
# Machines under calls

A new machine is asked, again and again, to execute programs and to interpret sources, and each call
may succeed or fail. `Machine.calls_sound`: whatever the configuration and the calls, the machine
stays sound (`Machine.Sound`: its configuration is the one it was made with, the tape has as many
cells as that says, the pointer is on the tape and every cell within its bounds), no call takes back
anything printed, and none ends in a fault.

The one outcome of a call besides success and failure is that it goes on for ever, and it takes a
limit that no word exceeds (`Machine.execute_ne_endless`).
-/

set_option autoImplicit false

namespace TapeAsm

/-! ## Calls -/

/-- What a machine can be asked to do. -/
inductive Call where
  | execute (program : Program)
  | interpret (source : Text)

namespace Call

/-- The machine after a call. -/
def machine (m : Machine) : Call → Machine
  | execute program => (m.execute program).machine
  | interpret source => (m.interpret source).1.machine

/-- The fault that ends a call. -/
def fault? (m : Machine) : Call → Option Fault
  | execute program =>
    match (m.execute program).ending with
    | .crashed fault => some fault
    | _ => none
  | interpret source =>
    match (m.interpret source).2 with
    | some (.crashed fault) => some fault
    | _ => none

/-- An interpretation either leaves the machine alone or is the execution of a program. -/
theorem interpret_cases (m : Machine) (source : Text) :
    ((interpret source).machine m = m ∧ (interpret source).fault? m = none) ∨
      ∃ program, (interpret source).machine m = (execute program).machine m ∧
        (interpret source).fault? m = (execute program).fault? m := by
  cases hv : Token.valid (Token.texts source) with
  | false =>
    refine .inl ?_
    simp [machine, fault?, m.interpret_lexical source hv]
  | true =>
    cases hp : Program.parse (Token.texts source) with
    | error e =>
      refine .inl ?_
      simp [machine, fault?, m.interpret_structural source hv hp]
    | ok program =>
      refine .inr ⟨program, ?_⟩
      rw [machine, fault?, machine, fault?, m.interpret_executed source hv hp]
      cases (m.execute program).ending <;> exact ⟨rfl, rfl⟩

end Call

namespace Machine

/-- The machine after calls, one after the other. -/
def after (m : Machine) (calls : List Call) : Machine := calls.foldl Call.machine m

/-! ## Soundness -/

/-- **A sound machine**, made with a configuration. -/
structure Sound (config : Config) (m : Machine) : Prop where
  config_eq : m.config = config.withDefaults
  size_eq : (m.memory.size : Int) = m.config.cells
  inRange : m.InRange
  bounds : ∀ v ∈ m.memory, 0 ≤ v ∧ v ≤ m.config.maxValue

theorem positiveOr_pos {standard value : Int} (h : 0 < standard) :
    0 < Config.positiveOr standard value := by
  unfold Config.positiveOr
  split <;> omega

/-- The numbers of a configuration with defaults are positive. -/
theorem withDefaults_pos (config : Config) :
    0 < config.withDefaults.cells ∧ 0 < config.withDefaults.maxValue ∧
      0 < config.withDefaults.maxSteps :=
  ⟨positiveOr_pos (by decide), positiveOr_pos (by decide), positiveOr_pos (by decide)⟩

/-- The standard values are words, so the defaults need no further assumption. -/
theorem withDefaults_maxValue_le {config : Config} (h : config.maxValue ≤ Word.max) :
    config.withDefaults.maxValue ≤ Word.max := by
  simp only [Config.withDefaults, Config.positiveOr]
  split
  · decide
  · exact h

theorem le_maxSteps_of_withDefaults {config : Config}
    (h : Word.max ≤ config.withDefaults.maxSteps) : Word.max ≤ config.maxSteps := by
  simp only [Config.withDefaults, Config.positiveOr] at h
  split at h
  · exact absurd h (by decide)
  · exact h

theorem new_sound (config : Config) : Sound config (new config) := by
  obtain ⟨hcells, hmax, -⟩ := withDefaults_pos config
  have hsize : ((new config).memory.size : Int) = config.withDefaults.cells := by
    simp [new]
    omega
  refine ⟨rfl, hsize, ⟨Int.le_refl 0, ?_⟩, fun v hv => ?_⟩
  · rw [hsize]
    exact hcells
  · have : v = 0 := by
      simp [new] at hv
      exact hv.2
    exact ⟨by omega, by rw [this]; exact Int.le_of_lt hmax⟩

theorem value_mem {m : Machine} (h : m.InRange) : m.value ∈ m.memory := by
  have hlt : m.pointer.toNat < m.memory.size := by have := h.nonneg; have := h.lt_size; omega
  rw [value, Array.getD_eq_getD_getElem?, Array.getElem?_eq_getElem hlt]
  exact Array.getElem_mem hlt

/-- A cell set to a value within the bounds. -/
theorem bounds_setCell {m : Machine} {lower upper value : Int}
    (h : ∀ v ∈ m.memory, lower ≤ v ∧ v ≤ upper) (hv : lower ≤ value ∧ value ≤ upper) :
    ∀ v ∈ (m.setCell value).memory, lower ≤ v ∧ v ≤ upper := by
  intro v hm
  rcases Array.mem_or_eq_of_mem_setIfInBounds hm with hm | rfl
  · exact h v hm
  · exact hv

/-- **No operation leaves the bounds of a cell.** Where the greatest value is the greatest word, it
is the guard that keeps the increment from wrapping around. -/
theorem bounds_act {m : Machine} (hr : m.InRange) (hmax : m.config.maxValue ≤ Word.max)
    (h : ∀ v ∈ m.memory, 0 ≤ v ∧ v ≤ m.config.maxValue) (op : Op) :
    ∀ v ∈ (m.act op).memory, 0 ≤ v ∧ v ≤ m.config.maxValue := by
  have hv := h m.value (value_mem hr)
  have hmin := Word.min_eq
  cases op with
  | inc =>
    by_cases hlt : m.value < m.config.maxValue
    · rw [act, if_pos hlt, Word.succ_eq (by omega) (by omega)]
      exact bounds_setCell h (by omega)
    · rw [act, if_neg hlt]
      exact h
  | dec =>
    by_cases hpos : 0 < m.value
    · rw [act, if_pos hpos, Word.pred_eq (by omega) (by omega)]
      exact bounds_setCell h (by omega)
    · rw [act, if_neg hpos]
      exact h
  | left => simp only [act]; split <;> exact h
  | right => simp only [act]; split <;> exact h
  | print => exact h
  | loop => exact h
  | unknown _ _ => exact h

theorem act_sound {config : Config} (hmax : config.withDefaults.maxValue ≤ Word.max) {m : Machine}
    (h : Sound config m) (op : Op) : Sound config (m.act op) := by
  refine ⟨?_, ?_, act_inRange h.inRange op, ?_⟩
  · rw [act_config]
    exact h.config_eq
  · rw [act_size, act_config]
    exact h.size_eq
  · rw [act_config]
    exact bounds_act h.inRange (by rw [h.config_eq]; exact hmax) h.bounds op

/-- A step of the counter does not matter. -/
theorem Sound.steps {config : Config} {m : Machine} (h : Sound config m) (steps : Int) :
    Sound config { m with steps } :=
  ⟨h.config_eq, h.size_eq, ⟨h.inRange.nonneg, h.inRange.lt_size⟩, h.bounds⟩

theorem Visits.sound {config : Config} (hmax : config.withDefaults.maxValue ≤ Word.max)
    {m : Machine} {i : Instr} {v : Visit} (hv : Visits m i v) (h : Sound config m) :
    Sound config v.machine := by
  cases hv with
  | limit _ => exact h.steps _
  | act _ _ => exact act_sound hmax (h.steps _) i.op
  | enter _ _ _ _ => exact h.steps _
  | spin _ _ _ _ => exact h.steps _

/-! ## What a call keeps -/

section
variable {config : Config} {m : Machine}

theorem Sound.execute (hmax : config.withDefaults.maxValue ≤ Word.max) (h : Sound config m)
    (program : Program) : Sound config (m.execute program).machine :=
  (runs_execute h.inRange program).keeps (fun hv hm => hv.sound hmax hm) h

theorem output_execute (h : m.InRange) (program : Program) :
    m.output.toList <+: (m.execute program).machine.output.toList := by
  refine (runs_execute h program).keeps
    (I := fun m' => m.output.toList <+: m'.output.toList) (fun hv hm => ?_) (List.prefix_refl _)
  exact hm.trans hv.output

/-- A fault of an execution is that it does not end, for want of a word beyond the limit. -/
theorem fault_execute (h : m.InRange) (program : Program) {fault : Fault}
    (hf : (Call.execute program).fault? m = some fault) :
    fault = .endless ∧ Word.max ≤ m.config.maxSteps := by
  have he : (m.execute program).ending = .crashed fault := by
    simp only [Call.fault?] at hf
    split at hf
    · cases hf
      assumption
    · cases hf
  obtain rfl := (runs_execute h program).crashed he
  refine ⟨rfl, ?_⟩
  by_cases hroom : m.config.maxSteps < Word.max
  · exact absurd he (execute_ne_endless h hroom program)
  · omega

theorem Sound.call (hmax : config.withDefaults.maxValue ≤ Word.max) (h : Sound config m)
    (call : Call) : Sound config (call.machine m) := by
  cases call with
  | execute program => exact h.execute hmax program
  | interpret source =>
    obtain ⟨hm, -⟩ | ⟨program, hm, -⟩ := Call.interpret_cases m source
    · rw [hm]
      exact h
    · rw [hm]
      exact h.execute hmax program

theorem output_call (h : m.InRange) (call : Call) :
    m.output.toList <+: (call.machine m).output.toList := by
  cases call with
  | execute program => exact output_execute h program
  | interpret source =>
    obtain ⟨hm, -⟩ | ⟨program, hm, -⟩ := Call.interpret_cases m source
    · simp [hm]
    · rw [hm]
      exact output_execute h program

theorem fault_call (h : m.InRange) (call : Call) {fault : Fault} (hf : call.fault? m = some fault) :
    fault = .endless ∧ Word.max ≤ m.config.maxSteps := by
  cases call with
  | execute program => exact fault_execute h program hf
  | interpret source =>
    obtain ⟨-, hn⟩ | ⟨program, -, hp⟩ := Call.interpret_cases m source
    · rw [hn] at hf
      cases hf
    · exact fault_execute h program (hp ▸ hf)

theorem Sound.after (hmax : config.withDefaults.maxValue ≤ Word.max) (h : Sound config m)
    (calls : List Call) : Sound config (m.after calls) := by
  induction calls generalizing m with
  | nil => exact h
  | cons call calls ih => exact ih (h.call hmax call)

end

theorem sound_after_new {config : Config} (hmax : config.maxValue ≤ Word.max)
    (calls : List Call) : Sound config ((new config).after calls) :=
  (new_sound config).after (withDefaults_maxValue_le hmax) calls

/-- The tape of a sound machine fits in memory if that of its configuration does. -/
theorem Sound.size_le {config : Config} {m : Machine} (h : Sound config m)
    (hcells : config.allocatable = true) : (m.memory.size : Int) ≤ Config.maxCells := by
  rw [h.size_eq, h.config_eq]
  exact of_decide_eq_true hcells

/-- **A machine stays sound under all calls, and no call ends in a fault.** What a call can do
besides succeeding and failing is to go on for ever, under a limit that no word exceeds. -/
theorem calls_sound {config : Config} (hmax : config.maxValue ≤ Word.max) (calls : List Call) :
    Sound config ((new config).after calls) ∧
    (0 < config.withDefaults.cells ∧ 0 < config.withDefaults.maxValue ∧
      0 < config.withDefaults.maxSteps) ∧
    ∀ call : Call,
      ((new config).after calls).output.toList <+:
        (call.machine ((new config).after calls)).output.toList ∧
      ∀ fault, call.fault? ((new config).after calls) = some fault →
        fault = .endless ∧ Word.max ≤ config.maxSteps := by
  have hsound := sound_after_new hmax calls
  refine ⟨hsound, withDefaults_pos config, fun call => ?_⟩
  refine ⟨output_call hsound.inRange call, fun fault hf => ?_⟩
  obtain ⟨he, hle⟩ := fault_call hsound.inRange call hf
  rw [hsound.config_eq] at hle
  exact ⟨he, le_maxSteps_of_withDefaults hle⟩

/-- A configuration without a size, whose cells may hold every word, under two calls. -/
theorem calls_sound_widest :
    (⟨-3, 9223372036854775807, 0, true⟩ : Config).maxValue ≤ Word.max ∧
      Sound ⟨-3, 9223372036854775807, 0, true⟩
        ((new ⟨-3, 9223372036854775807, 0, true⟩).after
          [.execute [.simple .inc, .loop []], .interpret "LOOP_END"]) :=
  ⟨by decide, (calls_sound (by decide) _).1⟩

end Machine

end TapeAsm
