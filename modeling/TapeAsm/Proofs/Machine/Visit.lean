import TapeAsm.Machine.Execute

/-!
# What a visit can do

A machine whose pointer is on the tape (`Machine.InRange`) never faults: its cell has a value
(`Machine.cell_eq`) and every view of it can be drawn (`Machine.view_ok`). For such machines
`Machine.Visits` says in four rules what visiting an instruction comes to, guards included, and
`Machine.visits_visit` says that every visit follows one of them. What holds of all runs is derived
from these rules and from what `Machine.act`, the effect of one operation, keeps.
-/

set_option autoImplicit false

namespace TapeAsm

/-! ## Words -/

namespace Word

theorem max_eq : max = 9223372036854775807 := rfl

theorem min_eq : min = -9223372036854775808 := rfl

theorem min_le_wrap (x : Int) : min ≤ wrap x :=
  Int.le_bmod (m := Nat.pow 2 64) (by decide)

theorem wrap_le_max (x : Int) : wrap x ≤ max :=
  Int.bmod_le (m := Nat.pow 2 64) (by decide)

theorem wrap_eq_self {x : Int} (h₁ : min ≤ x) (h₂ : x ≤ max) : wrap x = x := by
  rw [max_eq] at h₂
  exact Int.bmod_eq_of_le h₁ (Int.lt_add_one_of_le h₂)

theorem exists_wrap_eq (x : Int) : ∃ k, wrap x = x + 18446744073709551616 * k := by
  obtain ⟨k, hk⟩ := Int.dvd_bmod_sub_self (x := x) (m := Nat.pow 2 64)
  have hp : ((Nat.pow 2 64 : Nat) : Int) = 18446744073709551616 := rfl
  exact ⟨k, by unfold wrap; rw [← hp]; omega⟩

theorem succ_eq {x : Int} (h₁ : min ≤ x) (h₂ : x < max) : succ x = x + 1 :=
  wrap_eq_self (by omega) (by omega)

theorem pred_eq {x : Int} (h₁ : min < x) (h₂ : x ≤ max) : pred x = x - 1 :=
  wrap_eq_self (by omega) (by omega)

end Word

namespace Machine

/-! ## Machines with the pointer on the tape -/

/-- The pointer is on the tape. -/
structure InRange (m : Machine) : Prop where
  nonneg : 0 ≤ m.pointer
  lt_size : m.pointer < m.memory.size

instance (m : Machine) : Decidable m.InRange :=
  decidable_of_iff (0 ≤ m.pointer ∧ m.pointer < m.memory.size)
    ⟨fun ⟨h₁, h₂⟩ => ⟨h₁, h₂⟩, fun ⟨h₁, h₂⟩ => ⟨h₁, h₂⟩⟩

/-- The value under the pointer, zero where there is none. -/
def value (m : Machine) : Int := m.memory.getD m.pointer.toNat 0

theorem cell_eq {m : Machine} (h : m.InRange) : m.cell = .ok m.value := by
  have hlt : m.pointer.toNat < m.memory.size := by have := h.nonneg; have := h.lt_size; omega
  simp [cell, cellAt, value, h.nonneg, Array.getD_eq_getD_getElem?, Array.getElem?_eq_getElem hlt]

theorem marker_ok {pointer : Int} (h₁ : 0 ≤ pointer) (h₂ : pointer < viewSize) :
    ∃ t, marker pointer = .ok t := by
  have h₂ : pointer < 10 := h₂
  have hw : Word.wrap (pointer * 4 + 2) = pointer * 4 + 2 :=
    Word.wrap_eq_self (by rw [Word.min_eq]; omega) (by rw [Word.max_eq]; omega)
  have hl : longest = 281474976710656 := rfl
  rw [marker, hw, if_neg (by omega), if_neg (by omega)]
  exact ⟨_, rfl⟩

/-- The view logged with every step can be drawn. -/
theorem view_ok {m : Machine} (h : m.InRange) : ∃ t, m.view viewSize = .ok t := by
  have hv : viewSize = 10 := rfl
  unfold view
  rw [if_neg (by omega)]
  by_cases hp : m.pointer < min viewSize m.memory.size
  · obtain ⟨t, ht⟩ := marker_ok h.nonneg (by omega)
    simp [hp, ht, bind, Except.bind]
  · simp [hp, bind, Except.bind]

/-! ## Tapes -/

/-- What programs work on: the cells, the pointer, and what has been printed. -/
structure Tape where
  memory : Array Int
  pointer : Int
  output : Array Int
  deriving DecidableEq, Repr

/-- The machine apart from its counter and its configuration. -/
def tape (m : Machine) : Tape := ⟨m.memory, m.pointer, m.output⟩

/-! ## The effect of an operation -/

/-- The machine after the effect of an operation. Loops, and operations without a meaning, have none
of their own. -/
def act (m : Machine) : Op → Machine
  | .inc => if m.value < m.config.maxValue then m.setCell (Word.succ m.value) else m
  | .dec => if 0 < m.value then m.setCell (Word.pred m.value) else m
  | .left => if 0 < m.pointer then { m with pointer := m.pointer - 1 } else m
  | .right => if m.pointer < m.memory.size - 1 then { m with pointer := m.pointer + 1 } else m
  | .print => { m with output := m.output.push (Word.low m.value) }
  | .loop => m
  | .unknown _ _ => m

/-- The warning about an operation that a tape edge keeps from its effect. -/
def warning (m : Machine) : Op → List Event
  | .left => if 0 < m.pointer then [] else [.leftEdge m.steps]
  | .right =>
    if m.pointer < m.memory.size - 1 then [] else [.rightEdge m.steps m.pointer]
  | _ => []

/-- The record of a step, in a machine that logs every step. -/
def record (m : Machine) (op : Op) : List Event :=
  match m.view viewSize with
  | .ok memory => if m.config.debug then [.step m.steps op m.pointer memory] else []
  | .error _ => []

/-- The machine whose counter is one past the limit. -/
def spent (m : Machine) : Machine := { m with steps := Word.succ m.config.maxSteps }

section
variable (m : Machine) (op : Op)

@[simp] theorem act_config : (m.act op).config = m.config := by
  cases op <;> simp only [act, setCell] <;> split <;> rfl

@[simp] theorem act_steps : (m.act op).steps = m.steps := by
  cases op <;> simp only [act, setCell] <;> split <;> rfl

@[simp] theorem act_size : (m.act op).memory.size = m.memory.size := by
  cases op <;> simp only [act, setCell] <;> split <;> simp

theorem act_output : m.output.toList <+: (m.act op).output.toList := by
  cases op <;> simp only [act, setCell] <;> try split
  all_goals simp

end

theorem act_inRange {m : Machine} (h : m.InRange) (op : Op) : (m.act op).InRange := by
  obtain ⟨h₁, h₂⟩ := h
  -- only the moves touch the pointer, and their guards keep it on the tape
  have hp : 0 ≤ (m.act op).pointer ∧ (m.act op).pointer < m.memory.size := by
    cases op with
    | left =>
      by_cases hl : 0 < m.pointer
      · simp only [act, if_pos hl]; omega
      · simp only [act, if_neg hl]; exact ⟨h₁, h₂⟩
    | right =>
      by_cases hr : m.pointer < m.memory.size - 1
      · simp only [act, if_pos hr]; omega
      · simp only [act, if_neg hr]; exact ⟨h₁, h₂⟩
    | inc => simp only [act, setCell]; split <;> exact ⟨h₁, h₂⟩
    | dec => simp only [act, setCell]; split <;> exact ⟨h₁, h₂⟩
    | print => exact ⟨h₁, h₂⟩
    | loop => exact ⟨h₁, h₂⟩
    | unknown _ _ => exact ⟨h₁, h₂⟩
  exact ⟨hp.1, by rw [act_size]; exact hp.2⟩

/-- Of the counter and the configuration, only the greatest value matters to an operation. -/
theorem act_update (m : Machine) (steps : Int) (config : Config)
    (hmax : config.maxValue = m.config.maxValue) (op : Op) :
    act { m with steps, config } op = { m.act op with steps, config } := by
  have hv : value { m with steps, config } = m.value := rfl
  cases op with
  | inc => simp only [act, hv, hmax, setCell]; split <;> rfl
  | dec => simp only [act, hv, setCell]; split <;> rfl
  | left => simp only [act]; split <;> rfl
  | right => simp only [act]; split <;> rfl
  | print => rfl
  | loop => rfl
  | unknown _ _ => rfl

/-- What an operation does to the tape depends on the tape and on the greatest value. -/
theorem act_tape {m m' : Machine} (h : m.tape = m'.tape)
    (hmax : m.config.maxValue = m'.config.maxValue) (op : Op) :
    (m.act op).tape = (m'.act op).tape := by
  have hm : m' = { m with steps := m'.steps, config := m'.config } := by
    simp only [tape, Tape.mk.injEq] at h
    simp only [h]
  rw [hm, m.act_update m'.steps m'.config hmax.symm]
  rfl

/-- Counting a step does not matter to what the operation does. -/
theorem tick_act_tape (m : Machine) (op : Op) : (m.tick.act op).tape = (m.act op).tape := by
  have htape : m.tick.tape = m.tape := rfl
  have hmax : m.tick.config.maxValue = m.config.maxValue := rfl
  exact act_tape htape hmax op

theorem tick_inRange {m : Machine} (h : m.InRange) : m.tick.InRange := ⟨h.nonneg, h.lt_size⟩

/-! ## Visits -/

/-- **What visiting an instruction comes to**, on a machine with the pointer on the tape. -/
inductive Visits (m : Machine) (i : Instr) : Visit → Prop
  /-- The step is past the limit and has no effect. -/
  | limit : m.config.maxSteps < m.tick.steps →
      Visits m i (.stopped m.tick [] (.halted ⟨m.tick.steps, m.config.maxSteps, i.op⟩))
  /-- The operation has its effect; a loop on a zero cell is passed over. -/
  | act : ¬ m.config.maxSteps < m.tick.steps → (i.op = .loop → m.value = 0) →
      Visits m i (.moved (m.tick.act i.op) (m.tick.record i.op ++ m.tick.warning i.op) [])
  /-- A loop begins its first pass. -/
  | enter : ¬ m.config.maxSteps < m.tick.steps → i.op = .loop → m.value ≠ 0 → i.body ≠ [] →
      Visits m i (.moved m.tick (m.tick.record i.op) [⟨i.body, i.body⟩])
  /-- A loop without a body would go on for ever. -/
  | spin : ¬ m.config.maxSteps < m.tick.steps → i.op = .loop → m.value ≠ 0 → i.body = [] →
      Visits m i (.stopped m.tick.spent (m.tick.record i.op)
        (.halted ⟨Word.succ m.config.maxSteps, m.config.maxSteps, .loop⟩))

theorem tick_value (m : Machine) : m.tick.value = m.value := rfl

/-- A visit that ends the run leaves the tape alone. -/
theorem Visits.stopped_tape {m m' : Machine} {i : Instr} {events : List Event} {ending : Ending}
    (h : Visits m i (.stopped m' events ending)) : m'.tape = m.tape := by
  cases h with
  | limit _ => rfl
  | spin _ _ _ _ => rfl

/-- A counted instruction, given what has been logged for it. -/
theorem perform_eq {m : Machine} (h : m.InRange) (events : List Event) (i : Instr)
    (hl : i.op = .loop → m.value = 0) :
    m.perform events i = .moved (m.act i.op) (events ++ m.warning i.op) [] := by
  unfold perform
  rw [cell_eq h]
  cases hop : i.op with
  | inc => simp [act, warning]
  | dec => simp [act, warning]
  | left => by_cases hp : 0 < m.pointer <;> simp [act, warning, hp]
  | right => by_cases hp : m.pointer < m.memory.size - 1 <;> simp [act, warning, hp]
  | print => simp [act, warning]
  | loop => simp [act, warning, hl hop]
  | unknown _ _ => simp [act, warning]

/-- A counted loop on a cell that is not zero. -/
theorem perform_loop {m : Machine} (h : m.InRange) (events : List Event) {i : Instr}
    (hop : i.op = .loop) (hv : m.value ≠ 0) :
    m.perform events i =
      if i.body.isEmpty then .stopped m.spent events
        (.halted ⟨Word.succ m.config.maxSteps, m.config.maxSteps, .loop⟩)
      else .moved m events [⟨i.body, i.body⟩] := by
  simp only [perform, hop, cell_eq h, if_neg hv, spent]

/-- A visit counts the step, checks it, and performs the instruction with the step's record. -/
theorem visit_eq {m : Machine} (h : m.InRange) (i : Instr) :
    m.visit i =
      if m.config.maxSteps < m.tick.steps then
        .stopped m.tick [] (.halted ⟨m.tick.steps, m.config.maxSteps, i.op⟩)
      else m.tick.perform (m.tick.record i.op) i := by
  obtain ⟨t, ht⟩ := view_ok (tick_inRange h)
  have hc : m.tick.config = m.config := rfl
  simp only [visit, record, ht, hc]
  split
  · rfl
  · cases m.config.debug <;> rfl

theorem visits_visit {m : Machine} (h : m.InRange) (i : Instr) : Visits m i (m.visit i) := by
  rw [visit_eq h]
  split
  · exact .limit ‹_›
  · rename_i hlim
    have ht := tick_inRange h
    by_cases hop : i.op = .loop
    · by_cases hv : m.value = 0
      · rw [perform_eq ht _ _ fun _ => hv]
        exact .act hlim fun _ => hv
      · rw [perform_loop ht _ hop hv]
        split
        · exact .spin hlim hop hv (List.isEmpty_iff.1 ‹_›)
        · exact .enter hlim hop hv fun hb => ‹¬ _› (List.isEmpty_iff.2 hb)
    · rw [perform_eq ht _ _ fun hc => absurd hc hop]
      exact .act hlim fun hc => absurd hc hop

end Machine

end TapeAsm
