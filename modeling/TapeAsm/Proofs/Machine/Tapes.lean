import TapeAsm.Proofs.Machine.Lockstep

/-!
# The same program on another tape

Two changes of the tape that a program cannot notice, or only in a mirror. Both are lockstep
relations (`Machine.Lockstep`), so it is enough to look at single operations.

* `Machine.execute_extended`: further cells behind the last one matter only to a run that comes up
  against the right edge. A run without such a warning is the same on the longer tape, and leaves
  the further cells alone.
* `Machine.execute_mirrored`: with left and right exchanged in the program, and the tape and the
  pointer turned around, a run is the mirror image of what it was. Each edge has its own test in
  the machine; the two agree because both keep the pointer where it is exactly on the outermost
  cell.
-/

set_option autoImplicit false

namespace TapeAsm

/-- The operation with left and right exchanged. -/
def Op.mirrored : Op → Op
  | .left => .right
  | .right => .left
  | op => op

namespace Event

/-- The event with left and right exchanged, on a tape of the given size. -/
def mirrored (size : Nat) : Event → Event
  | .leftEdge number => .rightEdge number (size - 1)
  | .rightEdge number _ => .leftEdge number
  | event => event

/-- Does the event warn of the left edge? -/
def isLeftEdge : Event → Bool
  | .leftEdge _ => true
  | _ => false

/-- Does the event warn of the right edge? -/
def isRightEdge : Event → Bool
  | .rightEdge _ _ => true
  | _ => false

theorem isWarning_of_isLeftEdge {event : Event} (h : event.isLeftEdge = true) :
    event.isWarning = true := by
  cases event with
  | leftEdge _ => rfl
  | _ => cases h

theorem isWarning_of_isRightEdge {event : Event} (h : event.isRightEdge = true) :
    event.isWarning = true := by
  cases event with
  | rightEdge _ _ => rfl
  | _ => cases h

end Event

namespace Machine

/-! ## Further cells -/

/-- The machine with further cells behind its last one. -/
def extended (m : Machine) (cells : Array Int) : Machine := { m with memory := m.memory ++ cells }

section
variable {m : Machine} (hr : m.InRange) (cells : Array Int)
include hr

theorem toNat_pointer_lt : m.pointer.toNat < m.memory.size := by
  obtain ⟨hnonneg, hlt⟩ := hr
  omega

theorem extended_inRange : (m.extended cells).InRange := by
  obtain ⟨hnonneg, hlt⟩ := hr
  refine ⟨hnonneg, ?_⟩
  simp only [extended, Array.size_append]
  omega

theorem extended_value : (m.extended cells).value = m.value := by
  have hlt := toNat_pointer_lt hr
  simp only [value, extended, Array.getD_eq_getD_getElem?, Array.getElem?_append_left hlt]

theorem extended_setCell (value : Int) :
    (m.extended cells).setCell value = (m.setCell value).extended cells := by
  have hlt := toNat_pointer_lt hr
  simp only [setCell, extended, Array.setIfInBounds_append_left hlt]

/-- An operation that the right edge does not hold back does the same on the longer tape. -/
theorem extended_act {op : Op} (ha : ∀ w ∈ m.warning op, w.isRightEdge = false) :
    (m.extended cells).act op = (m.act op).extended cells ∧
      (m.extended cells).warning op = m.warning op := by
  have hvalue := extended_value hr cells
  cases op with
  | inc =>
    refine ⟨?_, rfl⟩
    simp only [act, hvalue, extended_setCell hr cells, apply_ite (extended · cells)]
    rfl
  | dec =>
    refine ⟨?_, rfl⟩
    simp only [act, hvalue, extended_setCell hr cells, apply_ite (extended · cells)]
  | left =>
    refine ⟨?_, rfl⟩
    simp only [act, apply_ite (extended · cells)]
    rfl
  | right =>
    have hmoves : m.pointer < m.memory.size - 1 := by
      apply Decidable.byContradiction
      intro hedge
      rw [warning, if_neg hedge] at ha
      cases ha _ (List.mem_singleton.2 rfl)
    have hmoves' : (m.extended cells).pointer < (m.extended cells).memory.size - 1 := by
      simp only [extended, Array.size_append]
      omega
    constructor
    · rw [act, act, if_pos hmoves, if_pos hmoves']
      rfl
    · rw [warning, warning, if_pos hmoves, if_pos hmoves']
  | print =>
    refine ⟨?_, rfl⟩
    simp only [act, hvalue]
    rfl
  | loop => exact ⟨rfl, rfl⟩
  | unknown _ _ => exact ⟨rfl, rfl⟩

end

/-- A machine and the one with further cells go side by side, away from the right edge. -/
theorem lockstep_extended (cells : Array Int) :
    Lockstep (fun m m' => m.InRange ∧ m' = m.extended cells) (fun w => w.isRightEdge = false)
      id id where
  inRange := by
    rintro m m' ⟨hr, rfl⟩
    exact ⟨hr, extended_inRange hr cells⟩
  value := by
    rintro m m' ⟨hr, rfl⟩
    exact extended_value hr cells
  steps := by
    rintro m m' ⟨-, rfl⟩
    rfl
  limit := by
    rintro m m' ⟨-, rfl⟩
    rfl
  counted := by
    rintro m m' ⟨hr, rfl⟩ steps
    exact ⟨⟨hr.nonneg, hr.lt_size⟩, rfl⟩
  loop := Iff.rfl
  act := by
    rintro m m' ⟨hr, rfl⟩ op ha
    obtain ⟨hact, hwarning⟩ := extended_act hr cells ha
    refine ⟨⟨act_inRange hr op, hact⟩, ?_⟩
    rw [List.map_id]
    exact hwarning

theorem Visits.size {m : Machine} {i : Instr} {v : Visit} (h : Visits m i v) :
    v.machine.memory.size = m.memory.size := by
  cases h with
  | limit _ => rfl
  | act _ _ => exact act_size m.tick i.op
  | enter _ _ _ _ => rfl
  | spin _ _ _ _ => rfl

theorem size_execute {m : Machine} (hr : m.InRange) (p : Program) :
    (m.execute p).machine.memory.size = m.memory.size :=
  (runs_execute hr p).keeps (I := fun m' => m'.memory.size = m.memory.size)
    (fun hv h => hv.size.trans h) rfl

/-- Where an execution crashes, it goes on for ever, for want of a word beyond the limit. -/
theorem crashed_execute {m : Machine} (hr : m.InRange) (p : Program) {fault : Fault}
    (h : (m.execute p).ending = .crashed fault) :
    fault = .endless ∧ Word.max ≤ m.config.maxSteps := by
  apply fault_execute hr p
  simp only [Call.fault?, h]

/-- **Cells that a run does not come up against do not matter to it.** Where no move is held back by
the right edge, the program ends alike on the tape with further cells, with the same pointer,
output, counter and warnings. The cells of the shorter tape have the same values afterwards and the
further ones those that they had. Either run returns, unless no word exceeds the limit. -/
theorem execute_extended {m : Machine} (hr : m.InRange) (p : Program) (cells : Array Int)
    {e e' : Execution} (he : m.execute p = e) (he' : (m.extended cells).execute p = e')
    (hedge : ∀ step pointer : Int, .rightEdge step pointer ∉ e.log) :
    e'.ending = e.ending ∧ e'.machine.pointer = e.machine.pointer ∧
    e'.machine.output = e.machine.output ∧ e'.machine.steps = e.machine.steps ∧
    e'.warnings = e.warnings ∧
    e.machine.memory.size = m.memory.size ∧ e'.machine.memory = e.machine.memory ++ cells ∧
    ∀ fault, e.ending = .crashed fault → fault = .endless ∧ Word.max ≤ m.config.maxSteps := by
  subst he he'
  have hallowed : ∀ w ∈ (m.execute p).warnings, w.isRightEdge = false := by
    intro w hw
    cases w with
    | rightEdge step pointer => exact absurd ((Execution.mem_log_iff rfl).2 hw) (hedge step pointer)
    | _ => rfl
  obtain ⟨⟨-, hmachine⟩, hending, hwarnings⟩ :=
    (lockstep_extended cells).execute ⟨hr, rfl⟩ p hallowed
  rw [Program.rename_id] at hmachine hending hwarnings
  rw [Ending.rename_id] at hending
  rw [List.map_id] at hwarnings
  rw [hmachine]
  exact ⟨hending, rfl, rfl, rfl, hwarnings, size_execute hr p, rfl,
    fun _ hcrash => crashed_execute hr p hcrash⟩

/-- A program that moves within two cells, with a warning at the left edge, and is halted in an
empty loop. -/
theorem execute_extended_halted :
    InRange ⟨#[1, 0], 0, #[], 0, ⟨2, 9, 50, true⟩⟩ ∧
    (execute ⟨#[1, 0], 0, #[], 0, ⟨2, 9, 50, true⟩⟩
      [.simple .left, .loop [.simple .right, .simple .inc, .simple .left, .simple .dec],
        .simple .right, .loop []]).ending = .halted ⟨51, 50, .loop⟩ ∧
    (execute ⟨#[1, 0, 7], 0, #[], 0, ⟨2, 9, 50, true⟩⟩
      [.simple .left, .loop [.simple .right, .simple .inc, .simple .left, .simple .dec],
        .simple .right, .loop []]).machine.memory = #[0, 1, 7] := by
  have hr : InRange ⟨#[1, 0], 0, #[], 0, ⟨2, 9, 50, true⟩⟩ := by decide
  have hwarnings : (execute ⟨#[1, 0], 0, #[], 0, ⟨2, 9, 50, true⟩⟩
      [.simple .left, .loop [.simple .right, .simple .inc, .simple .left, .simple .dec],
        .simple .right, .loop []]).warnings = [.leftEdge 1] := by decide
  have hextended := execute_extended hr
    [.simple .left, .loop [.simple .right, .simple .inc, .simple .left, .simple .dec],
      .simple .right, .loop []] #[7] rfl rfl (fun step pointer => by
        rw [Execution.mem_log_iff rfl, hwarnings]
        simp)
  refine ⟨hr, by decide, ?_⟩
  obtain ⟨-, -, -, -, -, -, hmemory, -⟩ := hextended
  exact hmemory.trans (by decide)

/-! ## The mirror -/

/-- The machine with its tape turned around, and the pointer on the same cell as before. -/
def mirrored (m : Machine) : Machine :=
  { m with memory := m.memory.reverse, pointer := m.memory.size - 1 - m.pointer }

theorem reverse_setIfInBounds (memory : Array Int) {i : Nat} (h : i < memory.size) (value : Int) :
    (memory.setIfInBounds i value).reverse =
      memory.reverse.setIfInBounds (memory.size - 1 - i) value := by
  apply Array.ext_getElem?
  intro j
  rcases Nat.lt_or_ge j memory.size with hj | hj
  · have hsame : i = memory.size - 1 - j ↔ memory.size - 1 - i = j := by omega
    have hi : memory.size - 1 - i < memory.size := by omega
    rw [Array.getElem?_reverse (by simpa using hj), Array.size_setIfInBounds,
      Array.getElem?_setIfInBounds, Array.getElem?_setIfInBounds, Array.getElem?_reverse hj,
      Array.size_reverse]
    simp only [hsame, h, hi, if_true]
  · rw [Array.getElem?_eq_none (by simpa using hj), Array.getElem?_eq_none (by simpa using hj)]

-- The two edges have tests of their own, and each is the mirror image of the other.
theorem mirrored_left_iff {m : Machine} :
    0 < m.mirrored.pointer ↔ m.pointer < m.memory.size - 1 := by
  simp only [mirrored]
  omega

theorem mirrored_right_iff {m : Machine} :
    m.mirrored.pointer < m.mirrored.memory.size - 1 ↔ 0 < m.pointer := by
  simp only [mirrored, Array.size_reverse]
  omega

section
variable {m : Machine} (hr : m.InRange)
include hr

theorem mirrored_inRange : m.mirrored.InRange := by
  obtain ⟨hnonneg, hlt⟩ := hr
  constructor
  · simp only [mirrored]
    omega
  · simp only [mirrored, Array.size_reverse]
    omega

theorem toNat_mirrored_pointer :
    m.mirrored.pointer.toNat = m.memory.size - 1 - m.pointer.toNat := by
  obtain ⟨hnonneg, hlt⟩ := hr
  simp only [mirrored]
  omega

theorem mirrored_value : m.mirrored.value = m.value := by
  have hlt := toNat_pointer_lt hr
  have hindex : m.memory.size - 1 - (m.memory.size - 1 - m.pointer.toNat) = m.pointer.toNat := by
    omega
  rw [value, value, toNat_mirrored_pointer hr, Array.getD_eq_getD_getElem?,
    Array.getD_eq_getD_getElem?, mirrored, Array.getElem?_reverse (by omega), hindex]

theorem mirrored_setCell (value : Int) :
    m.mirrored.setCell value = (m.setCell value).mirrored := by
  have hlt := toNat_pointer_lt hr
  have hreverse := reverse_setIfInBounds m.memory hlt value
  rw [setCell, toNat_mirrored_pointer hr]
  simp only [mirrored, setCell, Array.size_setIfInBounds, hreverse]

theorem mirrored_act (op : Op) : m.mirrored.act op.mirrored = (m.act op).mirrored := by
  have hvalue := mirrored_value hr
  cases op with
  | inc =>
    simp only [Op.mirrored, act, hvalue, mirrored_setCell hr, apply_ite mirrored]
    rfl
  | dec => simp only [Op.mirrored, act, hvalue, mirrored_setCell hr, apply_ite mirrored]
  | left =>
    simp only [Op.mirrored, act, mirrored_right_iff, apply_ite mirrored]
    congr 1
    simp only [mirrored]
    congr 1
    omega
  | right =>
    simp only [Op.mirrored, act, mirrored_left_iff, apply_ite mirrored]
    congr 1
    simp only [mirrored]
    congr 1
    omega
  | print =>
    simp only [Op.mirrored, act, hvalue]
    rfl
  | loop => rfl
  | unknown _ _ => rfl

theorem mirrored_warning (op : Op) :
    m.mirrored.warning op.mirrored = (m.warning op).map (Event.mirrored m.memory.size) := by
  cases op with
  | left =>
    simp only [Op.mirrored, warning, mirrored_right_iff]
    split
    · rfl
    · have hpointer : m.pointer = 0 := by
        have := hr.nonneg
        omega
      simp [Event.mirrored, mirrored, hpointer]
  | right =>
    simp only [Op.mirrored, warning, mirrored_left_iff]
    split <;> rfl
  | _ => rfl

end

theorem lockstep_mirrored (size : Nat) :
    Lockstep (fun m m' => m.InRange ∧ m.memory.size = size ∧ m' = m.mirrored) (fun _ => True)
      Op.mirrored (Event.mirrored size) where
  inRange := by
    rintro m m' ⟨hr, -, rfl⟩
    exact ⟨hr, mirrored_inRange hr⟩
  value := by
    rintro m m' ⟨hr, -, rfl⟩
    exact mirrored_value hr
  steps := by
    rintro m m' ⟨-, -, rfl⟩
    rfl
  limit := by
    rintro m m' ⟨-, -, rfl⟩
    rfl
  counted := by
    rintro m m' ⟨hr, hsize, rfl⟩ steps
    exact ⟨⟨hr.nonneg, hr.lt_size⟩, hsize, rfl⟩
  loop := by
    intro op
    cases op <;> simp [Op.mirrored]
  act := by
    rintro m m' ⟨hr, rfl, rfl⟩ op -
    exact ⟨⟨act_inRange hr op, act_size m op, mirrored_act hr op⟩, mirrored_warning hr op⟩

theorem countP_log (e : Execution) {p : Event → Bool}
    (hp : ∀ event, p event = true → event.isWarning = true) :
    e.log.countP p = e.warnings.countP p := by
  rw [Execution.warnings, List.countP_filter, ← Array.countP_toList]
  refine List.countP_congr fun event _ => ?_
  rw [Bool.and_eq_true]
  exact ⟨fun h => ⟨h, hp event h⟩, fun h => h.1⟩

/-- Each warning at one edge answers a warning at the other. -/
theorem countP_mirrored {size : Nat} {e e' : Execution}
    (h : e'.warnings = e.warnings.map (Event.mirrored size)) :
    e'.log.countP Event.isLeftEdge = e.log.countP Event.isRightEdge ∧
      e'.log.countP Event.isRightEdge = e.log.countP Event.isLeftEdge := by
  have hleft : Event.isLeftEdge ∘ Event.mirrored size = Event.isRightEdge := by
    funext event
    cases event <;> rfl
  have hright : Event.isRightEdge ∘ Event.mirrored size = Event.isLeftEdge := by
    funext event
    cases event <;> rfl
  have hcountLeft (e : Execution) := countP_log e fun _ h => Event.isWarning_of_isLeftEdge h
  have hcountRight (e : Execution) := countP_log e fun _ h => Event.isWarning_of_isRightEdge h
  constructor
  · rw [hcountLeft, hcountRight, h, List.countP_map, hleft]
  · rw [hcountLeft, hcountRight, h, List.countP_map, hright]

/-- **Left and right are mirror images.** With the two exchanged throughout the program, and the
machine turned around, a run ends alike, prints the same and takes the same steps, and it leaves the
tape and the pointer turned around. Each warning at one edge has become one at the other. Either run
returns, unless no word exceeds the limit. -/
theorem execute_mirrored {m : Machine} (hr : m.InRange) (p : Program) {e e' : Execution}
    (he : m.execute p = e) (he' : m.mirrored.execute (p.rename Op.mirrored) = e') :
    e'.ending = e.ending.rename Op.mirrored ∧
    e'.machine.output = e.machine.output ∧ e'.machine.steps = e.machine.steps ∧
    e'.machine.memory = e.machine.memory.reverse ∧
    e'.machine.pointer = m.memory.size - 1 - e.machine.pointer ∧
    e'.log.countP Event.isLeftEdge = e.log.countP Event.isRightEdge ∧
    e'.log.countP Event.isRightEdge = e.log.countP Event.isLeftEdge ∧
    ∀ fault, e.ending = .crashed fault → fault = .endless ∧ Word.max ≤ m.config.maxSteps := by
  subst he he'
  obtain ⟨⟨-, hsize, hmachine⟩, hending, hwarnings⟩ :=
    (lockstep_mirrored m.memory.size).execute ⟨hr, rfl, rfl⟩ p fun _ _ => trivial
  obtain ⟨hleft, hright⟩ := countP_mirrored hwarnings
  refine ⟨hending, ?_, ?_, ?_, ?_, hleft, hright, fun _ hcrash => crashed_execute hr p hcrash⟩
  · rw [hmachine]
    rfl
  · rw [hmachine]
    rfl
  · rw [hmachine]
    rfl
  · rw [hmachine, ← hsize]
    rfl

/-- A loop between both edges of two cells, and a move that the limit refuses. -/
theorem execute_mirrored_halted :
    InRange ⟨#[1, 0], 1, #[], 0, ⟨2, 9, 6, true⟩⟩ ∧
    (execute ⟨#[1, 0], 1, #[], 0, ⟨2, 9, 6, true⟩⟩
      [.simple .right, .simple .left, .loop [.simple .dec, .simple .left], .simple .left,
        .simple .left]).warnings = [.rightEdge 1 1, .leftEdge 5, .leftEdge 6] ∧
    (execute ⟨#[0, 1], 0, #[], 0, ⟨2, 9, 6, true⟩⟩
      [.simple .left, .simple .right, .loop [.simple .dec, .simple .right], .simple .right,
        .simple .right]).ending = .halted ⟨7, 6, .right⟩ ∧
    (execute ⟨#[0, 1], 0, #[], 0, ⟨2, 9, 6, true⟩⟩
      [.simple .left, .simple .right, .loop [.simple .dec, .simple .right], .simple .right,
        .simple .right]).log.countP Event.isRightEdge = 2 := by
  have hr : InRange ⟨#[1, 0], 1, #[], 0, ⟨2, 9, 6, true⟩⟩ := by decide
  obtain ⟨hending, -, -, -, -, -, hcount, -⟩ := execute_mirrored hr
    [.simple .right, .simple .left, .loop [.simple .dec, .simple .left], .simple .left,
      .simple .left] rfl rfl
  have hmirrored : mirrored ⟨#[1, 0], 1, #[], 0, ⟨2, 9, 6, true⟩⟩ =
      ⟨#[0, 1], 0, #[], 0, ⟨2, 9, 6, true⟩⟩ := by simp [mirrored]
  rw [hmirrored] at hending hcount
  exact ⟨hr, by decide, hending.trans (by decide), hcount.trans (by decide)⟩

end Machine

end TapeAsm
