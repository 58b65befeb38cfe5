import TapeAsm.Inspect.Globals
import TapeAsm.Proofs.Machine.Marker

/-!
# Functions of the debugger

Two names of the debugger are functions of a number that a human types in. The one gives a cell
and is total: outside the tape it gives zero (`cellOrZero_of_not_mem`). The other gives a view. A
size beyond the tape is cut down to it, and on a tape that fits in memory the marker can be drawn
wherever the pointer is (`Machine.view_of_nonneg`). A negative size is not cut
(`Machine.view_of_neg`), and the call ends in a fault.

`functions_answer` says this of every machine that calls can lead to and of every number.
-/

set_option autoImplicit false

namespace TapeAsm

namespace Machine

open Text

/-! ## Views of every size -/

/-- What a view shows: the first cells, and the marker if the pointer is among them. -/
def shown (m : Machine) (size : Int) : Text :=
  cellLine (m.memory.toList.take size.toNat) ++ "\n" ++
    if m.pointer < size then spaces (4 * m.pointer.toNat + 2) ++ "↑" else []

theorem view_of_neg (m : Machine) {size : Int} (h : size < 0) :
    m.view size = .error (.slice size) := by
  have hmin : min size m.memory.size = size := by omega
  simp only [view]
  rw [hmin, if_pos h]

theorem view_of_nonneg {m : Machine} (hr : m.InRange) (hcells : m.memory.size ≤ Config.maxCells)
    {size : Int} (h : 0 ≤ size) : m.view size = .ok (m.shown size) := by
  have hlt := hr.lt_size
  by_cases hp : m.pointer < size
  · rw [view_eq hr hcells (by omega), shown, if_pos hp]
  · have hmin : min size m.memory.size = size := by omega
    simp only [view]
    rw [hmin, if_neg (by omega), if_neg hp, shown, if_neg hp]
    rfl

end Machine

namespace Inspect

/-! ## Cells -/

theorem cellOrZero_of_mem {m : Machine} {i : Int} (h : 0 ≤ i ∧ i < m.memory.size) :
    m.memory[i.toNat]? = some (cellOrZero m i) := by
  have hindex : i.toNat < m.memory.size := by omega
  simp [cellOrZero, h.1, hindex]

theorem cellOrZero_of_not_mem {m : Machine} {i : Int} (h : ¬ (0 ≤ i ∧ i < m.memory.size)) :
    cellOrZero m i = 0 := by
  unfold cellOrZero
  split
  · rw [Array.getD_eq_getD_getElem?, Array.getElem?_eq_none (by omega)]
    rfl
  · rfl

/-! ## Functions -/

/-- **The functions answer every number but a negative size.** On every machine that calls can lead
to, the function of cells gives the cell at an index of the tape and zero elsewhere, and the
function of views shows the first cells, as many as there are. It runs into a fault exactly if the
size is negative. -/
theorem functions_answer {config : Config} (hvalue : config.maxValue ≤ Word.max)
    (hcells : config.allocatable = true) (calls : List Call) {m : Machine}
    (hm : (Machine.new config).after calls = m) :
    ∃ cell view, global? m "cell" = some (.number cell) ∧ global? m "view" = some (.text view) ∧
      ∀ i : Int,
        (0 ≤ i ∧ i < m.memory.size → m.memory[i.toNat]? = some (cell m i)) ∧
        (¬ (0 ≤ i ∧ i < m.memory.size) → cell m i = 0) ∧
        view m i = m.view i ∧
        (0 ≤ i → view m i = .ok (m.shown i)) ∧
        (i < 0 → view m i = .error (.slice i)) := by
  have hsound : Machine.Sound config m := by
    rw [← hm]
    exact Machine.sound_after_new hvalue calls
  have hsize := hsound.size_le hcells
  refine ⟨cellOrZero, Machine.view, rfl, rfl, fun i => ?_⟩
  exact ⟨cellOrZero_of_mem, cellOrZero_of_not_mem, rfl,
    Machine.view_of_nonneg hsound.inRange hsize, m.view_of_neg⟩

/-- A machine on its second cell. -/
def onSecondCell : Machine := ⟨#[1, 0, 0], 1, #[], 2, ⟨3, 255, 100000, false⟩⟩

/-- The machine is asked for a cell, for one before the tape, for a view longer than any tape and
for one of negative size. -/
theorem functions_answer_queries :
    (⟨3, 255, 0, false⟩ : Config).maxValue ≤ Word.max ∧
    (⟨3, 255, 0, false⟩ : Config).allocatable = true ∧
    (Machine.new ⟨3, 255, 0, false⟩).after [.execute [.simple .inc, .simple .right]] =
      onSecondCell ∧
    ∃ cell view, global? onSecondCell "cell" = some (.number cell) ∧
      global? onSecondCell "view" = some (.text view) ∧
      cell onSecondCell 0 = 1 ∧ cell onSecondCell (-1) = 0 ∧
      view onSecondCell 9223372036854775807 = .ok ("  1   0   0" ++ "\n" ++ "      ↑") ∧
      view onSecondCell (-1) = .error (.slice (-1)) := by
  have hvalue : (⟨3, 255, 0, false⟩ : Config).maxValue ≤ Word.max := by decide
  have hcells : (⟨3, 255, 0, false⟩ : Config).allocatable = true := by decide
  have hm : (Machine.new ⟨3, 255, 0, false⟩).after [.execute [.simple .inc, .simple .right]] =
      onSecondCell := by decide +kernel
  obtain ⟨cell, view, hcell, hview, hanswer⟩ := functions_answer hvalue hcells _ hm
  obtain ⟨hinside, -⟩ := hanswer 0
  obtain ⟨-, houtside, -, -, hnegative⟩ := hanswer (-1)
  obtain ⟨-, -, -, hlong, -⟩ := hanswer 9223372036854775807
  have hfirst : some 1 = some (cell onSecondCell 0) := hinside (by decide)
  have hshown : onSecondCell.shown 9223372036854775807 =
      "  1   0   0" ++ "\n" ++ "      ↑" := by decide +kernel
  rw [hshown] at hlong
  exact ⟨hvalue, hcells, hm, cell, view, hcell, hview, (Option.some.inj hfirst).symm,
    houtside (by decide), hlong (by decide), hnegative (by decide)⟩

/-- The function of views, called with a negative size on a new machine. -/
theorem view_call_negative :
    ∃ view, global? (.new ⟨4, 255, 100, false⟩) "view" = some (.text view) ∧
      view (.new ⟨4, 255, 100, false⟩) (-1) = .error (.slice (-1)) :=
  ⟨Machine.view, rfl, rfl⟩

end Inspect

end TapeAsm
