import TapeAsm.Fault
import TapeAsm.Machine.Config
import TapeAsm.Text.Glyph
import TapeAsm.Word

/-!
# The tape machine

A machine is a tape of cells with a pointer, what has been printed so far, and a step counter. Its
fields can be set to anything from outside, so looking at the current cell can fail.
-/

set_option autoImplicit false

namespace TapeAsm

/-- The state of a tape machine. -/
structure Machine where
  memory : Array Int
  pointer : Int
  /-- The printed codes, signed 32-bit words. -/
  output : Array Int
  steps : Int
  config : Config
  deriving DecidableEq, Repr

namespace Machine

/-- A machine with a zeroed tape. -/
def new (config : Config) : Machine where
  memory := .replicate config.withDefaults.cells.toNat 0
  pointer := 0
  output := #[]
  steps := 0
  config := config.withDefaults

/-- The cell at an index. -/
def cellAt (m : Machine) (i : Int) : Except Fault Int :=
  if 0 ≤ i then
    match m.memory[i.toNat]? with
    | some value => .ok value
    | none => .error (.index i m.memory.size)
  else .error (.index i m.memory.size)

/-- The cell under the pointer. -/
def cell (m : Machine) : Except Fault Int := m.cellAt m.pointer

/-- The machine with another value in the cell at an index. -/
def store (m : Machine) (i value : Int) : Except Fault Machine :=
  if 0 ≤ i ∧ i < m.memory.size then
    .ok { m with memory := m.memory.setIfInBounds i.toNat value }
  else .error (.index i m.memory.size)

/-- The machine with another value under the pointer. -/
def setCell (m : Machine) (value : Int) : Machine :=
  { m with memory := m.memory.setIfInBounds m.pointer.toNat value }

/-- The cells that are not zero, with their indexes. -/
def nonzero (m : Machine) : List (Nat × Int) :=
  m.memory.toList.zipIdx.filterMap fun (v, i) => if v = 0 then none else some (i, v)

/-- The longest text that can be asked for. -/
def longest : Int := Nat.pow 2 48

/-- The line under a view: the marker in the last column of the pointed cell. -/
def marker (pointer : Int) : Except Fault Text :=
  let column := Word.wrap (pointer * 4 + 2)
  if column < 0 then .error .negativeCount
  else if longest < column then .error .tooLong
  else .ok (Text.spaces column.toNat ++ "↑")

/-- The first cells of the tape, with a marker under the pointer when it is among them. -/
def view (m : Machine) (size : Int) : Except Fault Text :=
  let size := min size m.memory.size
  if size < 0 then .error (.slice size)
  else do
    let cells := (m.memory.toList.take size.toNat).map fun v => Text.padLeft 3 (Text.ofInt v)
    let mark ← if m.pointer < size then marker m.pointer else .ok []
    .ok (Text.join " " cells ++ "\n" ++ mark)

/-- The character that a printed code stands for. -/
def charOfCode (code : Int) : Char :=
  if 0 ≤ code ∧ code.toNat.isValidChar then Char.ofNat code.toNat else Text.replacement

/-- The text of printed codes. -/
def renderCodes (codes : List Int) : Text := Text.ofChars (codes.map charOfCode)

/-- Everything printed so far. -/
def render (m : Machine) : Text := renderCodes m.output.toList

end Machine

end TapeAsm
