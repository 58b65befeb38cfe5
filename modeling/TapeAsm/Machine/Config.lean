/-!
# Machine configuration
-/

set_option autoImplicit false

namespace TapeAsm

/-- The tunable parameters of a machine. -/
structure Config where
  /-- The number of tape cells. -/
  cells : Int
  /-- The greatest value of a cell. -/
  maxValue : Int
  /-- The number of steps after which a run is cut short. -/
  maxSteps : Int
  /-- Is every step logged? -/
  debug : Bool
  deriving DecidableEq, Repr

namespace Config

/-- The configuration that sets nothing. -/
def zero : Config := ⟨0, 0, 0, false⟩

/-- The parameters of a machine when nothing else is said. -/
def standard : Config := ⟨30000, 255, 100000, false⟩

/-- A parameter, or its standard value when it is not positive. -/
def positiveOr (standard value : Int) : Int := if value ≤ 0 then standard else value

/-- The configuration with standard values for the numbers that are not positive. -/
def withDefaults (c : Config) : Config where
  cells := positiveOr standard.cells c.cells
  maxValue := positiveOr standard.maxValue c.maxValue
  maxSteps := positiveOr standard.maxSteps c.maxSteps
  debug := c.debug

/-- The number of cells beyond which no memory can hold the tape. -/
def maxCells : Int := Nat.pow 2 45

/-- Can memory hold the tape? -/
def allocatable (c : Config) : Bool := c.withDefaults.cells ≤ maxCells

end Config

end TapeAsm
