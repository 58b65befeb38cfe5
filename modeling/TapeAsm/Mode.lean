import TapeAsm.Text.Basic

/-!
# Modes

What the program runs as. Only in production may it talk to a human.
-/

set_option autoImplicit false

namespace TapeAsm

/-- A way to run the program, by its name. -/
structure Mode where
  name : Text
  deriving DecidableEq, Repr

namespace Mode

def development : Mode := ⟨"development"⟩
def production : Mode := ⟨"production"⟩

/-- May the program talk to a human? -/
def interactive (m : Mode) : Bool := m = production

end Mode

end TapeAsm
