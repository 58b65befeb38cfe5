/-!
# Precedence

A setting comes from several sources. A source that leaves it at zero does not set it, and of those
that set it the first wins.
-/

set_option autoImplicit false

namespace TapeAsm.Settings

/-- The first value that is not zero, and zero if there is none. -/
def firstNonzero {α : Type} [DecidableEq α] (zero : α) (values : List α) : α :=
  (values.find? (· ≠ zero)).getD zero

end TapeAsm.Settings
