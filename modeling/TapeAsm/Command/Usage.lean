import TapeAsm.Command.Registry
import TapeAsm.Text.Columns

/-!
# Usage

The usage lists the defined names in byte order, each with the aliases, parameters and description
of its command, in two aligned columns.
-/

set_option autoImplicit false

namespace TapeAsm

/-- A parameter in the usage: its kind without the mark of an optional one. -/
def Command.Kind.placeholder : Command.Kind → Text
  | .optional kind => "<" ++ kind.name ++ ">"
  | kind => "<" ++ kind.name ++ ">"

namespace Registry

variable {σ : Type}

/-- The line of a name, its cells divided by a tab. -/
def usageLine (r : Registry σ) (name : Text) : Text :=
  match r.command? name with
  | none => []
  | some c =>
    Text.join ", " (name :: c.aliases) ++ " " ++
      Text.join " " (c.params.map Command.Kind.placeholder) ++ "\t" ++ c.description ++ "\n"

/-- The usage of a registry. -/
def usage (r : Registry σ) : Text :=
  Text.align ((r.names.mergeSort Text.le).flatMap r.usageLine)

end Registry

end TapeAsm
