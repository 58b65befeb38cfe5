import TapeAsm.Text.Basic

/-!
# Banner

The title shown at the start of a run, in colour where the output can show it.
-/

set_option autoImplicit false

namespace TapeAsm.Tool

/-- The title of the program. -/
def title : Text := "Brainfuck Assembly interpreter"

/-- A text in bright white on blue. -/
def highlighted (t : Text) : Text := "\x1b[44m\x1b[38;5;15m" ++ t ++ "\x1b[0m"

/-- The banner: the title between two blank lines. -/
def banner (color : Bool) : Text :=
  "\n" ++ (if color then highlighted title else title) ++ "\n\n"

end TapeAsm.Tool
