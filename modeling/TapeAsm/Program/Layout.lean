import TapeAsm.Program.Instr

/-!
# Program text

The canonical spelling of a program: one keyword a line, the lines of a loop body indented by two
more spaces than the loop.
-/

set_option autoImplicit false

namespace TapeAsm

/-- One line of program text at a nesting depth. -/
def layoutLine (depth : Nat) (word : Text) : Text :=
  Text.spaces (2 * depth) ++ word ++ Text.newline

mutual

/-- The lines of an instruction at a nesting depth. -/
def Instr.layout (depth : Nat) : Instr → Text
  | .node .loop body =>
    layoutLine depth Keyword.loopStart.text ++ Program.layout (depth + 1) body ++
      layoutLine depth Keyword.loopEnd.text
  | .node op _ => layoutLine depth op.name

/-- The lines of a program at a nesting depth. -/
def Program.layout (depth : Nat) : Program → Text
  | [] => []
  | instr :: rest => instr.layout depth ++ Program.layout depth rest

end

/-- The text of a program. -/
def Program.format (program : Program) : Text := program.layout 0

end TapeAsm
