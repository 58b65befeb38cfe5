import TapeAsm.Program.Op

/-!
# Program trees

A program is a list of instructions, and an instruction is an operation with a body. Only the body
of a loop is ever looked at: by execution, by the measures `depth` and `count`, and by the layout.
-/

set_option autoImplicit false

namespace TapeAsm

/-- A node of a program tree. -/
inductive Instr where
  | node (op : Op) (body : List Instr)
  deriving Repr, Inhabited

/-- A program: the instructions of one level, in order. -/
abbrev Program := List Instr

namespace Instr

/-- The operation of an instruction. -/
def op : Instr → Op
  | node op _ => op

/-- The body of an instruction. -/
def body : Instr → Program
  | node _ body => body

/-- An instruction without a body. -/
def simple (op : Op) : Instr := node op []

/-- The loop over a body. -/
def loop (body : Program) : Instr := node .loop body

end Instr

mutual

/-- The number of loops around the innermost one of an instruction, itself included. -/
def Instr.depth : Instr → Nat
  | .node .loop body => 1 + Program.depth body
  | .node _ _ => 0

/-- The greatest nesting depth of loops in a program. -/
def Program.depth : Program → Nat
  | [] => 0
  | instr :: rest => max instr.depth (Program.depth rest)

end

mutual

/-- The number of nodes of an instruction, the body of a loop included. -/
def Instr.count : Instr → Nat
  | .node .loop body => 1 + Program.count body
  | .node _ _ => 1

/-- The number of nodes in a program, loops included. -/
def Program.count : Program → Nat
  | [] => 0
  | instr :: rest => instr.count + Program.count rest

end

end TapeAsm
