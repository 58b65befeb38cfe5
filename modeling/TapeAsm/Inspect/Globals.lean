import TapeAsm.Inspect.Datum

/-!
# Machine globals

The names under which the debugger shows the state of a machine. Two of them are functions of one
number.
-/

set_option autoImplicit false

namespace TapeAsm.Inspect

/-- What a name stands for. -/
inductive Global where
  | datum (datum : Datum)
  /-- A function of the machine and a word that gives a word. -/
  | number (function : Machine → Int → Int)
  /-- A function of the machine and a word that gives a text or runs into a fault. -/
  | text (function : Machine → Int → Except Fault Text)

/-- The names of the machine's state, in order. -/
def globalNames : List Text := ["cell", "config", "memory", "output", "pointer", "steps", "view"]

/-- The cell at an index, zero outside the tape. -/
def cellOrZero (m : Machine) (i : Int) : Int :=
  if 0 ≤ i then m.memory.getD i.toNat 0 else 0

/-- The state of a machine by name. -/
def globals (m : Machine) : List (Text × Global) :=
  [("cell", .number cellOrZero),
   ("config", .datum (.ofConfig m.config)),
   ("memory", .datum (.list (m.memory.toList.map .int))),
   ("output", .datum (.text m.render)),
   ("pointer", .datum (.int m.pointer)),
   ("steps", .datum (.int m.steps)),
   ("view", .text Machine.view)]

/-- What a name stands for. -/
def global? (m : Machine) (name : Text) : Option Global := (globals m).lookup name

/-- The value that a name shows. -/
def Global.show : Global → Except Refusal Value
  | datum d => d.toValue
  | _ => .ok .function

/-- Why a call gives nothing. -/
inductive CallError where
  /-- It cannot be called like this. -/
  | refused
  /-- A number beyond the machine words. -/
  | tooLarge
  | crashed (fault : Fault)
  deriving DecidableEq, Repr

/-- The number that an argument stands for. -/
def argument : Value → Except CallError Int
  | .none => .ok 0
  | .int value => if Word.min ≤ value ∧ value ≤ Word.max then .ok value else .error .tooLarge
  | .function => .error (.crashed .functionArgument)
  | _ => .error .refused

/-- The number that the first of the arguments stands for. -/
def firstArgument : List Value → Except CallError Int
  | [] => .error .refused
  | value :: _ => argument value

/-- Calls a global with arguments of a query, of which only the first counts. -/
def Global.call (m : Machine) (g : Global) (args : List Value) : Except CallError Value :=
  match g with
  | datum _ => .error .refused
  | number function => do return .int (function m (← firstArgument args))
  | text function => do
    match function m (← firstArgument args) with
    | .ok t => .ok (.text t)
    | .error fault => .error (.crashed fault)

end TapeAsm.Inspect
