import TapeAsm.Inspect.Value
import TapeAsm.Machine.Basic
import TapeAsm.Program.Instr
import TapeAsm.Program.Token

/-!
# Data to inspect

A datum is a piece of program state before it is shown. Most data have a debugger value; those of a
kind the debugger does not know have none, and neither has a mapping one of whose keys becomes a
list or a dictionary.

Some types come with a method that names their values. What has a name is shown by it, unless it is
a record. A reference has the method of the type that it refers to, also where it refers to nothing
and there is no value to name. Where it is not the values but the references to them that come with
a method, the method is run even on a reference to nothing: this is `named` by the text that it
gives. No type of the program has such a method.
-/

set_option autoImplicit false

namespace TapeAsm.Inspect

/-- The method by which a type names its values. -/
structure Naming where
  method : Text
  type : Text
  deriving DecidableEq, Repr

mutual

/-- A piece of program state. -/
inductive Datum where
  | nothing
  | bool (value : Bool)
  | int (value : Int)
  | float (value : Binary)
  | text (value : Text)
  | bytes (value : Text)
  /-- Character codes. -/
  | codes (values : List Int)
  /-- Something, not a record, of a type that names its values. -/
  | named (name : Text)
  | list (items : List Datum)
  | map (entries : List (Datum × Datum))
  /-- A record, with its name if its type names its values. -/
  | record (name : Option Text) (fields : List Field)
  /-- A reference to a datum. -/
  | reference (target : Datum)
  /-- A reference to nothing, with the naming method, if any, of the values that it could refer to.
  That method takes a value, of which there is none. -/
  | absent (naming : Option Naming)
  /-- A reference to a place that can hold data of any type. -/
  | box (content : Datum)
  | function
  /-- Something of a type that has no debugger value. -/
  | unsupported (type : Text)
  /-- A value that needs no conversion. -/
  | value (value : Value)

/-- A field of a record. -/
inductive Field where
  | mk (name : Text) (exported : Bool) (datum : Datum)

end

instance : Inhabited Datum := ⟨.nothing⟩

/-- Why a datum has no value. -/
inductive Refusal where
  | unsupported (type : Text)
  | unhashable (type : Text)
  | namedAbsent (method type : Text)
  deriving DecidableEq, Repr

/-- The text of a refusal. -/
def Refusal.message : Refusal → Text
  | unsupported type => "unsupported type for starlark: " ++ type
  | unhashable type => "unhashable type: " ++ type
  | namedAbsent method type =>
    "value method " ++ method ++ " called using nil *" ++ type ++ " pointer"

/-- Entries with a value put in under a key, if the value can be a key. -/
def insertKey (key value : Value) (entries : List (Value × Value)) :
    Except Refusal (List (Value × Value)) :=
  match key.unhashable? with
  | some type => .error (.unhashable type)
  | none => .ok (Value.insert key value entries)

namespace Datum

/-- The name that the type of a datum gives it. -/
def name? : Datum → Option Text
  | named name => some name
  | record name _ => name
  | _ => none

mutual

/-- The debugger value of a datum. -/
def toValue : Datum → Except Refusal Value
  | nothing => .ok .none
  | bool v => .ok (.bool v)
  | int v => .ok (.int v)
  | float v => .ok (.float v)
  | text v => .ok (.text v)
  | bytes v => .ok (.bytes v)
  | codes values => .ok (.text (Machine.renderCodes values))
  | named name => .ok (.text name)
  | list items => do .ok (.list (← toValues items))
  | map entries => do .ok (.dict (← mapEntries [] entries))
  | record _ fields => do .ok (.dict (← fieldEntries [] fields))
  | reference target =>
    match target.name? with
    | some name => .ok (.text name)
    | none => toValue target
  | absent none => .ok .none
  | absent (some naming) => .error (.namedAbsent naming.method naming.type)
  | box content => toValue content
  | function => .ok .function
  | unsupported type => .error (.unsupported type)
  | value v => .ok v

/-- The values of items, in order. -/
def toValues : List Datum → Except Refusal (List Value)
  | [] => .ok []
  | item :: rest => do
    let value ← toValue item
    .ok (value :: (← toValues rest))

/-- The entries of a dictionary and those of a mapping put into it. -/
def mapEntries (before : List (Value × Value)) :
    List (Datum × Datum) → Except Refusal (List (Value × Value))
  | [] => .ok before
  | entry :: rest => do mapEntries (← mapEntry before entry) rest

/-- The entries of a dictionary and one of a mapping put into it. -/
def mapEntry (before : List (Value × Value)) :
    Datum × Datum → Except Refusal (List (Value × Value))
  | (key, datum) => do insertKey (← toValue key) (← toValue datum) before

/-- The entries of a dictionary and the exported fields of a record put into it. -/
def fieldEntries (before : List (Value × Value)) :
    List Field → Except Refusal (List (Value × Value))
  | [] => .ok before
  | field :: rest => do fieldEntries (← fieldEntry before field) rest

/-- The entries of a dictionary and a field put into it, if it is exported. -/
def fieldEntry (before : List (Value × Value)) : Field → Except Refusal (List (Value × Value))
  | .mk name exported datum =>
    if exported then do insertKey (.text name) (← toValue datum) before else .ok before

end

/-- An operation shows its name. -/
def ofOp (op : Op) : Datum := named op.name

/-- The method that names operations. -/
def opNaming : Naming := ⟨"github.com/reusee/bfa/bfalang.Op.String", "Op"⟩

/-- A configuration as a record. -/
def ofConfig (c : Config) : Datum :=
  record none [.mk "Cells" true (int c.cells), .mk "MaxValue" true (int c.maxValue),
    .mk "MaxSteps" true (int c.maxSteps), .mk "Debug" true (bool c.debug)]

/-- A token as a record. -/
def ofToken (t : Token) : Datum :=
  record none [.mk "Text" true (text t.text), .mk "Line" true (int t.line)]

mutual

/-- An instruction as a record. -/
def ofInstr : Instr → Datum
  | .node op body => record none [.mk "Op" true (ofOp op), .mk "Body" true (list (ofProgram body))]

/-- The instructions of a program as records. -/
def ofProgram : Program → List Datum
  | [] => []
  | instr :: rest => ofInstr instr :: ofProgram rest

end

end Datum

end TapeAsm.Inspect
