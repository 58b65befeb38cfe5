import TapeAsm.Inspect.Globals
import TapeAsm.Tool.Output
import TapeAsm.Tool.Query

/-!
# The console

After a run a human can look at the machine. A run takes any console; the one of the program answers
queries (`Console.simple`). Each query names parts of the state, calls a function or takes an item
of a list; its value is shown at once. A query that fails is answered by where and why. This is a
small part of a scripting language: what it leaves out, such as assignments, statements and
operators between values, is passed over without an answer, and nothing about runs is proved from
it.
-/

set_option autoImplicit false

namespace TapeAsm.Tool

open Inspect

/-- **A console**: what it writes on a machine when a text is typed in, and the fault that it runs
into, if it does. One that never comes to an end runs into the fault `endless`. -/
abbrev Console := Text → Machine → Output × Option Fault

/-- What a query stands for. -/
inductive Thing where
  | value (value : Value)
  /-- A function of the machine. -/
  | function (global : Global)
  /-- The function that gives the length of a list, text or dictionary. -/
  | length

/-- Why a query has no value. -/
inductive Trouble where
  /-- A failure at a place. -/
  | failed (place : Place) (message : Text)
  /-- A failure of a function that has a name. -/
  | failedIn (place : Place) (function message : Text)
  | crashed (fault : Fault)
  /-- Something that the console does not understand. -/
  | unknown
  deriving DecidableEq, Repr

namespace Thing

/-- The value that a thing is. -/
def toValue : Thing → Value
  | value v => v
  | _ => .function

/-- What a name stands for. -/
def ofName (m : Machine) (name : Text) : Except Trouble Thing :=
  match global? m name with
  | some (.datum d) =>
    match d.toValue with
    | .ok v => .ok (value v)
    | .error _ => .error .unknown
  | some g => .ok (function g)
  | none =>
    if name = "len" then .ok length
    else if name = "None" then .ok (value .none)
    else if name = "True" then .ok (value (.bool true))
    else if name = "False" then .ok (value (.bool false))
    else .error .unknown

end Thing

/-- The names that every query may use. -/
def commonNames : List Text :=
  ["None", "True", "False", "abs", "all", "any", "bool", "bytes", "chr", "dict", "dir", "enumerate",
    "fail", "float", "getattr", "hasattr", "hash", "int", "len", "list", "max", "min", "ord",
    "print", "range", "repr", "reversed", "sorted", "str", "tuple", "type", "zip"]

/-- The length of a value that has one. -/
def lengthOf? : Value → Option Nat
  | .text t => some t.length
  | .bytes t => some t.length
  | .list values => some values.length
  | .tuple values => some values.length
  | .dict entries => some entries.length
  | _ => none

/-- The greatest distance at which a list has an index. -/
def maxIndex : Int := Nat.pow 2 31

/-- The position in a sequence of the given size that an index stands for: counted from the end if
it is negative. -/
def position (container : Value) (size : Nat) : Value → Except Text Nat
  | .int index =>
    let size : Int := size
    let position := if index < 0 then index + size else index
    if index < -maxIndex ∨ maxIndex ≤ index then
      .error (container.typeName ++ " index: " ++ Text.ofInt index ++ " out of range")
    else if 0 ≤ position ∧ position < size then .ok position.toNat
    else if size = 0 then
      .error ("index " ++ Text.ofInt index ++ " out of range: empty " ++ container.typeName)
    else
      .error (container.typeName ++ " index " ++ Text.ofInt index ++ " out of range [" ++
        Text.ofInt (-size) ++ ":" ++ Text.ofInt (size - 1) ++ "]")
  | other => .error (container.typeName ++ " index: got " ++ other.typeName ++ ", want int")

/-- The item of a value at an index or under a key. -/
def itemOf (container index : Value) : Except Text Value :=
  match container with
  | .list values => do return values.getD (← position container values.length index) .none
  | .tuple values => do return values.getD (← position container values.length index) .none
  | .text t => do return .text ((t.drop (← position container t.length index)).take 1)
  | .bytes t => do
    return .int ((t.getD (← position container t.length index) 0).toNat : Int)
  | .dict entries =>
    match index.unhashable? with
    | some type => .error ("unhashable type: " ++ type)
    | none =>
      match entries.find? fun e => Value.sameKey e.1 index with
      | some e => .ok e.2
      | none => .error ("key " ++ index.repr ++ " not in dict")
  | other =>
    .error ("unhandled index operation " ++ other.typeName ++ "[" ++ index.typeName ++ "]")

/-- What an operator makes of a value. -/
def applyUnary (operator : Char) (v : Value) : Except Text Value :=
  match operator, v with
  | '-', .int n => .ok (.int (-n))
  | '+', .int n => .ok (.int n)
  | '~', .int n => .ok (.int (-n - 1))
  | _, _ => .error ("unknown unary op: " ++ Text.ofChar operator ++ " " ++ v.typeName)

/-- Calls a thing with arguments. -/
def callThing (m : Machine) (place : Place) (args : List Value) : Thing → Except Trouble Value
  | .value v =>
    .error (.failed place ("invalid call of non-function (" ++ v.typeName ++ ")"))
  | .function g =>
    match g.call m args with
    | .ok v => .ok v
    | .error .refused => .error (.failedIn place "" "call failed")
    | .error .tooLarge => .error (.failedIn place "" "int too large")
    | .error (.crashed fault) => .error (.crashed fault)
  | .length =>
    match args with
    | [v] =>
      match lengthOf? v with
      | some n => .ok (.int n)
      | none =>
        .error (.failedIn place "len" ("len: value of type " ++ v.typeName ++ " has no len"))
    | args =>
      .error (.failedIn place "len" ("len: got " ++ Text.ofNat args.length ++ " arguments, want 1"))

namespace Query

mutual

/-- What a query stands for. -/
def thing (m : Machine) : Query → Except Trouble Thing
  | int value => .ok (.value (.int value))
  | name n _ => Thing.ofName m n
  | unary operator q place => do
    match applyUnary operator (← thing m q).toValue with
    | .ok v => .ok (.value v)
    | .error message => .error (.failed place message)
  | call f args place => do
    let f ← thing m f
    return .value (← callThing m place (← values m args) f)
  | item c i place => do
    let c ← thing m c
    match itemOf c.toValue (← thing m i).toValue with
    | .ok v => .ok (.value v)
    | .error message => .error (.failed place message)

/-- The values of several queries. -/
def values (m : Machine) : List Query → Except Trouble (List Value)
  | [] => .ok []
  | q :: qs => do
    let v := (← thing m q).toValue
    return v :: (← values m qs)

end

end Query

/-- What a query gives. -/
inductive Answer where
  /-- A text to show. -/
  | shown (text : Text)
  | nothing
  | failed (text : Text)
  | crashed (fault : Fault)
  deriving DecidableEq, Repr

namespace Answer

/-- The answer that shows a thing. The value that says nothing is not shown. -/
def ofThing : Thing → Answer
  | .value .none => nothing
  | .value v => shown v.repr
  | .function _ => shown Value.function.repr
  | .length => shown "<built-in function len>"

/-- A failure while evaluating. -/
def traced (place : Place) (cause : Text) : Answer :=
  failed ("Traceback (most recent call last):\n  " ++ place.text ++ ": in <expr>\nError" ++ cause)

/-- The answer to a query that has no value. -/
def ofTrouble : Trouble → Answer
  | .failed place message => traced place (": " ++ message)
  | .failedIn place function message => traced place (" in " ++ function ++ ": " ++ message)
  | .crashed fault => crashed fault
  | .unknown => nothing

/-- The answer to a query that cannot be read. -/
def ofObstacle : Obstacle → Answer
  | .fault place message => failed (place.text ++ ": " ++ message)
  | .incomplete => nothing
  | .unsupported => nothing

end Answer

/-- Does the name stand for something? -/
def defined (m : Machine) (name : Text) : Bool :=
  commonNames.contains name || (global? m name).isSome

/-- The answer to a query. A name that stands for nothing is found before anything is computed. -/
def Query.answer (m : Machine) (q : Query) : Answer :=
  match q.names.find? fun (n, _) => !(defined m n) with
  | some (n, place) => .failed (place.text ++ ": undefined: " ++ n)
  | none =>
    match q.thing m with
    | .ok t => .ofThing t
    | .error trouble => .ofTrouble trouble

/-- The answer to what a line begins, nothing if it is blank. -/
def answerTo (m : Machine) : Option (Except Obstacle Query) → Answer
  | none => .nothing
  | some (.ok q) => q.answer m
  | some (.error o) => .ofObstacle o

/-- An answer before the output that follows it. A crash is the end. -/
def Answer.followedBy (later : Output × Option Fault) : Answer → Output × Option Fault
  | shown t => (⟨.console, t ++ "\n"⟩ :: later.1, later.2)
  | nothing => later
  | failed t => (⟨.errors, t ++ "\n"⟩ :: later.1, later.2)
  | crashed fault => ([], some fault)

/-- The answers to lines of input, up to a crash. -/
def converse (m : Machine) : List Text → Output × Option Fault
  | [] => ([], none)
  | line :: rest =>
    (answerTo m (Query.read line rest).1).followedBy (converse m (Query.read line rest).2)
  termination_by lines => lines.length
  decreasing_by exact Nat.lt_succ_of_le (Query.length_read_le line rest)

/-- The lines of an input; the last one need not be ended. A carriage return ends a line too. -/
def inputLines (input : Text) : List Text :=
  Text.splitOn (Text.ascii '\n')
    (input.map fun b => if b = Text.ascii '\r' then Text.ascii '\n' else b)

/-- The console that answers queries. -/
def Console.simple : Console := fun input m => converse m (inputLines input)

end TapeAsm.Tool
