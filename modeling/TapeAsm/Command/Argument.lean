import TapeAsm.Text.Blank
import TapeAsm.Text.Quoted

/-!
# Command arguments

A parameter has a kind, and an argument is converted to it. Integers are read exactly: a sign for
signed kinds only, decimal digits and nothing else, and a value within the width of the kind. An
optional parameter takes its zero value when no argument is left.
-/

set_option autoImplicit false

namespace TapeAsm.Command

/-- The width of an integer kind. -/
inductive Width where
  /-- The machine's own width, 64 bits. -/
  | word
  | bits8
  | bits16
  | bits32
  | bits64
  deriving DecidableEq, Repr

/-- The number of bits of a width. -/
def Width.bits : Width → Nat
  | word => 64
  | bits8 => 8
  | bits16 => 16
  | bits32 => 32
  | bits64 => 64

/-- How a width is named behind the name of a kind. -/
def Width.suffix : Width → Text
  | word => []
  | width => Text.ofNat width.bits

/-- The kind of a parameter. -/
inductive Kind where
  | bool
  | text
  | int (width : Width)
  | uint (width : Width)
  /-- A kind that no argument converts to. -/
  | other (name : Text)
  /-- A parameter that may be left out. -/
  | optional (kind : Kind)
  deriving DecidableEq, Repr, Inhabited

/-- The name of a kind. -/
def Kind.name : Kind → Text
  | bool => "bool"
  | text => "string"
  | int width => "int" ++ width.suffix
  | uint width => "uint" ++ width.suffix
  | other name => name
  | optional kind => "*" ++ kind.name

/-- The value of a parameter. -/
inductive Arg where
  | bool (value : Bool)
  | text (value : Text)
  | int (value : Int)
  /-- Some value of a kind that no argument converts to. -/
  | other (kind : Text)
  | optional (value : Option Arg)
  deriving Repr, Inhabited

/-- The value of a parameter that nothing has set. -/
def Arg.zero : Kind → Arg
  | .bool => .bool false
  | .text => .text []
  | .int _ => .int 0
  | .uint _ => .int 0
  | .other name => .other name
  | .optional _ => .optional none

/-- What is wrong with a number. -/
inductive NumberFault where
  | syntactic
  | range
  deriving DecidableEq, Repr

/-- The text of a fault in a number. -/
def NumberFault.message : NumberFault → Text
  | syntactic => "invalid syntax"
  | range => "value out of range"

/-- Why an argument does not fit a parameter. -/
inductive ArgError where
  | missing
  | notInt (arg : Text) (fault : NumberFault)
  | notUint (arg : Text) (fault : NumberFault)
  | unsupported (kind : Text)
  deriving DecidableEq, Repr

/-- The text of an argument error. -/
def ArgError.message : ArgError → Text
  | missing => "expecting argument, got nothing"
  | notInt arg fault =>
    "convert " ++ arg ++ " to int: strconv.ParseInt: parsing " ++ arg.quote ++ ": " ++ fault.message
  | notUint arg fault =>
    "convert " ++ arg ++ " to unsigned int: strconv.ParseUint: parsing " ++ arg.quote ++ ": " ++
      fault.message
  | unsupported kind => "unsupported type: " ++ kind

/-- The words that mean yes, in lower case. -/
def trueWords : List Text := ["true", "t", "yes", "y", "on", "1"]

/-- The truth value of a word: yes in one of its spellings, in any case and with any white space
around it, and no for everything else. -/
def readBool (t : Text) : Bool := trueWords.contains (t.trim.map Text.lowerByte)

/-- The value of digits up to a limit, on top of what the digits before them gave. The first byte
that is no digit, or that takes the value over the limit, decides the fault. -/
def readDigits (limit : Nat) : (value : Nat) → Text → Except NumberFault Nat
  | value, [] => .ok value
  | value, b :: rest =>
    if Text.isDigit b then
      let value := value * 10 + (b.toNat - 48)
      if limit < value then .error .range else readDigits limit value rest
    else .error .syntactic

/-- The unsigned number of a width that a text spells. -/
def readUint (width : Width) (t : Text) : Except NumberFault Nat :=
  if t.isEmpty then .error .syntactic else readDigits (Nat.pow 2 width.bits - 1) 0 t

/-- The signed number of a width with a given sign and magnitude. -/
def readMagnitude (width : Width) (negative : Bool) (t : Text) : Except NumberFault Int := do
  let n ← readUint width t
  if negative then
    if n ≤ Nat.pow 2 (width.bits - 1) then .ok (-n) else .error .range
  else if n < Nat.pow 2 (width.bits - 1) then .ok n
  else .error .range

/-- The signed number of a width that a text spells. -/
def readInt (width : Width) : Text → Except NumberFault Int
  | [] => .error .syntactic
  | b :: rest =>
    if b = Text.ascii '-' then readMagnitude width true rest
    else if b = Text.ascii '+' then readMagnitude width false rest
    else readMagnitude width false (b :: rest)

/-- An argument as a value of a kind. -/
def Kind.convert : Kind → Text → Except ArgError Arg
  | bool, t => .ok (.bool (readBool t))
  | text, t => .ok (.text t)
  | int width, t =>
    match readInt width t with
    | .ok value => .ok (.int value)
    | .error fault => .error (.notInt t fault)
  | uint width, t =>
    match readUint width t with
    | .ok value => .ok (.int value)
    | .error fault => .error (.notUint t fault)
  | other name, _ => .error (.unsupported name)
  | optional kind, t => do .ok (.optional (some (← kind.convert t)))

/-- The value of a parameter for which no argument is left. -/
def Kind.whenMissing : Kind → Except ArgError Arg
  | optional kind => .ok (.optional (some (.zero kind)))
  | _ => .error .missing

/-- The values of parameters, each from the next argument. -/
def readArgs : List Kind → List Text → Except ArgError (List Arg)
  | [], _ => .ok []
  | kind :: kinds, [] => do
    let value ← kind.whenMissing
    .ok (value :: (← readArgs kinds []))
  | kind :: kinds, arg :: args => do
    let value ← kind.convert arg
    .ok (value :: (← readArgs kinds args))

end TapeAsm.Command
