import TapeAsm.Decimal.Shortest
import TapeAsm.Text.Quoted

/-!
# Debugger values

The values that the debugger shows and computes with, and their text. Dictionaries keep the order in
which their keys were first put in; lists and dictionaries cannot be keys.
-/

set_option autoImplicit false

namespace TapeAsm.Inspect

/-- A value of the debugger. -/
inductive Value where
  | none
  | bool (value : Bool)
  | int (value : Int)
  | float (value : Binary)
  | text (value : Text)
  | bytes (value : Text)
  | list (values : List Value)
  | tuple (values : List Value)
  | dict (entries : List (Value × Value))
  | function
  deriving Repr

namespace Value

/-- The name of a value's type. -/
def typeName : Value → Text
  | none => "NoneType"
  | bool _ => "bool"
  | int _ => "int"
  | float _ => "float"
  | text _ => "string"
  | bytes _ => "bytes"
  | list _ => "list"
  | tuple _ => "tuple"
  | dict _ => "dict"
  | function => "builtin_function_or_method"

/-- Exponents from which on numbers are written with an exponent. -/
def exponentFrom : Int := 6

/-- Exponents below which numbers are written with an exponent. -/
def exponentBelow : Int := -4

/-- Digits with a point behind the first. -/
def pointAfterFirst : Text → Text
  | [] => []
  | [d] => [d]
  | d :: rest => d :: ("." ++ rest)

/-- An exponent with its sign and at least two digits. -/
def exponentText (x : Int) : Text :=
  (if x < 0 then "e-" else "e+") ++ Text.onlyIf (x.natAbs < 10) "0" ++ Text.ofNat x.natAbs

/-- Digits with the exponent of the first one, written positionally. -/
def positional (ds : Text) (x : Int) : Text :=
  if x < 0 then "0." ++ List.replicate (-x - 1).toNat (Text.ascii '0') ++ ds
  else
    let whole := x.toNat + 1
    if ds.length ≤ whole then ds ++ List.replicate (whole - ds.length) (Text.ascii '0') ++ ".0"
    else ds.take whole ++ "." ++ ds.drop whole

/-- The text of a positive finite number: the shortest digits that read back. Whole numbers show a
decimal place unless they are written with an exponent. -/
def finiteText (mantissa : Nat) (exponent : Int) : Text :=
  if mantissa = 0 then "0.0"
  else
    let d := Binary.shortest mantissa exponent
    if d.exponent < exponentBelow ∨ exponentFrom ≤ d.exponent then
      pointAfterFirst d.digits ++ exponentText d.exponent
    else positional d.digits d.exponent

/-- The text of a floating-point number. -/
def floatText : Binary → Text
  | .nan => "nan"
  | .infinity negative => if negative then "-inf" else "+inf"
  | .finite negative mantissa exponent => Text.onlyIf negative "-" ++ finiteText mantissa exponent

mutual

/-- The text of a value. -/
def repr : Value → Text
  | none => "None"
  | bool value => if value then "True" else "False"
  | int value => Text.ofInt value
  | float value => floatText value
  | text value => value.quote
  | bytes value => "b" ++ value.quote
  | list values => "[" ++ Text.join ", " (reprs values) ++ "]"
  | tuple [value] => "(" ++ repr value ++ ",)"
  | tuple values => "(" ++ Text.join ", " (reprs values) ++ ")"
  | dict entries => "\x7b" ++ Text.join ", " (reprEntries entries) ++ "\x7d"
  | function => "<built-in function >"

/-- The texts of values. -/
def reprs : List Value → List Text
  | [] => []
  | value :: rest => repr value :: reprs rest

/-- The texts of entries. -/
def reprEntries : List (Value × Value) → List Text
  | [] => []
  | entry :: rest => reprEntry entry :: reprEntries rest

/-- The text of an entry. -/
def reprEntry : Value × Value → Text
  | (key, value) => repr key ++ ": " ++ repr value

end

mutual

/-- The type that keeps a value from being a key: its own or that of a part. -/
def unhashable? : Value → Option Text
  | list _ => some "list"
  | dict _ => some "dict"
  | tuple values => firstUnhashable? values
  | _ => Option.none

/-- The type that keeps the first such value from being a key. -/
def firstUnhashable? : List Value → Option Text
  | [] => Option.none
  | value :: rest =>
    match unhashable? value with
    | some type => some type
    | Option.none => firstUnhashable? rest

end

/-- Is a floating-point number equal to an integer? -/
def floatIsInt : Binary → Int → Bool
  | .finite negative m e, n =>
    (if negative then -1 else 1) * (m * Nat.pow 2 e.toNat : Int) = n * Nat.pow 2 (-e).toNat
  | _, _ => false

/-- Do two values name the same entry? Numbers count by their value. -/
def sameKey : Value → Value → Bool
  | int a, float b => floatIsInt b a
  | float a, int b => floatIsInt a b
  | float a, float b => floatText a = floatText b || floatIsInt a 0 && floatIsInt b 0
  | a, b => a.typeName = b.typeName && a.repr = b.repr

/-- Entries with a value put in under a key. -/
def insert (key value : Value) : List (Value × Value) → List (Value × Value)
  | [] => [(key, value)]
  | (k, v) :: rest => if sameKey k key then (k, value) :: rest else (k, v) :: insert key value rest

/-- Entries in the order of the texts of their keys. -/
def sortedEntries (entries : List (Value × Value)) : List (Value × Value) :=
  entries.mergeSort fun a b => Text.le a.1.repr b.1.repr

end Value

end TapeAsm.Inspect
