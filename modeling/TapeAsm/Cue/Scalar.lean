import TapeAsm.Cue.Number

/-!
# Scalars

The data of a configuration file that have no parts, the kinds of data, and the order of those
scalars that have one.
-/

set_option autoImplicit false

namespace TapeAsm.Cue

/-- The kind of a datum. -/
inductive Kind where
  | null
  | bool
  | int
  | float
  | text
  | bytes
  | list
  | struct
  deriving DecidableEq, Repr

/-- All kinds of data. -/
def Kind.all : List Kind := [null, bool, int, float, text, bytes, list, struct]

/-- A datum without parts. -/
inductive Scalar where
  | null
  | bool (value : Bool)
  | number (value : Number)
  | text (value : Text)
  | bytes (value : Text)
  deriving DecidableEq, Repr

/-- The kind of a scalar. -/
def Scalar.kind : Scalar → Kind
  | null => .null
  | bool _ => .bool
  | number n => if n.isInt then .int else .float
  | text _ => .text
  | bytes _ => .bytes

/-- The order of two texts, byte by byte. -/
def textOrder (a b : Text) : Ordering :=
  if a = b then .eq else if a.lex b then .lt else .gt

/-- The order of two scalars, if they have one. -/
def Scalar.order? : Scalar → Scalar → Option Ordering
  | number a, number b => some (a.order b)
  | text a, text b => some (textOrder a b)
  | bytes a, bytes b => some (textOrder a b)
  | _, _ => none

/-- Are two scalars the same datum? Numbers are compared by kind and value. -/
def Scalar.same : Scalar → Scalar → Bool
  | number a, number b => a.isInt = b.isInt && a.order b = .eq
  | a, b => a = b

end TapeAsm.Cue
