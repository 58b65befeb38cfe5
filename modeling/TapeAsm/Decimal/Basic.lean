import TapeAsm.Text.Basic

/-!
# Decimal numbers in text

Reading a decimal number: an optional sign, digits with at most one point among them, and an
optional exponent. An underscore may stand between two digits.
-/

set_option autoImplicit false

namespace TapeAsm

/-- A decimal number: the mantissa times a power of ten, with a sign. -/
structure Decimal where
  negative : Bool
  mantissa : Nat
  exponent : Int
  deriving DecidableEq, Repr

namespace Decimal

open Text (ascii)

/-- Splits off a sign: is it a minus? -/
def sign : Text → Bool × Text
  | b :: rest =>
    if b = ascii '-' then (true, rest)
    else if b = ascii '+' then (false, rest)
    else (false, b :: rest)
  | [] => (false, [])

/-- Splits off the digits at the beginning. -/
def digits (t : Text) : Text × Text := (t.takeWhile Text.isDigit, t.dropWhile Text.isDigit)

/-- Does each underscore stand between two digits? -/
def underscoresBetweenDigits : (afterDigit : Bool) → Text → Bool
  | _, [] => true
  | afterDigit, b :: rest =>
    if b = ascii '_' then
      afterDigit && (rest.head?.any Text.isDigit) && underscoresBetweenDigits false rest
    else underscoresBetweenDigits (Text.isDigit b) rest

/-- The value of exponent digits. Beyond five of them the size no longer matters. -/
def exponentValue (t : Text) : Nat :=
  t.foldl (fun e b => if e < 10000 then e * 10 + (b.toNat - 48) else e) 0

/-- The exponent that ends a number, zero if there is none. -/
def exponent? : Text → Option Int
  | [] => some 0
  | mark :: rest =>
    if Text.lowerByte mark = ascii 'e' then
      let (negative, rest) := sign rest
      let (ds, rest) := digits rest
      if ds.isEmpty ∨ !rest.isEmpty then none
      else some (if negative then -(exponentValue ds : Int) else exponentValue ds)
    else none

/-- The digits after a decimal point. -/
def fraction : Text → Text × Text
  | b :: rest => if b = ascii '.' then digits rest else ([], b :: rest)
  | [] => ([], [])

/-- The number that a text without underscores spells. -/
def readPlain? (t : Text) : Option Decimal := do
  let (negative, rest) := sign t
  let (whole, rest) := digits rest
  let (part, rest) := fraction rest
  if whole.isEmpty ∧ part.isEmpty then none
  else
    let e ← exponent? rest
    let mantissa ← Text.digitsValue? 10 (whole ++ part)
    some ⟨negative, mantissa, e - part.length⟩

/-- The number that a text spells. -/
def read? (t : Text) : Option Decimal :=
  if underscoresBetweenDigits false t then readPlain? (t.filter (· ≠ ascii '_')) else none

/-- The number of digits of the mantissa. -/
def size (d : Decimal) : Nat := (Nat.toDigits 10 d.mantissa).length

end Decimal

end TapeAsm
