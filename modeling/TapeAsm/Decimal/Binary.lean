import TapeAsm.Decimal.Basic

/-!
# Binary floating-point numbers

A finite number is a mantissa times a power of two. A format bounds both; a decimal is rounded to
the nearest number of a format, ties to the even mantissa, and becomes infinite past its range.
-/

set_option autoImplicit false

namespace TapeAsm

/-- A binary floating-point number. -/
inductive Binary where
  | nan
  | infinity (negative : Bool)
  | finite (negative : Bool) (mantissa : Nat) (exponent : Int)
  deriving DecidableEq, Repr

namespace Binary

/-- The size of the numbers of a format. -/
structure Format where
  /-- The number of bits of a mantissa. -/
  precision : Nat
  /-- The exponent of the smallest numbers. -/
  least : Int
  /-- The exponent of the greatest numbers. -/
  greatest : Int

/-- Numbers of 64 bits. -/
def double : Format := ⟨53, -1074, 971⟩

/-- Numbers of 32 bits. -/
def single : Format := ⟨24, -149, 104⟩

/-- The natural number nearest to a quotient, ties to the even one. -/
def nearest (num den : Nat) : Nat :=
  let q := num / den
  let r := num % den
  if 2 * r < den then q
  else if den < 2 * r then q + 1
  else if q % 2 = 0 then q else q + 1

/-- A quotient times a power of two, as a quotient. -/
def scale (num den : Nat) (e : Int) : Nat × Nat :=
  if 0 ≤ e then (num * Nat.pow 2 e.toNat, den) else (num, den * Nat.pow 2 (-e).toNat)

/-- The number of a format nearest to a positive quotient. -/
def ofQuotient (f : Format) (negative : Bool) (num den : Nat) : Binary :=
  let guess := (num.log2 : Int) - den.log2 - f.precision
  let mantissaAt (e : Int) : Nat :=
    let (n, d) := scale num den (-e)
    n / d
  let e := max f.least (if mantissaAt guess < Nat.pow 2 f.precision then guess else guess + 1)
  let (n, d) := scale num den (-e)
  let m := nearest n d
  let (m, e) := if m = Nat.pow 2 f.precision then (m / 2, e + 1) else (m, e)
  if f.greatest < e then infinity negative else finite negative m e

/-- The number of a format nearest to a decimal. -/
def ofDecimal (f : Format) (d : Decimal) : Binary :=
  if d.mantissa = 0 then finite d.negative 0 0
  else if 400 < d.exponent + d.size then infinity d.negative
  else if d.exponent + d.size < -400 then finite d.negative 0 0
  else if 0 ≤ d.exponent then ofQuotient f d.negative (d.mantissa * Nat.pow 10 d.exponent.toNat) 1
  else ofQuotient f d.negative d.mantissa (Nat.pow 10 (-d.exponent).toNat)

/-- Is the number neither infinite nor undefined? -/
def isFinite : Binary → Bool
  | finite .. => true
  | _ => false

open Text (ascii)

/-- The number that a text spells: a decimal, `Inf` with an optional sign, or `NaN`. -/
def read? (f : Format) (t : Text) : Option Binary :=
  let (negative, rest) := Decimal.sign t
  let word := rest.map Text.lowerByte
  if word = "inf" ∨ word = "infinity" then some (infinity negative)
  else if t.map Text.lowerByte = "nan" then some nan
  else (Decimal.read? t).map (ofDecimal f)

end Binary

end TapeAsm
