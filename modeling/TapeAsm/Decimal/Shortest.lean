import TapeAsm.Decimal.Binary

/-!
# Shortest decimals

The fewest digits that read back as a given 64-bit number, and among those of that length the
nearest. The decimals that read back form an interval around the number, whose ends count if the
mantissa is even; on the grid of `n`-digit decimals only the number's two neighbours can be the
nearest.
-/

set_option autoImplicit false

namespace TapeAsm.Binary

/-- Digits and the exponent of the first one: `d.ddd` times ten to it. -/
structure Digits where
  digits : Text
  exponent : Int
  deriving DecidableEq, Repr

/-- A fraction with a positive denominator. -/
structure Fraction where
  num : Nat
  den : Nat

namespace Fraction

def lt (a b : Fraction) : Bool := a.num * b.den < b.num * a.den
def le (a b : Fraction) : Bool := a.num * b.den ≤ b.num * a.den

/-- A natural number times a power of ten. -/
def ofPowerTen (n : Nat) (k : Int) : Fraction :=
  if 0 ≤ k then ⟨n * Nat.pow 10 k.toNat, 1⟩ else ⟨n, Nat.pow 10 (-k).toNat⟩

/-- A natural number times a power of two. -/
def ofPowerTwo (n : Nat) (e : Int) : Fraction :=
  let (num, den) := scale n 1 e
  ⟨num, den⟩

/-- The distance between two fractions. -/
def distance (a b : Fraction) : Fraction :=
  let x := a.num * b.den
  let y := b.num * a.den
  ⟨(x - y) + (y - x), a.den * b.den⟩

end Fraction

open Fraction

/-- The decimal exponent of a positive fraction: the greatest `x` with `10 ^ x` not above it. -/
def decimalExponent (v : Fraction) : Int :=
  let guess := (((v.num.log2 : Int) - v.den.log2) * 30103).fdiv 100000 - 1
  -- the guess is at most three too small
  if le (ofPowerTen 1 (guess + 3)) v then guess + 3
  else if le (ofPowerTen 1 (guess + 2)) v then guess + 2
  else if le (ofPowerTen 1 (guess + 1)) v then guess + 1
  else guess

/-- The decimals that read back as a number: those between two ends. -/
structure Interval where
  low : Fraction
  high : Fraction
  closed : Bool

/-- Does the interval hold the fraction? -/
def Interval.holds (i : Interval) (x : Fraction) : Bool :=
  if i.closed then le i.low x && le x i.high else lt i.low x && lt x i.high

/-- The interval of a number: half way to its neighbours, of which the lower one is nearer where the
exponent changes. -/
def interval (m : Nat) (e : Int) : Interval where
  low :=
    if m = Nat.pow 2 (double.precision - 1) ∧ double.least < e then ofPowerTwo (4 * m - 1) (e - 2)
    else ofPowerTwo (2 * m - 1) (e - 1)
  high := ofPowerTwo (2 * m + 1) (e - 1)
  closed := m % 2 = 0

/-- The nearest decimal of the interval among the number's neighbours on a grid. -/
def onGrid? (v : Fraction) (i : Interval) (k : Int) : Option Nat :=
  let unit := ofPowerTen 1 k
  let below := (v.num * unit.den) / (v.den * unit.num)
  let above := below + 1
  match i.holds (ofPowerTen below k), i.holds (ofPowerTen above k) with
  | true, true =>
    let down := distance v (ofPowerTen below k)
    let up := distance v (ofPowerTen above k)
    some (if lt down up then below else if lt up down then above
      else if below % 2 = 0 then below else above)
  | true, false => some below
  | false, true => some above
  | false, false => none

/-- The digits without the zeros at their end. -/
def trimZeros (t : Text) : Text := (t.reverse.dropWhile (· = Text.ascii '0')).reverse

/-- The first grid, from `n` digits on, that holds a decimal of the interval. -/
def search (v : Fraction) (i : Interval) (x : Int) : (fuel n : Nat) → Digits
  | 0, _ => ⟨Text.ofNat (v.num / v.den), x⟩
  | fuel + 1, n =>
    let k := x - n + 1
    match onGrid? v i k with
    | some d =>
      let ds := Text.ofNat d
      ⟨trimZeros ds, k + ds.length - 1⟩
    | none => search v i x fuel (n + 1)

/-- The same number with as great a mantissa as the 64-bit format allows. -/
def normalize (m : Nat) (e : Int) : Nat × Int :=
  let shift := min (double.precision - 1 - m.log2) (e - double.least).toNat
  (m * Nat.pow 2 shift, e - shift)

/-- The shortest digits of a positive 64-bit number. Seventeen always suffice. -/
def shortest (m : Nat) (e : Int) : Digits :=
  let (m, e) := normalize m e
  let v := ofPowerTwo m e
  search v (interval m e) (decimalExponent v) 20 1

end TapeAsm.Binary
