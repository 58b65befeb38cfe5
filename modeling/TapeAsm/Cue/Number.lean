import TapeAsm.Text.Basic

/-!
# Numbers of a configuration file

A number is a decimal fraction, and it is an integer or not by the way it is written: `5` is one
and `5.0` is not. Integers are written in base 2, 8, 10 or 16, an underscore may stand between
digits, and a letter behind a number multiplies it.

Exponents have limits. One beyond `maxExponent` is dropped, and a number whose exponent is not
even a 32-bit word is undefined. Computed numbers are rounded to `precision` digits.
-/

set_option autoImplicit false

namespace TapeAsm.Cue

/-- A number: the mantissa times a power of ten. Of an undefined number only the sign counts. -/
structure Number where
  /-- Is it written as an integer? -/
  isInt : Bool
  isDefined : Bool
  mantissa : Int
  /-- The power of ten. -/
  exponent : Int
  deriving DecidableEq, Repr

namespace Number

/-- An integer. -/
def ofInt (value : Int) : Number := ⟨true, true, value, 0⟩

/-- The number with the other sign. -/
def neg (n : Number) : Number := { n with mantissa := -n.mantissa }

/-- The digits of a number, without its sign and its power of ten. -/
def coefficient (n : Number) : Nat := if n.isDefined then n.mantissa.natAbs else 0

/-- How many digits a natural number has. -/
def digitCount (n : Nat) : Nat := (Nat.toDigits 10 n).length

/-- The power of ten just above the number. -/
def reach (n : Number) : Int := n.exponent + digitCount n.coefficient

/-- A power of ten; one if the exponent is negative. -/
def tenTo (e : Int) : Nat := Nat.pow 10 e.toNat

/-- The mantissa with respect to a power of ten that is not above the number's own. -/
def scaled (n : Number) (exponent : Int) : Int := n.mantissa * tenTo (n.exponent - exponent)

/-- The order of two numbers without their signs: first by where they reach, then by digits. -/
def magnitudeOrder (a b : Number) : Ordering :=
  if a.exponent = b.exponent then compare a.coefficient b.coefficient
  else if a.reach ≠ b.reach then compare a.reach b.reach
  else
    let e := min a.exponent b.exponent
    compare (a.coefficient * tenTo (a.exponent - e)) (b.coefficient * tenTo (b.exponent - e))

/-- The order of two numbers by value. -/
def order (a b : Number) : Ordering :=
  if a.mantissa.sign ≠ b.mantissa.sign then compare a.mantissa.sign b.mantissa.sign
  else if a.mantissa = 0 then .eq
  else if a.mantissa < 0 then magnitudeOrder b a
  else magnitudeOrder a b

/-- The greatest integer that is not above the number. -/
def floor (n : Number) : Int := n.mantissa * tenTo n.exponent / tenTo (-n.exponent)

/-- The least integer that is not below the number. -/
def ceil (n : Number) : Int := -(n.neg.floor)

/-- The integer that a number is, if it is written as one. -/
def int? (n : Number) : Option Int :=
  if n.isInt && n.isDefined && n.exponent = 0 then some n.mantissa else none

/-! ## Computing -/

/-- The digits to which results are rounded. -/
def precision : Nat := 34

/-- A number of at most `precision` digits, a half rounded away from zero. -/
def round (n : Number) : Number :=
  let surplus := digitCount n.coefficient - precision
  if surplus = 0 then n
  else
    let unit := Nat.pow 10 surplus
    let magnitude := (2 * n.coefficient + unit) / (2 * unit)
    { n with
      mantissa := n.mantissa.sign * magnitude
      exponent := n.exponent + surplus }

/-- The sum of two numbers before rounding. -/
def exactSum (a b : Number) : Number :=
  let e := min a.exponent b.exponent
  ⟨a.isInt && b.isInt, a.isDefined && b.isDefined, a.scaled e + b.scaled e, e⟩

/-- The sum of two numbers. -/
def add (a b : Number) : Number := (exactSum a b).round

/-- The difference of two numbers. -/
def sub (a b : Number) : Number := add a b.neg

/-- The product of two numbers. -/
def mul (a b : Number) : Number :=
  round ⟨a.isInt && b.isInt, a.isDefined && b.isDefined, a.mantissa * b.mantissa,
    a.exponent + b.exponent⟩

/-- The number without zeros at its end, down to an exponent. The first number bounds the zeros. -/
def dropZeros : (fuel : Nat) → (down : Int) → Number → Number
  | 0, _, n => n
  | fuel + 1, down, n =>
    if n.exponent < down ∧ n.mantissa % 10 = 0 ∧ n.mantissa ≠ 0 then
      dropZeros fuel down { n with mantissa := n.mantissa / 10, exponent := n.exponent + 1 }
    else n

/-- The quotient of two numbers, which is no integer. There is none by zero. -/
def quotient? (a b : Number) : Option Number :=
  if b.mantissa = 0 then none
  else
    let shift := precision + 1 + digitCount b.coefficient
    let scaled := a.coefficient * Nat.pow 10 shift
    let magnitude := scaled / b.coefficient
    let inexact := if scaled % b.coefficient = 0 then 0 else 1
    let exact : Number := ⟨false, a.isDefined && b.isDefined,
      a.mantissa.sign * b.mantissa.sign * (10 * magnitude + inexact),
      a.exponent - b.exponent - shift - 1⟩
    some (dropZeros (shift + 2) (a.exponent - b.exponent) exact.round)

/-- The exact difference of two numbers, if `precision` digits suffice for it. Numbers far apart are
not brought to a common power of ten. -/
def exactDifference? (a b : Number) : Option Number :=
  if !(a.isDefined && b.isDefined) then none
  else if b.mantissa = 0 then some a
  else if a.mantissa = 0 then some b.neg
  else if 2 * precision < (a.reach - b.reach).natAbs then none
  else
    let d := exactSum a b.neg
    if (d.round.scaled d.exponent) = d.mantissa then some d else none

/-! ## Text -/

/-- Digits that make a whole number and places behind a point. -/
def positional (digits : Text) (places : Nat) : Text :=
  if places = 0 then digits
  else
    let padded := List.replicate (places + 1 - digits.length) (Text.ascii '0') ++ digits
    padded.take (padded.length - places) ++ "." ++ padded.drop (padded.length - places)

/-- The least exponent of the first digit with which a number is written positionally. -/
def leastPositional : Int := -6

/-- The text of a number: positional unless the number ends before the point or begins far behind
it. -/
def text (n : Number) : Text :=
  let digits := Text.ofNat n.coefficient
  let first := n.exponent + digits.length - 1
  let sign := Text.onlyIf (n.mantissa < 0) "-"
  if !n.isDefined then "NaN"
  else if n.exponent ≤ 0 ∧ leastPositional ≤ first then
    sign ++ positional digits n.exponent.natAbs
  else
    sign ++ digits.take 1 ++ Text.onlyIf (1 < digits.length) ("." ++ digits.drop 1) ++ "E" ++
      Text.onlyIf (0 ≤ first) "+" ++ Text.ofInt first

/-! ## Reading -/

/-- The value of a digit; letters count from ten, and an underscore counts as zero. -/
def digit? (c : Char) : Option Nat :=
  if c = '_' then some 0
  else if c.toNat < 0x80 then Text.digitValue? (Text.ascii c)
  else none

/-- Is the character a digit of the base, or an underscore? -/
def isDigitOf (base : Nat) (c : Char) : Bool := (digit? c).any (· < base)

/-- Does no underscore stand before another or at the end? -/
def underscoresInside : List Char → Bool
  | [] => true
  | ['_'] => false
  | '_' :: '_' :: _ => false
  | _ :: rest => underscoresInside rest

/-- The digits at the beginning, without the underscores among them, and what follows. -/
def digits? (base : Nat) (cs : List Char) : Option (List Nat × List Char) :=
  let (run, rest) := cs.span (isDigitOf base)
  if underscoresInside run then some ((run.filter (· ≠ '_')).filterMap digit?, rest) else none

/-- The value of digits. -/
def valueOf (base : Nat) (digits : List Nat) : Nat := digits.foldl (fun n d => n * base + d) 0

/-- The greatest exponent that a number may have. -/
def maxExponent : Nat := 100000

/-- Is an exponent beyond the limit? -/
def isBeyond (exponent : Int) : Bool := maxExponent < exponent.natAbs

/-- A number with decimal places and an exponent. The power of ten is dropped if it, one of its
parts or the place of the first digit is beyond the limit. -/
def ofScientific (coefficient places : Nat) (exponent : Int) : Number :=
  let power := exponent - places
  if exponent < -Nat.pow 2 31 ∨ (Nat.pow 2 31 : Int) ≤ exponent then ⟨false, false, 1, 0⟩
  else if isBeyond exponent || isBeyond places || isBeyond (power + digitCount coefficient - 1) then
    ⟨false, true, coefficient, 0⟩
  else ⟨false, true, coefficient, power⟩

/-- What a letter behind a number multiplies it by: a power of 1000, or of 1024 if an `i`
follows. -/
def multiplier? : List Char → Option (Nat × List Char)
  | c :: rest => do
    let power ← ['K', 'M', 'G', 'T', 'P'].idxOf? c
    match rest with
    | 'i' :: rest => some (Nat.pow 1024 (power + 1), rest)
    | _ => some (Nat.pow 1000 (power + 1), rest)
  | [] => none

/-- The exponent behind a number, if there is one. -/
def exponent? : List Char → Option (Option (Int × List Char))
  | c :: rest =>
    if c = 'e' ∨ c = 'E' then do
      let (negative, rest) := match rest with
        | '-' :: rest => (true, rest)
        | '+' :: rest => (false, rest)
        | _ => (false, rest)
      let (ds, rest) ← digits? 10 rest
      if ds.isEmpty then none
      else
        let value : Int := valueOf 10 ds
        some (some (if negative then -value else value, rest))
    else some none
  | [] => some none

/-- The end of a number with the digits `whole` before the point and `part` behind it, if there is a
point. A multiplied number must come out whole. -/
def suffix? (whole : List Nat) (part : Option (List Nat)) (cs : List Char) :
    Option (Number × List Char) :=
  let places := (part.getD []).length
  let coefficient := valueOf 10 (whole ++ part.getD [])
  match multiplier? cs with
  | some (factor, rest) =>
    if coefficient * factor % Nat.pow 10 places = 0 then
      some (ofInt (coefficient * factor / Nat.pow 10 places : Nat), rest)
    else none
  | none => do
    match ← exponent? cs with
    | some (e, rest) => some (ofScientific coefficient places e, rest)
    | none =>
      if part.isSome then some (ofScientific coefficient places 0, cs)
      else some (ofInt coefficient, cs)

/-- The fraction behind the digits of a number, if there is a point. -/
def fraction? (whole : List Nat) : List Char → Option (Number × List Char)
  | '.' :: rest => do
    let (part, rest) ← digits? 10 rest
    suffix? whole (some part) rest
  | cs => suffix? whole none cs

/-- An integer of another base behind its mark. -/
def based? (base : Nat) (cs : List Char) : Option (Number × List Char) := do
  let (ds, rest) ← digits? base cs
  if ds.isEmpty then none else some (ofInt (valueOf base ds), rest)

/-- The number at the beginning of a text that begins with a digit. A zero may begin an integer only
if it is all of it. -/
def read? : List Char → Option (Number × List Char)
  | '0' :: 'x' :: rest => based? 16 rest
  | '0' :: 'X' :: rest => based? 16 rest
  | '0' :: 'b' :: rest => based? 2 rest
  | '0' :: 'o' :: rest => based? 8 rest
  | '0' :: rest =>
    let continued := rest.head?.any Char.isDigit
    if continued then do
      let (ds, rest) ← digits? 10 rest
      if rest.head?.any fun c => c = '.' || c = 'e' || c = 'E' then fraction? ds rest else none
    else if rest.head?.any fun c => c = '.' || c = 'e' || c = 'E' then fraction? [0] rest
    else some (ofInt 0, rest)
  | cs => do
    let (ds, rest) ← digits? 10 cs
    fraction? ds rest

/-- The number behind a point that begins it. -/
def readFraction? (cs : List Char) : Option (Number × List Char) := do
  let (part, rest) ← digits? 10 cs
  suffix? [] (some part) rest

end Number

end TapeAsm.Cue
