import TapeAsm.Decimal.Binary
import TapeAsm.Yaml.Timestamp

/-!
# What a plain scalar means

A YAML reader takes some unquoted texts for something else than a string: nulls, booleans, numbers
and timestamps. `resolvesToString` tells which texts it leaves alone. The first byte decides what
a text can be taken for.
-/

set_option autoImplicit false

namespace TapeAsm.Yaml

open Text (ascii isDigit)

/-- A number in a base with at least one digit. -/
def natural? (base : Nat) (t : Text) : Option Nat :=
  if t.isEmpty then none else Text.digitsValue? base t

/-- The value of digits whose base is told by a marker: `0x`, `0o`, `0b`, or `0` for octal. -/
def markedNatural? (t : Text) : Option Nat :=
  match t with
  | zero :: mark :: digit :: rest =>
    if zero = ascii '0' then
      if Text.lowerByte mark = ascii 'b' then natural? 2 (digit :: rest)
      else if Text.lowerByte mark = ascii 'o' then natural? 8 (digit :: rest)
      else if Text.lowerByte mark = ascii 'x' then natural? 16 (digit :: rest)
      else natural? 8 (mark :: digit :: rest)
    else natural? 10 t
  | zero :: rest => if zero = ascii '0' then Text.digitsValue? 8 rest else natural? 10 t
  | [] => none

/-- Does a magnitude with its sign fit a 64-bit word? Without a sign it may be unsigned. -/
def fits (signed negative : Bool) (n : Nat) : Bool :=
  if negative then n ≤ Nat.pow 2 63
  else if signed then n < Nat.pow 2 63 else n < Nat.pow 2 64

/-- Is the text an integer by the given reading of magnitudes? -/
def isIntegerBy (magnitude? : Text → Option Nat) (t : Text) : Bool :=
  let (negative, rest) := Decimal.sign t
  (magnitude? rest).any (fits (rest.length < t.length) negative)

/-- Is the text an integer behind a marker of its base? -/
def isMarkedInteger (marker : Text) (base : Nat) (t : Text) : Bool :=
  if marker.isPrefixOf t then isIntegerBy (natural? base) (t.drop marker.length)
  else if (ascii '-' :: marker).isPrefixOf t then
    (natural? base (t.drop (marker.length + 1))).any (fits true true)
  else false

/-- Is the text a decimal within the range of 64-bit numbers? -/
def isFloat (t : Text) : Bool :=
  (Decimal.read? t).any fun d => (Binary.ofDecimal Binary.double d).isFinite

/-- Is the text, without the underscores in it, a number? -/
def isNumber (t : Text) : Bool :=
  let plain := t.filter (· ≠ ascii '_')
  isIntegerBy markedNatural? plain || isFloat plain ||
    isMarkedInteger "0b" 2 plain || isMarkedInteger "0o" 8 plain

/-- The words for booleans and nulls. -/
def reservedWords : List Text :=
  ["true", "True", "TRUE", "false", "False", "FALSE", "~", "null", "Null", "NULL"]

/-- The words for infinities with a sign. -/
def signedInfinities : List Text := ["+.inf", "+.Inf", "+.INF", "-.inf", "-.Inf", "-.INF"]

/-- The words for numbers that begin with a point. -/
def pointWords : List Text := [".nan", ".NaN", ".NAN", ".inf", ".Inf", ".INF"]

/-- Is the text, unquoted, read as a string? -/
def resolvesToString (t : Text) : Bool :=
  match t with
  | [] => false
  | b :: _ =>
    if b = ascii '.' then !(pointWords.contains t || isFloat t)
    else if isDigit b ∨ b = ascii '+' ∨ b = ascii '-' then
      !(signedInfinities.contains t || isTimestamp t || isNumber t)
    else !reservedWords.contains t

/-- The groups of a sexagesimal number behind the first: a colon and a number below sixty each, at
least one, and then at most a point with digits. -/
def isSexagesimalTail : (some? : Bool) → (fuel : Nat) → Text → Bool
  | _, 0, _ => false
  | some?, fuel + 1, t =>
    match t with
    | [] => some?
    | b :: rest =>
      if b = ascii ':' then
        match rest with
        | d₁ :: d₀ :: more =>
          if isDigit d₁ && d₁ < ascii '6' && isDigit d₀ then isSexagesimalTail true fuel more
          else if isDigit d₁ then isSexagesimalTail true fuel (d₀ :: more)
          else false
        | [d] => isDigit d
        | [] => false
      else some? && b = ascii '.' && rest.all fun c => isDigit c || c = ascii '_'

/-- Is the text a number in base sixty, as older readers take it? -/
def isSexagesimal (t : Text) : Bool :=
  let (_, rest) := Decimal.sign t
  match rest with
  | d :: rest =>
    isDigit d && isSexagesimalTail false (rest.length + 1)
      (rest.dropWhile fun c => isDigit c || c = ascii '_')
  | [] => false

/-- The words that older readers take for booleans. -/
def oldBooleans : List Text :=
  ["y", "Y", "yes", "Yes", "YES", "on", "On", "ON",
   "n", "N", "no", "No", "NO", "off", "Off", "OFF"]

/-- Does every reader take the unquoted text for a string? -/
def isPlainString (t : Text) : Bool :=
  resolvesToString t && !isSexagesimal t && !oldBooleans.contains t

end TapeAsm.Yaml
