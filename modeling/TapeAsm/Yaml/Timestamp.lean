import TapeAsm.Text.Basic

/-!
# Timestamps

The dates and times that a YAML reader takes for timestamps: a date with a four-digit year, alone,
or followed by `T` (or `t`) and a time with a zone, or by spaces and a time without one. Fields
other than the year may have one digit.
-/

set_option autoImplicit false

namespace TapeAsm.Yaml

open Text (ascii isDigit)

/-- A number of one or two digits. -/
def shortNumber? : Text → Option (Nat × Text)
  | a :: b :: rest =>
    if isDigit a then
      if isDigit b then some ((a.toNat - 48) * 10 + (b.toNat - 48), rest)
      else some (a.toNat - 48, b :: rest)
    else none
  | [a] => if isDigit a then some (a.toNat - 48, []) else none
  | [] => none

/-- What follows a given byte. -/
def after? (c : Char) : Text → Option Text
  | b :: rest => if b = ascii c then some rest else none
  | [] => none

/-- The number of days of a month. -/
def daysIn (year month : Nat) : Nat :=
  if month = 2 then
    if year % 4 = 0 ∧ (year % 100 ≠ 0 ∨ year % 400 = 0) then 29 else 28
  else if month ∈ [4, 6, 9, 11] then 30
  else 31

/-- What follows a date. -/
def date? (t : Text) : Option Text := do
  let year := t.takeWhile isDigit
  if year.length ≠ 4 then none
  let rest ← after? '-' (t.dropWhile isDigit)
  let (month, rest) ← shortNumber? rest
  let rest ← after? '-' rest
  let (day, rest) ← shortNumber? rest
  let year ← Text.digitsValue? 10 year
  if 1 ≤ month ∧ month ≤ 12 ∧ 1 ≤ day ∧ day ≤ daysIn year month then some rest else none

/-- What follows a fraction of a second, if there is one. -/
def afterFraction : Text → Text
  | mark :: digit :: rest =>
    if (mark = ascii '.' ∨ mark = ascii ',') ∧ isDigit digit then rest.dropWhile isDigit
    else mark :: digit :: rest
  | t => t

/-- What follows a time of day. -/
def time? (t : Text) : Option Text := do
  let (hour, rest) ← shortNumber? t
  let rest ← after? ':' rest
  let (minute, rest) ← shortNumber? rest
  let rest ← after? ':' rest
  let (second, rest) ← shortNumber? rest
  if hour < 24 ∧ minute < 60 ∧ second < 60 then some (afterFraction rest) else none

/-- Is this a time zone: `Z`, or an offset with two digits for hours and minutes? -/
def isZone : Text → Bool
  | [z] => z = ascii 'Z'
  | [s, h₁, h₀, colon, m₁, m₀] =>
    (s = ascii '+' || s = ascii '-') && colon = ascii ':' &&
      isDigit h₁ && isDigit h₀ && isDigit m₁ && isDigit m₀ &&
      (h₁.toNat - 48) * 10 + (h₀.toNat - 48) ≤ 24 && (m₁.toNat - 48) * 10 + (m₀.toNat - 48) ≤ 60
  | _ => false

/-- Is the text a timestamp? -/
def isTimestamp (t : Text) : Bool :=
  match date? t with
  | none => false
  | some [] => true
  | some (b :: rest) =>
    if b = ascii 'T' ∨ b = ascii 't' then (time? rest).any isZone
    else if b = ascii ' ' then (time? (rest.dropWhile (· = ascii ' '))).any List.isEmpty
    else false

end TapeAsm.Yaml
