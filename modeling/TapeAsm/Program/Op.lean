import TapeAsm.Text.Basic

/-!
# Operations and keywords

An operation is a byte: six codes have a meaning and the others are carried along without one. The
source language has a keyword for each of the five simple operations and two that bracket a loop.
-/

set_option autoImplicit false

namespace TapeAsm

/-- An operation of the tape machine. -/
inductive Op where
  | inc
  | dec
  | left
  | right
  | print
  | loop
  /-- A code without a meaning: executing it only costs a step. -/
  | unknown (code : UInt8) (outside : code = 0 ∨ 6 < code)
  deriving DecidableEq, Repr, Inhabited

/-- The words of the source language. Matching is exact and case sensitive. -/
inductive Keyword where
  | inc
  | dec
  | left
  | right
  | print
  | loopStart
  | loopEnd
  deriving DecidableEq, Repr

namespace Keyword

/-- The whole vocabulary. -/
def all : List Keyword := [inc, dec, left, right, print, loopStart, loopEnd]

/-- The spelling of a keyword. -/
def text : Keyword → Text
  | inc => "INC"
  | dec => "DEC"
  | left => "LEFT"
  | right => "RIGHT"
  | print => "PRINT"
  | loopStart => "LOOP_START"
  | loopEnd => "LOOP_END"

/-- The keyword with this spelling. -/
def ofText? (t : Text) : Option Keyword := all.find? (·.text = t)

end Keyword

/-- Is the token in the vocabulary? -/
def isKeyword (t : Text) : Bool := (Keyword.ofText? t).isSome

namespace Op

/-- A code other than the six known ones lies outside their range. -/
theorem outside_of_ne {code : UInt8} (h₁ : code ≠ 1) (h₂ : code ≠ 2) (h₃ : code ≠ 3)
    (h₄ : code ≠ 4) (h₅ : code ≠ 5) (h₆ : code ≠ 6) : code = 0 ∨ 6 < code := by
  simp only [ne_eq, ← UInt8.toNat_inj, UInt8.lt_iff_toNat_lt, UInt8.toNat_ofNat] at *
  omega

/-- The operation with this code. -/
def ofCode (code : UInt8) : Op :=
  if h₁ : code = 1 then inc
  else if h₂ : code = 2 then dec
  else if h₃ : code = 3 then left
  else if h₄ : code = 4 then right
  else if h₅ : code = 5 then print
  else if h₆ : code = 6 then loop
  else unknown code (outside_of_ne h₁ h₂ h₃ h₄ h₅ h₆)

/-- The name of an operation in messages and listings. -/
def name : Op → Text
  | inc => Keyword.inc.text
  | dec => Keyword.dec.text
  | left => Keyword.left.text
  | right => Keyword.right.text
  | print => Keyword.print.text
  | loop => "LOOP"
  | unknown code _ => "Op(" ++ Text.ofNat code.toNat ++ ")"

/-- The code of an operation. -/
def code : Op → UInt8
  | inc => 1
  | dec => 2
  | left => 3
  | right => 4
  | print => 5
  | loop => 6
  | unknown code _ => code

end Op

end TapeAsm
