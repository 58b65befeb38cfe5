/-!
# Text as bytes

Sources, tokens, messages and command-line arguments are sequences of bytes. They are meant to be
UTF-8, but nothing is lost or refused when they are not: characters are a view of a text
(`TapeAsm.Text.Glyph`), not its representation.

String literals stand for their UTF-8 encoding wherever a text is expected.
-/

set_option autoImplicit false

namespace TapeAsm

/-- A byte sequence, read as UTF-8 where characters matter. -/
abbrev Text := List UInt8

namespace Text

/-- The UTF-8 encoding of a string. -/
def ofString (s : String) : Text := s.toList.flatMap String.utf8EncodeChar

instance : Coe String Text := ⟨ofString⟩

/-- The byte of an ASCII character. -/
def ascii (c : Char) : UInt8 := c.toNat.toUInt8

/-- As many spaces as asked for. -/
def spaces (n : Nat) : Text := List.replicate n (ascii ' ')

/-- The line feed as a text of its own. -/
def newline : Text := [ascii '\n']

/-- The texts of a list, one after the other, with `sep` between two neighbours. -/
def join (sep : Text) (parts : List Text) : Text := (parts.intersperse sep).flatten

/-- What two texts have one after the other if both have it, a joined text has if its parts do. -/
theorem join_keeps {P : Text → Prop} (hnil : P []) (happend : ∀ t u, P t → P u → P (t ++ u))
    {sep : Text} (hsep : P sep) {parts : List Text} (h : ∀ part ∈ parts, P part) :
    P (join sep parts) := by
  unfold join
  induction parts with
  | nil => exact hnil
  | cons part parts ih =>
    obtain ⟨hpart, hparts⟩ := List.forall_mem_cons.1 h
    have hrest := ih hparts
    cases parts with
    | nil => simpa using hpart
    | cons next parts =>
      rw [List.intersperse_cons_cons, List.flatten_cons, List.flatten_cons]
      exact happend _ _ hpart (happend _ _ hsep hrest)

/-- The text where a condition holds, and nothing where it does not. -/
def onlyIf (condition : Bool) (t : Text) : Text := if condition then t else []

/-- Decimal digits of a natural number, without leading zeros. -/
def ofNat (n : Nat) : Text := (Nat.toDigits 10 n).map ascii

/-- Decimal digits of an integer, after a minus sign if it is negative. -/
def ofInt : Int → Text
  | .ofNat n => ofNat n
  | .negSucc n => ascii '-' :: ofNat (n + 1)

/-- A truth value in words. -/
def ofBool (b : Bool) : Text := if b then "true" else "false"

/-- Left-pads with spaces to a width of at least `width` bytes. -/
def padLeft (width : Nat) (t : Text) : Text := spaces (width - t.length) ++ t

/-- Is this byte a decimal digit? -/
def isDigit (b : UInt8) : Bool := ascii '0' ≤ b && b ≤ ascii '9'

/-- Is this byte an ASCII letter? -/
def isLetter (b : UInt8) : Bool :=
  ascii 'a' ≤ b && b ≤ ascii 'z' || ascii 'A' ≤ b && b ≤ ascii 'Z'

/-- ASCII letters in lower case, every other byte as it is. -/
def lowerByte (b : UInt8) : UInt8 :=
  if ascii 'A' ≤ b && b ≤ ascii 'Z' then b + 32 else b

/-- The value of a digit in a base of at most 36; letters of either case count from ten. -/
def digitValue? (b : UInt8) : Option Nat :=
  if isDigit b then some (b.toNat - 48)
  else if isLetter b then some ((lowerByte b).toNat - 97 + 10)
  else none

/-- The value of a digit sequence in the given base, if all its bytes are digits there. -/
def digitsValue? (base : Nat) (t : Text) : Option Nat :=
  t.foldl (fun acc b => do
    let n ← acc
    let d ← digitValue? b
    if d < base then some (n * base + d) else none) (some 0)

/-- The lower-case hexadecimal digit of a number below sixteen. -/
def hexDigit (n : Nat) : UInt8 := ascii (Nat.digitChar n)

/-- Exactly `width` lower-case hexadecimal digits, the low ones of `n`. -/
def hex (width n : Nat) : Text :=
  match width with
  | 0 => []
  | width + 1 => hex width (n / 16) ++ [hexDigit (n % 16)]

/-- ASCII letters in upper case, every other byte as it is. -/
def upperAscii (t : Text) : Text :=
  t.map fun b => if ascii 'a' ≤ b && b ≤ ascii 'z' then b - 32 else b

/-- The text cut at every occurrence of a byte; the pieces do not hold it. -/
def splitOn (sep : UInt8) : Text → List Text
  | [] => [[]]
  | b :: rest =>
    if b = sep then [] :: splitOn sep rest
    else match splitOn sep rest with
      | [] => [[b]]
      | piece :: pieces => (b :: piece) :: pieces

/-- Bytewise order, a shorter text before its extensions. -/
def le (a b : Text) : Bool := !(b.lex a)

end Text

end TapeAsm
