import TapeAsm.Text.Basic

/-!
# Base 64

Bytes in groups of three as four characters of an alphabet of sixty-four; a last group of one or two
bytes is padded with `=`.
-/

set_option autoImplicit false

namespace TapeAsm.Yaml

/-- The alphabet. -/
def base64Alphabet : Text :=
  "ABCDEFGHIJKLMNOPQRSTUVWXYZabcdefghijklmnopqrstuvwxyz0123456789+/"

/-- The character of a six-bit value. -/
def base64Char (n : Nat) : UInt8 := base64Alphabet.getD n 0

/-- The characters of the given positions of a 24-bit group, counted from the high end. -/
def base64Group (n : Nat) (positions : List Nat) : Text :=
  positions.map fun i => base64Char (n / Nat.pow 64 (3 - i) % 64)

/-- The encoding of a byte sequence. -/
def base64 : Text → Text
  | a :: b :: c :: rest =>
    base64Group (a.toNat * 65536 + b.toNat * 256 + c.toNat) [0, 1, 2, 3] ++ base64 rest
  | [a, b] => base64Group (a.toNat * 65536 + b.toNat * 256) [0, 1, 2] ++ "="
  | [a] => base64Group (a.toNat * 65536) [0, 1] ++ "=="
  | [] => []

/-- The longest line of an encoding. -/
def base64LineLength : Nat := 70

/-- Cuts a text in lines of a length, each with a line feed. -/
def cutLines (length : Nat) : (fuel : Nat) → Text → Text
  | 0, _ => []
  | fuel + 1, t =>
    if t.isEmpty then []
    else t.take length ++ "\n" ++ cutLines length fuel (t.drop length)

/-- The encoding of a byte sequence; one that does not fit a line is cut in lines. -/
def base64Lines (t : Text) : Text :=
  let encoded := base64 t
  if encoded.length < base64LineLength then encoded
  else cutLines base64LineLength encoded.length encoded

end TapeAsm.Yaml
