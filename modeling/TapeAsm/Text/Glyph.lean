import TapeAsm.Text.Basic

/-!
# Characters of a text

`Text.glyphs` reads a text from left to right as UTF-8. A byte that begins no well-formed character
is a glyph of its own, so every text has glyphs and no byte is skipped. Overlong forms, surrogates
and values above U+10FFFF are ill-formed.
-/

set_option autoImplicit false

namespace TapeAsm

/-- A unit of text: a character, or one byte that begins none. -/
inductive Glyph where
  | char (c : Char)
  | stray (b : UInt8)
  deriving DecidableEq, Repr

namespace Text

/-- The encoding of a character. -/
def ofChar (c : Char) : Text := String.utf8EncodeChar c

/-- The encoding of a sequence of characters. -/
def ofChars (cs : List Char) : Text := cs.flatMap ofChar

/-- Reads `count` continuation bytes behind a lead byte that contributed `acc`. -/
def continuation? : (count acc : Nat) → Text → Option Nat
  | 0, acc, _ => some acc
  | _ + 1, _, [] => none
  | count + 1, acc, b :: rest =>
    if 0x80 ≤ b ∧ b < 0xC0 then continuation? count (acc * 64 + b.toNat % 64) rest else none

/-- The character with a code that needs at least the given size of encoding. -/
def charFrom? (least code : Nat) : Option Char :=
  if least ≤ code ∧ code.isValidChar then some (Char.ofNat code) else none

/-- The character whose encoding begins the text. -/
def firstChar? : Text → Option Char
  | [] => none
  | b :: rest =>
    if b < 0x80 then some (Char.ofNat b.toNat)
    else if b < 0xC0 then none
    else if b < 0xE0 then continuation? 1 (b.toNat % 32) rest >>= charFrom? 0x80
    else if b < 0xF0 then continuation? 2 (b.toNat % 16) rest >>= charFrom? 0x800
    else if b < 0xF8 then continuation? 3 (b.toNat % 8) rest >>= charFrom? 0x10000
    else none

/-- The glyphs behind the next `skip` bytes, which belong to a character already read. -/
def glyphsAfter : (skip : Nat) → Text → List Glyph
  | _, [] => []
  | skip + 1, _ :: rest => glyphsAfter skip rest
  | 0, b :: rest =>
    match firstChar? (b :: rest) with
    | some c => .char c :: glyphsAfter (c.utf8Size - 1) rest
    | none => .stray b :: glyphsAfter 0 rest

/-- The text as a sequence of glyphs. -/
def glyphs (t : Text) : List Glyph := glyphsAfter 0 t

/-- Is the text well-formed UTF-8? -/
def isUtf8 (t : Text) : Bool := t.glyphs.all fun
  | .char _ => true
  | .stray _ => false

/-- The number of glyphs: the width of the text in a column. -/
def width (t : Text) : Nat := t.glyphs.length

/-- The character that stands for a code that is none. -/
def replacement : Char := '\uFFFD'

/-- The characters of the text, a stray byte shown as the replacement character. -/
def chars (t : Text) : List Char := t.glyphs.map fun
  | .char c => c
  | .stray _ => replacement

/-- Upper case as far as it is ASCII: two letters outside ASCII have an upper case within it. -/
def upperToAscii (c : Char) : Char :=
  if c = '\u0131' then 'I' else if c = '\u017F' then 'S' else c.toUpper

/-- The text as a string, a stray byte shown as the replacement character. -/
def toString (t : Text) : String := String.ofList t.chars

end Text

/-- The bytes that a glyph stands for. -/
def Glyph.text : Glyph → Text
  | .char c => Text.ofChar c
  | .stray b => [b]

end TapeAsm
