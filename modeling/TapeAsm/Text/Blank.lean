import TapeAsm.Text.Glyph

/-!
# White space

The characters of the Unicode property White_Space, and trimming. A character is recognised by its
whole encoding, from either end, so a stray byte is never taken for a part of a blank.
-/

set_option autoImplicit false

namespace TapeAsm.Text

/-- The white space characters. -/
def blankChars : List Char :=
  ['\t', '\n', '\x0b', '\x0c', '\r', ' ', '\u0085', '\u00a0', '\u1680',
   '\u2000', '\u2001', '\u2002', '\u2003', '\u2004', '\u2005', '\u2006', '\u2007', '\u2008',
   '\u2009', '\u200a', '\u2028', '\u2029', '\u202f', '\u205f', '\u3000']

/-- Is the character white space? -/
def isBlank (c : Char) : Bool := blankChars.contains c

/-- The encodings of the white space characters. -/
def blanks : List Text := blankChars.map ofChar

/-- The length of the first of these words that begins the text, zero if none does. -/
def leadingWord (words : List Text) (t : Text) : Nat :=
  match words.find? (·.isPrefixOf t) with
  | some w => w.length
  | none => 0

/-- The text without the words at its beginning, behind `skip` bytes of a word already found. -/
def dropWordsAfter (words : List Text) : (skip : Nat) → Text → Text
  | _, [] => []
  | skip + 1, _ :: rest => dropWordsAfter words skip rest
  | 0, b :: rest =>
    match leadingWord words (b :: rest) with
    | 0 => b :: rest
    | n + 1 => dropWordsAfter words n rest

/-- The text without leading white space. -/
def trimLeft (t : Text) : Text := dropWordsAfter blanks 0 t

/-- The text without trailing white space. -/
def trimRight (t : Text) : Text :=
  (dropWordsAfter (blanks.map List.reverse) 0 t.reverse).reverse

/-- The text without white space at its ends. -/
def trim (t : Text) : Text := trimRight (trimLeft t)

end TapeAsm.Text
