import TapeAsm.Text.Printable

/-!
# Quoted text

`quote` writes a text between double quotes so that the result is one line of printable characters
whatever the text holds: a quote or backslash is escaped, printable characters stand for themselves,
and everything else has a backslash form. Stray bytes are written as `\x` and two digits, so two
texts never look the same.
-/

set_option autoImplicit false

namespace TapeAsm.Text

/-- The one-letter escapes of control characters. -/
def controlEscape? (c : Char) : Option Char :=
  match c.toNat with
  | 0x07 => some 'a'
  | 0x08 => some 'b'
  | 0x0C => some 'f'
  | 0x0A => some 'n'
  | 0x0D => some 'r'
  | 0x09 => some 't'
  | 0x0B => some 'v'
  | _ => none

/-- A character inside quotes. -/
def quoteChar (c : Char) : Text :=
  if c = '"' ∨ c = '\\' then [ascii '\\', ascii c]
  else if isPrintable c then ofChar c
  else match controlEscape? c with
    | some e => [ascii '\\', ascii e]
    | none =>
      if c.toNat < 0x80 then "\\x" ++ hex 2 c.toNat
      else if c.toNat < 0x10000 then "\\u" ++ hex 4 c.toNat
      else "\\U" ++ hex 8 c.toNat

/-- A glyph inside quotes. -/
def quoteGlyph : Glyph → Text
  | .char c => quoteChar c
  | .stray b => "\\x" ++ hex 2 b.toNat

/-- The text between double quotes, everything that is not printable escaped. -/
def quote (t : Text) : Text := "\"" ++ t.glyphs.flatMap quoteGlyph ++ "\""

end TapeAsm.Text
