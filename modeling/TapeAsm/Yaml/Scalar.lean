import TapeAsm.Text.Glyph
import TapeAsm.Yaml.Base64
import TapeAsm.Yaml.Resolve

/-!
# Strings in YAML

A string is written plain where that reads back as the same string, and otherwise in single
quotes, in double quotes or as a literal block. A byte sequence that is not UTF-8 is written in
base 64 with a tag. Lines are never folded.

`Scalar.write` gives the whole rest of a mapping entry at the outer level, the end of the line
included: continuation lines are indented by two.
-/

set_option autoImplicit false

namespace TapeAsm.Yaml

open Text (ofChar)

/-- Is the character a line break? -/
def isBreak (c : Char) : Bool := "\r\n\u0085\u2028\u2029".toList.contains c

/-- Is the character a space or a tab? -/
def isGap (c : Char) : Bool := c = ' ' || c = '\t'

/-- Is the character one that YAML allows to stand for itself? -/
def isPlainChar (c : Char) : Bool :=
  let n := c.toNat
  c = '\n' || 0x20 ≤ n && n ≤ 0x7E || 0xA0 ≤ n && n ≤ 0xFFFD && n ≠ 0xFEFF

/-- Does the character have to be escaped? A tab has its own rules. -/
def isSpecial (c : Char) : Bool := c ≠ '\t' && !isPlainChar c

/-- Do two neighbours in the text satisfy the predicate? -/
def hasPair (p : Char → Char → Bool) (cs : List Char) : Bool :=
  (cs.zip cs.tail).any fun (a, b) => p a b

/-- The characters that mean something at the beginning of a scalar. -/
def indicators : List Char := "#,[]\x7b\x7d&*!|>'\"%@`".toList

/-- Does the text begin like something else than a plain scalar? -/
def beginsLikeIndicator : List Char → Bool
  | [] => false
  | c :: rest =>
    indicators.contains c ||
      "?:-".toList.contains c && (rest.isEmpty || rest.head?.any isGap) ||
      "---".toList.isPrefixOf (c :: rest) || "...".toList.isPrefixOf (c :: rest)

/-- Does the text hold a colon that would end a key? -/
def hasKeyColon (cs : List Char) : Bool :=
  cs.getLast? = some ':' || hasPair (fun a b => a = ':' && isGap b) cs

/-- Does the text hold a number sign that would begin a comment? -/
def hasComment (cs : List Char) : Bool := hasPair (fun a b => b = '#' && (isGap a || isBreak a)) cs

/-- Is the character a space or a line break? -/
def isSpaceOrBreak (c : Char) : Bool := c = ' ' || isBreak c

/-- Does a space stand before a line break? -/
def hasSpaceBreak (cs : List Char) : Bool := hasPair (fun a b => a = ' ' && isBreak b) cs

/-- Does a space stand after a line break? -/
def hasBreakSpace (cs : List Char) : Bool := hasPair (fun a b => isBreak a && b = ' ') cs

/-- Can the text stand in single quotes? -/
def allowsSingleQuotes (cs : List Char) : Bool :=
  !(hasBreakSpace cs || hasSpaceBreak cs || cs.contains '\t' || cs.any isSpecial)

/-- Can the text stand without quotes? -/
def allowsPlain (cs : List Char) : Bool :=
  allowsSingleQuotes cs &&
    !(cs.head?.any isSpaceOrBreak || cs.getLast?.any isSpaceOrBreak || cs.any isBreak ||
      beginsLikeIndicator cs || hasKeyColon cs || hasComment cs)

/-- Can the text stand as a literal block? -/
def allowsLiteral (cs : List Char) : Bool :=
  !(cs.getLast? = some ' ' || hasSpaceBreak cs || cs.any isSpecial)

/-- How a string is written. -/
inductive Style where
  | plain
  | singleQuoted
  | doubleQuoted
  | literal
  deriving DecidableEq, Repr

/-- Plain if possible, else in single quotes if possible. -/
def Style.plainOrQuoted (cs : List Char) : Style :=
  if allowsPlain cs then plain
  else if allowsSingleQuotes cs then singleQuoted
  else doubleQuoted

/-- The style of a string; `unquoted` tells whether it would be read as a string without quotes. -/
def Style.choose (unquoted : Bool) (cs : List Char) : Style :=
  if cs.contains '\n' then
    if allowsLiteral cs then literal else doubleQuoted
  else if unquoted then plainOrQuoted cs
  else doubleQuoted

/-- The indentation of continuation lines. -/
def indent : Text := Text.spaces 2

/-- Text in single quotes: a quote is written twice, and the text after a break is indented. -/
def singleQuotedBody : (afterBreak : Bool) → List Char → Text
  | _, [] => []
  | afterBreak, c :: rest =>
    if c = ' ' then ofChar c ++ singleQuotedBody afterBreak rest
    else if isBreak c then ofChar c ++ singleQuotedBody true rest
    else Text.onlyIf afterBreak indent ++ Text.onlyIf (c = '\'') "'" ++ ofChar c ++
      singleQuotedBody false rest

/-- The one-letter escapes in double quotes. -/
def escapeLetter? (c : Char) : Option Char :=
  match c.toNat with
  | 0x00 => some '0'
  | 0x07 => some 'a'
  | 0x08 => some 'b'
  | 0x09 => some 't'
  | 0x0A => some 'n'
  | 0x0B => some 'v'
  | 0x0C => some 'f'
  | 0x0D => some 'r'
  | 0x1B => some 'e'
  | 0x22 => some '"'
  | 0x5C => some '\\'
  | 0x85 => some 'N'
  | 0xA0 => some '_'
  | 0x2028 => some 'L'
  | 0x2029 => some 'P'
  | _ => none

/-- An escaped character. -/
def escape (c : Char) : Text :=
  match escapeLetter? c with
  | some letter => "\\" ++ ofChar letter
  | none =>
    if c.toNat ≤ 0xFF then "\\x" ++ (Text.hex 2 c.toNat).upperAscii
    else if c.toNat ≤ 0xFFFF then "\\u" ++ (Text.hex 4 c.toNat).upperAscii
    else "\\U" ++ (Text.hex 8 c.toNat).upperAscii

/-- Is the character escaped in double quotes? -/
def isEscaped (c : Char) : Bool := !isPlainChar c || isBreak c || c = '"' || c = '\\'

/-- The byte order mark. -/
def byteOrderMark : Char := '\uFEFF'

/-- Text in double quotes. Where a byte order mark comes first, every character is escaped. -/
def doubleQuotedBody (cs : List Char) : Text :=
  let marked := cs.head? = some byteOrderMark
  cs.flatMap fun c => if marked || isEscaped c then escape c else ofChar c

/-- The lines of a literal block, each text indented. -/
def literalBody : (afterBreak : Bool) → List Char → Text
  | _, [] => []
  | afterBreak, c :: rest =>
    if isBreak c then ofChar c ++ literalBody true rest
    else Text.onlyIf afterBreak indent ++ ofChar c ++ literalBody false rest

/-- What a literal block says about its last breaks: `-` if there is none, `+` if there are several
or nothing else. -/
def chomping (cs : List Char) : Text :=
  match cs.reverse with
  | [] => "-"
  | last :: before =>
    if !isBreak last then "-"
    else match before with
      | [] => "+"
      | c :: _ => if isBreak c then "+" else []

/-- A literal block from its mark to the end of its last line. A block that begins with a break has
that break end the line of the mark. -/
def literalBlock (cs : List Char) : Text :=
  "|" ++ Text.onlyIf (cs.head?.any isSpaceOrBreak) "2" ++ chomping cs ++
    Text.onlyIf (!cs.head?.any isBreak) "\n" ++ literalBody true cs ++
    Text.onlyIf (!cs.getLast?.any isBreak) "\n"

/-- A string in a style, to the end of its last line. -/
def Style.write (style : Style) (cs : List Char) : Text :=
  match style with
  | plain => Text.ofChars cs ++ "\n"
  | singleQuoted => "'" ++ singleQuotedBody false cs ++ "'\n"
  | doubleQuoted => "\"" ++ doubleQuotedBody cs ++ "\"\n"
  | literal => literalBlock cs

/-- A string as the value of an entry, to the end of its last line. -/
def writeString (t : Text) : Text :=
  if t.isUtf8 then (Style.choose (isPlainString t) t.chars).write t.chars
  else
    let cs := (base64Lines t).chars
    "!!binary " ++ (Style.choose true cs).write cs

end TapeAsm.Yaml
