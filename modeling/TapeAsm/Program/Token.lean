import TapeAsm.Program.Op
import TapeAsm.Text.Blank

/-!
# Tokens

A source has at most one token per line: the line without surrounding white space, unless nothing is
left or a comment begins there. Lines end with a line feed, a carriage return or both together.
-/

set_option autoImplicit false

namespace TapeAsm

/-- A token with the number of its line in the source, counted from one. -/
structure Token where
  text : Text
  line : Int
  deriving DecidableEq, Repr

namespace Text

/-- The text with every carriage return, and every pair of one and a line feed, made a line feed. -/
def unifyLineEnds : Text → Text
  | [] => []
  | 0x0D :: 0x0A :: rest => 0x0A :: unifyLineEnds rest
  | b :: rest => (if b = 0x0D then 0x0A else b) :: unifyLineEnds rest

/-- The lines of a text, without their ends. -/
def lines (t : Text) : List Text := splitOn 0x0A t.unifyLineEnds

end Text

namespace Token

/-- What a comment begins with. -/
def commentMark : Text := "//"

/-- Does a trimmed line hold a token? -/
def isToken (t : Text) : Bool := !t.isEmpty && !commentMark.isPrefixOf t

/-- The tokens of a source with their lines. -/
def scan (source : Text) : List Token :=
  (source.lines.zipIdx 1).filterMap fun (line, number) =>
    let t := line.trim
    if isToken t then some ⟨t, number⟩ else none

/-- The tokens of a source. -/
def texts (source : Text) : List Text := (scan source).map (·.text)

/-- Is every token in the vocabulary? The balance of loops is not looked at. -/
def valid (tokens : List Text) : Bool := tokens.all isKeyword

/-- The positions of the tokens outside the vocabulary. -/
def unrecognized (tokens : List Text) : List Nat :=
  tokens.zipIdx.filterMap fun (t, i) => if isKeyword t then none else some i

end Token

end TapeAsm
