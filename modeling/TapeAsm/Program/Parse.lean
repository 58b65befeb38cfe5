import TapeAsm.Program.Instr
import TapeAsm.Text.Quoted

/-!
# From tokens to program trees

`Program.parse` reads a token list from left to right and keeps the loops that are open. It fails at
the first token that cannot stand where it stands, and at the end if a loop is still open.
-/

set_option autoImplicit false

namespace TapeAsm

/-- What is wrong with the structure of a token list. -/
inductive ParseFault where
  /-- A loop end without an open loop. -/
  | unmatched
  /-- A token outside the vocabulary. -/
  | unrecognized
  /-- A loop that no end closes. -/
  | unclosed
  deriving DecidableEq, Repr

/-- A structural fault with the token that shows it. -/
structure ParseError where
  fault : ParseFault
  index : Nat
  token : Text
  deriving DecidableEq, Repr

namespace Program

/-- A loop whose end has not been read. -/
structure OpenLoop where
  /-- The position of its start. -/
  start : Nat
  /-- The instructions before it on its level, the latest first. -/
  before : Program

/-- Reads tokens from position `i` on. The level under way has the instructions `level`, the latest
first, and lies in the loops `outer`, the innermost first. -/
def parseFrom (i : Nat) (level : Program) (outer : List OpenLoop) :
    List Text → Except ParseError Program
  | [] =>
    match outer with
    | [] => .ok level.reverse
    | inner :: _ => .error ⟨.unclosed, inner.start, Keyword.loopStart.text⟩
  | token :: rest =>
    match Keyword.ofText? token with
    | none => .error ⟨.unrecognized, i, token⟩
    | some .loopStart => parseFrom (i + 1) [] (⟨i, level⟩ :: outer) rest
    | some .loopEnd =>
      match outer with
      | [] => .error ⟨.unmatched, i, token⟩
      | inner :: outer => parseFrom (i + 1) (.loop level.reverse :: inner.before) outer rest
    | some .inc => parseFrom (i + 1) (.simple .inc :: level) outer rest
    | some .dec => parseFrom (i + 1) (.simple .dec :: level) outer rest
    | some .left => parseFrom (i + 1) (.simple .left :: level) outer rest
    | some .right => parseFrom (i + 1) (.simple .right :: level) outer rest
    | some .print => parseFrom (i + 1) (.simple .print :: level) outer rest

/-- The program that a token list spells. -/
def parse (tokens : List Text) : Except ParseError Program := parseFrom 0 [] [] tokens

end Program

end TapeAsm
