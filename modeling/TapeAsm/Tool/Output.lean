import TapeAsm.Text.Basic

/-!
# Output

What a run writes, piece by piece, each to a channel. Which channels share a stream is up to whoever
shows them.
-/

set_option autoImplicit false

namespace TapeAsm.Tool

/-- Where a piece of output goes. -/
inductive Channel where
  /-- The results, shown when the program ends. -/
  | results
  /-- The answers of the console, shown at once. -/
  | console
  /-- What a human should know about errors. -/
  | errors
  | log
  deriving DecidableEq, Repr

/-- A text on its channel. -/
structure Piece where
  channel : Channel
  text : Text
  deriving DecidableEq, Repr

/-- Everything written, in order. -/
abbrev Output := List Piece

namespace Output

/-- What was written to some channels, in order. -/
def on (channels : List Channel) (o : Output) : Text :=
  (o.filter fun p => channels.contains p.channel).flatMap (·.text)

/-- A single piece. -/
def piece (channel : Channel) (t : Text) : Output := [⟨channel, t⟩]

end Output

/-- How a run of the program ends. -/
inductive Exit where
  | code (n : Nat)
  /-- The program crashed or never came to an end, and what it had not shown yet is lost. -/
  | crashed
  deriving DecidableEq, Repr

/-- The exit code of a crash. -/
def crashCode : Nat := 2

/-- The exit code. -/
def Exit.status : Exit → Nat
  | code n => n
  | crashed => crashCode

end TapeAsm.Tool
