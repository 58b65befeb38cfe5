import TapeAsm.Log.Record
import TapeAsm.Failure

/-!
# Spans

A span names a stretch of work, so that its log records and failures can be matched. A context holds
at most one. A new span remembers the span of the context it was made in, as its creator, and a
parent, which is the creator unless another is named.
-/

set_option autoImplicit false

namespace TapeAsm.Log

/-- The name of a span. -/
abbrev Span := Text

/-- The number of letters in the name of a new span: of 32 letters this many make 128 random
bits. -/
def spanLength : Nat := 26

/-- The letter that a random number draws: a capital or a digit that looks like none. -/
def spanLetter (draw : Nat) : UInt8 :=
  let n := draw % 32
  if n < 26 then Text.ascii 'A' + n.toUInt8 else Text.ascii '2' + (n - 26).toUInt8

/-- The name of a new span from random numbers. -/
def spanOf (draws : List Nat) : Span := (draws.take spanLength).map spanLetter

/-- What a piece of work runs in: its span, if it has one. -/
structure Context where
  span : Option Span := none
  deriving DecidableEq, Repr

/-- The context without a span. -/
def Context.background : Context := {}

/-- The context of a new span: the span takes the place of the one around it. -/
def Context.enter (c : Context) (span : Span) : Context := { c with span := some span }

/-- The record of a new span, to be logged in its own context. -/
def newSpan (creator : Context) (parent : Span) : Record :=
  let creator := creator.span.getD []
  let parent := if parent.isEmpty then creator else parent
  let attr (key value : Text) (shown : Bool) : List Attr :=
    if shown then [⟨key, .text value⟩] else []
  ⟨.debug, "new span",
    attr "creator" creator (!creator.isEmpty && creator ≠ parent) ++
    attr "parent" parent (!parent.isEmpty)⟩

/-- A failure together with the span of its context, if there is one. -/
def wrapSpan (c : Context) (failure : Failure) : Failure :=
  match c.span with
  | none => failure
  | some span => .joined [failure, .plain ("span: " ++ span)]

end TapeAsm.Log
