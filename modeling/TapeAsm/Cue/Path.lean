import TapeAsm.Cue.Document

/-!
# Paths

A path leads from a value to a part of it. It begins with a name or an index and goes on with
names behind a point and with indexes or names in brackets. The empty path leads to the value
itself; a path that is not well-formed leads nowhere.
-/

set_option autoImplicit false

namespace TapeAsm.Cue

/-- One step of a path. -/
inductive Selector where
  | field (label : Label)
  | item (index : Nat)
  deriving DecidableEq, Repr

namespace Selector

/-- The step that a name stands for. No path leads to a hidden field, and values are no names. -/
def ofName? (name : Text) : Option Selector :=
  if (Text.ofString "_").isPrefixOf name then none else some (field (.ofName name))

/-- The step that a number stands for: an index, which is a machine word. -/
def ofNumber? (n : Number) : Option Selector := do
  let index ← n.int?
  if index < Nat.pow 2 63 then some (item index.toNat) else none

/-- The step that a quoted name stands for. One that cannot be decoded counts as empty. -/
def ofQuoted? (q : Quote) (piece : List Char) : Option Selector :=
  if q.double then some (field (.regular ((Grammar.textOf? q piece).getD []))) else none

/-- Takes one step. -/
def step? : Selector → Value → Option Value
  | field label, v => v.field? label
  | item index, v => v.item? index

end Selector

/-- A way to a part of a value. -/
abbrev Path := List Selector

namespace Path

/-- The steps behind the first one. A line end may stand behind the last. -/
def stepsOf? : List Token → Option Path
  | [] => some []
  | [.lineEnd] => some []
  | .symbol '.' :: .name name :: rest => do some ((← Selector.ofName? name) :: (← stepsOf? rest))
  | .symbol '.' :: .quoted q piece :: rest =>
    if q.hashes = 0 ∧ !q.multiline ∧ !piece.isEmpty then do
      some ((← Selector.ofQuoted? q piece) :: (← stepsOf? rest))
    else none
  | .symbol '[' :: .number n :: .symbol ']' :: rest => do
    some ((← Selector.ofNumber? n) :: (← stepsOf? rest))
  | .symbol '[' :: .quoted q piece :: .symbol ']' :: rest => do
    some ((← Selector.ofQuoted? q piece) :: (← stepsOf? rest))
  | _ => none

/-- The first step. The names of values are none. -/
def first? : Token → Option Selector
  | .name name =>
    if ["true", "false", "null"].any fun (w : String) => name = Text.ofString w then none
    else Selector.ofName? name
  | .number n => Selector.ofNumber? n
  | .quoted q piece => Selector.ofQuoted? q piece
  | _ => none

/-- The path of a list of tokens. -/
def ofTokens? : List Token → Option Path
  | t :: rest => do some ((← first? t) :: (← stepsOf? rest))
  | [] => none

/-- The path that a text spells. -/
def read? (t : Text) : Option Path :=
  if t.isEmpty then some [] else Token.scan? t >>= ofTokens?

/-- Follows a path. -/
def follow? : Path → Value → Option Value
  | [], v => v.known?
  | s :: rest, v => s.step? v >>= follow? rest

end Path

/-- The part of a value that a text leads to. -/
def Value.lookup? (v : Value) (path : Text) : Option Value := Path.read? path >>= (·.follow? v)

end TapeAsm.Cue
