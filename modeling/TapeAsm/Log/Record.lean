import TapeAsm.Command.Argument
import TapeAsm.Machine.Execute

/-!
# Log records

A record has a level, a message and attributes. Levels are numbers; the four named ones stand four
apart, and a level in between is written as the named one below it with its distance.
-/

set_option autoImplicit false

namespace TapeAsm

/-- The importance of a record. -/
abbrev Log.Level := Int

namespace Log.Level

def debug : Level := -4
def info : Level := 0
def warn : Level := 4
def error : Level := 8

/-- A name with the distance from its level, if there is any. -/
def named (name : Text) (distance : Int) : Text :=
  if distance = 0 then name
  else if 0 < distance then name ++ "+" ++ Text.ofInt distance
  else name ++ Text.ofInt distance

/-- The name of a level. -/
def name (level : Level) : Text :=
  if level < info then named "DEBUG" (level - debug)
  else if level < warn then named "INFO" (level - info)
  else if level < error then named "WARN" (level - warn)
  else named "ERROR" (level - error)

/-- The named levels. -/
def all : List Level := [debug, info, warn, error]

/-- The level that a name stands for, in either case, perhaps with a distance behind it. Levels are
machine words, so a great distance wraps around. -/
def ofName? (t : Text) : Option Level := do
  let (word, distance) := t.span fun b => b ≠ Text.ascii '+' && b ≠ Text.ascii '-'
  let level ← all.find? fun l => l.name = Text.ofChars ((Text.chars word).map Text.upperToAscii)
  if distance.isEmpty then some level
  else (Command.readInt .word distance).toOption.map fun d => Word.wrap (level + d)

end Log.Level

namespace Log

/-- The value of an attribute. -/
inductive Value where
  | nothing
  | bool (value : Bool)
  | int (value : Int)
  | text (value : Text)
  | list (values : List Text)
  deriving DecidableEq, Repr

/-- The text of a value. -/
def Value.render : Value → Text
  | nothing => "<nil>"
  | bool value => Text.ofBool value
  | int value => Text.ofInt value
  | text value => value
  | list values => "[" ++ Text.join " " values ++ "]"

/-- A named value. -/
structure Attr where
  key : Text
  value : Value
  deriving DecidableEq, Repr

/-- Something that was logged. -/
structure Record where
  level : Level
  message : Text
  attrs : List Attr
  deriving DecidableEq, Repr

/-- The record of an event of a run. -/
def Record.ofEvent : Event → Record
  | .execute instructions depth maxSteps =>
    ⟨.debug, "execute",
      [⟨"instructions", .int instructions⟩, ⟨"depth", .int depth⟩, ⟨"max steps", .int maxSteps⟩]⟩
  | .step step op pointer memory =>
    ⟨.debug, "step",
      [⟨"step", .int step⟩, ⟨"op", .text op.name⟩, ⟨"pointer", .int pointer⟩,
       ⟨"memory", .text memory⟩]⟩
  | .leftEdge step =>
    ⟨.warn, "pointer is already at position 0, cannot move LEFT", [⟨"step", .int step⟩]⟩
  | .rightEdge step pointer =>
    ⟨.warn, "pointer is at the last memory cell, cannot move RIGHT",
      [⟨"step", .int step⟩, ⟨"pointer", .int pointer⟩]⟩

end Log

end TapeAsm
