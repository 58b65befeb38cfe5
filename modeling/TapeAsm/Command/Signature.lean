import TapeAsm.Command.Registry

/-!
# What can become a command

A command handler is a function that gives nothing or an error. Anything else is refused when the
command is made, before it has a name.
-/

set_option autoImplicit false

namespace TapeAsm.Command

/-- Something offered as a command handler. -/
inductive Candidate where
  /-- A value of a type that is not a function. -/
  | value (type : Text)
  /-- A function with results of the given types. -/
  | function (results : List Text)
  deriving DecidableEq, Repr

/-- The only type of result that a handler may have. -/
def errorType : Text := "error"

/-- Why the candidate cannot be a handler, if it cannot. -/
def Candidate.refusal? : Candidate → Option Text
  | value type => some ("must be function, got " ++ type)
  | function [] => none
  | function [result] =>
    if result = errorType then none else some ("must return error, got " ++ result)
  | function _ => some "must return 0 or 1 value"

/-- The text for a name that is already bound. -/
def duplicateMessage (name : Text) : Text := "duplicated command " ++ name

/-- The text for a name that is not bound. -/
def undefinedMessage (name : Text) : Text := "no such command: " ++ name

end TapeAsm.Command
