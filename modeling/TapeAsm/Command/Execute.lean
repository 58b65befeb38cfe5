import TapeAsm.Command.Registry

/-!
# Command lines

A command line is a list of arguments: the name of a command, the arguments of its parameters, the
next name, and so on. Commands run one after the other; the first error ends the line, and what ran
before it has had its effect.
-/

set_option autoImplicit false

namespace TapeAsm

/-- Why a command line ends early. -/
inductive Command.Error where
  | unknown (name : Text)
  | argument (name : Text) (error : Command.ArgError)
  | failed (text : Text)
  deriving DecidableEq, Repr

/-- The text of a command line error. -/
def Command.Error.message : Command.Error → Text
  | unknown name => "unknown command: " ++ name
  | argument name error => name ++ ": " ++ error.message
  | failed text => text

/-- How a command line ended. -/
inductive Command.Outcome where
  | finished
  | failed (error : Command.Error)
  /-- The usage was asked for. -/
  | usage
  deriving DecidableEq, Repr

namespace Registry

variable {σ : Type}

/-- Runs the commands behind the next `skip` arguments, which belong to a command that has run. -/
def executeAfter (r : Registry σ) : (skip : Nat) → List Text → σ → σ × Command.Outcome
  | _, [], s => (s, .finished)
  | skip + 1, _ :: rest, s => executeAfter r skip rest s
  | 0, word :: rest, s =>
    let name := word.trim
    match r.command? name with
    | none => (s, .failed (.unknown name))
    | some command =>
      match Command.readArgs command.params rest with
      | .error error => (s, .failed (.argument name error))
      | .ok args =>
        match command.handler args s with
        | (s, .done) => executeAfter r command.params.length rest s
        | (s, .failed text) => (s, .failed (.failed text))
        | (s, .usage) => (s, .usage)

/-- Runs a command line. -/
def execute (r : Registry σ) (args : List Text) (s : σ) : σ × Command.Outcome :=
  r.executeAfter 0 args s

end Registry

end TapeAsm
