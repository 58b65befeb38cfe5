import TapeAsm.Machine.Execute
import TapeAsm.Stage

/-!
# Interpretation

A source is scanned into tokens, the tokens are checked against the vocabulary and parsed, and the
program is executed. Each part is a stage; the first that fails ends the interpretation, and nothing
before execution touches the machine.
-/

set_option autoImplicit false

namespace TapeAsm

/-- What the stages of an interpretation produced. Stages that were not reached leave it empty. -/
structure Run where
  source : Text
  tokens : List Token
  valid : Bool
  program : Program

/-- A run of which only the source is known. -/
def Run.start (source : Text) : Run := ⟨source, [], false, []⟩

/-- The state of an interpretation under way. -/
structure Session where
  machine : Machine
  run : Run
  log : Array Event

namespace Session

/-- A stage of an interpretation. -/
abbrev Step := Stage Session Failure

/-- An action after which the stage is done. -/
def once (name : Text) (effect : Session → Session × Option (Stop Failure)) : Step :=
  .action name effect fun _ => .absent

/-- Scans the source. -/
def scan : Step := once "scan" fun s =>
  ({ s with run := { s.run with tokens := Token.scan s.run.source } }, none)

/-- The texts of the tokens found. -/
def texts (s : Session) : List Text := s.run.tokens.map (·.text)

/-- The tokens found that are not in the vocabulary. -/
def invalidTokens (s : Session) : List Token :=
  (Token.unrecognized s.texts).filterMap (s.run.tokens[·]?)

/-- Checks the tokens against the vocabulary. -/
def check : Step := once "check" fun s =>
  let valid := Token.valid s.texts
  let checked := { s with run := { s.run with valid } }
  if valid then (checked, none) else (checked, some (.failed (.lexical ⟨s.invalidTokens⟩)))

/-- Parses the tokens. -/
def parse : Step := once "parse" fun s =>
  match Program.parse s.texts with
  | .ok program => ({ s with run := { s.run with program } }, none)
  | .error error => (s, some (.failed (.structural (.ofParseError error))))

/-- Executes the program. -/
def execute : Step := once "execute" fun ⟨machine, run, log⟩ =>
  let log := log.push
    (.execute run.program.count run.program.depth machine.config.maxSteps)
  let execution := machine.execute run.program
  let s := ⟨execution.machine, run, log ++ execution.log⟩
  match execution.ending with
  | .finished => (s, none)
  | .halted error => (s, some (.failed (.stepLimit error)))
  | .crashed fault => (s, some (.crashed fault))

/-- The whole interpretation. -/
def pipeline : Step := .sequence [scan, check, parse, execute]

end Session

/-- Interprets a source on the machine: what was produced, and why it stopped if it did. -/
def Machine.interpret (m : Machine) (source : Text) : Session × Option (Stop Failure) :=
  Session.pipeline.drive ⟨m, .start source, #[]⟩

end TapeAsm
