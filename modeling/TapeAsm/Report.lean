import TapeAsm.Machine.Interpret
import TapeAsm.Program.Layout
import TapeAsm.Yaml.Scalar

/-!
# Run reports

A report sums up one run of a machine and is written as a YAML mapping, one entry a field. Texts
that say nothing are left out, and so are settings that are not set.
-/

set_option autoImplicit false

namespace TapeAsm

/-- The summary of a run. -/
structure Report where
  tokens : Int
  valid : Bool
  instructions : Int
  depth : Int
  steps : Int
  pointer : Int
  output : Text
  config : Config
  error : Text
  errorKind : Text
  program : Text
  deriving DecidableEq, Repr

namespace Report

/-- The report of a machine after a run, if there was one, and a failure, if there was one. -/
def make (run : Option Run) (m : Machine) (failure : Option Failure) : Report where
  tokens := (run.map (·.tokens.length)).getD 0
  valid := (run.map (·.valid)).getD false
  instructions := (run.map (·.program.count)).getD 0
  depth := (run.map (·.program.depth)).getD 0
  steps := m.steps
  pointer := m.pointer
  output := m.render
  config := m.config
  error := (failure.map (·.message)).getD []
  errorKind := (failure.map (·.kind.text)).getD []
  program := (run.map (·.program.format)).getD []

/-- An entry with a number. -/
def intEntry (key : Text) (value : Int) : Text := key ++ ": " ++ Text.ofInt value ++ "\n"

/-- An entry with a truth value. -/
def boolEntry (key : Text) (value : Bool) : Text := key ++ ": " ++ Text.ofBool value ++ "\n"

/-- An entry with a string. -/
def stringEntry (key value : Text) : Text := key ++ ": " ++ Yaml.writeString value

/-- The entries of a configuration. -/
def configEntries (c : Config) : Text :=
  Text.onlyIf (c.cells ≠ 0) (intEntry "  cells" c.cells) ++
  Text.onlyIf (c.maxValue ≠ 0) (intEntry "  max_value" c.maxValue) ++
  Text.onlyIf (c.maxSteps ≠ 0) (intEntry "  max_steps" c.maxSteps) ++
  Text.onlyIf c.debug (boolEntry "  debug" c.debug)

/-- The entry of a configuration; one that sets nothing is written as an empty mapping. -/
def configEntry (c : Config) : Text :=
  if c = .zero then "config: \x7b\x7d\n" else "config:\n" ++ configEntries c

/-- The report as a YAML document. -/
def yaml (r : Report) : Text :=
  intEntry "tokens" r.tokens ++
  boolEntry "valid" r.valid ++
  intEntry "instructions" r.instructions ++
  intEntry "depth" r.depth ++
  intEntry "steps" r.steps ++
  intEntry "pointer" r.pointer ++
  stringEntry "output" r.output ++
  configEntry r.config ++
  Text.onlyIf (!r.error.isEmpty) (stringEntry "error" r.error) ++
  Text.onlyIf (!r.errorKind.isEmpty) (stringEntry "error_kind" r.errorKind) ++
  Text.onlyIf (!r.program.isEmpty) (stringEntry "program" r.program)

/-- The failure of a report that could not be written. -/
def writeError : Failure := .plain "yaml: write error: disk full"

/-- Writes the report to a device that takes at most `capacity` bytes. -/
def writeTo (capacity : Int) (r : Report) : Except Failure Unit :=
  if r.yaml.length ≤ capacity then .ok () else .error writeError

end Report

end TapeAsm
