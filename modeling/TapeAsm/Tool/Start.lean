import TapeAsm.Settings.Resolve
import TapeAsm.Tool.Run
import TapeAsm.Tool.Sample

/-!
# Starting the program

The command line is read first, then the program file, then the configuration files; each can end
the program before anything runs.
-/

set_option autoImplicit false

namespace TapeAsm.Tool

/-- Why a file cannot be read. -/
inductive FileError where
  | missing
  | notDirectory
  | directory
  | denied
  deriving DecidableEq, Repr

/-- The text of a file error. -/
def FileError.message (name : Text) : FileError → Text
  | missing => "open " ++ name ++ ": no such file or directory"
  | notDirectory => "open " ++ name ++ ": not a directory"
  | directory => "read " ++ name ++ ": is a directory"
  | denied => "open " ++ name ++ ": permission denied"

/-- What the program finds around it. -/
structure Surroundings where
  /-- What reading a file gives. -/
  read : Text → Except FileError Text
  /-- The configuration files that exist, in order of precedence. -/
  configs : List Settings.File
  /-- What is typed in. -/
  input : Text
  /-- The console that a human is given. -/
  console : Console := .simple
  /-- The name of the span of the run. -/
  span : Log.Span
  color : Bool
  /-- How the log shows the failure of a run. -/
  describe : Failure → Text

/-- The defaults of the program: its step limit is lower than that of a machine. -/
def defaults : Config := { Config.zero with maxSteps := 30000 }

/-- The source of the program to run. -/
def source (w : Surroundings) (flags : Flags) : Except FileError Text :=
  if flags.file.isEmpty then .ok sample else w.read flags.file

/-- Log records outside of any span. -/
def loggedOutside (level : Log.Level) (records : List Log.Record) : Output :=
  .piece .log (records.flatMap (Log.Logger.plain.write level none))

/-- The setup of a run with a configuration. -/
def setup (w : Surroundings) (flags : Flags) (config : Config) : Setup where
  config := config
  flags := flags
  mode := .production
  span := w.span
  input := w.input
  console := w.console
  color := w.color
  capacity := none
  describe := w.describe

/-- Runs a source with the settings that flags and files make together. Settings that cannot be
read crash the program. -/
def runConfigured (w : Surroundings) (flags : Flags) (source : Text) : Output × Exit :=
  let found := Settings.foundRecords (w.configs.map (·.path))
  let loader := Settings.Loader.load Settings.schema w.configs
  let (warnings, config) := Settings.resolve flags loader defaults
  let opening := loggedOutside flags.level (found ++ warnings)
  match config with
  | .error e => (opening ++ .piece .errors (e.message ++ "\n"), .crashed)
  | .ok config =>
    let outcome := run (setup w flags config) flags.level source
    (opening ++ outcome.output, outcome.exit)

/-- Starts the program with a command line. -/
def start (w : Surroundings) (args : List Text) : Output × Exit :=
  match Flags.read args {} with
  | (_, .failed e) => (.piece .errors (e.message ++ "\n"), .code 2)
  | (_, .usage) => (.piece .results Flags.usage, .code 0)
  | (flags, .finished) =>
    match source w flags with
    | .error e => (.piece .errors (e.message flags.file ++ "\n"), .code 1)
    | .ok source => runConfigured w flags source

/-- What is shown of the results: the answers of the console first, and the rest unless it is
lost. -/
def shown (o : Output) (exit : Exit) : Text :=
  o.on [.console] ++ match exit with
    | .code _ => o.on [.results]
    | .crashed => []

end TapeAsm.Tool
