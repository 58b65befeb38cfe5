import TapeAsm.Command.Execute
import TapeAsm.Command.Usage
import TapeAsm.Log.Record

/-!
# Flags

What the command line sets. A flag is a command on this state: a variable takes the next argument, a
switch takes none, and a log level is chosen by name.
-/

set_option autoImplicit false

namespace TapeAsm

/-- The state of the command line flags. A number that is zero is not set. -/
structure Flags where
  cells : Int := 0
  maxValue : Int := 0
  maxSteps : Int := 0
  debug : Bool := false
  /-- The program file; the built-in sample if empty. -/
  file : Text := []
  tap : Bool := false
  report : Bool := false
  noBanner : Bool := false
  /-- The least level of the records that are written. -/
  level : Log.Level := .warn
  deriving DecidableEq, Repr

namespace Flags

/-- A named command on the flags. -/
abbrev Entry := Text × Command Flags

/-- Describes the first of some commands. -/
def described (description : Text) : List Entry → List Entry
  | [] => []
  | (name, command) :: rest => (name, { command with description }) :: rest

/-- A variable that holds a number. -/
def number (name description : Text) (assign : Int → Flags → Flags) : List Entry :=
  described description <| Registry.variableCommands name (.int .word) fun
    | .int value => assign value
    | _ => id

/-- A variable that holds a text. -/
def word (name description : Text) (assign : Text → Flags → Flags) : List Entry :=
  described description <| Registry.variableCommands name .text fun
    | .text value => assign value
    | _ => id

/-- A switch. -/
def switch (name description : Text) (assign : Bool → Flags → Flags) : List Entry :=
  described description (Registry.switchCommands name assign)

/-- A choice of the log level. -/
def chooseLevel (name description : Text) (level : Log.Level) : List Entry :=
  described description [(name, Registry.action fun f => { f with level })]

/-- The request for the usage. -/
def help : List Entry :=
  [("-h", { params := [], handler := fun _ f => (f, .usage), description := "print this usage",
            aliases := ["-help", "--help"] })]

/-- All commands on the flags. -/
def commands : List Entry :=
  help ++
  number "-cells" "number of tape cells" (fun cells f => { f with cells }) ++
  number "-max-value" "maximum cell value" (fun maxValue f => { f with maxValue }) ++
  number "-max-steps" "step limit" (fun maxSteps f => { f with maxSteps }) ++
  switch "-debug" "log every step with a memory view" (fun debug f => { f with debug }) ++
  chooseLevel "-log-debug" "set log level to debug" .debug ++
  chooseLevel "-log-info" "set log level to info" .info ++
  chooseLevel "-log-warn" "set log level to warn (default)" .warn ++
  chooseLevel "-log-error" "set log level to error" .error ++
  word "-file" "program file, the built-in sample when empty" (fun file f => { f with file }) ++
  switch "-tap" "open a starlark REPL on the machine state after the run"
    (fun tap f => { f with tap }) ++
  switch "-report" "write a YAML run report to stderr" (fun report f => { f with report }) ++
  switch "-no-banner" "do not print the banner" (fun noBanner f => { f with noBanner })

/-- The commands by name. -/
def registry : Registry Flags := (Registry.empty.defineAll commands).1

/-- The flags that a command line sets, and how it ended. -/
def read (args : List Text) (f : Flags) : Flags × Command.Outcome := registry.execute args f

/-- The usage of the flags. -/
def usage : Text := registry.usage

end Flags

end TapeAsm
