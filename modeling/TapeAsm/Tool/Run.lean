import TapeAsm.Log.Line
import TapeAsm.Log.Span
import TapeAsm.Mode
import TapeAsm.Report
import TapeAsm.Settings.Flags
import TapeAsm.Tool.Banner
import TapeAsm.Tool.Console

/-!
# Running a program

A run interprets one source on a new machine, in a span of its own, and tells the outcome: on
success what the program printed, on failure why it halted, each with an exit code. A report and a
console can be asked for in between. A tape that no memory can hold crashes the run before the
source is looked at.
-/

set_option autoImplicit false

namespace TapeAsm.Tool

/-- What a run depends on besides the source. -/
structure Setup where
  config : Config
  flags : Flags
  mode : Mode
  /-- The name of the span of the run. -/
  span : Log.Span
  /-- What is typed into the console. -/
  input : Text
  /-- The console that is opened if it is asked for. -/
  console : Console := .simple
  /-- Can the results be shown in colour? -/
  color : Bool
  /-- The number of bytes that the error stream takes, if there is a limit. -/
  capacity : Option Int
  /-- How the log shows the failure of a run. -/
  describe : Failure → Text

/-- What came of a run: what it wrote, how it ended, and the log level from then on. -/
structure Outcome where
  output : Output
  exit : Exit
  level : Log.Level

namespace Setup

/-- The context of the run. -/
def context (s : Setup) : Log.Context := ⟨some s.span⟩

/-- Log records, as far as the level lets them through. -/
def logged (s : Setup) (level : Log.Level) (records : List Log.Record) : Output :=
  .piece .log (records.flatMap (Log.Logger.plain.write level s.context.span))

/-- The banner, if it is wanted. -/
def banner (s : Setup) : Output :=
  .piece .results
    (Text.onlyIf (!s.flags.noBanner) (Tool.banner (s.mode.interactive && s.color)))

/-- The report of the run, if it is wanted; if it cannot be written, that is logged. -/
def report (s : Setup) (level : Log.Level) (session : Session) (failure : Option Failure) :
    Output :=
  if s.flags.report then
    let report := Report.make (some session.run) session.machine failure
    let written := match s.capacity with
      | some capacity => report.writeTo capacity
      | none => .ok ()
    match written with
    | .ok () => .piece .errors report.yaml
    | .error e => s.logged level [⟨.error, "write report", [⟨"error", .text e.text⟩]⟩]
  else []

/-- The console on the machine, if it is wanted and there is a human, and the fault that it ran
into. -/
def tap (s : Setup) (level : Log.Level) (m : Machine) : Output × Option Fault :=
  if s.flags.tap && s.mode.interactive then
    let (talk, fault) := s.console s.input m
    (s.logged level [⟨.info, "tap: machine", [⟨"globals", .list Inspect.globalNames⟩]⟩] ++ talk ++
      s.logged level [⟨.info, "tap end: machine", []⟩], fault)
  else ([], none)

/-- What is said about a failure. -/
def halted (s : Setup) (level : Log.Level) (failure : Failure) : Output :=
  s.logged level [⟨.debug, "run failed", [⟨"error", .text (s.describe failure)⟩]⟩] ++
  .piece .results "\n" ++
  .piece .errors
    (Text.onlyIf (failure.carries .lexical) "🔴 Error: tokens are not valid.\n" ++
      "Execution halted: " ++ (Log.wrapSpan s.context (.plain failure.message)).text ++ "\n") ++
  .piece .results "\n"

/-- What is said about a success. -/
def finished (m : Machine) : Output :=
  .piece .results ("Result\n" ++ m.render ++ "\n\nProgram executed.\n\n")

/-- The failure that stopped an interpretation, if it was one. -/
def failureOf : Option (Stop Failure) → Option Failure
  | some (.failed failure) => some failure
  | _ => none

end Setup

/-- Runs a source, from a log level on. A machine that logs its steps lowers the level. -/
def run (s : Setup) (level : Log.Level) (source : Text) : Outcome :=
  let opening := s.logged level [Log.newSpan .background []] ++ s.banner
  let level := if s.config.debug then .debug else level
  if s.config.allocatable then
    let (session, stopped) := (Machine.new s.config).interpret source
    let failure := Setup.failureOf stopped
    let events := s.logged level (session.log.toList.map Log.Record.ofEvent)
    let (talk, fault) := s.tap level session.machine
    let middle := opening ++ events ++ s.report level session failure ++ talk
    match stopped, fault with
    | some (.crashed _), _ => ⟨opening ++ events, .crashed, level⟩
    | _, some _ => ⟨middle, .crashed, level⟩
    | some (.failed e), none => ⟨middle ++ s.halted level e, .code 1, level⟩
    | none, none => ⟨middle ++ Setup.finished session.machine, .code 0, level⟩
  else ⟨opening, .crashed, level⟩

end TapeAsm.Tool
