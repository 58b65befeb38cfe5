import TapeAsm.Tool.Start

/-!
# The command line program

Gathers what the program finds around it, starts it, and shows what it wrote.
-/

set_option autoImplicit false

namespace TapeAsm.Tool

/-- The file error that a system error stands for. A path that leads through something other than
a directory cannot be opened, and a directory can be opened but not read; the error names the file
only in the first case. -/
def FileError.ofSystem : IO.Error → FileError
  | .permissionDenied .. => .denied
  | .inappropriateType (some _) _ _ => .notDirectory
  | .inappropriateType none _ _ => .directory
  | _ => .missing

/-- Reads a file. -/
def readFile (path : Text) : IO (Except FileError Text) := do
  try
    return .ok (← IO.FS.readBinFile path.toString).toList
  catch e =>
    return .error (.ofSystem e)

/-- The directory of the user's configuration, if there is one. -/
def userDirectory? : IO (Option Text) := do
  match ← IO.getEnv "XDG_CONFIG_HOME", ← IO.getEnv "HOME" with
  | some dir, home =>
    if dir.startsWith "/" then return some (Text.ofString dir)
    else if dir.isEmpty then return home.map fun h => Text.ofString (h ++ "/.config")
    else return none
  | none, home => return home.map fun h => Text.ofString (h ++ "/.config")

/-- The configuration files that exist. -/
def findConfigs : IO (List Settings.File) := do
  let cwd := Text.ofString (← IO.currentDir).toString
  let directories := [cwd] ++ (← userDirectory?).toList
  let found ← (Settings.candidates directories).mapM fun path => do
    match ← readFile path with
    | .ok content => return some ⟨path, some content⟩
    | .error .missing => return none
    | .error .notDirectory => return none
    | .error _ => return some ⟨path, none⟩
  return found.filterMap id

/-- The name of a new span. -/
def drawSpan : IO Log.Span := do
  return Log.spanOf (← (List.range Log.spanLength).mapM fun _ => IO.rand 0 31)

/-- Writes a text to a stream. -/
def write (stream : IO.FS.Stream) (t : Text) : IO Unit := do
  stream.write ⟨t.toArray⟩
  stream.flush

/-- Reads a stream to its end, behind what has been read of it. -/
partial def readToEnd (stream : IO.FS.Stream) (before : ByteArray) : IO Text := do
  let chunk ← stream.read 65536
  if chunk.isEmpty then return before.toList else readToEnd stream (before ++ chunk)

end TapeAsm.Tool

open TapeAsm TapeAsm.Tool in
/-- Runs the program with the arguments of the command line. -/
def main (args : List String) : IO UInt32 := do
  let args := args.map Text.ofString
  let flags := (Flags.read args {}).1
  let file ← readFile flags.file
  let surroundings : Surroundings :=
    { read := fun _ => file
      configs := ← findConfigs
      input := ← if flags.tap then readToEnd (← IO.getStdin) .empty else pure []
      span := ← drawSpan
      color := ← (← IO.getStdout).isTty
      describe := Failure.text }
  let (output, exit) := start surroundings args
  write (← IO.getStdout) (shown output exit)
  write (← IO.getStderr) (output.on [.errors, .log])
  return exit.status.toUInt32
