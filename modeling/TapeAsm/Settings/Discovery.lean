import TapeAsm.Log.Record
import TapeAsm.Settings.Loader

/-!
# Finding configuration files

Configuration files are looked for in the working directory, in the user's directory and in that of
the system, in this order of precedence, and in each under two names.
-/

set_option autoImplicit false

namespace TapeAsm.Settings

/-- The names of configuration files. -/
def fileNames : List Text := ["bfa.cue", ".bfa.cue"]

/-- The directory of the system's configuration. -/
def systemDirectory : Text := "/etc"

/-- A file in a directory. -/
def inDirectory (directory name : Text) : Text := directory ++ "/" ++ name

/-- Where configuration files may be, in order of precedence. -/
def candidates (directories : List Text) : List Text :=
  (directories ++ [systemDirectory]).flatMap fun d => fileNames.map (inDirectory d)

/-- What is logged about the files found: their paths, and nothing if there are none. -/
def foundRecords (paths : List Text) : List Log.Record :=
  if paths.isEmpty then [] else [⟨.info, "config file", [⟨"paths", .list paths⟩]⟩]

/-- What a configuration file may say: the sizes are positive. -/
def schema : Text :=
  "cells?:     int & >0\nmax_value?: int & >0\nmax_steps?: int & >0\ndebug?:     bool\n"

end TapeAsm.Settings
