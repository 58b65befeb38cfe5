import TapeAsm.Machine.Config
import TapeAsm.Settings.Discovery
import TapeAsm.Settings.Flags
import TapeAsm.Settings.Precedence

/-!
# Effective settings

A setting is that of its flag, else that of the first file that sets it, else a default. Files that
disagree on the step limit are worth a warning, but the first one still counts.
-/

set_option autoImplicit false

namespace TapeAsm.Settings

/-- The list without the items that repeat the one before. -/
def dropRepeats {α : Type} [DecidableEq α] : List α → List α
  | [] => []
  | [a] => [a]
  | a :: b :: rest => if a = b then dropRepeats (b :: rest) else a :: dropRepeats (b :: rest)

/-- The warning about step limits that differ, if they do. -/
def stepLimitRecords (limits : List Int) : List Log.Record :=
  let changes := dropRepeats limits
  if 1 < changes.length then
    [⟨.warn, "max_steps differs between config files, the first one is used",
      [⟨"values", .list (changes.map Text.ofInt)⟩]⟩]
  else []

section
variable {L : Language}

/-- A number: that of the flag, of the files, or the default, whichever is the first that is set. -/
def number (flag : Int) (l : Loader L) (path : Text) (default : Int) : Except QueryError Int := do
  let configured ← l.first L.int? 0 path
  return firstNonzero 0 [flag, configured, default]

/-- The step limit, and what is logged about it. -/
def stepLimit (flag : Int) (l : Loader L) (default : Int) :
    List Log.Record × Except QueryError Int :=
  match l.all L.int? "max_steps" none with
  | (_, some e) => ([], .error e)
  | (limits, none) => (stepLimitRecords limits, number flag l "max_steps" default)

/-- Is every step to be logged? The files are not asked if the flag says so. -/
def debug (flag : Bool) (l : Loader L) (default : Bool) : Except QueryError Bool := do
  if flag then return true
  let configured ← l.first L.bool? false "debug"
  return configured || default

/-- The configuration that flags, files and defaults make together, and what is logged on the
way. -/
def resolve (flags : Flags) (l : Loader L) (defaults : Config) :
    List Log.Record × Except QueryError Config :=
  match number flags.cells l "cells" defaults.cells,
      number flags.maxValue l "max_value" defaults.maxValue with
  | .ok cells, .ok maxValue =>
    let (records, maxSteps) := stepLimit flags.maxSteps l defaults.maxSteps
    (records, do
      let maxSteps ← maxSteps
      return ⟨cells, maxValue, maxSteps, ← debug flags.debug l defaults.debug⟩)
  | .error e, _ => ([], .error e)
  | _, .error e => ([], .error e)

end

end TapeAsm.Settings
