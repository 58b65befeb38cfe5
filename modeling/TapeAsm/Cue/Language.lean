import TapeAsm.Cue.Decode
import TapeAsm.Cue.Path
import TapeAsm.Cue.Schema
import TapeAsm.Settings.Language

/-!
# The language of the program's configuration files

The language that the program is run with: declarations, bounds, choices and structs as
configuration files use them, and not all that the language has. A document that imports a package
or uses another form that is left out does not compile, and a function that is left out gives a
value that is unknown. Nothing rests on this language: what is proved of loading and resolving
settings holds of any `Settings.Language`, and this one only shows that it can be run.
-/

set_option autoImplicit false

namespace TapeAsm.Cue

/-- A document that has been compiled, with its value. -/
structure Compiled where
  document : Document
  value : Value

/-- The document of a source with its value, if it is well-formed, known and free of conflicts. -/
def Compiled.read? (source : Text) : Option Compiled := do
  let document ← Document.read? source
  let value ← document.value?
  some ⟨document, value⟩

/-- The language of the program's configuration files. -/
abbrev language : Settings.Language where
  Schema := Schema
  Document := Compiled
  Value := Value
  schema? := Schema.read?
  document? := Compiled.read?
  accepts s c := s.accepts c.document
  lookup? c path := c.value.lookup? path
  int? := Value.int?
  bool? := Value.bool?

end TapeAsm.Cue
