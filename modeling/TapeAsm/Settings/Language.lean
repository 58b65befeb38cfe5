import TapeAsm.Text.Basic

/-!
# Configuration languages

What loading and resolving settings ask of the language that configuration files are written in. A
source is compiled, to a schema or to a document; a document is checked against a schema, and its
values are looked up and decoded. How the language does this is its own affair: settings are loaded
and resolved in the same way whatever it answers.
-/

set_option autoImplicit false

namespace TapeAsm.Settings

/-- **A language for configuration files**, by its answers. -/
structure Language where
  Schema : Type
  Document : Type
  Value : Type
  /-- The schema with a source, if it compiles. -/
  schema? : Text → Option Schema
  /-- The document with a source, if it compiles. -/
  document? : Text → Option Document
  /-- Does the document agree with the schema, and is all settled that the schema asks for? -/
  accepts : Schema → Document → Bool
  /-- The value at a path of a document, if there is one and it is no error. -/
  lookup? : Document → Text → Option Value
  /-- The machine word that a value is decoded to. -/
  int? : Value → Option Int
  /-- The truth value that a value is decoded to. -/
  bool? : Value → Option Bool

end TapeAsm.Settings
