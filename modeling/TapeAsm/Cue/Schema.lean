import TapeAsm.Cue.Document

/-!
# Schemas

A schema is a list of field declarations. A document satisfies it if it agrees with them and, at
the top level, has no other fields.
-/

set_option autoImplicit false

namespace TapeAsm.Cue

/-- What a configuration file may say. -/
structure Schema where
  document : Document

namespace Schema

/-- The schema of a source that closes a struct, if it is well-formed and free of conflicts. -/
def read? (source : Text) : Option Schema := do
  let document ← Document.read? source
  match ← document.value? with
  | .struct _ => some ⟨document⟩
  | _ => none

/-- Does the document satisfy the schema? -/
def accepts (s : Schema) (d : Document) : Bool := !(Document.valueOf [s.document, d]).isConflict

end Schema

end TapeAsm.Cue
