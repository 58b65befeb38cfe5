import TapeAsm.Cue.Evaluate
import TapeAsm.Cue.Grammar

/-!
# Configuration documents

A document is a sequence of declarations, read as a struct. Every name in it must be declared by a
struct around it or have a meaning of its own, and every binding must be used. Its value is what its
declarations say together.

Some forms of the language are left out: imports, names for fields and matching by patterns. A
document with one of them is not well-formed here.
-/

set_option autoImplicit false

namespace TapeAsm.Cue

/-- A document: the tree of its source, and how many tokens it has. -/
structure Document where
  tree : Expr
  size : Nat

namespace Document

/-- Are all names of an expression declared, and all its bindings used? -/
def isClosed (e : Expr) : Bool := e.free.all (fun n => (predeclared? n).isSome) && e.usesBindings

/-- The document of a source, if it is well-formed. -/
def read? (source : Text) : Option Document := do
  let ts ← Token.scan? source
  let tree := Expr.struct (← Grammar.document? ts)
  if isClosed tree then some ⟨tree, ts.length⟩ else none

/-- What a document says about the whole. -/
def statement (d : Document) : Statement := .holds [] d.tree {}

/-- The number of rules that suffices for documents with so many tokens. -/
def enough (size : Nat) : Nat := 64 * size + 256

/-- The tokens of documents, counted together. -/
def sizes (documents : List Document) : Nat := documents.foldl (fun n d => n + d.size) 0

/-- What documents say together. -/
def valueOf (documents : List Document) : Value :=
  Alternative.toValue (alternatives (enough (sizes documents)) {}
    (.mk [] (documents.map statement)))

/-- The value of a document, if it is known and free of conflicts. -/
def value? (d : Document) : Option Value := (valueOf [d]).known?

end Document

end TapeAsm.Cue
