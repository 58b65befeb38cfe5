import TapeAsm.Cue.Language

/-!
# Configuration files

Files are loaded in order: each is read, compiled and checked against the schema before the next.
All must succeed: the first error is the answer to every question. Otherwise a question about a
path concerns the files that set it, in order, and the first of them takes precedence. The language
of the files can be any, and is that of the program unless another is named.
-/

set_option autoImplicit false

namespace TapeAsm.Settings

/-- A configuration file: where it is, and what it holds if it can be read. -/
structure File where
  path : Text
  content : Option Text
  deriving DecidableEq, Repr

/-- The last component of a path. -/
def baseName (path : Text) : Text :=
  (path.reverse.takeWhile (· ≠ Text.ascii '/')).reverse

/-- Why the files cannot be loaded. -/
inductive LoadError where
  | read (path : Text)
  | compileSchema
  | compile (path : Text)
  | validate (path : Text)
  deriving DecidableEq, Repr

/-- The text of a load error. -/
def LoadError.message : LoadError → Text
  | read path => "read " ++ path
  | compileSchema => "compile schema"
  | compile path => "compile " ++ path
  | validate path => "validate " ++ path

/-- A file that has been loaded. -/
structure Root (L : Language) where
  path : Text
  document : L.Document

/-- The files that have been loaded, or why they have not. -/
abbrev Loader (L : Language := Cue.language) := Except LoadError (List (Root L))

namespace Loader

/-- Loads a file. -/
def loadFile (L : Language) (schema : Option L.Schema) (file : File) : Except LoadError (Root L) :=
  match file.content with
  | none => .error (.read file.path)
  | some content =>
    match L.document? content with
    | none => .error (.compile file.path)
    | some document =>
      if schema.all (L.accepts · document) then .ok ⟨file.path, document⟩
      else .error (.validate file.path)

/-- Compiles a schema: the declarations of a struct that has no other fields. An empty source is no
schema. -/
def loadSchema (L : Language) (source : Text) : Except LoadError (Option L.Schema) :=
  if source.isEmpty then .ok none
  else
    match L.schema? ("close(\x7b" ++ source ++ "\x7d)") with
    | some schema => .ok (some schema)
    | none => .error .compileSchema

/-- Loads files in order. -/
def load (schema : Text) (files : List File) (L : Language := Cue.language) : Loader L := do
  let schema ← loadSchema L schema
  files.mapM (loadFile L schema)

variable {L : Language}

/-- The paths of the files. -/
def paths (l : Loader L) : Except LoadError (List Text) := do return (← l).map (·.path)

/-- The values at a path, of the files that set it. -/
def values (l : Loader L) (path : Text) : Except LoadError (List L.Value) := do
  return (← l).filterMap (L.lookup? ·.document path)

end Loader

/-- Why a question has no answer. -/
inductive QueryError where
  | load (error : LoadError)
  | notFound
  | decode
  deriving DecidableEq, Repr

/-- The text of a query error. -/
def QueryError.message : QueryError → Text
  | load error => error.message
  | notFound => "value not found"
  | decode => "cannot decode value"

namespace Loader

variable {L : Language} {α : Type}

/-- Sets a target to the first value at a path. An error leaves the target as it is. -/
def assign (l : Loader L) (decode : L.Value → Option α) (path : Text) (target : α) :
    α × Option QueryError :=
  match l.values path with
  | .error e => (target, some (.load e))
  | .ok [] => (target, some .notFound)
  | .ok (v :: _) =>
    match decode v with
    | some a => (a, none)
    | none => (target, some .decode)

/-- The first value at a path, zero if no file sets it. -/
def first (l : Loader L) (decode : L.Value → Option α) (zero : α) (path : Text) :
    Except QueryError α :=
  match l.assign decode path zero with
  | (a, none) => .ok a
  | (a, some .notFound) => .ok a
  | (_, some e) => .error e

/-- Decodes values in order, up to the first that cannot be. -/
def decodeAll {β : Type} (decode : β → Option α) : List β → List α × Option QueryError
  | [] => ([], none)
  | v :: vs =>
    match decode v with
    | none => ([], some .decode)
    | some a =>
      let (as, error) := decodeAll decode vs
      (a :: as, error)

/-- All values at a path, and the error that ends them early. At most `limit` are asked for, if
there is a limit. -/
def all (l : Loader L) (decode : L.Value → Option α) (path : Text) (limit : Option Nat) :
    List α × Option QueryError :=
  match l.values path with
  | .error e => ([], some (.load e))
  | .ok vs => decodeAll decode (match limit with
    | some n => vs.take n
    | none => vs)

end Loader

end TapeAsm.Settings
