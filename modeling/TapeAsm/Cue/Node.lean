import TapeAsm.Cue.Operation

/-!
# Nodes

A node is a place in a document with all statements made about it. A statement is an expression
with the scopes around it, and a scope is the node of a struct with the names that the struct
declares. A name is looked up in the innermost scope that declares it, and there it stands for a
part of the scope's node: so a name means what all statements about that part say together,
wherever they come from.
-/

set_option autoImplicit false

namespace TapeAsm.Cue

/-- A step into a part. -/
inductive Step where
  | field (label : Label)
  | item (index : Nat)
  /-- Into an operand of an expression. -/
  | operand
  deriving DecidableEq, Repr

/-- The steps that lead to a place, the last one first. -/
abbrev Place := List Step

/-- How a statement came to a place through names: `here` are the places that were named at this
place, `above` those named at places around it. It is cyclic if a name led back to where it
started. -/
structure Trail where
  here : List Place := []
  above : List Place := []
  cyclic : Bool := false
  deriving Repr

namespace Trail

/-- The trail of a statement about a part. -/
def inward (t : Trail) : Trail := { t with here := [], above := t.here ++ t.above }

end Trail

mutual

/-- A place and what is said about it. -/
inductive Node where
  | mk (place : Place) (statements : List Statement)

/-- Something said about a node. -/
inductive Statement where
  | holds (scopes : List Scope) (expr : Expr) (trail : Trail)
  /-- A value that was computed. -/
  | known (value : Value)
  /-- The node has only parts that another one has; so have its parts if the statement is deep. -/
  | within (node : Node) (deep : Bool)

/-- Names and what they stand for. -/
inductive Scope where
  /-- The names that a struct declares are parts of its node. -/
  | struct (names : List (Text × Label)) (node : Node)
  /-- Names for the parts that a clause runs through. -/
  | each (names : List (Text × Node))

end

instance : Inhabited Node := ⟨.mk [] []⟩

namespace Node

/-- The place of a node. -/
def place : Node → Place
  | mk place _ => place

/-- What is said about a node. -/
def statements : Node → List Statement
  | mk _ statements => statements

end Node

/-- What a name stands for. -/
inductive Target where
  | part (node : Node) (label : Label)
  | whole (node : Node)

/-- What a name stands for in one scope. -/
def Scope.find? (name : Text) : Scope → Option Target
  | struct names node => (names.lookup name).map (.part node)
  | each names => (names.lookup name).map .whole

/-- What a name stands for in the innermost scope that declares it. -/
def resolve? (scopes : List Scope) (name : Text) : Option Target :=
  scopes.findSome? (·.find? name)

/-! ## Declarations of structs -/

namespace Decl

/-- The statement that says nothing about a struct as a whole. It stands where a statement that
holds of the whole has been taken out. -/
def anything : Decl := .embed (.name "_")

/-- Is it that statement? -/
def isAnything : Decl → Bool
  | .embed (.name n) => n = "_"
  | _ => false

/-- The declarations without those that hold of the struct as a whole. -/
def withoutEmbedded (decls : List Decl) : List Decl :=
  if decls.any Decl.isEmbedded then decls.filter (fun d => !d.isEmbedded) ++ [anything] else decls

/-- Do the declarations say that they hold of a struct? Declarations that hold of the whole may make
it something else, but not if there are regular fields. -/
def areStruct (decls : List Decl) : Bool :=
  decls.all (fun d => !d.isEmbedded) || decls.any Decl.isRegular

end Decl

/-- The operands of nested disjunctions, and which of them are preferred. -/
def disjuncts (isPreferred : Bool) : Expr → List (Bool × Expr)
  | .binary .disjunction a b => disjuncts isPreferred a ++ disjuncts isPreferred b
  | .preferred e => disjuncts true e
  | e => [(isPreferred, e)]

/-- A statement about a struct as far as its own declarations go. -/
def Statement.shallow? : Statement → Option Statement
  | holds scopes (.struct decls) trail =>
    some (holds scopes (.struct (Decl.withoutEmbedded decls)) trail)
  | holds _ _ _ => none
  | s => some s

/-- The statements before, at and behind the first disjunction. -/
def splitDisjunction : List Statement →
    Option (List Statement × (List Scope × Expr × Trail) × List Statement)
  | [] => none
  | s :: rest =>
    match s with
    | .holds scopes (.binary .disjunction a b) trail =>
      some ([], (scopes, .binary .disjunction a b, trail), rest)
    | s => (splitDisjunction rest).map fun (before, d, behind) => (s :: before, d, behind)

namespace Node

/-- Are there declarations among the statements? -/
def hasDeclarations (node : Node) : Bool := node.statements.any fun
  | .holds _ (.struct _) _ => true
  | _ => false

/-- Do the statements say that the node is a struct? -/
def isStruct (node : Node) : Bool := node.statements.any fun
  | .holds _ (.struct decls) _ => Decl.areStruct decls
  | _ => false

/-- Do all statements come from a node around this one? -/
def isCyclic (node : Node) : Bool :=
  let trails := node.statements.filterMap fun
    | .holds _ _ trail => some trail
    | _ => none
  !trails.isEmpty && trails.all (·.cyclic)

end Node

/-! ## Parts -/

/-- A part of a struct with what is said about it. -/
structure Entry where
  label : Label
  presence : Presence
  statements : List Statement

namespace Entry

/-- Entries by label, each label once, in the order of the first. -/
def group : List Entry → List Entry
  | [] => []
  | e :: rest =>
    let later := group rest
    match later.find? fun f => f.label = e.label with
    | some f =>
      ⟨e.label, e.presence.join f.presence, e.statements ++ f.statements⟩ ::
        later.filter fun f => f.label ≠ e.label
    | none => e :: later

end Entry

/-- How an option of a disjunction is marked. -/
inductive Preference where
  /-- No option is marked. -/
  | open
  | preferred
  /-- Another option is marked. -/
  | other
  deriving DecidableEq, Repr

namespace Preference

/-- The mark of an option. -/
def ofMark (anyMarked marked : Bool) : Preference :=
  if marked then preferred else if anyMarked then other else .open

/-- The mark of an option that is chosen in two disjunctions. -/
def join : Preference → Preference → Preference
  | other, _ => other
  | _, other => other
  | preferred, _ => preferred
  | _, preferred => preferred
  | .open, .open => .open

end Preference

/-- An option of a node: its mark, the node with the option taken, and its value. -/
structure Alternative where
  preference : Preference
  node : Node
  value : Value

namespace Alternative

/-- The alternatives whose value is no conflict and not the same as that of an earlier one. -/
def distinct : List Alternative → List Alternative
  | [] => []
  | a :: rest =>
    let later := (distinct rest).filter fun b => !(a.value.same b.value)
    let repeated := (distinct rest).find? fun b => a.value.same b.value
    if a.value.isConflict then distinct rest
    else
      match repeated with
      | some b => { a with preference := if b.preference = .preferred then .preferred
          else a.preference } :: later
      | none => a :: later

/-- The preferred alternative, the only one if there is one. -/
def settled? : List Alternative → Option Alternative
  | [a] => some a
  | alternatives =>
    match alternatives.filter (·.preference = .preferred) with
    | [a] => some a
    | _ => none

/-- The value of a node with alternatives. -/
def toValue : List Alternative → Value
  | [] => .conflict
  | [a] => a.value
  | alternatives => .choice (alternatives.map (·.value)) ((settled? alternatives).map (·.value))

end Alternative

end TapeAsm.Cue
