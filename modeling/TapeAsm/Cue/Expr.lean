import TapeAsm.Cue.Constraint

/-!
# Expressions

The tree of a configuration file. A struct holds declarations: fields with a label, expressions
that hold of the struct as a whole, and names bound to an expression. The names that the fields
and bindings of a struct declare are in scope in all of it, and `Expr.free` gives the names that
an expression leaves to the scopes around it.
-/

set_option autoImplicit false

namespace TapeAsm.Cue

/-- What a label stands for. -/
inductive LabelKind where
  | regular
  /-- A field that no path leads to. -/
  | hidden
  | definition
  /-- A name for an expression, which is no field. -/
  | binding
  deriving DecidableEq, Repr

/-- The name of a part of a struct. -/
structure Label where
  kind : LabelKind
  name : Text
  deriving DecidableEq, Repr

namespace Label

/-- A regular field. -/
def regular (name : Text) : Label := ⟨.regular, name⟩

/-- The label that an unquoted name stands for. -/
def ofName (name : Text) : Label :=
  if (Text.ofString "_#").isPrefixOf name || (Text.ofString "#").isPrefixOf name then
    ⟨.definition, name⟩
  else if (Text.ofString "_").isPrefixOf name then ⟨.hidden, name⟩
  else ⟨.regular, name⟩

end Label

/-- Whether a field is there. -/
inductive Presence where
  | regular
  /-- Another statement has to make it regular. -/
  | required
  /-- It holds if another statement makes the field regular. -/
  | optional
  deriving DecidableEq, Repr

/-- The stronger of two statements about the presence of a field. -/
def Presence.join : Presence → Presence → Presence
  | regular, _ => regular
  | _, regular => regular
  | required, _ => required
  | _, required => required
  | optional, optional => optional

/-- Operators before an operand. -/
inductive Unary where
  | minus
  | plus
  | not
  | bound (relation : Relation)
  deriving DecidableEq, Repr

/-- Operators between two operands. -/
inductive Binary where
  /-- One of the two holds. -/
  | disjunction
  /-- Both hold. -/
  | conjunction
  | either
  | also
  | equal
  | compare (relation : Relation)
  | add
  | subtract
  | multiply
  | divide
  deriving DecidableEq, Repr

mutual

/-- What is said of a datum. -/
inductive Expr where
  | literal (scalar : Scalar)
  /-- What holds of nothing. -/
  | bottom
  | name (name : Text)
  /-- A text or bytes made of parts. -/
  | interpolation (double : Bool) (parts : List Expr)
  /-- A list; its items are declarations without labels. It may go on with items of a kind. -/
  | list (items : List Decl) (rest : Option Expr)
  | struct (decls : List Decl)
  | unary (operator : Unary) (operand : Expr)
  | binary (operator : Binary) (left right : Expr)
  /-- The preferred operand of a disjunction. -/
  | preferred (operand : Expr)
  | select (operand : Expr) (label : Label)
  | index (operand index : Expr)
  | call (function : Expr) (arguments : List Expr)

/-- A part of a struct. -/
inductive Decl where
  | field (label : FieldLabel) (presence : Presence) (value : Expr)
  /-- An expression that holds of the whole. -/
  | embed (value : Expr)
  /-- A name for an expression. -/
  | bind (name : Text) (value : Expr)
  /-- The struct may have other fields. -/
  | rest
  /-- A declaration that holds under a condition. -/
  | whenever (condition : Expr) (decl : Decl)
  /-- A declaration for every part of a value. -/
  | forEach (key : Option Text) (value : Text) (source : Expr) (decl : Decl)

/-- How a field is labelled. -/
inductive FieldLabel where
  | fixed (label : Label) (isQuoted : Bool)
  | computed (label : Expr)
  /-- All fields with a label of a kind. -/
  | pattern (label : Expr)

end

instance : Inhabited Expr := ⟨.bottom⟩

namespace Decl

/-- The name that a declaration brings into scope, with the label it stands for. A quoted label is
no name. -/
def declared? : Decl → Option (Text × Label)
  | field (.fixed label false) _ _ => some (label.name, label)
  | bind name _ => some (name, ⟨.binding, name⟩)
  | _ => none

/-- Is it a name for an expression? -/
def binding? : Decl → Option Text
  | bind name _ => some name
  | _ => none

/-- Does the declaration hold of the struct as a whole? -/
def isEmbedded : Decl → Bool
  | embed _ => true
  | whenever _ _ => true
  | forEach _ _ _ _ => true
  | _ => false

/-- Does the declaration give a regular field? -/
def isRegular : Decl → Bool
  | field (.fixed label _) _ _ => label.kind = .regular
  | field _ _ _ => true
  | _ => false

end Decl

/-- The names that declarations bring into scope. -/
def declaredNames (decls : List Decl) : List (Text × Label) := decls.filterMap Decl.declared?

mutual

/-- The names that an expression leaves to the scopes around it. -/
def Expr.free : Expr → List Text
  | .literal _ => []
  | .bottom => []
  | .name name => [name]
  | .interpolation _ parts => freeOfExprs parts
  | .list items none => freeOfDecls items
  | .list items (some rest) => freeOfDecls items ++ rest.free
  | .struct decls =>
    (freeOfDecls decls).filter fun n => !((declaredNames decls).any (·.1 = n))
  | .unary _ operand => operand.free
  | .binary _ left right => left.free ++ right.free
  | .preferred operand => operand.free
  | .select operand _ => operand.free
  | .index operand index => operand.free ++ index.free
  | .call function arguments => function.free ++ freeOfExprs arguments

/-- The names that expressions leave free. -/
def freeOfExprs : List Expr → List Text
  | [] => []
  | e :: es => e.free ++ freeOfExprs es

/-- The names that a declaration leaves free or to its own struct. -/
def Decl.free : Decl → List Text
  | .field label _ value => label.free ++ value.free
  | .embed value => value.free
  | .bind _ value => value.free
  | .rest => []
  | .whenever condition decl => condition.free ++ decl.free
  | .forEach key value source decl =>
    source.free ++ decl.free.filter fun n => n ≠ value && some n ≠ key

/-- The names that declarations leave free or to their own struct. -/
def freeOfDecls : List Decl → List Text
  | [] => []
  | d :: ds => d.free ++ freeOfDecls ds

/-- The names that a label leaves free. -/
def FieldLabel.free : FieldLabel → List Text
  | .fixed _ _ => []
  | .computed label => label.free
  | .pattern label => label.free

end

mutual

/-- Is every binding within the expression used? -/
def Expr.usesBindings : Expr → Bool
  | .literal _ => true
  | .bottom => true
  | .name _ => true
  | .interpolation _ parts => exprsUseBindings parts
  | .list items none => declsUseBindings items
  | .list items (some rest) => declsUseBindings items && rest.usesBindings
  | .struct decls =>
    (decls.filterMap Decl.binding?).all (freeOfDecls decls).contains && declsUseBindings decls
  | .unary _ operand => operand.usesBindings
  | .binary _ left right => left.usesBindings && right.usesBindings
  | .preferred operand => operand.usesBindings
  | .select operand _ => operand.usesBindings
  | .index operand index => operand.usesBindings && index.usesBindings
  | .call function arguments => function.usesBindings && exprsUseBindings arguments

/-- Is every binding within the expressions used? -/
def exprsUseBindings : List Expr → Bool
  | [] => true
  | e :: es => e.usesBindings && exprsUseBindings es

/-- Is every binding within the declaration used? -/
def Decl.usesBindings : Decl → Bool
  | .field label _ value => label.usesBindings && value.usesBindings
  | .embed value => value.usesBindings
  | .bind _ value => value.usesBindings
  | .rest => true
  | .whenever condition decl => condition.usesBindings && decl.usesBindings
  | .forEach _ _ source decl => source.usesBindings && decl.usesBindings

/-- Is every binding within the declarations used? -/
def declsUseBindings : List Decl → Bool
  | [] => true
  | d :: ds => d.usesBindings && declsUseBindings ds

/-- Is every binding within the label used? -/
def FieldLabel.usesBindings : FieldLabel → Bool
  | .fixed _ _ => true
  | .computed label => label.usesBindings
  | .pattern label => label.usesBindings

end

end TapeAsm.Cue
