import TapeAsm.Cue.Expr

/-!
# Values of a configuration file

A value says what is known about a datum: everything (`scalar`), its kind and bounds
(`constraint`), its parts, or that it is one of several. Where statements contradict each other
there is a `conflict`, and where an expression lacks what it needs the value is `unknown`.
-/

set_option autoImplicit false

namespace TapeAsm.Cue

mutual

/-- What is known of a datum. -/
inductive Value where
  /-- Statements that contradict each other. -/
  | conflict
  /-- What cannot be computed from what is known. -/
  | unknown
  | scalar (scalar : Scalar)
  | constraint (constraint : Constraint)
  /-- One of several values; one of them may be preferred. -/
  | choice (options : List Value) (preferred : Option Value)
  | list (items : List Value)
  | struct (fields : List Field)

/-- A part of a datum. -/
inductive Field where
  | mk (label : Label) (presence : Presence) (value : Value)

end

namespace Field

/-- The label of a field. -/
def label : Field → Label
  | mk label _ _ => label

/-- Whether the field is there. -/
def presence : Field → Presence
  | mk _ presence _ => presence

/-- What is known of the field. -/
def value : Field → Value
  | mk _ _ value => value

end Field

instance : Inhabited Value := ⟨.conflict⟩

/-- A constraint as a value: a conflict if nothing satisfies it. -/
def Constraint.toValue (c : Constraint) : Value := if c.isEmpty then .conflict else .constraint c

namespace Value

/-- Nothing is known. -/
def any : Value := constraint .free

/-- Is it a conflict? -/
def isConflict : Value → Bool
  | conflict => true
  | _ => false

/-- Can it not be computed? -/
def isUnknown : Value → Bool
  | unknown => true
  | _ => false

/-- The preferred one of several values, the value itself if it is one. -/
def settled : Value → Value
  | choice _ (some v) => v
  | v => v

/-- Are two values seen to be the same? -/
def same : Value → Value → Bool
  | scalar s, scalar t => s.same t
  | constraint c, constraint d => c = d
  | _, _ => false

/-- What both values say, if neither has parts. -/
def unify : Value → Value → Value
  | scalar s, scalar t => if s.same t then scalar s else conflict
  | scalar s, constraint c => if c.admits s then scalar s else conflict
  | constraint c, scalar s => if c.admits s then scalar s else conflict
  | constraint c, constraint d => (c.both d).toValue
  | _, _ => conflict

/-- What all values say that have no parts. What is unknown matters only if the rest agrees. -/
def unifyAll (values : List Value) : Value :=
  let known := values.filter fun v => !v.isUnknown
  match known.foldl unify any with
  | conflict => conflict
  | v => if known.length < values.length then unknown else v

/-- Does the value leave room for a datum of the kind? -/
def allows (kind : Kind) : Value → Bool
  | constraint c => c.kinds.contains kind
  | unknown => true
  | _ => false

/-- The fields of a struct, none for other values. -/
def fields : Value → List Field
  | struct fields => fields
  | _ => []

/-- What is known of the field of a struct that is there under a label. -/
def field? (label : Label) (v : Value) : Option Value :=
  (v.fields.find? fun f => f.presence = .regular && f.label = label).map Field.value

/-- The item of a list at an index. -/
def item? (index : Nat) : Value → Option Value
  | list items => items[index]?
  | _ => none

/-- A value that stands for something. -/
def known? : Value → Option Value
  | conflict => none
  | unknown => none
  | v => some v

end Value

end TapeAsm.Cue
