import TapeAsm.Cue.Scalar

/-!
# Constraints

What can be said of a datum without naming it: its kind, and bounds that it keeps. A lower and an
upper bound may leave nothing between them; where only integers are left, the bounds are first
moved to the next integer.
-/

set_option autoImplicit false

namespace TapeAsm.Cue

/-- How a bound compares. -/
inductive Relation where
  | less
  | atMost
  | greater
  | atLeast
  | notEqual
  deriving DecidableEq, Repr

namespace Relation

/-- Does the relation hold of two data in this order? -/
def holds : Relation → Ordering → Bool
  | less, o => o = .lt
  | atMost, o => o ≠ .gt
  | greater, o => o = .gt
  | atLeast, o => o ≠ .lt
  | notEqual, o => o ≠ .eq

/-- Is it a lower bound? -/
def isLower : Relation → Bool
  | greater => true
  | atLeast => true
  | _ => false

/-- Is it an upper bound? -/
def isUpper : Relation → Bool
  | less => true
  | atMost => true
  | _ => false

/-- May the limit itself be reached? -/
def reaches : Relation → Bool
  | atMost => true
  | atLeast => true
  | _ => false

/-- The relation that holds where this one does not. An exclusion has none. -/
def opposite? : Relation → Option Relation
  | less => some atLeast
  | atMost => some greater
  | greater => some atMost
  | atLeast => some less
  | notEqual => none

end Relation

/-- A bound: the datum stands in the relation to the limit. -/
structure Bound where
  relation : Relation
  limit : Scalar
  deriving DecidableEq, Repr

namespace Bound

/-- Does a scalar keep the bound? -/
def admits (b : Bound) (s : Scalar) : Bool :=
  match s.order? b.limit with
  | some o => b.relation.holds o
  | none => b.relation = .notEqual && !(s.same b.limit)

/-- The kinds that a bound leaves. Only null can be excluded from data of all kinds. -/
def kinds (b : Bound) : List Kind :=
  match b.limit with
  | .number _ => [.int, .float]
  | .text _ => [.text]
  | .bytes _ => [.bytes]
  | .bool _ => []
  | .null => if b.relation = .notEqual then Kind.all.filter (· ≠ .null) else []

/-- The least integer limit of a lower bound. -/
def lowerInt (b : Bound) (n : Number) : Number :=
  .ofInt (if b.relation.reaches then n.ceil else n.floor)

/-- The greatest integer limit of an upper bound. -/
def upperInt (b : Bound) (n : Number) : Number :=
  .ofInt (if b.relation.reaches then n.floor else n.ceil)

/-- Do a lower and an upper bound leave nothing between them? A difference that takes too many
digits counts as room enough. -/
def isGap (integral : Bool) (lower upper : Bound) : Bool :=
  let strict := (if lower.relation.reaches then 0 else 1) + if upper.relation.reaches then 0 else 1
  match lower.limit, upper.limit with
  | .number a, .number b =>
    let room := if integral then (upper.upperInt b).exactDifference? (lower.lowerInt a)
      else b.exactDifference? a
    match room with
    | none => false
    | some d =>
      if strict = 0 then d.mantissa < 0
      else if integral && strict = 2 then d.floor ≤ 1
      else d.mantissa ≤ 0
  | a, b =>
    match a.order? b with
    | some .gt => true
    | some .eq => 0 < strict
    | _ => false

end Bound

/-- What is known of a datum that is not known itself. -/
structure Constraint where
  kinds : List Kind
  bounds : List Bound
  deriving DecidableEq, Repr

namespace Constraint

/-- A constraint on the kind alone. -/
def ofKinds (kinds : List Kind) : Constraint := ⟨kinds, []⟩

/-- Nothing is known. -/
def free : Constraint := ofKinds Kind.all

/-- A single bound. -/
def ofBound (b : Bound) : Constraint := ⟨b.kinds, [b]⟩

/-- Does the scalar satisfy the constraint? -/
def admits (c : Constraint) (s : Scalar) : Bool :=
  c.kinds.contains s.kind && c.bounds.all (·.admits s)

/-- Both constraints. -/
def both (c d : Constraint) : Constraint := ⟨c.kinds.filter d.kinds.contains, c.bounds ++ d.bounds⟩

/-- Does some pair of bounds leave nothing between them? -/
def hasGap (c : Constraint) : Bool :=
  let integral := !(c.kinds.contains .float)
  (c.bounds.filter (·.relation.isLower)).any fun lower =>
    (c.bounds.filter (·.relation.isUpper)).any fun upper => Bound.isGap integral lower upper

/-- Is it known that no datum satisfies the constraint? -/
def isEmpty (c : Constraint) : Bool := c.kinds.isEmpty || c.hasGap

end Constraint

end TapeAsm.Cue
