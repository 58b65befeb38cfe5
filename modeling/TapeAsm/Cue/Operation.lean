import TapeAsm.Cue.Value
import TapeAsm.Text.Glyph

/-!
# Operations

What the operators and functions of expressions make of values. An operation on values that are not
known well enough is unknown if a better known value could be right, and a conflict if none could.
-/

set_option autoImplicit false

namespace TapeAsm.Cue

/-! ## Names with a meaning of their own -/

/-- The kinds that have a name. -/
def namedKinds : List (Text × List Kind) :=
  [("bool", [.bool]), ("int", [.int]), ("float", [.float]), ("number", [.int, .float]),
   ("string", [.text]), ("bytes", [.bytes]), ("_", Kind.all)]

/-- A range of numbers of the given kinds. -/
def range (kinds : List Kind) (least greatest : Number) : Constraint :=
  ⟨kinds, [⟨.atLeast, .number least⟩, ⟨.atMost, .number greatest⟩]⟩

/-- The ranges that have a name. -/
def namedRanges : List (Text × Constraint) :=
  let integers (name : Text) (least greatest : Int) : Text × Constraint :=
    (name, range [.int] (.ofInt least) (.ofInt greatest))
  let unsigned (bits : Nat) : Text × Constraint :=
    integers ("uint" ++ Text.ofNat bits) 0 (Nat.pow 2 bits - 1)
  let signed (bits : Nat) : Text × Constraint :=
    integers ("int" ++ Text.ofNat bits) (-Nat.pow 2 (bits - 1)) (Nat.pow 2 (bits - 1) - 1)
  let floats (name : Text) (mantissa : Nat) (exponent : Int) : Text × Constraint :=
    let greatest : Number := ⟨false, true, mantissa, exponent⟩
    (name, range [.int, .float] greatest.neg greatest)
  let widths := [8, 16, 32, 64, 128]
  let others : List (Text × Constraint) :=
    [("uint", ⟨[.int], [⟨.atLeast, .number (.ofInt 0)⟩]⟩),
     integers "rune" 0 0x10FFFF,
     floats "float32" 340282346638528859811704183484516925440 0,
     floats "float64" 1797693134862315708145274237317043567981 269]
  others ++ widths.map unsigned ++ widths.map signed

/-- The names of functions. -/
def functionNames : List Text :=
  ["and", "close", "div", "error", "len", "matchIf", "matchN", "mod", "or", "quo", "rem"]

/-- The name without the two underscores that may stand before a name with a meaning of its own. -/
def plainName (name : Text) : Text :=
  let mark := Text.ofString "__"
  if mark.isPrefixOf name then name.drop mark.length else name

/-- The kinds that a name stands for. -/
def kindsOf? (name : Text) : Option (List Kind) :=
  namedKinds.lookup (if name = "___" then name else plainName name)

/-- What a name stands for that no scope declares. -/
def predeclared? (name : Text) : Option Value :=
  match kindsOf? name with
  | some kinds => some (.constraint (.ofKinds kinds))
  | none =>
    match namedRanges.lookup name with
    | some c => some (.constraint c)
    | none => if functionNames.contains (plainName name) then some .unknown else none

/-! ## Operators -/

/-- The value that a wrong operand leads to: unknown if a datum of one of the kinds is possible. -/
def lacking (kinds : List Kind) : Value → Value
  | .conflict => .conflict
  | .unknown => .unknown
  | .choice _ _ => .unknown
  | .constraint c => if kinds.any c.kinds.contains then .unknown else .conflict
  | _ => .conflict

/-- What an operator makes of a value. -/
def applyUnary : Unary → Value → Value
  | .minus, .scalar (.number n) => .scalar (.number n.neg)
  | .plus, .scalar (.number n) => .scalar (.number n)
  | .not, .scalar (.bool b) => .scalar (.bool !b)
  | .not, v => lacking [.bool] v
  | _, v => lacking [.int, .float] v

/-- A bound with a single bound as its limit. -/
def boundOfBound (r : Relation) (c : Constraint) (b : Bound) : Value :=
  if b.relation = .notEqual then
    if r = .notEqual then .scalar b.limit else .constraint (.ofKinds c.kinds)
  else if r = .notEqual then
    match b.relation.opposite? with
    | some r => (Constraint.ofBound ⟨r, b.limit⟩).toValue
    | none => .unknown
  else if r.isLower ≠ b.relation.isLower then .constraint (.ofKinds c.kinds)
  else if r.reaches then .constraint c
  else (Constraint.ofBound ⟨r, b.limit⟩).toValue

/-- Can data of this kind be limits? -/
def isLimitKind (r : Relation) (k : Kind) : Bool :=
  [Kind.int, .float, .text, .bytes].contains k || r = .notEqual && k = .null

/-- The bound that a value is the limit of. -/
def bound (r : Relation) : Value → Value
  | .scalar s => if isLimitKind r s.kind then (Constraint.ofBound ⟨r, s⟩).toValue else .conflict
  | .constraint c =>
    if !(c.kinds.any (isLimitKind r)) then .conflict
    else if !([[Kind.int], [.float], [.int, .float], [.text], [.bytes]].contains c.kinds) then
      .unknown
    else
      match c.bounds with
      | [] => if r = .notEqual then .unknown else .constraint c
      | [b] => if b.kinds = c.kinds then boundOfBound r c b else .unknown
      | _ => .unknown
  | .conflict => .conflict
  | .unknown => .unknown
  | .choice _ _ => .unknown
  | _ => .conflict

/-- Do two scalars have the same kind, or are both numbers? -/
def comparable (a b : Scalar) : Bool := (a.order? b).isSome || a.kind = b.kind

/-- Are two scalars equal? Null is equal to nothing else; others must be comparable. -/
def equal? (a b : Scalar) : Option Bool :=
  if a = .null ∨ b = .null then some (a = b)
  else if comparable a b then
    some (match a.order? b with
      | some o => o = .eq
      | none => a = b)
  else none

/-- A text repeated. -/
def repeated (n : Number) (t : Text) : Option Text :=
  n.int?.bind fun k => if 0 ≤ k then some (List.replicate k.toNat t).flatten else none

/-- What an operator makes of two scalars, if it can be applied to them. -/
def scalarBinary? : Binary → Scalar → Scalar → Option Scalar
  | .either, .bool a, .bool b => some (.bool (a || b))
  | .also, .bool a, .bool b => some (.bool (a && b))
  | .equal, a, b => (equal? a b).map .bool
  | .compare .notEqual, a, b => (equal? a b).map fun e => .bool !e
  | .compare r, a, b => (a.order? b).map fun o => .bool (r.holds o)
  | .add, .number a, .number b => some (.number (a.add b))
  | .add, .text a, .text b => some (.text (a ++ b))
  | .add, .bytes a, .bytes b => some (.bytes (a ++ b))
  | .subtract, .number a, .number b => some (.number (a.sub b))
  | .multiply, .number a, .number b => some (.number (a.mul b))
  | .multiply, .text t, .number n => (repeated n t).map .text
  | .multiply, .number n, .text t => (repeated n t).map .text
  | .multiply, .bytes t, .number n => (repeated n t).map .bytes
  | .multiply, .number n, .bytes t => (repeated n t).map .bytes
  | .divide, .number a, .number b => (a.quotient? b).map .number
  | _, _, _ => none

/-- What an operator makes of two values. -/
def applyBinary (operator : Binary) (a b : Value) : Value :=
  match a, b with
  | .conflict, _ => .conflict
  | _, .conflict => .conflict
  | .scalar a, .scalar b =>
    match scalarBinary? operator a b with
    | some s => .scalar s
    | none => .conflict
  | a, b =>
    let isOpen : Value → Bool
      | .unknown => true
      | .choice _ _ => true
      | .constraint _ => true
      | _ => false
    if isOpen a || isOpen b then .unknown else .conflict

/-! ## Texts with expressions -/

/-- The text of a scalar within a text. Null has none. -/
def scalarText? : Scalar → Option Text
  | .null => none
  | .bool b => some (Text.ofBool b)
  | .number n => some n.text
  | .text t => some t
  | .bytes t => some t

/-- The text that the parts of a text make together. -/
def interpolate (double : Bool) (parts : List Value) : Value :=
  let texts := parts.map fun
    | .scalar (.bytes t) => some (if double then Text.ofString t.toString else t)
    | .scalar s => scalarText? s
    | _ => none
  let troubles := parts.map fun
    | .scalar .null => Value.conflict
    | .scalar _ => .any
    | v => lacking [.bool, .int, .float, .text, .bytes] v
  if troubles.any Value.isConflict then .conflict
  else if troubles.any Value.isUnknown then .unknown
  else
    let t := (texts.map (·.getD [])).flatten
    .scalar (if double then .text t else .bytes t)

/-! ## Functions -/

/-- The length of a value. -/
def lengthOf : Value → Value
  | .scalar (.text t) => .scalar (.number (.ofInt t.length))
  | .scalar (.bytes t) => .scalar (.number (.ofInt t.length))
  | .list items => .scalar (.number (.ofInt items.length))
  | .struct fields => .scalar (.number (.ofInt
      (fields.filter fun f => f.presence = .regular && f.label.kind = .regular).length))
  | v => lacking [.text, .bytes, .list, .struct] v

/-- What a function of two integers gives. There is nothing by zero. -/
def integerFunction? (name : Text) (a b : Int) : Option Int :=
  if b = 0 then none
  else if name = "div" then some (a / b)
  else if name = "mod" then some (a % b)
  else if name = "quo" then some (a.tdiv b)
  else if name = "rem" then some (a.tmod b)
  else none

/-- What a function gives for values. Of the functions of one value only `len` is computed; what the
others give is unknown. -/
def applyFunction (name : Text) (args : List Value) : Value :=
  match args with
  | [a] => if name = "len" then lengthOf a else .unknown
  | [.scalar (.number a), .scalar (.number b)] =>
    match a.int?, b.int? with
    | some a, some b =>
      match integerFunction? name a b with
      | some n => .scalar (.number (.ofInt n))
      | none => .conflict
    | _, _ => .conflict
  | [a, b] =>
    if [a, b].any fun v => (lacking [.int] v).isConflict then .conflict else .unknown
  | _ => .conflict

end TapeAsm.Cue
