import TapeAsm.Cue.Value
import TapeAsm.Word

/-!
# Decoding

The datum of a value, if the value is known well enough and of the kind asked for. Of several
values the preferred one counts.
-/

set_option autoImplicit false

namespace TapeAsm.Cue.Value

/-- The integer of a value that is one. -/
def integer? : Value → Option Int
  | scalar (.number n) => n.int?
  | _ => none

/-- A machine word. The least one is not accepted. -/
def int? (v : Value) : Option Int := do
  let n ← v.settled.integer?
  if Word.min < n ∧ n ≤ Word.max then some n else none

/-- A truth value. -/
def bool? (v : Value) : Option Bool :=
  match v.settled with
  | scalar (.bool b) => some b
  | _ => none

/-- A text. -/
def text? (v : Value) : Option Text :=
  match v.settled with
  | scalar (.text t) => some t
  | _ => none

/-- A list of machine words. It may be absent: null, or not known. -/
def ints? (v : Value) : Option (Option (List Int)) :=
  match v.settled with
  | list items => (items.mapM int?).map some
  | scalar .null => some none
  | constraint _ => some none
  | choice _ _ => some none
  | _ => none

end TapeAsm.Cue.Value
