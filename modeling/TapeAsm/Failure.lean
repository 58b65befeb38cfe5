import TapeAsm.Program.Parse
import TapeAsm.Program.Token

/-!
# Failures

A failure is a tree: leaves are causes, and inner nodes add a context or join several failures.
Three kinds of leaf come from interpreting a program (`lexical`, `structural`, `stepLimit`). A
failure *carries* the marks of its leaves, and `Failure.kind` and `Failure.message` classify the
whole tree by what it carries.
-/

set_option autoImplicit false

namespace TapeAsm

/-- What a failure can be recognised by. -/
inductive Mark where
  | structural
  | unmatched
  | unrecognized
  | unclosed
  | stepLimit
  | lexical
  deriving DecidableEq, Repr

namespace Mark

/-- All marks. -/
def all : List Mark := [structural, unmatched, unrecognized, unclosed, stepLimit, lexical]

/-- The text of a mark. -/
def text : Mark → Text
  | structural => "structural error"
  | unmatched => "unmatched loop terminator"
  | unrecognized => "unrecognized token"
  | unclosed => "unclosed loop"
  | stepLimit => "step limit exceeded"
  | lexical => "tokens are not valid"

/-- The mark of a structural fault. -/
def ofFault : ParseFault → Mark
  | .unmatched => unmatched
  | .unrecognized => unrecognized
  | .unclosed => unclosed

end Mark

/-- A fault in the structure of a token list, at a token. -/
structure Structural where
  cause : Mark
  index : Int
  token : Text
  deriving DecidableEq, Repr

namespace Structural

/-- The failure of parsing. -/
def ofParseError (e : ParseError) : Structural := ⟨.ofFault e.fault, e.index, e.token⟩

/-- The text of a structural fault. -/
def message (e : Structural) : Text :=
  Mark.structural.text ++ ": " ++ e.cause.text ++ ": " ++ e.token.quote ++ " at token " ++
    Text.ofInt e.index

end Structural

/-- A run cut short: the step that went past the limit, and its operation. -/
structure StepLimit where
  step : Int
  limit : Int
  op : Op
  deriving DecidableEq, Repr

/-- The text of an exceeded step limit. -/
def StepLimit.message (e : StepLimit) : Text :=
  Mark.stepLimit.text ++ " at step " ++ Text.ofInt e.step ++ ", instruction: " ++ e.op.name

/-- The tokens of a source that are not in the vocabulary. -/
structure Lexical where
  tokens : List Token
  deriving DecidableEq, Repr

/-- The text of a list of invalid tokens. -/
def Lexical.message (e : Lexical) : Text :=
  Mark.lexical.text ++ ": " ++ Text.join ", " (e.tokens.map fun token =>
    "line " ++ Text.ofInt token.line ++ ": " ++ token.text.quote)

/-- A failure and what led to it. -/
inductive Failure where
  | plain (text : Text)
  | mark (mark : Mark)
  | structural (error : Structural)
  | stepLimit (error : StepLimit)
  | lexical (error : Lexical)
  | wrapped (context : Text) (cause : Failure)
  | joined (causes : List Failure)
  deriving Repr, Inhabited

/-- What kind of failure a report names. -/
inductive FailureKind where
  | lexical
  | structural
  | stepLimit
  | other
  deriving DecidableEq, Repr

/-- The name of a kind of failure. -/
def FailureKind.text : FailureKind → Text
  | lexical => "lexical mismatch"
  | structural => "structural"
  | stepLimit => "step limit exceeded"
  | other => "other"

namespace Failure

/-- A failure within a context. Where there is none, the context remains and says so. -/
def wrap (context : Text) : Option Failure → Failure
  | some cause => wrapped context cause
  | none => plain (context ++ ": %!w(<nil>)")

/-- Several failures as one. Those that are not there are left out, and nothing joined is none. -/
def join (causes : List (Option Failure)) : Option Failure :=
  match causes.filterMap id with
  | [] => none
  | causes => some (joined causes)

mutual

/-- The whole text of a failure. -/
def text : Failure → Text
  | .plain text => text
  | .mark m => m.text
  | .structural error => error.message
  | .stepLimit error => error.message
  | .lexical error => error.message
  | .wrapped context cause => context ++ ": " ++ cause.text
  | .joined causes => Text.join "\n" (texts causes)

/-- The texts of several failures. -/
def texts : List Failure → List Text
  | [] => []
  | failure :: rest => failure.text :: texts rest

end

mutual

/-- Does a leaf of the failure carry the mark? A structural fault also carries that of its cause. -/
def carries (m : Mark) : Failure → Bool
  | .plain _ => false
  | .mark own => own = m
  | .structural error => m = .structural || error.cause = m
  | .stepLimit _ => m = .stepLimit
  | .lexical _ => m = .lexical
  | .wrapped _ cause => cause.carries m
  | .joined causes => anyCarries m causes

/-- Does one of several failures carry the mark? -/
def anyCarries (m : Mark) : List Failure → Bool
  | [] => false
  | failure :: rest => failure.carries m || anyCarries m rest

end

mutual

/-- The causes at the leaves, in order. -/
def leaves : Failure → List Failure
  | .wrapped _ cause => cause.leaves
  | .joined causes => leavesOf causes
  | leaf => [leaf]

/-- The causes at the leaves of several failures. -/
def leavesOf : List Failure → List Failure
  | [] => []
  | failure :: rest => failure.leaves ++ leavesOf rest

end

/-- The first list of invalid tokens at a leaf. -/
def lexical? (failure : Failure) : Option Lexical :=
  failure.leaves.findSome? fun | .lexical error => some error | _ => none

/-- The first structural fault at a leaf. -/
def structural? (failure : Failure) : Option Structural :=
  failure.leaves.findSome? fun | .structural error => some error | _ => none

/-- The first exceeded step limit at a leaf. -/
def stepLimit? (failure : Failure) : Option StepLimit :=
  failure.leaves.findSome? fun | .stepLimit error => some error | _ => none

/-- The text of the interpreter error in the failure, without contexts; the whole text if there is
none. Lexical errors come before structural ones, and those before the step limit. -/
def message (failure : Failure) : Text :=
  match failure.lexical? with
  | some error => error.message
  | none =>
    match failure.structural? with
    | some error => error.message
    | none =>
      match failure.stepLimit? with
      | some error => error.message
      | none => failure.text

/-- The kind of the failure by the marks it carries, in the same precedence. -/
def kind (failure : Failure) : FailureKind :=
  if failure.carries .lexical then .lexical
  else if failure.carries .structural then .structural
  else if failure.carries .stepLimit then .stepLimit
  else .other

end Failure

end TapeAsm
