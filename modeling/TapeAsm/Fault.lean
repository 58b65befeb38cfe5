import TapeAsm.Text.Basic

/-!
# Faults

A fault is a request that has no answer: an access outside the tape, a size that makes no sense, a
stage that is not there. It ends a computation at once and is not an error of the program being run.
-/

set_option autoImplicit false

namespace TapeAsm

/-- What went wrong. -/
inductive Fault where
  /-- A cell outside a tape of the given length. -/
  | index (index : Int) (length : Nat)
  /-- A prefix of negative length. -/
  | slice (size : Int)
  /-- A negative number of repetitions. -/
  | negativeCount
  /-- A text too long for memory. -/
  | tooLong
  /-- A stage or function that is not there. -/
  | absent
  /-- A function where a number is expected. -/
  | functionArgument
  /-- No end. A program is found to have none after as many instructions as there are words, which is
  only possible where the limit is so great that the counter passes it by wrapping around. -/
  | endless
  deriving DecidableEq, Repr

/-- The text of a fault. An index below zero is reported without the length. -/
def Fault.message : Fault → Text
  | index i n =>
    if i < 0 then "runtime error: index out of range [" ++ Text.ofInt i ++ "]"
    else "runtime error: index out of range [" ++ Text.ofInt i ++ "] with length " ++ Text.ofNat n
  | slice size => "runtime error: slice bounds out of range [:" ++ Text.ofInt size ++ "]"
  | negativeCount => "strings: negative Repeat count"
  | tooLong => "runtime error: makeslice: len out of range"
  | absent => "runtime error: invalid memory address or nil pointer dereference"
  | functionArgument => "unsupported type *starlark.Builtin"
  | endless => "endless run"

end TapeAsm
