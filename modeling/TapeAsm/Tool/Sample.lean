import TapeAsm.Text.Basic

/-!
# The built-in sample

The program that is run when no other is named.
-/

set_option autoImplicit false

namespace TapeAsm.Tool

/-- The lines of the sample. -/
def sampleLines : List Text :=
  ["// prints \"A\": 13 * 5 = 65",
   "INC",
   "INC",
   "INC",
   "INC",
   "INC",
   "INC",
   "INC",
   "INC",
   "INC",
   "INC",
   "INC",
   "INC",
   "INC",
   "LOOP_START",
   "    RIGHT",
   "    INC",
   "    INC",
   "    INC",
   "    INC",
   "    INC",
   "    LEFT",
   "    DEC",
   "LOOP_END",
   "RIGHT",
   "PRINT"]

/-- The source of the sample. -/
def sample : Text := sampleLines.flatMap (· ++ Text.newline)

end TapeAsm.Tool
