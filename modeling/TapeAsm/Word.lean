/-!
# Machine words

Counters, cells and sizes are signed 64-bit words, and printed cells are signed 32-bit words. They
are kept as integers; the operations that can leave the range wrap around explicitly.
-/

set_option autoImplicit false

namespace TapeAsm.Word

/-- The greatest signed 64-bit word. -/
def max : Int := Nat.pow 2 63 - 1

/-- The least signed 64-bit word. -/
def min : Int := -Nat.pow 2 63

/-- The signed 64-bit word that an integer wraps around to. -/
def wrap (x : Int) : Int := x.bmod (Nat.pow 2 64)

/-- The signed 32-bit word in the low half of an integer. -/
def low (x : Int) : Int := x.bmod (Nat.pow 2 32)

/-- The word after a word: the greatest one is followed by the least. -/
def succ (x : Int) : Int := wrap (x + 1)

/-- The word before a word: the least one is preceded by the greatest. -/
def pred (x : Int) : Int := wrap (x - 1)

end TapeAsm.Word
