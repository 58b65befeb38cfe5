import TapeAsm.Text.Letter
import TapeAsm.Text.Glyph

/-!
# Queries

What a human asks at the console: an expression of names, integers, calls and items of lists. A
query ends with its line unless a bracket is open; then it goes on in the next one. A line that
cannot be read is answered by the place of the first fault, in the order in which a reader with
one token of foresight meets it.
-/

set_option autoImplicit false

namespace TapeAsm.Tool

/-- A place in a query, both numbers counted from one. -/
structure Place where
  line : Nat
  column : Nat
  deriving DecidableEq, Repr

/-- A place as a text. -/
def Place.text (p : Place) : Text :=
  "<stdin>:" ++ Text.ofNat p.line ++ ":" ++ Text.ofNat p.column

/-- Why a query cannot be read. -/
inductive Obstacle where
  /-- There is more of it to come. -/
  | incomplete
  /-- A fault at a place. -/
  | fault (place : Place) (message : Text)
  /-- Something that the console does not understand. -/
  | unsupported
  deriving DecidableEq, Repr

/-- A unit of a query. -/
inductive Lexeme where
  | indent
  | name (name : Text)
  | keyword (name : Text)
  | int (value : Nat)
  | symbol (symbol : Char)
  | lineEnd
  /-- What stands here is no unit. -/
  | obstacle (obstacle : Obstacle)
  deriving DecidableEq, Repr

/-- A unit and the places where it begins and where it has ended. -/
structure Located where
  lexeme : Lexeme
  start : Place
  stop : Place
  deriving DecidableEq, Repr

namespace Lexeme

/-- How a fault names a unit. -/
def description : Lexeme → Text
  | indent => "indent"
  | name _ => "identifier"
  | keyword word => word
  | int _ => "int literal"
  | symbol c => Text.ofChars ['\'', c, '\'']
  | lineEnd => "newline"
  | obstacle _ => "illegal token"

/-! ## Numbers -/

/-- Is the character a digit of the base? -/
def isDigitOf (base : Nat) (c : Char) : Bool :=
  c.toNat < 0x80 && (Text.digitValue? (Text.ascii c)).any (· < base)

/-- The value of digits. -/
def valueOf (base : Nat) (digits : List Char) : Nat :=
  (Text.digitsValue? base (digits.map Text.ascii)).getD 0

/-- Does the text go on like a number with a fraction or an exponent? -/
def continuesAsFraction (cs : List Char) : Bool :=
  cs.head?.any fun c => c = '.' || c = 'e' || c = 'E'

/-- The number at the beginning of a text: the unit, how many characters it takes, and whether a
fault is reported where it begins. A zero begins a number of another base or stands before zeros
only. -/
def number (start : Place) (cs : List Char) : Lexeme × Nat :=
  let after (n : Nat) : Place := { start with column := start.column + n }
  let based (base : Nat) (place : Place) (kind : Text) : Lexeme × Nat :=
    let digits := (cs.drop 2).takeWhile (isDigitOf base)
    if digits.isEmpty then
      (obstacle (.fault place ("invalid " ++ kind ++ " literal")), 2)
    else (int (valueOf base digits), 2 + digits.length)
  let plain : Lexeme × Nat :=
    let digits := cs.takeWhile Char.isDigit
    let n := digits.length
    if continuesAsFraction (cs.drop n) then (obstacle .unsupported, n)
    else if digits.head? ≠ some '0' ∨ digits.all (· = '0') then (int (valueOf 10 digits), n)
    else if digits.all (isDigitOf 8) then
      (obstacle (.fault (after n)
        ("obsolete form of octal literal; use 0o" ++ Text.ofChars (digits.drop 1))), n)
    else (obstacle (.fault start "invalid int literal"), n)
  match cs with
  | '0' :: 'x' :: _ => based 16 start "hex"
  | '0' :: 'X' :: _ => based 16 start "hex"
  | '0' :: 'o' :: _ => based 8 (after 2) "octal"
  | '0' :: 'O' :: _ => based 8 (after 2) "octal"
  | '0' :: 'b' :: _ => based 2 (after 2) "binary"
  | '0' :: 'B' :: _ => based 2 (after 2) "binary"
  | _ => plain

/-! ## Scanning -/

/-- Can a name begin with the character? -/
def beginsName (c : Char) : Bool := Text.isLetterChar c || c = '_'

/-- Can a name go on with the character? -/
def continuesName (c : Char) : Bool := beginsName c || c.isDigit

/-- The names with a meaning of their own. -/
def keywords : List Text :=
  ["and", "break", "continue", "def", "elif", "else", "for", "if", "in", "lambda", "load", "not",
    "or", "pass", "return", "while"]

/-- The characters that are units by themselves. -/
def symbols : List Char := ['(', ')', '[', ']', ',', '-', '+', '~']

/-- The unit at the beginning of a text without leading blanks, and how many characters it takes. A
closing bracket needs an open one. -/
def first (place : Place) (depth : Nat) : List Char → Lexeme × Nat
  | [] => (lineEnd, 0)
  | c :: rest =>
    if c.isDigit then number place (c :: rest)
    else if beginsName c then
      let word := (c :: rest).takeWhile continuesName
      let text := Text.ofChars word
      (if keywords.contains text then keyword text else name text, word.length)
    else if (c = ')' ∨ c = ']') ∧ depth = 0 then
      (obstacle (.fault { place with column := place.column + 1 }
        ("unexpected " ++ Text.ofChars ['\'', c, '\''])), 1)
    else if symbols.contains c then (symbol c, 1)
    else (obstacle .unsupported, 1)

/-- The number of open brackets behind a unit. -/
def depthAfter (depth : Nat) : Lexeme → Nat
  | symbol '(' => depth + 1
  | symbol '[' => depth + 1
  | symbol ')' => depth - 1
  | symbol ']' => depth - 1
  | _ => depth

/-- The units of a line, and how many brackets are open at its end. The first number bounds the
units to read. -/
def scanFrom : (fuel : Nat) → (depth : Nat) → Place → List Char → List Located × Nat
  | 0, depth, _, _ => ([], depth)
  | _ + 1, depth, place, [] =>
    let stop : Place := ⟨place.line + 1, 1⟩
    (if depth = 0 then [⟨lineEnd, place, stop⟩] else [], depth)
  | fuel + 1, depth, place, c :: rest =>
    let next (n : Nat) : Place := { place with column := place.column + n }
    if c = ' ' ∨ c = '\t' then scanFrom fuel depth (next 1) rest
    else if c = '#' then scanFrom fuel depth (next (rest.length + 1)) []
    else
      let (lexeme, n) := first place depth (c :: rest)
      let (later, end_) := scanFrom fuel (depthAfter depth lexeme) (next n) ((c :: rest).drop n)
      (⟨lexeme, place, next n⟩ :: later, end_)

/-- The units of a line that begins a query. A blank line has none; another must not begin with a
blank. -/
def scanFirst (line : List Char) : List Located × Nat :=
  let (blanks, rest) := line.span fun c => c = ' ' || c = '\t'
  let place : Place := ⟨1, blanks.length + 1⟩
  if rest.isEmpty ∨ rest.head? = some '#' then ([], 0)
  else
    let (units, depth) := scanFrom (line.length + 1) 0 place rest
    (if blanks.isEmpty then units else ⟨indent, place, place⟩ :: units, depth)

/-- The units of a line that goes on with a query. -/
def scanNext (number depth : Nat) (line : List Char) : List Located × Nat :=
  scanFrom (line.length + 1) depth ⟨number, 1⟩ line

end Lexeme

/-- What is asked. The place of a call or an item is that of its bracket. -/
inductive Query where
  | int (value : Nat)
  | name (name : Text) (place : Place)
  | unary (operator : Char) (operand : Query) (place : Place)
  | call (function : Query) (arguments : List Query) (place : Place)
  | item (container index : Query) (place : Place)
  deriving Repr, Inhabited

namespace Query

/-- The fault of meeting one unit where another is needed. -/
def unexpected (found : Located) (wanted : Text) : Obstacle :=
  match found.lexeme with
  | .obstacle o => o
  | lexeme => .fault found.stop ("got " ++ lexeme.description ++ ", want " ++ wanted)

/-- Takes a symbol. -/
def expect (c : Char) : List Located → Except Obstacle (List Located)
  | [] => .error .incomplete
  | t :: rest =>
    if t.lexeme = .symbol c then .ok rest
    else .error (unexpected t (Lexeme.symbol c).description)

mutual

/-- An operand with the calls and items behind it. The number bounds the depth of the rules. -/
def operand : (fuel : Nat) → List Located → Except Obstacle (Query × List Located)
  | 0, _ => .error .unsupported
  | _ + 1, [] => .error .incomplete
  | fuel + 1, t :: rest =>
    match t.lexeme with
    | .name n => suffixes fuel (name n t.start) rest
    | .int value => suffixes fuel (int value) rest
    | .symbol '(' => do
      let (q, rest) ← operand fuel rest
      suffixes fuel q (← expect ')' rest)
    | .symbol '[' => .error .unsupported
    | .keyword _ => .error .unsupported
    | .symbol c =>
      if c = '-' ∨ c = '+' ∨ c = '~' then do
        let (q, rest) ← operand fuel rest
        .ok (unary c q t.start, rest)
      else .error (unexpected t "primary expression")
    | _ => .error (unexpected t "primary expression")

/-- The calls and items behind an operand. -/
def suffixes : (fuel : Nat) → Query → List Located → Except Obstacle (Query × List Located)
  | 0, _, _ => .error .unsupported
  | _ + 1, _, [] => .error .incomplete
  | fuel + 1, q, t :: rest =>
    match t.lexeme with
    | .symbol '(' => do
      let (args, rest) ← arguments fuel true rest
      suffixes fuel (call q args t.start) (← expect ')' rest)
    | .symbol '[' => do
      let (i, rest) ← operand fuel rest
      suffixes fuel (item q i t.start) (← expect ']' rest)
    | .obstacle o => .error o
    | _ => .ok (q, t :: rest)

/-- The arguments of a call, up to its bracket. A comma stands between two and may stand behind the
last. -/
def arguments : (fuel : Nat) → (first : Bool) → List Located →
    Except Obstacle (List Query × List Located)
  | 0, _, _ => .error .unsupported
  | _ + 1, _, [] => .error .incomplete
  | fuel + 1, first, t :: rest =>
    if t.lexeme = .symbol ')' then .ok ([], t :: rest)
    else do
      let rest ← if first then pure (t :: rest) else expect ',' (t :: rest)
      if rest.head?.any (·.lexeme = .symbol ')') then .ok ([], rest)
      else
        let (q, rest) ← operand fuel rest
        let (qs, rest) ← arguments fuel false rest
        .ok (q :: qs, rest)

end

/-- The query that units spell. -/
def ofUnits (units : List Located) : Except Obstacle Query := do
  match ← operand (2 * units.length + 2) units with
  | (q, t :: _) =>
    match t.lexeme with
    | .lineEnd => .ok q
    | .obstacle o => .error o
    | .symbol ',' => .error .unsupported
    | .symbol '-' => .error .unsupported
    | .symbol '+' => .error .unsupported
    | .keyword _ => .error .unsupported
    | _ => .error (.fault t.stop "invalid syntax")
  | (_, []) => .error .incomplete

/-- The query that begins with units and goes on in lines, and the lines left. -/
def readOn (units : List Located) (number depth : Nat) : List Text →
    Except Obstacle Query × List Text
  | [] => (ofUnits units, [])
  | line :: rest =>
    match ofUnits units with
    | .error .incomplete =>
      let (more, depth) := Lexeme.scanNext number depth line.chars
      readOn (units ++ more) (number + 1) depth rest
    | result => (result, line :: rest)

/-- The first query of some lines, if the first of them is not blank, and the lines left. -/
def read (line : Text) (rest : List Text) : Option (Except Obstacle Query) × List Text :=
  match Lexeme.scanFirst line.chars with
  | ([], _) => (none, rest)
  | (units, depth) =>
    let (result, rest) := readOn units 2 depth rest
    (some result, rest)

/-- The number of lines left is not greater. -/
theorem length_readOn_le (units : List Located) (number depth : Nat) (lines : List Text) :
    (readOn units number depth lines).2.length ≤ lines.length := by
  induction lines generalizing units number depth with
  | nil => simp [readOn]
  | cons line rest ih =>
    unfold readOn
    split
    · exact Nat.le_succ_of_le (ih _ _ _)
    · simp

/-- Reading a query takes its first line. -/
theorem length_read_le (line : Text) (rest : List Text) :
    (read line rest).2.length ≤ rest.length := by
  unfold read
  split
  · simp
  · exact length_readOn_le _ _ _ _

mutual

/-- The names in a query, in order. -/
def names : Query → List (Text × Place)
  | int _ => []
  | name n place => [(n, place)]
  | unary _ q _ => names q
  | call f args _ => names f ++ namesOf args
  | item c i _ => names c ++ names i

/-- The names in several queries, in order. -/
def namesOf : List Query → List (Text × Place)
  | [] => []
  | q :: qs => names q ++ namesOf qs

end

end Query

end TapeAsm.Tool
