import TapeAsm.Cue.Constraint
import TapeAsm.Cue.Quoted
import TapeAsm.Text.Letter

/-!
# Tokens of a configuration file

A source is well-formed UTF-8. A line end behind a token that can end a value is a token of its own,
which separates declarations like a comma, unless a comma or a colon follows; elsewhere it is white
space. A comment ends its line, and behind a value it separates at once.

An expression within a quoted text is scanned like any other. Its pieces before and behind the
expression are tokens of their own, and the scanner keeps the texts that are still open with the
number of brackets open in each.
-/

set_option autoImplicit false

namespace TapeAsm.Cue

/-- A unit of a configuration file. -/
inductive Token where
  | name (name : Text)
  | number (value : Number)
  | quoted (quote : Quote) (piece : List Char)
  /-- A piece of a quoted text before its first expression. -/
  | opening (quote : Quote) (piece : List Char)
  /-- A piece of a quoted text between two expressions. -/
  | middle (piece : List Char)
  /-- A piece of a quoted text behind its last expression. -/
  | closing (piece : List Char)
  | relation (relation : Relation)
  | equal
  | also
  | either
  | bottom
  | ellipsis
  | symbol (c : Char)
  /-- A line end that separates. -/
  | lineEnd
  deriving DecidableEq, Repr

namespace Token

/-- Can the token end a value? -/
def endsValue : Token → Bool
  | name _ => true
  | number _ => true
  | quoted _ _ => true
  | closing _ => true
  | bottom => true
  | ellipsis => true
  | symbol c => [')', ']', '\x7d', '?'].contains c
  | _ => false

/-! ## Names -/

/-- Can a name begin with the character? -/
def beginsName (c : Char) : Bool := Text.isLetterChar c || c = '_' || c = '$' || c = '#'

/-- Can a name go on with the character? -/
def continuesName (c : Char) : Bool :=
  Text.isLetterChar c || Text.isDigitChar c || c = '_' || c = '$'

/-- The rest of a name behind the underscore it may begin with. The mark of a definition stands
first, and no digit follows it. -/
def nameTail (cs : List Char) : List Char × List Char :=
  match cs with
  | '#' :: rest =>
    if rest.head?.any Text.isDigitChar then (['#'], rest)
    else
      let (run, rest) := rest.span continuesName
      ('#' :: run, rest)
  | _ => cs.span continuesName

/-- The name at the beginning of a text, and what follows. -/
def nameAt (cs : List Char) : List Char × List Char :=
  match cs with
  | '_' :: '_' :: rest =>
    let (run, rest) := nameTail rest
    ('_' :: '_' :: run, rest)
  | '_' :: rest =>
    let (run, rest) := nameTail rest
    ('_' :: run, rest)
  | _ => nameTail cs

/-! ## Scanning -/

/-- The characters that are tokens by themselves. -/
def symbols : List Char :=
  [':', ',', '?', '!', '\x7b', '\x7d', '[', ']', '(', ')', '&', '|', '-', '+', '*', '/', '=', '.',
    '@']

/-- The token of a quoted text at the beginning of a text, behind `hashes` marks. -/
def quoted? (hashes : Nat) (cs : List Char) : Option (Token × List Char) := do
  let (q, rest) ← Quote.opening? hashes cs
  let (piece, isOpen, rest) ← q.piece? (cs.length + 1) rest
  some (if isOpen then opening q piece else quoted q piece, rest)

/-- The token that begins with a sign, and what follows. -/
def signed? : List Char → Option (Token × List Char)
  | '_' :: '|' :: '_' :: rest => some (bottom, rest)
  | '_' :: '|' :: _ => none
  | '<' :: '-' :: _ => none
  | '<' :: '=' :: rest => some (relation .atMost, rest)
  | '<' :: rest => some (relation .less, rest)
  | '>' :: '=' :: rest => some (relation .atLeast, rest)
  | '>' :: rest => some (relation .greater, rest)
  | '!' :: '=' :: rest => some (relation .notEqual, rest)
  | '!' :: '~' :: _ => none
  | '=' :: '=' :: rest => some (equal, rest)
  | '=' :: '~' :: _ => none
  | '&' :: '&' :: rest => some (also, rest)
  | '|' :: '|' :: rest => some (either, rest)
  | '.' :: '.' :: '.' :: rest => some (ellipsis, rest)
  | '.' :: '.' :: _ => none
  | c :: rest => if symbols.contains c then some (symbol c, rest) else none
  | [] => none

/-- The token at the beginning of a text, and what follows. -/
def first? (cs : List Char) : Option (Token × List Char) :=
  let (marks, marked) := cs.span (· = '#')
  if marked.head?.any fun c => c = '"' || c = '\'' then quoted? marks.length marked
  else
    match cs with
    | '_' :: '|' :: _ => signed? cs
    | '.' :: rest =>
      if rest.head?.any Char.isDigit then
        (Number.readFraction? rest).map fun (n, rest) => (number n, rest)
      else signed? cs
    | c :: _ =>
      if c.isDigit then (Number.read? cs).map fun (n, rest) => (number n, rest)
      else if beginsName c then
        let (run, rest) := nameAt cs
        some (name (Text.ofChars run), rest)
      else signed? cs
    | [] => none

/-- The quoted texts that are open, each with the number of brackets open in its expression. -/
abbrev Open := List (Quote × Nat)

/-- A token by itself, or the next piece of an open text: the token, what follows, and the texts
that are open behind it. -/
def next? (texts : Open) (cs : List Char) : Option (Token × List Char × Open) :=
  match texts, cs with
  | (q, 0) :: outer, ')' :: rest => do
    let (piece, isOpen, rest) ← q.piece? (cs.length + 1) rest
    some (if isOpen then (middle piece, rest, (q, 0) :: outer) else (closing piece, rest, outer))
  | _, _ => do
    let (t, rest) ← first? cs
    match t, texts with
    | opening q _, _ => some (t, rest, (q, 0) :: texts)
    | symbol '(', (q, n) :: outer => some (t, rest, (q, n + 1) :: outer)
    | symbol ')', (q, n) :: outer => some (t, rest, (q, n - 1) :: outer)
    | _, _ => some (t, rest, texts)

/-- Is the character white space? -/
def isSpace (c : Char) : Bool := c = ' ' || c = '\t' || c = '\r'

/-- Does a comma or a colon come next, perhaps on a later line? -/
def continuesBelow (cs : List Char) : Bool :=
  (cs.dropWhile fun c => isSpace c || c = '\n').head?.any fun c => c = ',' || c = ':'

/-- The tokens of a text. `value` says whether a value may have just ended. The number bounds the
tokens and blanks to read. -/
def scanFrom? : (fuel : Nat) → Open → (value : Bool) → List Char → Option (List Token)
  | _, _, value, [] => some (if value then [lineEnd] else [])
  | 0, _, _, _ :: _ => none
  | fuel + 1, texts, value, c :: rest =>
    if c = '\n' then
      if value && !(continuesBelow rest) then (scanFrom? fuel texts false rest).map (lineEnd :: ·)
      else scanFrom? fuel texts false rest
    else if isSpace c then scanFrom? fuel texts value rest
    else if c = '/' ∧ rest.head? = some '/' then do
      let ts ← scanFrom? fuel texts false (rest.dropWhile (· ≠ '\n'))
      some (if value then lineEnd :: ts else ts)
    else do
      let (t, rest, texts) ← next? texts (c :: rest)
      let ts ← scanFrom? fuel texts t.endsValue rest
      some (t :: ts)

/-- The mark that a text may begin with. -/
def byteOrderMark : Char := '\uFEFF'

/-- The tokens of a source, if it is well-formed. -/
def scan? (source : Text) : Option (List Token) :=
  if !source.isUtf8 then none
  else
    let cs := match source.chars with
      | c :: rest => if c = byteOrderMark then rest else c :: rest
      | [] => []
    if cs.any fun c => c = byteOrderMark || c.toNat = 0 then none
    else scanFrom? cs.length [] false cs

end Token

end TapeAsm.Cue
