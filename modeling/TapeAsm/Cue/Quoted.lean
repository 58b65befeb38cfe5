import TapeAsm.Text.Blank
import TapeAsm.Text.Glyph

/-!
# Quoted text

A text stands between double quotes and bytes between single ones. As many `#` as stand before the
opening quote stand behind the closing one and behind the backslash of every escape. Three quotes
enclose several lines, and what stands before the closing quotes is taken from the beginning of
every line.

An expression may stand within a quoted text, so a quoted text is read piece by piece: `piece?`
finds the end of a piece, and `decode?` says what it stands for. Not every piece stands for
something.
-/

set_option autoImplicit false

namespace TapeAsm.Cue

/-- How a text is quoted. -/
structure Quote where
  /-- Is it a text? Otherwise it is bytes. -/
  double : Bool
  hashes : Nat
  multiline : Bool
  deriving DecidableEq, Repr

namespace Quote

/-- The quote. -/
def char (q : Quote) : Char := if q.double then '"' else '\''

/-- What follows the backslash of an escape or the closing quotes. -/
def mark (q : Quote) : List Char := List.replicate q.hashes '#'

/-- What closes the text. -/
def closing (q : Quote) : List Char :=
  List.replicate (if q.multiline then 3 else 1) q.char ++ q.mark

/-- The quote that opens a text behind `hashes` marks, and what follows it. Three quotes must be
followed by a line end. -/
def opening? (hashes : Nat) : List Char → Option (Quote × List Char)
  | c :: rest =>
    if c = '"' ∨ c = '\'' then
      if [c, c].isPrefixOf rest then
        match rest.drop 2 with
        | '\n' :: rest => some (⟨c = '"', hashes, true⟩, rest)
        | '\r' :: '\n' :: rest => some (⟨c = '"', hashes, true⟩, rest)
        | _ => none
      else some (⟨c = '"', hashes, false⟩, rest)
    else none
  | [] => none

/-! ## Escapes -/

/-- The value of as many digits of a base as asked for, and what follows them. -/
def digits? (base count : Nat) (cs : List Char) : Option (Nat × List Char) := do
  let ds := cs.take count
  if ds.length < count ∨ !(ds.all (·.toNat < 0x80)) then none
  else
    let value ← Text.digitsValue? base (ds.map Text.ascii)
    some (value, cs.drop count)

/-- The characters escaped by a letter. -/
def letterEscape? (c : Char) : Option Char :=
  ([('a', '\x07'), ('b', '\x08'), ('f', '\x0c'), ('n', '\n'), ('r', '\r'), ('t', '\t'),
    ('v', '\x0b'), ('\\', '\\'), ('/', '/')] : List (Char × Char)).lookup c

/-- What an escape stands for. -/
inductive Escape where
  /-- The code of a character, or half of one. -/
  | code (code : Nat)
  | byte (byte : Nat)
  /-- A line end that does not count. -/
  | joint
  deriving DecidableEq, Repr

/-- The greatest code of a character. -/
def maxCode : Nat := 0x10FFFF

/-- The escape behind a backslash and its mark, and what follows it. -/
def escape? (q : Quote) : List Char → Option (Escape × List Char)
  | 'x' :: cs => do
    let (b, rest) ← digits? 16 2 cs
    some (.byte b, rest)
  | 'u' :: cs => do
    let (code, rest) ← digits? 16 4 cs
    some (.code code, rest)
  | 'U' :: cs => do
    let (code, rest) ← digits? 16 8 cs
    if code ≤ maxCode then some (.code code, rest) else none
  | '\n' :: cs => if q.multiline then some (.joint, cs) else none
  | '\r' :: '\n' :: cs => if q.multiline then some (.joint, cs) else none
  | c :: cs =>
    if c = q.char then some (.code c.toNat, cs)
    else
      match letterEscape? c with
      | some e => some (.code e.toNat, cs)
      | none => do
        let (b, rest) ← digits? 8 3 (c :: cs)
        if b < 256 then some (.byte b, rest) else none
  | [] => none

/-! ## Pieces -/

/-- The characters of a piece, whether an expression follows it, and the rest behind the closing
quotes or the bracket of the expression. The number bounds the characters to read. -/
def piece? (q : Quote) : (fuel : Nat) → List Char → Option (List Char × Bool × List Char)
  | 0, _ => none
  | _ + 1, [] => none
  | fuel + 1, c :: rest =>
    if q.closing.isPrefixOf (c :: rest) then some ([], false, (c :: rest).drop q.closing.length)
    else if c = '\n' ∧ !q.multiline then none
    else if c = '\\' ∧ q.mark.isPrefixOf rest then
      match rest.drop q.hashes with
      | '(' :: rest => some ([], true, rest)
      | escaped => do
        let (_, after) ← q.escape? escaped
        let (cs, isOpen, after') ← piece? q fuel after
        some (c :: rest.take (rest.length - after.length) ++ cs, isOpen, after')
    else do
      let (cs, isOpen, rest) ← piece? q fuel rest
      some (c :: cs, isOpen, rest)

/-- What stands before the closing quotes of several lines. -/
def indentation (last : List Char) : List Char :=
  (last.reverse.takeWhile fun c => Text.isBlank c && c ≠ '\n').reverse

/-- A line without its indentation. An empty line needs none. -/
def outdent? (indent cs : List Char) : Option (List Char) :=
  if indent.isPrefixOf cs then some (cs.drop indent.length)
  else if cs.head? = some '\n' ∨ ['\r', '\n'].isPrefixOf cs then some cs
  else none

/-- Is the code the first half of a pair? -/
def isHigh (code : Nat) : Bool := 0xD800 ≤ code && code < 0xDC00

/-- Is the code the second half of a pair? -/
def isLow (code : Nat) : Bool := 0xDC00 ≤ code && code < 0xE000

/-- The encoding of a character by its code, halves excluded. -/
def ofCode? (code : Nat) : Option Text :=
  if code.isValidChar then some (Text.ofChar (Char.ofNat code)) else none

/-- The escape that a backslash begins, and what follows it; none if it begins no escape. -/
def escapeAt? (q : Quote) : List Char → Option (Escape × List Char)
  | '\\' :: rest => if q.mark.isPrefixOf rest then q.escape? (rest.drop q.hashes) else none
  | _ => none

/-- What the characters of a piece stand for. Two escaped halves are one character, and half a one
is none. The last line end of several lines does not count. The number bounds the characters to
read. -/
def decodeFrom? (q : Quote) (indent : List Char) (isLast : Bool) :
    (fuel : Nat) → List Char → Option Text
  | _, [] => some []
  | 0, _ :: _ => none
  | fuel + 1, c :: rest =>
    if c = '\r' then if q.multiline then decodeFrom? q indent isLast fuel rest else none
    else if c = '\n' then do
      if !q.multiline then none
      else
        let rest ← outdent? indent rest
        if rest.isEmpty ∧ isLast then some []
        else do some (Text.newline ++ (← decodeFrom? q indent isLast fuel rest))
    else
      match q.escapeAt? (c :: rest) with
      | none => do some (Text.ofChar c ++ (← decodeFrom? q indent isLast fuel rest))
      | some (.byte b, rest) =>
        if q.double then none
        else do some (b.toUInt8 :: (← decodeFrom? q indent isLast fuel rest))
      | some (.joint, rest) => do
        let rest ← outdent? indent rest
        if rest.isEmpty ∧ isLast then none else decodeFrom? q indent isLast fuel rest
      | some (.code code, rest) =>
        if isHigh code then do
          match q.escapeAt? rest with
          | some (.code low, rest) =>
            if isLow low then do
              let t ← ofCode? (0x10000 + (code - 0xD800) * 0x400 + (low - 0xDC00))
              some (t ++ (← decodeFrom? q indent isLast fuel rest))
            else none
          | _ => none
        else do some ((← ofCode? code) ++ (← decodeFrom? q indent isLast fuel rest))

/-- What the pieces of a quoted text stand for. -/
def decode? (q : Quote) (pieces : List (List Char)) : Option (List Text) :=
  let indent := if q.multiline then indentation (pieces.getLastD []) else []
  let decodePiece (isFirst isLast : Bool) (cs : List Char) : Option Text := do
    let cs ←
      if isFirst && q.multiline && cs.head? ≠ some '\n' then
        if indent.isPrefixOf cs then some (cs.drop indent.length) else none
      else some cs
    decodeFrom? q indent isLast cs.length cs
  pieces.zipIdx.mapM fun (cs, i) => decodePiece (i = 0) (i + 1 = pieces.length) cs

end Quote

end TapeAsm.Cue
