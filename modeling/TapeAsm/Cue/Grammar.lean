import TapeAsm.Cue.Expr
import TapeAsm.Cue.Token

/-!
# The grammar of configuration files

One function per rule: each gives what it recognised and the tokens left, and a number bounds the
depth of the rules applied. A separator is a comma or a line end; the items of a list need a
comma, and a line end may stand only behind the last.
-/

set_option autoImplicit false

namespace TapeAsm.Cue.Grammar

/-! ## Labels and separators -/

/-- Is the token a separator? -/
def separates : Token → Bool
  | .symbol ',' => true
  | .lineEnd => true
  | _ => false

/-- Is the token the name? -/
def isWord (word : Text) : Token → Bool
  | .name name => name = word
  | _ => false

/-- What a quoted text without expressions stands for. -/
def textOf? (q : Quote) (piece : List Char) : Option Text := do
  match ← q.decode? [piece] with
  | [t] => some t
  | _ => none

/-- The label that a token stands for. Names that begin with two underscores are reserved where a
declaration begins. -/
def labelOf? (nested : Bool) : Token → Option FieldLabel
  | .name name =>
    if name = "_" ∨ !nested ∧ (Text.ofString "__").isPrefixOf name then none
    else some (.fixed (.ofName name) false)
  | .quoted q piece => do some (.fixed (.regular (← textOf? q piece)) true)
  | _ => none

/-- The end of a label: the presence of its field, and what follows. -/
def labelEnd? : List Token → Option (Presence × List Token)
  | .symbol ':' :: rest => some (.regular, rest)
  | .symbol '?' :: .symbol ':' :: rest => some (.optional, rest)
  | .symbol '!' :: .symbol ':' :: rest => some (.required, rest)
  | _ => none

/-- Can the token be a label by itself? -/
def isLabel : Token → Bool
  | .name _ => true
  | .quoted _ _ => true
  | _ => false

/-- The label that an operand in brackets or with expressions in it stands for. -/
def operandLabel? (first : Token) (operand : Expr) : Option FieldLabel :=
  match first, operand with
  | .symbol '(', e => some (.computed e)
  | .opening _ _, e => some (.computed e)
  | .symbol '[', .list [.embed e] none => some (.pattern e)
  | _, _ => none

/-- The tokens behind brackets that are open, the innermost first. -/
def skipBrackets? : (stack : List Char) → List Token → Option (List Token)
  | [], ts => some ts
  | _ :: _, [] => none
  | c :: stack, t :: rest =>
    match t with
    | .symbol '(' => skipBrackets? (')' :: c :: stack) rest
    | .symbol '[' => skipBrackets? (']' :: c :: stack) rest
    | .symbol '\x7b' => skipBrackets? ('\x7d' :: c :: stack) rest
    | .opening _ _ => none
    | .symbol d =>
      if d = c then skipBrackets? stack rest
      else if [')', ']', '\x7d'].contains d then none
      else skipBrackets? (c :: stack) rest
    | _ => skipBrackets? (c :: stack) rest

/-- The tokens behind an attribute, which says nothing about the data. -/
def attribute? : List Token → Option (List Token)
  | .symbol '@' :: .name _ :: .symbol '(' :: rest => skipBrackets? [')'] rest
  | _ => none

/-- The tokens behind attributes. The number bounds how many there are. -/
def attributes : (fuel : Nat) → List Token → List Token
  | 0, ts => ts
  | fuel + 1, ts =>
    match attribute? ts with
    | some rest => attributes fuel rest
    | none => ts

/-! ## Operators -/

/-- The operator between two operands that a token stands for, and how strongly it binds. -/
def binary? : Token → Option (Binary × Nat)
  | .symbol '|' => some (.disjunction, 1)
  | .symbol '&' => some (.conjunction, 2)
  | .either => some (.either, 3)
  | .also => some (.also, 4)
  | .equal => some (.equal, 5)
  | .relation r => some (.compare r, 5)
  | .symbol '+' => some (.add, 6)
  | .symbol '-' => some (.subtract, 6)
  | .symbol '*' => some (.multiply, 7)
  | .symbol '/' => some (.divide, 7)
  | _ => none

/-- What a token before an operand makes of it. -/
def unary? : Token → Option (Expr → Expr)
  | .symbol '-' => some (.unary .minus)
  | .symbol '+' => some (.unary .plus)
  | .symbol '!' => some (.unary .not)
  | .symbol '*' => some .preferred
  | .relation r => some (.unary (.bound r))
  | _ => none

/-- What an unquoted name stands for as an operand. -/
def word (name : Text) : Expr :=
  if name = "true" then .literal (.bool true)
  else if name = "false" then .literal (.bool false)
  else if name = "null" then .literal .null
  else .name name

/-- A text or bytes. -/
def quotedScalar (double : Bool) (t : Text) : Scalar := if double then .text t else .bytes t

/-- The parts of a text with expressions in it: pieces and expressions alternate. -/
def alternate (double : Bool) : List Text → List Expr → List Expr
  | t :: ts, e :: es => .literal (quotedScalar double t) :: e :: alternate double ts es
  | t :: _, [] => [.literal (quotedScalar double t)]
  | [], _ => []

/-- Does a keyword stand for itself here, and not for the beginning of a clause? -/
def endsEarly : List Token → Bool
  | [] => true
  | t :: _ => separates t || t = .symbol ':' || t = .symbol '=' || t = .symbol '?'

/-- A declaration as the value of a field. -/
def asValue : Decl → Expr
  | .embed e => e
  | d => .struct [d]

/-! ## Rules -/

mutual

/-- An expression whose operators bind at least as strongly as given. -/
def binary : (fuel : Nat) → (level : Nat) → List Token → Option (Expr × List Token)
  | 0, _, _ => none
  | fuel + 1, level, ts => do
    let (x, ts) ← unary fuel ts
    binaryRest fuel level x ts

/-- The operators and operands behind an operand. -/
def binaryRest : (fuel : Nat) → (level : Nat) → Expr → List Token → Option (Expr × List Token)
  | 0, _, _, _ => none
  | _ + 1, _, x, [] => some (x, [])
  | fuel + 1, level, x, t :: rest =>
    match binary? t with
    | some (operator, strength) =>
      if strength < level then some (x, t :: rest)
      else do
        let (y, rest) ← binary fuel (strength + 1) rest
        binaryRest fuel level (.binary operator x y) rest
    | none => some (x, t :: rest)

/-- An operand with the operators before it. -/
def unary : (fuel : Nat) → List Token → Option (Expr × List Token)
  | 0, _ => none
  | _ + 1, [] => none
  | fuel + 1, t :: rest =>
    match unary? t with
    | some apply => do
      let (x, rest) ← unary fuel rest
      some (apply x, rest)
    | none => do
      let (x, rest) ← operand fuel (t :: rest)
      suffixes fuel x rest

/-- The selectors, indexes and arguments behind an operand. -/
def suffixes : (fuel : Nat) → Expr → List Token → Option (Expr × List Token)
  | 0, _, _ => none
  | fuel + 1, x, ts =>
    match ts with
    | .symbol '.' :: .name name :: rest => suffixes fuel (.select x (.ofName name)) rest
    | .symbol '.' :: .quoted q piece :: rest => do
      let name ← textOf? q piece
      if q.double ∧ q.hashes = 0 ∧ !q.multiline ∧ !name.isEmpty then
        suffixes fuel (.select x (.regular name)) rest
      else none
    | .symbol '.' :: _ => none
    | .symbol '[' :: rest => do
      match ← binary fuel 1 rest with
      | (i, .symbol ']' :: rest) => suffixes fuel (.index x i) rest
      | _ => none
    | .symbol '(' :: rest => do
      let (args, rest) ← arguments fuel rest
      suffixes fuel (.call x args) rest
    | _ => some (x, ts)

/-- The arguments of a call and the bracket behind them. -/
def arguments : (fuel : Nat) → List Token → Option (List Expr × List Token)
  | 0, _ => none
  | _ + 1, [] => none
  | fuel + 1, t :: rest =>
    if t = .symbol ')' then some ([], rest)
    else do
      match ← binary fuel 1 (t :: rest) with
      | (x, .symbol ')' :: rest) => some ([x], rest)
      | (x, s :: rest) =>
        if separates s then do
          let (xs, rest) ← arguments fuel rest
          some (x :: xs, rest)
        else none
      | (_, []) => none

/-- A literal, a name, a list, a struct or an expression in brackets. -/
def operand : (fuel : Nat) → List Token → Option (Expr × List Token)
  | 0, _ => none
  | _ + 1, [] => none
  | fuel + 1, t :: rest =>
    match t with
    | .number n => some (.literal (.number n), rest)
    | .quoted q piece => do some (.literal (quotedScalar q.double (← textOf? q piece)), rest)
    | .opening q piece => do
      let (pieces, exprs, rest) ← pieces fuel rest
      let texts ← q.decode? (piece :: pieces)
      some (.interpolation q.double (alternate q.double texts exprs), rest)
    | .bottom => some (.bottom, rest)
    | .name name => some (word name, rest)
    | .symbol '(' => do
      match ← binary fuel 1 rest with
      | (x, .symbol ')' :: rest) => some (x, rest)
      | _ => none
    | .symbol '[' => items fuel rest
    | .symbol '\x7b' => do
      match ← declarations fuel rest with
      | (ds, .symbol '\x7d' :: rest) => some (.struct ds, rest)
      | _ => none
    | _ => none

/-- The expressions in a quoted text and the pieces behind each. -/
def pieces : (fuel : Nat) → List Token → Option (List (List Char) × List Expr × List Token)
  | 0, _ => none
  | fuel + 1, ts => do
    match ← binary fuel 1 ts with
    | (x, .closing piece :: rest) => some ([piece], [x], rest)
    | (x, .middle piece :: rest) => do
      let (later, xs, rest) ← pieces fuel rest
      some (piece :: later, x :: xs, rest)
    | _ => none

/-- The rest of a list behind its opening bracket. -/
def items : (fuel : Nat) → List Token → Option (Expr × List Token)
  | 0, _ => none
  | fuel + 1, ts =>
    let close (d : Decl) : Expr × List Token → Option (Expr × List Token)
      | (.list ds r, rest) => some (.list (d :: ds) r, rest)
      | _ => none
    match ts with
    | .symbol ']' :: rest => some (.list [] none, rest)
    | .ellipsis :: .symbol ']' :: rest => some (.list [] (some (.name "_")), rest)
    | .ellipsis :: s :: rest =>
      if separates s then
        match rest with
        | .symbol ']' :: rest => some (.list [] (some (.name "_")), rest)
        | _ => none
      else do
        match ← binary fuel 1 (s :: rest) with
        | (x, .symbol ']' :: rest) => some (.list [] (some x), rest)
        | (x, s :: .symbol ']' :: rest) =>
          if separates s then some (.list [] (some x), rest) else none
        | _ => none
    | _ => do
      match ← element fuel ts with
      | (d, .symbol ']' :: rest) => some (.list [d] none, rest)
      | (d, .symbol ',' :: rest) => do close d (← items fuel rest)
      | (d, .lineEnd :: .symbol ']' :: rest) => some (.list [d] none, rest)
      | _ => none

/-- An item of a list, or clauses that give items. -/
def element : (fuel : Nat) → List Token → Option (Decl × List Token)
  | 0, _ => none
  | _ + 1, [] => none
  | fuel + 1, t :: rest =>
    if (isWord "for" t || isWord "if" t) && !(endsEarly rest) &&
        !(rest.head? = some (.symbol ']')) then
      clauses fuel (t :: rest)
    else do
      let (x, rest) ← binary fuel 1 (t :: rest)
      some (.embed x, rest)

/-- Declarations up to the end of the struct or of the document. -/
def declarations : (fuel : Nat) → List Token → Option (List Decl × List Token)
  | 0, _ => none
  | _ + 1, [] => some ([], [])
  | fuel + 1, t :: rest =>
    if t = .symbol '\x7d' then some ([], t :: rest)
    else do
      let (ds, rest) ←
        if t = .symbol '@' then do some ([], ← attribute? (t :: rest))
        else if t = .ellipsis then some ([.rest], rest)
        else do
          let (d, rest) ← declaration fuel false (t :: rest)
          some ([d], rest)
      match rest with
      | [] => some (ds, [])
      | s :: rest =>
        if s = .symbol '\x7d' then some (ds, s :: rest)
        else if separates s then do
          let (later, rest) ← declarations fuel rest
          some (ds ++ later, rest)
        else none

/-- A field, clauses, a binding or an expression. A nested declaration is the value of a field. -/
def declaration : (fuel : Nat) → (nested : Bool) → List Token → Option (Decl × List Token)
  | 0, _, _ => none
  | _ + 1, _, [] => none
  | fuel + 1, nested, t :: rest =>
    match (if isLabel t then labelEnd? rest else none) with
    | some (presence, rest) => do field fuel (← labelOf? nested t) presence rest
    | none =>
      if !nested && isWord "let" t && !(endsEarly rest) then
        match rest with
        | .name name :: .symbol '=' :: rest => do
          let (x, rest) ← binary fuel 1 rest
          some (.bind name x, rest)
        | _ => none
      else if !nested && (isWord "for" t || isWord "if" t) && !(endsEarly rest) then
        clauses fuel (t :: rest)
      else
        match unary? t with
        | some _ => do
          let (x, rest) ← binary fuel 1 (t :: rest)
          some (.embed x, rest)
        | none => do
          let (x, rest) ← operand fuel (t :: rest)
          match labelEnd? rest with
          | some (presence, rest) => do field fuel (← operandLabel? t x) presence rest
          | none => do
            let (x, rest) ← suffixes fuel x rest
            let (x, rest) ← binaryRest fuel 1 x rest
            some (.embed x, rest)

/-- The value of a field behind its label, and the attributes behind the value. -/
def field : (fuel : Nat) → FieldLabel → Presence → List Token → Option (Decl × List Token)
  | 0, _, _, _ => none
  | fuel + 1, label, presence, ts => do
    let (d, rest) ← declaration fuel true ts
    some (.field label presence (asValue d), attributes rest.length rest)

/-- Conditions and repetitions before a struct. -/
def clauses : (fuel : Nat) → List Token → Option (Decl × List Token)
  | 0, _ => none
  | fuel + 1, ts =>
    let body (rest : List Token) : Option (Decl × List Token) :=
      match rest with
      | .symbol '\x7b' :: rest => do
        match ← declarations fuel rest with
        | (ds, .symbol '\x7d' :: rest) => some (.embed (.struct ds), rest)
        | _ => none
      | s :: rest => if separates s then clauses fuel rest else clauses fuel (s :: rest)
      | [] => none
    let each (key : Option Text) (value : Text) (rest : List Token) :
        Option (Decl × List Token) := do
      let (source, rest) ← binary fuel 1 rest
      let (d, rest) ← body rest
      some (.forEach key value source d, rest)
    match ts with
    | .name keyword :: .name value :: .name «in» :: rest =>
      if keyword = "for" ∧ «in» = "in" then each none value rest
      else if keyword = "if" then do
        let (condition, rest) ← binary fuel 1 (.name value :: .name «in» :: rest)
        let (d, rest) ← body rest
        some (.whenever condition d, rest)
      else none
    | .name keyword :: .name key :: .symbol ',' :: .name value :: .name «in» :: rest =>
      if keyword = "for" ∧ «in» = "in" then each (some key) value rest else none
    | .name keyword :: rest =>
      if keyword = "if" then do
        let (condition, rest) ← binary fuel 1 rest
        let (d, rest) ← body rest
        some (.whenever condition d, rest)
      else none
    | _ => none

end

/-- The number of rules that suffices for a list of tokens. -/
def enough (ts : List Token) : Nat := 8 * ts.length + 8

/-- The tokens behind the name of the package, if a document begins with one. -/
def behindPackage? : List Token → Option (List Token)
  | [] => some []
  | t :: rest =>
    if !(isWord "package" t) then some (t :: rest)
    else
      match rest with
      | [.name _] => some []
      | .name _ :: s :: rest => if separates s then some rest else none
      | _ => none

/-- The declarations of a document. Nothing can be imported. -/
def document? (ts : List Token) : Option (List Decl) := do
  let ts ← behindPackage? ts
  if ts.head?.any (isWord "import") then none
  else
    match ← declarations (enough ts) ts with
    | (ds, []) => some ds
    | _ => none

/-- The expression that tokens spell. A line end may stand behind it. -/
def expression? (ts : List Token) : Option Expr := do
  match ← binary (enough ts) 1 ts with
  | (x, []) => some x
  | (x, [.lineEnd]) => some x
  | _ => none

end TapeAsm.Cue.Grammar
