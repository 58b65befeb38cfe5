import TapeAsm.Log.Record
import TapeAsm.Text.Blank

/-!
# Log lines

A record is written as one line of `key=value` pairs. Keys and values are quoted where they could
be misread. A logger adds attributes of its own before those of the record, and the groups it has
opened qualify the keys of everything added after them.
-/

set_option autoImplicit false

namespace TapeAsm.Log

/-- Does the character force quotes? A backslash and a delete character do not. -/
def breaksWord (c : Char) : Bool :=
  if c.toNat < 0x80 then c.toNat ≤ 0x20 || c = '=' || c = '"'
  else c = Text.replacement || Text.isBlank c || !Text.isPrintable c

/-- Does the text need quotes? -/
def needsQuotes (t : Text) : Bool :=
  t.isEmpty || t.glyphs.any fun
    | .char c => breaksWord c
    | .stray _ => true

/-- A text in a line, in quotes if it needs them. -/
def word (t : Text) : Text := if needsQuotes t then t.quote else t

/-- An attribute with the groups that qualify its key. -/
structure Entry where
  /-- The names of the groups, each with a point after it. -/
  groups : Text
  attr : Attr
  deriving DecidableEq, Repr

namespace Entry

/-- The full key of an entry. -/
def key (e : Entry) : Text := e.groups ++ e.attr.key

/-- The key as it stands in a line. -/
def keyWord (e : Entry) : Text :=
  if needsQuotes e.attr.key || !e.groups.isEmpty && needsQuotes e.groups then e.key.quote
  else e.key

/-- Does the entry say nothing at all? Such an entry is left out. -/
def isBlank (e : Entry) : Bool := e.attr.key.isEmpty && e.attr.value = .nothing

/-- An entry in a line, after a space. -/
def text (e : Entry) : Text :=
  if e.isBlank then [] else " " ++ e.keyWord ++ "=" ++ word e.attr.value.render

end Entry

/-- A logger: what it adds to every record. -/
structure Logger where
  /-- The attributes added to every record. -/
  bound : List Entry := []
  /-- The open groups, each with a point after it. -/
  groups : Text := []

namespace Logger

/-- The logger that adds nothing. -/
def plain : Logger := {}

/-- A logger that adds attributes, qualified by the groups open now. -/
def withAttrs (l : Logger) (attrs : List Attr) : Logger :=
  { l with bound := l.bound ++ attrs.map (⟨l.groups, ·⟩) }

/-- A logger with one more group open. A group without a name is none. -/
def withGroup (l : Logger) (name : Text) : Logger :=
  if name.isEmpty then l else { l with groups := l.groups ++ name ++ "." }

/-- The entries of a record: the logger's, the record's own, and the span of its context. -/
def entries (l : Logger) (span : Option Text) (r : Record) : List Entry :=
  let own := r.attrs ++ (span.map fun s => [⟨"logs.span", .text s⟩]).getD []
  l.bound ++ own.map (⟨l.groups, ·⟩)

/-- The line that a terminal shows of a record, without the pair for the time that stands in front.
A record can go to the journal of the system too; of that only the names of the fields are here
(`journalKey`). -/
def line (l : Logger) (span : Option Text) (r : Record) : Text :=
  "level=" ++ r.level.name ++ " msg=" ++ word r.message ++
    (l.entries span r).flatMap Entry.text ++ "\n"

/-- What is written for a record: nothing if its level is below the threshold. -/
def write (l : Logger) (threshold : Level) (span : Option Text) (r : Record) : Text :=
  Text.onlyIf (threshold ≤ r.level) (l.line span r)

end Logger

/-- A key as a journal field name: upper case, with an underscore for every glyph that is not a
letter or digit of ASCII. -/
def journalKey (key : Text) : Text :=
  key.chars.map fun c =>
    let u := Text.upperToAscii c
    if 'A' ≤ u ∧ u ≤ 'Z' ∨ '0' ≤ u ∧ u ≤ '9' then Text.ascii u else Text.ascii '_'

end TapeAsm.Log
