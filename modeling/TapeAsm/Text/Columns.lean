import TapeAsm.Text.Glyph

/-!
# Aligned columns

A table is written as text: a tab ends a cell and a line feed ends a row. Aligning it replaces the
tabs by spaces so that cells below each other begin in the same column. A column reaches over
consecutive rows that have a tab-ended cell there; a form feed ends a row and all columns. What
follows the last tab of a row is not padded.

Bytes between two bytes `0xFF` belong to the cell whatever they are; the two marks stay in the text
but take no room.
-/

set_option autoImplicit false

namespace TapeAsm.Text

/-- A row of a table. -/
structure Row where
  /-- The cells that a tab ended. -/
  cells : List Text
  /-- What follows them. -/
  last : Text
  /-- How the row ends: nothing for text that no line feed ends. -/
  ending : Text
  /-- Do all columns end with this row? -/
  closes : Bool
  deriving DecidableEq, Repr

namespace Row

/-- The byte around text that is kept as it is. -/
def mark : UInt8 := 0xFF

/-- The row with a byte put in front of its first cell. -/
def prepend (b : UInt8) (row : Row) : Row :=
  match row.cells with
  | [] => { row with last := b :: row.last }
  | cell :: cells => { row with cells := (b :: cell) :: cells }

/-- Rows with a byte put in front of the first. -/
def prependAll (b : UInt8) : List Row → List Row
  | [] => [⟨[], [b], [], false⟩]
  | row :: rows => row.prepend b :: rows

/-- Rows with the end of a cell put in front of the first. -/
def endCell : List Row → List Row
  | [] => [⟨[[]], [], [], false⟩]
  | row :: rows => { row with cells := [] :: row.cells } :: rows

/-- The rows of a table. -/
def ofText : (marked : Bool) → Text → List Row
  | _, [] => []
  | true, b :: rest => prependAll b (ofText (b ≠ mark) rest)
  | false, b :: rest =>
    if b = mark then prependAll b (ofText true rest)
    else if b = ascii '\t' ∨ b = 0x0B then endCell (ofText false rest)
    else if b = ascii '\n' then ⟨[], [], newline, false⟩ :: ofText false rest
    else if b = 0x0C then ⟨[], [], newline, true⟩ :: ofText false rest
    else prependAll b (ofText false rest)

/-- The room that a cell takes. -/
def cellWidth (cell : Text) : Nat := cell.width - cell.count mark

/-- Does a tab end the row's cell in this column? -/
def hasColumn (column : Nat) (row : Row) : Bool := column < row.cells.length

/-- The room that the row takes in a column. -/
def widthAt (column : Nat) (row : Row) : Nat := cellWidth (row.cells.getD column [])

/-- The space between two columns. -/
def padding : Nat := 2

/-- The row with its cell in a column padded to a width. -/
def padTo (column width : Nat) (row : Row) : Row :=
  { row with cells := row.cells.modify column fun cell => cell ++ spaces (width - cellWidth cell) }

/-- Rows with their cells in a column padded to the width of the widest. -/
def padRun (column : Nat) (rows : List Row) : List Row :=
  let width := (rows.map (widthAt column)).foldl max 0 + padding
  rows.map (padTo column width)

/-- Rows with a column aligned. -/
def alignColumn (column : Nat) (rows : List Row) : List Row :=
  (rows.splitBy fun a b => hasColumn column a = hasColumn column b).flatMap (padRun column)

/-- Rows with all columns aligned. -/
def alignRows (rows : List Row) : List Row :=
  (List.range ((rows.map (·.cells.length)).foldl max 0)).foldl
    (fun rows c => alignColumn c rows) rows

/-- The text of a row. -/
def text (row : Row) : Text := row.cells.flatten ++ row.last ++ row.ending

end Row

/-- The table with its columns aligned. -/
def align (table : Text) : Text :=
  ((Row.ofText false table).splitBy fun a _ => !a.closes).flatMap fun rows =>
    (Row.alignRows rows).flatMap Row.text

end TapeAsm.Text
