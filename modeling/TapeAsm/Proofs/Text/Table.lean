import Mathlib.Data.List.SplitBy
import TapeAsm.Proofs.Text.Utf8
import TapeAsm.Text.Columns

/-!
# Tables of two columns

A list of items, each a term and its description, is written with a tab behind the term and a line
feed behind the description. If no text cuts a cell or a row (`Text.Uncut`), the rows that are read
off it are the items (`ofText_items`). All of them have one tab, so they are one run in the first
column and there is no other, and aligning pads the terms to one width (`align_items`). That width
is two more than the widest term has (`le_column`, `exists_eq_column`), and as the terms are UTF-8
it is the number of characters before each description (`length_chars_lead`).
-/

set_option autoImplicit false

namespace TapeAsm.Text

/-! ## Texts for one cell -/

/-- The bytes that end a cell or a row. -/
def cuts : List UInt8 := [ascii '\t', ascii '\n', 0x0B, 0x0C]

/-- **A text that stays in one cell**: UTF-8 without a byte that ends a cell or a row. -/
structure Uncut (t : Text) : Prop where
  utf8 : t.isUtf8 = true
  bare : ∀ b ∈ t, b ∉ cuts

def uncutB (t : Text) : Bool := t.isUtf8 && t.all fun b => !cuts.contains b

theorem uncutB_iff (t : Text) : t.uncutB = true ↔ t.Uncut := by
  rw [uncutB, Bool.and_eq_true, List.all_eq_true]
  constructor
  · rintro ⟨hutf8, hbare⟩
    exact ⟨hutf8, fun b hb => by simpa using hbare b hb⟩
  · rintro ⟨hutf8, hbare⟩
    exact ⟨hutf8, fun b hb => by simpa using hbare b hb⟩

instance (t : Text) : Decidable t.Uncut := decidable_of_iff _ t.uncutB_iff

theorem Uncut.append {t u : Text} (ht : t.Uncut) (hu : u.Uncut) : Uncut (t ++ u) := by
  refine ⟨isUtf8_append ht.utf8 hu.utf8, fun b hb => ?_⟩
  rcases List.mem_append.1 hb with hb | hb
  · exact ht.bare b hb
  · exact hu.bare b hb

theorem Uncut.join {sep : Text} {parts : List Text} (hsep : sep.Uncut)
    (h : ∀ part ∈ parts, Uncut part) : Uncut (join sep parts) :=
  join_keeps ⟨rfl, nofun⟩ (fun _ _ ht hu => ht.append hu) hsep h

/-- The mark around text that is kept as it is begins no character and continues none. -/
theorem mark_not_mem {t : Text} (h : t.isUtf8 = true) : Row.mark ∉ t := by
  intro hmem
  rw [← ofChars_chars h] at hmem
  obtain ⟨c, -, hc⟩ := List.mem_flatMap.1 hmem
  have hmark : Row.mark.toNat = 0xFF := rfl
  rcases toNat_of_mem_ofChar hc with hlow | hhigh <;> omega

/-! ## Widths -/

theorem width_eq_length_chars (t : Text) : t.width = t.chars.length := by
  rw [width, chars, List.length_map]

theorem chars_spaces (n : Nat) : (spaces n).chars = List.replicate n ' ' := by
  have hspaces : spaces n = ofChars (List.replicate n ' ') := by
    rw [ofChars, List.flatMap_replicate, spaces, ofChar_ascii (by decide)]
    simp
  rw [hspaces, chars_ofChars]

theorem cellWidth_eq {t : Text} (h : t.isUtf8 = true) : Row.cellWidth t = t.width := by
  rw [Row.cellWidth, List.count_eq_zero.2 (mark_not_mem h), Nat.sub_zero]

/-! ## Items -/

/-- A row of two cells. -/
structure Item where
  term : Text
  description : Text

namespace Item

/-- An item is uncut if both of its texts are. -/
def Uncut (i : Item) : Prop := i.term.Uncut ∧ i.description.Uncut

def text (i : Item) : Text := i.term ++ "\t" ++ i.description ++ "\n"

def row (i : Item) : Row := ⟨[i.term], i.description, newline, false⟩

/-- What stands before the description where that begins in a column. -/
def lead (column : Nat) (i : Item) : Text := i.term ++ spaces (column - i.term.chars.length)

def line (column : Nat) (i : Item) : Text := i.lead column ++ i.description

end Item

/-- The column in which the descriptions begin. -/
def descriptionColumn (items : List Item) : Nat :=
  (items.map (·.term.chars.length)).foldl max 0 + Row.padding

variable {items : List Item}

theorem le_column {i : Item} (hi : i ∈ items) :
    i.term.chars.length + 2 ≤ descriptionColumn items := by
  have hmem : i.term.chars.length ∈ items.map (·.term.chars.length) := List.mem_map_of_mem hi
  obtain ⟨m, hm⟩ := Option.isSome_iff_exists.1 (List.isSome_max?_of_mem hmem)
  have hle := (List.max?_eq_some_iff.1 hm).2 _ hmem
  rw [descriptionColumn, List.foldl_max, hm, Row.padding, Option.getD_some]
  omega

theorem exists_eq_column (h : items ≠ []) :
    ∃ i ∈ items, i.term.chars.length + 2 = descriptionColumn items := by
  have hne : items.map (·.term.chars.length) ≠ [] := by simpa using h
  obtain ⟨m, hm⟩ := Option.ne_none_iff_exists'.1 (mt List.max?_eq_none_iff.1 hne)
  obtain ⟨i, hi, hwidth⟩ := List.mem_map.1 (List.max?_eq_some_iff.1 hm).1
  refine ⟨i, hi, ?_⟩
  rw [descriptionColumn, List.foldl_max, hm, Row.padding, Option.getD_some, ← hwidth]
  omega

/-- **The descriptions begin in one column**, counted in characters. -/
theorem length_chars_lead {i : Item} {column : Nat} (h : i.term.isUtf8 = true)
    (hle : i.term.chars.length ≤ column) : (i.lead column).chars.length = column := by
  rw [Item.lead, chars_append h, chars_spaces, List.length_append, List.length_replicate]
  omega

/-! ## Rows read off a text -/

/-- A byte that cuts nothing goes into the first cell of the first row. -/
theorem ofText_cons {b : UInt8} (hmark : b ≠ Row.mark) (hcuts : b ∉ cuts) (rest : Text) :
    Row.ofText false (b :: rest) = Row.prependAll b (Row.ofText false rest) := by
  simp only [cuts, List.mem_cons, List.not_mem_nil, or_false, not_or] at hcuts
  obtain ⟨htab, hline, hvertical, hform⟩ := hcuts
  rw [Row.ofText, if_neg hmark, if_neg (not_or.2 ⟨htab, hvertical⟩), if_neg hline, if_neg hform]

section
variable {t : Text}

theorem ofText_append_newline (hmark : Row.mark ∉ t) (hcuts : ∀ b ∈ t, b ∉ cuts) (rest : Text) :
    Row.ofText false (t ++ ascii '\n' :: rest) =
      ⟨[], t, newline, false⟩ :: Row.ofText false rest := by
  induction t with
  | nil => rfl
  | cons b t ih =>
    obtain ⟨hb, ht⟩ := List.forall_mem_cons.1 hcuts
    rw [List.mem_cons, not_or] at hmark
    rw [List.cons_append, ofText_cons (Ne.symm hmark.1) hb, ih hmark.2 ht]
    rfl

theorem ofText_append_tab (hmark : Row.mark ∉ t) (hcuts : ∀ b ∈ t, b ∉ cuts) {rest : Text}
    {row : Row} {rows : List Row} (hrest : Row.ofText false rest = row :: rows) :
    Row.ofText false (t ++ ascii '\t' :: rest) = { row with cells := t :: row.cells } :: rows := by
  induction t with
  | nil =>
    show Row.endCell (Row.ofText false rest) = _
    rw [hrest]
    rfl
  | cons b t ih =>
    obtain ⟨hb, ht⟩ := List.forall_mem_cons.1 hcuts
    rw [List.mem_cons, not_or] at hmark
    rw [List.cons_append, ofText_cons (Ne.symm hmark.1) hb, ih hmark.2 ht]
    rfl

end

theorem ofText_item {i : Item} (h : i.Uncut) (rest : Text) :
    Row.ofText false (i.text ++ rest) = i.row :: Row.ofText false rest := by
  obtain ⟨⟨hterm, hterm'⟩, hdescription, hdescription'⟩ := h
  have hlast := ofText_append_newline (mark_not_mem hdescription) hdescription' rest
  have hcell := ofText_append_tab (mark_not_mem hterm) hterm' hlast
  have htext : i.text ++ rest = i.term ++ ascii '\t' :: (i.description ++ ascii '\n' :: rest) := by
    show i.term ++ [ascii '\t'] ++ i.description ++ [ascii '\n'] ++ rest = _
    simp
  rw [htext, hcell]
  rfl

/-- **The rows of uncut items** are the items. -/
theorem ofText_items (h : ∀ i ∈ items, i.Uncut) :
    Row.ofText false (items.flatMap Item.text) = items.map Item.row := by
  induction items with
  | nil => rfl
  | cons i items ih =>
    obtain ⟨hi, hitems⟩ := List.forall_mem_cons.1 h
    rw [List.flatMap_cons, ofText_item hi, ih hitems, List.map_cons]

/-! ## Alignment -/

theorem splitBy_of_forall {α : Type} {r : α → α → Bool} {l : List α} (hne : l ≠ [])
    (h : ∀ a ∈ l, ∀ b ∈ l, r a b = true) : l.splitBy r = [l] :=
  List.splitBy_of_isChain hne (List.pairwise_of_forall_mem_list h).isChain

theorem text_padTo {i : Item} (h : i.Uncut) (column : Nat) :
    (i.row.padTo 0 column).text = i.line column ++ newline := by
  show (i.term ++ spaces (column - Row.cellWidth i.term)) ++ [] ++ i.description ++ newline = _
  rw [cellWidth_eq h.1.utf8, width_eq_length_chars, List.append_nil]
  rfl

theorem alignRows_items (hne : items ≠ []) (h : ∀ i ∈ items, i.Uncut) :
    Row.alignRows (items.map Item.row) =
      (items.map Item.row).map (Row.padTo 0 (descriptionColumn items)) := by
  have hrows : items.map Item.row ≠ [] := by simpa using hne
  -- every row has one tab, so the first column is the only one and all rows are in it
  have hdepth : ((items.map Item.row).map (·.cells.length)).foldl max 0 = 1 := by
    have hmax : ((items.map Item.row).map (·.cells.length)).max? = some 1 := by
      rw [List.map_map, List.max?_eq_some_iff]
      obtain ⟨i, hi⟩ := List.exists_mem_of_ne_nil _ hne
      refine ⟨List.mem_map.2 ⟨i, hi, rfl⟩, fun n hn => ?_⟩
      obtain ⟨j, -, rfl⟩ := List.mem_map.1 hn
      exact Nat.le_refl 1
    rw [List.foldl_max, hmax]
    rfl
  have hcolumn : ∀ a ∈ items.map Item.row, ∀ b ∈ items.map Item.row,
      decide (Row.hasColumn 0 a = Row.hasColumn 0 b) = true := by
    intro a ha b hb
    obtain ⟨i, -, rfl⟩ := List.mem_map.1 ha
    obtain ⟨j, -, rfl⟩ := List.mem_map.1 hb
    rfl
  have hwidth : (items.map Item.row).map (Row.widthAt 0) = items.map (·.term.chars.length) := by
    rw [List.map_map]
    refine List.map_congr_left fun i hi => ?_
    show Row.cellWidth i.term = _
    rw [cellWidth_eq (h i hi).1.utf8, width_eq_length_chars]
  rw [Row.alignRows, hdepth]
  show Row.alignColumn 0 (items.map Item.row) = _
  rw [Row.alignColumn, splitBy_of_forall hrows hcolumn, List.flatMap_singleton, Row.padRun, hwidth]
  rfl

theorem newline_not_mem_line {i : Item} (h : i.Uncut) (column : Nat) :
    ascii '\n' ∉ i.line column := by
  have hcut : ascii '\n' ∈ cuts := by decide
  intro hmem
  simp only [Item.line, Item.lead, List.mem_append] at hmem
  rcases hmem with (hterm | hspaces) | hdescription
  · exact h.1.bare _ hterm hcut
  · exact absurd (List.eq_of_mem_replicate hspaces) (by decide)
  · exact h.2.bare _ hdescription hcut

/-- **Uncut items are aligned in two columns.** -/
theorem align_items (h : ∀ i ∈ items, i.Uncut) :
    align (items.flatMap Item.text) =
      items.flatMap fun i => i.line (descriptionColumn items) ++ newline := by
  by_cases hne : items = []
  · subst hne
    rfl
  have hrows : items.map Item.row ≠ [] := by simpa using hne
  have hclosed : ∀ a ∈ items.map Item.row, ∀ b ∈ items.map Item.row, (!a.closes) = true := by
    intro a ha b _
    obtain ⟨i, -, rfl⟩ := List.mem_map.1 ha
    rfl
  rw [align, ofText_items h, splitBy_of_forall hrows hclosed, List.flatMap_singleton,
    alignRows_items hne h, List.map_map, List.flatMap_map]
  exact List.flatMap_congr fun i hi => text_padTo (h i hi) _

end TapeAsm.Text
