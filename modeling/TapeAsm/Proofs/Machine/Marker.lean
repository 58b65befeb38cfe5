import TapeAsm.Proofs.Machine.Calls
import TapeAsm.Proofs.Program.Lines

/-!
# The marker of a view

The first line of a view holds cells, each padded to three columns, and the second line a marker
whose column is computed from the pointer alone. To compare the two, `Text.words` reads a line as
words with the columns in which they end.

* `words_cellLine`: the words of the first line are the cells in order. The last digit of a cell
  stands as many columns to the right of the marker's column as the cells up to it have digits
  beyond their three columns (`ends_eq`, `overhang`).
* `Machine.view_eq`: what is drawn for a machine whose tape fits in memory.
* `Machine.marker_column`: after all calls the marker is under the pointed cell exactly if no cell
  up to it is greater than 999.
-/

set_option autoImplicit false

namespace TapeAsm

namespace Text

/-! ## Words of a line -/

/-- The word that has begun, if any, with the column before the one reached. -/
def closeWord (column : Nat) (word : Text) : List (Text × Nat) :=
  if word.isEmpty then [] else [(word, column - 1)]

/-- The words of a line from a column on, `word` being the one that has begun. -/
def wordsFrom : (column : Nat) → (word : Text) → Text → List (Text × Nat)
  | column, word, [] => closeWord column word
  | column, word, b :: rest =>
    if b = ascii ' ' then closeWord column word ++ wordsFrom (column + 1) [] rest
    else wordsFrom (column + 1) (word ++ [b]) rest

/-- The words of a line that is divided by spaces, each with the column of its last byte. -/
def words (line : Text) : List (Text × Nat) := wordsFrom 0 [] line

theorem wordsFrom_append {w : Text} (h : ascii ' ' ∉ w) (column : Nat) (word rest : Text) :
    wordsFrom column word (w ++ rest) = wordsFrom (column + w.length) (word ++ w) rest := by
  induction w generalizing column word with
  | nil => simp
  | cons b w ih =>
    obtain ⟨hb, hw⟩ := not_or.1 (fun hm => h (List.mem_cons.2 hm))
    rw [List.cons_append, wordsFrom, if_neg (Ne.symm hb), ih hw]
    simp [Nat.add_assoc, Nat.add_comm 1]

theorem wordsFrom_spaces (column n : Nat) (rest : Text) :
    wordsFrom column [] (spaces n ++ rest) = wordsFrom (column + n) [] rest := by
  induction n generalizing column with
  | zero => rfl
  | succ n ih =>
    have hstep : wordsFrom column [] (spaces (n + 1) ++ rest) =
        wordsFrom (column + 1) [] (spaces n ++ rest) := by
      simp [spaces, List.replicate_succ, wordsFrom, closeWord]
    rw [hstep, ih, Nat.add_right_comm, Nat.add_assoc]

end Text

namespace Machine

open Text

/-! ## The line of cells -/

/-- The first line of a view. -/
def cellLine (values : List Int) : Text := Text.join " " (values.map fun v => padLeft 3 (ofInt v))

/-- The number of digits that a cell has beyond its three columns. -/
def excess (v : Int) : Nat := (ofInt v).length - 3

/-- The number of digits that cells have together beyond their three columns. -/
def overhang : List Int → Nat
  | [] => 0
  | v :: vs => excess v + overhang vs

/-- The columns in which cells end, from a column on. -/
def ends : (column : Nat) → List Int → List Nat
  | _, [] => []
  | column, v :: vs => (column + 2 + excess v) :: ends (column + 4 + excess v) vs

theorem length_ofInt_pos (v : Int) : 0 < (ofInt v).length := by
  cases v with
  | ofNat n => simpa [ofInt, ofNat] using Nat.length_toDigits_pos
  | negSucc n => simp [ofInt]

theorem not_mem_ofInt {b : UInt8} (hb : isVisible b = false) (v : Int) : b ∉ ofInt v := by
  have hnat (n : Nat) : b ∉ ofNat n := by
    intro h
    rw [isVisible_of_mem_ofNat h] at hb
    cases hb
  cases v with
  | ofNat n => exact hnat n
  | negSucc n =>
    intro h
    rcases List.mem_cons.1 h with rfl | h
    · exact absurd hb (by decide)
    · exact hnat _ h

/-- A padded cell is read as one word, which ends in the column before the one reached. -/
theorem wordsFrom_cell (column : Nat) (v : Int) (rest : Text) :
    wordsFrom column [] (padLeft 3 (ofInt v) ++ rest) =
      wordsFrom (column + 3 + excess v) (ofInt v) rest := by
  have hlength : 3 - (ofInt v).length + (ofInt v).length = 3 + excess v := by
    unfold excess
    omega
  rw [padLeft, List.append_assoc, wordsFrom_spaces,
    wordsFrom_append (not_mem_ofInt (by decide) v), List.nil_append, Nat.add_assoc, hlength,
    Nat.add_assoc]

theorem closeWord_ofInt (column : Nat) (v : Int) :
    closeWord (column + 3 + excess v) (ofInt v) = [(ofInt v, column + 2 + excess v)] := by
  have hne : (ofInt v).isEmpty = false := by
    have := length_ofInt_pos v
    simpa [List.isEmpty_iff] using List.length_pos_iff.1 this
  have hcolumn : column + 3 + excess v - 1 = column + 2 + excess v := by omega
  rw [closeWord, hne, hcolumn]
  rfl

theorem cellLine_single (v : Int) : cellLine [v] = padLeft 3 (ofInt v) ++ [] := by
  simp [cellLine, join]

theorem cellLine_cons_cons (v w : Int) (vs : List Int) :
    cellLine (v :: w :: vs) = padLeft 3 (ofInt v) ++ ascii ' ' :: cellLine (w :: vs) := by
  simp [cellLine, join]
  rfl

theorem wordsFrom_cellLine (column : Nat) (vs : List Int) :
    wordsFrom column [] (cellLine vs) = (vs.map ofInt).zip (ends column vs) := by
  induction vs generalizing column with
  | nil => rfl
  | cons v vs ih =>
    cases vs with
    | nil =>
      rw [cellLine_single, wordsFrom_cell, wordsFrom, closeWord_ofInt]
      rfl
    | cons w vs =>
      have hnext : column + 3 + excess v + 1 = column + 4 + excess v := by omega
      rw [cellLine_cons_cons, wordsFrom_cell, wordsFrom, if_pos rfl, closeWord_ofInt, ih, hnext]
      rfl

/-- **The words of the line are the cells.** -/
theorem words_cellLine (vs : List Int) : words (cellLine vs) = (vs.map ofInt).zip (ends 0 vs) :=
  wordsFrom_cellLine 0 vs

theorem length_ends (column : Nat) (vs : List Int) : (ends column vs).length = vs.length := by
  induction vs generalizing column with
  | nil => rfl
  | cons v vs ih => simp [ends, ih]

theorem ends_eq (column : Nat) {vs : List Int} {p : Nat} (hp : p < vs.length) :
    (ends column vs)[p]? =
      some (column + (4 * p + 2) + overhang (vs.take (p + 1))) := by
  induction vs generalizing column p with
  | nil => exact absurd hp (Nat.not_lt_zero p)
  | cons v vs ih =>
    cases p with
    | zero => simp [ends, overhang]
    | succ p =>
      rw [ends, List.getElem?_cons_succ, ih _ (Nat.lt_of_succ_lt_succ hp)]
      simp only [List.take_succ_cons, overhang, Option.some.injEq]
      omega

/-- A cell fits in its columns if it is at most 999. -/
theorem excess_eq_zero_iff {v : Int} (h : 0 ≤ v) : excess v = 0 ↔ v ≤ 999 := by
  obtain ⟨n, rfl⟩ := Int.eq_ofNat_of_zero_le h
  have hlength : (Nat.toDigits 10 n).length ≤ 3 ↔ n < 10 ^ 3 :=
    Nat.length_toDigits_le_iff (by decide) (by decide)
  have hexcess : excess (n : Int) = (Nat.toDigits 10 n).length - 3 := by
    simp [excess, ofInt, ofNat]
  omega

theorem overhang_eq_zero_iff {vs : List Int} (h : ∀ v ∈ vs, 0 ≤ v) :
    overhang vs = 0 ↔ ∀ v ∈ vs, v ≤ 999 := by
  induction vs with
  | nil => simp [overhang]
  | cons v vs ih =>
    obtain ⟨hv, hvs⟩ := List.forall_mem_cons.1 h
    rw [overhang, Nat.add_eq_zero_iff, excess_eq_zero_iff hv, ih hvs, List.forall_mem_cons]

/-! ## What is drawn -/

theorem not_mem_cellLine {b : UInt8} (hb : isVisible b = false) (hspace : b ≠ ascii ' ')
    (vs : List Int) : b ∉ cellLine vs := by
  have hpad (v : Int) : b ∉ padLeft 3 (ofInt v) := by
    intro h
    rcases List.mem_append.1 h with h | h
    · exact hspace (List.eq_of_mem_replicate h)
    · exact not_mem_ofInt hb v h
  induction vs with
  | nil => exact List.not_mem_nil
  | cons v vs ih =>
    cases vs with
    | nil =>
      rw [cellLine_single, List.append_nil]
      exact hpad v
    | cons w vs =>
      rw [cellLine_cons_cons, List.mem_append, List.mem_cons]
      rintro (h | h | h)
      · exact hpad v h
      · exact hspace h
      · exact ih h

theorem marker_eq {pointer : Int} (h₁ : 0 ≤ pointer) (h₂ : pointer < Config.maxCells) :
    marker pointer = .ok (spaces (4 * pointer.toNat + 2) ++ "↑") := by
  have hcells : Config.maxCells = 35184372088832 := rfl
  have hlongest : longest = 281474976710656 := rfl
  have hwrap : Word.wrap (pointer * 4 + 2) = pointer * 4 + 2 :=
    Word.wrap_eq_self (by rw [Word.min_eq]; omega) (by rw [Word.max_eq]; omega)
  have hcolumn : (pointer * 4 + 2).toNat = 4 * pointer.toNat + 2 := by omega
  rw [marker, hwrap, if_neg (by omega), if_neg (by omega), hcolumn]

theorem view_eq {m : Machine} (hr : m.InRange) (hcells : m.memory.size ≤ Config.maxCells)
    {size : Int} (hp : m.pointer < min size m.memory.size) :
    m.view size = .ok (cellLine (m.memory.toList.take size.toNat) ++ "\n" ++
      (spaces (4 * m.pointer.toNat + 2) ++ "↑")) := by
  have hnonneg := hr.nonneg
  have hlt := hr.lt_size
  have htake : m.memory.toList.take (min size m.memory.size).toNat =
      m.memory.toList.take size.toNat := by
    have hmin : (min size m.memory.size).toNat = min size.toNat m.memory.toList.length := by
      rw [Array.length_toList]
      omega
    rw [hmin, ← List.take_eq_take_min]
  have hmark := marker_eq hnonneg (by omega)
  simp only [view]
  rw [if_neg (by omega), if_pos hp, hmark, htake]
  rfl

/-- The words of the first line of a view, and the column in which the pointed cell ends. -/
theorem words_of_view {m : Machine} (hr : m.InRange) {size : Int}
    (hp : m.pointer < min size m.memory.size) :
    (words (cellLine (m.memory.toList.take size.toNat))).map Prod.fst =
        (m.memory.toList.take size.toNat).map ofInt ∧
      (words (cellLine (m.memory.toList.take size.toNat)))[m.pointer.toNat]? =
        some (ofInt m.value, 4 * m.pointer.toNat + 2 +
          overhang (m.memory.toList.take (m.pointer.toNat + 1))) := by
  have hnonneg := hr.nonneg
  have hlt : m.pointer.toNat < m.memory.size := by omega
  have hshown : m.pointer.toNat < (m.memory.toList.take size.toNat).length := by
    rw [List.length_take, Array.length_toList]
    omega
  have hvalue : (m.memory.toList.take size.toNat)[m.pointer.toNat]? = some m.value := by
    rw [List.getElem?_take_of_lt (by omega), Array.getElem?_toList, value,
      Array.getD_eq_getD_getElem?, Array.getElem?_eq_getElem hlt]
    rfl
  have hends := ends_eq 0 hshown
  rw [List.take_take, Nat.min_eq_left (by omega), Nat.zero_add] at hends
  have hlength : ((m.memory.toList.take size.toNat).map ofInt).length =
      (ends 0 (m.memory.toList.take size.toNat)).length := by
    rw [List.length_map, length_ends]
  rw [words_cellLine]
  refine ⟨List.map_fst_zip (Nat.le_of_eq hlength), List.getElem?_zip_eq_some.2 ⟨?_, hends⟩⟩
  rw [List.getElem?_map, hvalue]
  rfl

/-- **The marker is under the pointed cell exactly if no cell up to it has more than three digits.**
The first line of a view holds the cells asked for, in order. The last digit of the pointed cell
stands to the right of the marker by the digits that cells up to it have beyond three, so the marker
is always right where no cell can be greater than 999. -/
theorem marker_column {config : Config} (hvalue : config.maxValue ≤ Word.max)
    (hcells : config.allocatable = true) (calls : List Call) {m : Machine}
    (hm : (new config).after calls = m) (size : Int) (hp : m.pointer < min size m.memory.size) :
    ∃ line column last,
      m.view size = .ok (line ++ "\n" ++ (spaces column ++ "↑")) ∧ ascii '\n' ∉ line ∧
      (words line).map Prod.fst = (m.memory.toList.take size.toNat).map ofInt ∧
      (words line)[m.pointer.toNat]? = some (ofInt m.value, last) ∧
      last = column + overhang (m.memory.toList.take (m.pointer.toNat + 1)) ∧
      (column = last ↔ ∀ v ∈ m.memory.toList.take (m.pointer.toNat + 1), v ≤ 999) ∧
      (config.withDefaults.maxValue ≤ 999 → column = last) := by
  have hsound : Sound config m := by
    rw [← hm]
    exact sound_after_new hvalue calls
  have hsize := hsound.size_le hcells
  have hbounds : ∀ v ∈ m.memory.toList.take (m.pointer.toNat + 1),
      0 ≤ v ∧ v ≤ m.config.maxValue := by
    intro v hv
    exact hsound.bounds v (Array.mem_toList_iff.1 (List.mem_of_mem_take hv))
  have hexact := overhang_eq_zero_iff fun v hv => (hbounds v hv).1
  obtain ⟨hwords, hlast⟩ := words_of_view hsound.inRange hp
  refine ⟨_, _, _, view_eq hsound.inRange hsize hp, not_mem_cellLine (by decide) (by decide) _,
    hwords, hlast, rfl, ?_, fun hmax => ?_⟩
  · rw [← hexact]
    omega
  · have hzero := hexact.2 fun v hv => by
      have := (hbounds v hv).2
      rw [hsound.config_eq] at this
      omega
    omega

/-- The pointer on the second of three cells, of which two are asked for and the first has three
digits. -/
theorem marker_column_wide :
    (⟨3, 255, 0, false⟩ : Config).maxValue ≤ Word.max ∧
    (⟨3, 255, 0, false⟩ : Config).allocatable = true ∧
    ∃ column line,
      ((new ⟨3, 255, 0, false⟩).after
        [.execute (List.replicate 100 (.simple .inc) ++ [.simple .right])]).view 2 =
          .ok (line ++ "\n" ++ (spaces column ++ "↑")) ∧
      (words line)[1]? = some (ofInt 0, column) := by
  have hvalue : (⟨3, 255, 0, false⟩ : Config).maxValue ≤ Word.max := by decide
  have hcells : (⟨3, 255, 0, false⟩ : Config).allocatable = true := by decide
  refine ⟨hvalue, hcells, ?_⟩
  generalize hm : (new ⟨3, 255, 0, false⟩).after
    [.execute (List.replicate 100 (.simple .inc) ++ [.simple .right])] = m
  have hpointer : m.pointer = 1 ∧ m.memory = #[100, 0, 0] := by
    rw [← hm]
    decide +kernel
  obtain ⟨line, column, last, hview, -, -, hlast, -, -, heq⟩ :=
    marker_column hvalue hcells _ hm 2 (by rw [hpointer.1, hpointer.2]; decide)
  refine ⟨column, line, hview, ?_⟩
  rw [heq (by decide)]
  simpa [value, hpointer] using hlast

/-- A cell of four digits: the marker is under its last digit but one. -/
theorem marker_beside_wide_cell :
    ((new ⟨1, 1000, 2000, false⟩).after
      [.execute (List.replicate 1000 (.simple .inc))]).view 1 =
        .ok ("1000" ++ "\n" ++ (spaces 2 ++ "↑")) ∧
    words "1000" = [(ofInt 1000, 3)] := by
  have hm : (new ⟨1, 1000, 2000, false⟩).after
      [.execute (List.replicate 1000 (.simple .inc))] =
        ⟨#[1000], 0, #[], 1000, ⟨1, 1000, 2000, false⟩⟩ := by
    decide +kernel
  rw [hm]
  exact ⟨rfl, rfl⟩

end Machine

end TapeAsm
