import TapeAsm.Proofs.Yaml.Reading
import TapeAsm.Report

/-!
# Reports read again

A report is read from its document entry by entry. The entries stand in a fixed order, so a reader
asks at each place for one key: the entry is there, or it has been left out and its field says
nothing (`readEntry_onlyIf`). No text of a report can be taken for an entry, because the reader of a
text stops in front of the entry behind it (`Yaml.readString_writeString`).

`read_yaml`: reading undoes writing, but for the line feeds that literal blocks lose
(`Report.kept`). So two reports have the same document exactly if they differ in nothing but such
line feeds (`yaml_eq_iff_kept`).
-/

set_option autoImplicit false

namespace TapeAsm

open Text Yaml

/-! ## Numbers and truth values -/

namespace Report

/-- The characters of a number in decimal. -/
def digits : Int → List Char
  | .ofNat n => Nat.toDigits 10 n
  | .negSucc n => '-' :: Nat.toDigits 10 (n + 1)

/-- The number that characters in decimal stand for. -/
def number : List Char → Int
  | [] => 0
  | c :: cs => if c = '-' then -Nat.ofDigitChars 10 cs 0 else Nat.ofDigitChars 10 (c :: cs) 0

theorem isDigit_of_mem {n : Nat} {c : Char} (h : c ∈ Nat.toDigits 10 n) :
    48 ≤ c.toNat ∧ c.toNat ≤ 57 := by
  have hd := Nat.isDigit_of_mem_toDigits (by decide) (by decide) h
  simpa [Char.isDigit, UInt32.le_iff_toNat_le] using hd

theorem ofInt_eq (n : Int) : ofInt n = ofChars (digits n) := by
  have hnat (n : Nat) : Text.ofNat n = ofChars (Nat.toDigits 10 n) :=
    map_ascii fun c hc => by have := isDigit_of_mem hc; omega
  cases n with
  | ofNat n => exact hnat n
  | negSucc n => exact congrArg (ascii '-' :: ·) (hnat (n + 1))

theorem number_digits (n : Int) : number (digits n) = n := by
  cases n with
  | ofNat n =>
    rw [digits]
    cases hd : Nat.toDigits 10 n with
    | nil => exact absurd hd Nat.toDigits_ne_nil
    | cons c cs =>
      have hc : c ≠ '-' := by
        rintro rfl
        exact absurd (isDigit_of_mem (hd ▸ List.mem_cons_self)) (by decide)
      rw [number, if_neg hc, ← hd, Nat.ofDigitChars_ten_toDigits]
      rfl
  | negSucc n =>
    rw [digits, number, if_pos rfl, Nat.ofDigitChars_ten_toDigits]
    rfl

theorem feed_not_mem_digits (n : Int) : '\n' ∉ digits n := by
  have hnat (n : Nat) : '\n' ∉ Nat.toDigits 10 n := fun h => absurd (isDigit_of_mem h) (by decide)
  cases n with
  | ofNat n => exact hnat n
  | negSucc n => simpa [digits] using hnat (n + 1)

/-- Reads a number to the end of its line. -/
def readInt (cs : List Char) : Int × List Char := (number (readLine cs).1, (readLine cs).2)

/-- Reads a truth value to the end of its line. -/
def readBool (cs : List Char) : Bool × List Char :=
  ((readLine cs).1 = "true".toList, (readLine cs).2)

theorem readInt_ofInt (n : Int) (t : Text) :
    readInt (ofInt n ++ ("\n" ++ t)).chars = (n, t.chars) := by
  have hfeed := chars_feed_append t
  rw [ofInt_eq, chars_ofChars_append, hfeed, readInt, readLine_append (feed_not_mem_digits n),
    number_digits]

theorem readBool_ofBool (b : Bool) (t : Text) :
    readBool (ofBool b ++ ("\n" ++ t)).chars = (b, t.chars) := by
  have hfeed := chars_feed_append t
  cases b with
  | true =>
    change readBool (ofString "true" ++ ("\n" ++ t)).chars = _
    rw [chars_ofString_append, hfeed, readBool, readLine_append (by decide)]
    rfl
  | false =>
    change readBool (ofString "false" ++ ("\n" ++ t)).chars = _
    rw [chars_ofString_append, hfeed, readBool, readLine_append (by decide)]
    rfl

/-! ## Entries -/

/-- The key of an entry with what separates it from the value. -/
def opening (key : String) : List Char := key.toList ++ [':', ' ']

theorem chars_entry (key : String) (t : Text) :
    ((key : Text) ++ (": " ++ t)).chars = opening key ++ t.chars := by
  rw [chars_ofString_append, chars_ofString_append, opening, List.append_assoc]
  rfl

theorem chars_intEntry (key : String) (n : Int) (t : Text) :
    (intEntry key n ++ t).chars = opening key ++ (ofInt n ++ ("\n" ++ t)).chars := by
  rw [← chars_entry]
  simp [intEntry]

theorem chars_boolEntry (key : String) (b : Bool) (t : Text) :
    (boolEntry key b ++ t).chars = opening key ++ (ofBool b ++ ("\n" ++ t)).chars := by
  rw [← chars_entry]
  simp [boolEntry]

theorem chars_stringEntry (key : String) (value t : Text) :
    (stringEntry key value ++ t).chars = opening key ++ (writeString value ++ t).chars := by
  rw [← chars_entry]
  simp [stringEntry]

/-- The characters do not begin with the entry of a key. -/
def Lacks (key : String) (cs : List Char) : Prop := (opening key).isPrefixOf cs = false

/-- Reads the entry with the given key, or takes its value for `absent` if another entry follows. -/
def readEntry {α : Type} (key : String) (read : List Char → α × List Char) (absent : α)
    (cs : List Char) : α × List Char :=
  if (opening key).isPrefixOf cs then read (cs.drop (opening key).length) else (absent, cs)

section
variable {α : Type} {read : List Char → α × List Char} {absent value : α} {key : String}

theorem readEntry_opening (cs : List Char) :
    readEntry key read absent (opening key ++ cs) = read cs := by
  rw [readEntry, if_pos (by simp), List.drop_left]

/-- **An entry that may be left out** is read, or its value is the one of an entry left out. -/
theorem readEntry_onlyIf {present : Bool} {t u : Text}
    (ht : readEntry key read absent (t ++ u).chars = (value, u.chars))
    (habsent : present = false → value = absent)
    (hu : Lacks key u.chars) :
    readEntry key read absent (onlyIf present t ++ u).chars = (value, u.chars) := by
  cases present with
  | true => exact ht
  | false =>
    unfold Lacks at hu
    change readEntry key read absent u.chars = _
    rw [readEntry, if_neg (by simp [hu]), habsent rfl]

end

theorem readEntry_int (key : String) (n : Int) (t : Text) :
    readEntry key readInt 0 (intEntry key n ++ t).chars = (n, t.chars) := by
  rw [chars_intEntry, readEntry_opening, readInt_ofInt]

theorem readEntry_bool (key : String) (b : Bool) (t : Text) :
    readEntry key readBool false (boolEntry key b ++ t).chars = (b, t.chars) := by
  rw [chars_boolEntry, readEntry_opening, readBool_ofBool]

theorem readEntry_string (key : String) (value : Text) {t : Text} (ht : EndsBlock t.chars) :
    readEntry key readString [] (stringEntry key value ++ t).chars = (kept value, t.chars) := by
  rw [chars_stringEntry, readEntry_opening, readString_writeString value ht]

/-! What holds of the characters from the key of an entry on and of the characters behind the entry
holds whether or not the entry is left out. -/

section
variable {P : List Char → Prop} {present : Bool} {key : String} {t : Text}

theorem onlyIf_append {u : Text} (ht : P (t ++ u).chars) (hu : P u.chars) :
    P (onlyIf present t ++ u).chars := by
  cases present with
  | true => exact ht
  | false => exact hu

theorem onlyIf_int {n : Int} (hkey : ∀ cs, P (opening key ++ cs)) (ht : P t.chars) :
    P (onlyIf present (intEntry key n) ++ t).chars :=
  onlyIf_append (chars_intEntry key n t ▸ hkey _) ht

theorem onlyIf_bool {b : Bool} (hkey : ∀ cs, P (opening key ++ cs)) (ht : P t.chars) :
    P (onlyIf present (boolEntry key b) ++ t).chars :=
  onlyIf_append (chars_boolEntry key b t ▸ hkey _) ht

theorem onlyIf_string {value : Text} (hkey : ∀ cs, P (opening key ++ cs)) (ht : P t.chars) :
    P (onlyIf present (stringEntry key value) ++ t).chars :=
  onlyIf_append (chars_stringEntry key value t ▸ hkey _) ht

end

/-! ## The configuration -/

/-- Reads the entries of a configuration. -/
def readSettings (cs : List Char) : Config × List Char :=
  let (cells, cs) := readEntry "  cells" readInt 0 cs
  let (maxValue, cs) := readEntry "  max_value" readInt 0 cs
  let (maxSteps, cs) := readEntry "  max_steps" readInt 0 cs
  let (debug, cs) := readEntry "  debug" readBool false cs
  (⟨cells, maxValue, maxSteps, debug⟩, cs)

/-- Reads the entry of a configuration. -/
def readConfig (cs : List Char) : Config × List Char :=
  if "config: \x7b\x7d\n".toList.isPrefixOf cs then (.zero, cs.drop 11)
  else readSettings (cs.drop 8)

/-- Behind a block there is no entry with an indented key. -/
theorem lacks_indented {key : String} {cs : List Char} (hkey : key.toList.head? = some ' ')
    (h : EndsBlock cs) : Lacks key cs := by
  unfold Lacks opening
  cases hk : key.toList with
  | nil =>
    rw [hk] at hkey
    cases hkey
  | cons k ks =>
    rw [hk] at hkey
    obtain rfl : k = ' ' := by simpa using hkey
    cases cs with
    | nil => rfl
    | cons c cs =>
      have hc : c ≠ ' ' := by
        rintro rfl
        exact absurd (h ' ' rfl) (by decide)
      simp [List.isPrefixOf, hc.symm]

theorem readSettings_configEntries (c : Config) {t : Text} (ht : EndsBlock t.chars) :
    readSettings (configEntries c ++ t).chars = (c, t.chars) := by
  have hlacks {key : String} (hkey : key.toList.head? = some ' ') : Lacks key t.chars :=
    lacks_indented hkey ht
  generalize h₃ : onlyIf c.debug (boolEntry "  debug" c.debug) ++ t = t₃
  generalize h₂ : onlyIf (c.maxSteps ≠ 0) (intEntry "  max_steps" c.maxSteps) ++ t₃ = t₂
  generalize h₁ : onlyIf (c.maxValue ≠ 0) (intEntry "  max_value" c.maxValue) ++ t₂ = t₁
  have hdebug : readEntry "  debug" readBool false t₃.chars = (c.debug, t.chars) := by
    rw [← h₃]
    exact readEntry_onlyIf (readEntry_bool _ _ _) id (hlacks rfl)
  have hmaxSteps : readEntry "  max_steps" readInt 0 t₂.chars = (c.maxSteps, t₃.chars) := by
    rw [← h₂]
    refine readEntry_onlyIf (readEntry_int _ _ _) (by simp) ?_
    rw [← h₃]
    exact onlyIf_bool (fun _ => rfl) (hlacks rfl)
  have hmaxValue : readEntry "  max_value" readInt 0 t₁.chars = (c.maxValue, t₂.chars) := by
    rw [← h₁]
    refine readEntry_onlyIf (readEntry_int _ _ _) (by simp) ?_
    rw [← h₂, ← h₃]
    exact onlyIf_int (fun _ => rfl) (onlyIf_bool (fun _ => rfl) (hlacks rfl))
  have hcells : readEntry "  cells" readInt 0 (configEntries c ++ t).chars =
      (c.cells, t₁.chars) := by
    rw [configEntries, List.append_assoc, List.append_assoc, List.append_assoc, h₃, h₂, h₁]
    refine readEntry_onlyIf (readEntry_int _ _ _) (by simp) ?_
    rw [← h₁, ← h₂, ← h₃]
    exact onlyIf_int (fun _ => rfl) (onlyIf_int (fun _ => rfl)
      (onlyIf_bool (fun _ => rfl) (hlacks rfl)))
  simp only [readSettings, hcells, hmaxValue, hmaxSteps, hdebug]

theorem readConfig_configEntry (c : Config) {t : Text} (ht : EndsBlock t.chars) :
    readConfig (configEntry c ++ t).chars = (c, t.chars) := by
  unfold configEntry
  split
  · rename_i hc
    rw [chars_ofString_append, hc, readConfig, if_pos (by simp)]
    rfl
  · have hdrop (cs : List Char) : ("config:\n".toList ++ cs).drop 8 = cs := rfl
    rw [List.append_assoc, chars_ofString_append, readConfig, if_neg (by simp), hdrop,
      readSettings_configEntries c ht]

/-! ## Reports -/

/-- The report that a document tells. -/
def read (t : Text) : Report :=
  let (tokens, cs) := readEntry "tokens" readInt 0 t.chars
  let (valid, cs) := readEntry "valid" readBool false cs
  let (instructions, cs) := readEntry "instructions" readInt 0 cs
  let (depth, cs) := readEntry "depth" readInt 0 cs
  let (steps, cs) := readEntry "steps" readInt 0 cs
  let (pointer, cs) := readEntry "pointer" readInt 0 cs
  let (output, cs) := readEntry "output" readString [] cs
  let (config, cs) := readConfig cs
  let (error, cs) := readEntry "error" readString [] cs
  let (errorKind, cs) := readEntry "error_kind" readString [] cs
  let (program, _) := readEntry "program" readString [] cs
  ⟨tokens, valid, instructions, depth, steps, pointer, output, config, error, errorKind, program⟩

/-- What is left of a report that is written and read again. -/
def kept (r : Report) : Report :=
  { r with
    output := Yaml.kept r.output
    error := Yaml.kept r.error
    errorKind := Yaml.kept r.errorKind
    program := Yaml.kept r.program }

theorem kept_of_isEmpty {t : Text} (h : (!t.isEmpty) = false) : Yaml.kept t = [] := by
  obtain rfl : t = [] := by simpa using h
  rfl

theorem endsBlock_opening {key : String} {c : Char} (hkey : (opening key).head? = some c)
    (hc : isSpaceOrBreak c = false) (cs : List Char) : EndsBlock (opening key ++ cs) := by
  intro d hd
  rw [List.head?_append, hkey] at hd
  cases hd
  exact hc

theorem endsBlock_configEntry (c : Config) (t : Text) : EndsBlock (configEntry c ++ t).chars := by
  unfold configEntry
  split
  · rw [chars_ofString_append]
    rintro _ ⟨⟩
    rfl
  · rw [List.append_assoc, chars_ofString_append]
    rintro _ ⟨⟩
    rfl

/-- **Reading undoes writing**, but for the line feeds that are lost. -/
theorem read_yaml (r : Report) : read r.yaml = r.kept := by
  generalize h₃ : onlyIf (!r.program.isEmpty) (stringEntry "program" r.program) ++ [] = t₃
  generalize h₂ : onlyIf (!r.errorKind.isEmpty) (stringEntry "error_kind" r.errorKind) ++ t₃ = t₂
  generalize h₁ : onlyIf (!r.error.isEmpty) (stringEntry "error" r.error) ++ t₂ = t₁
  have hend : EndsBlock [] := by
    intro c hc
    cases hc
  have hend₃ : EndsBlock t₃.chars := h₃ ▸ onlyIf_string (endsBlock_opening rfl rfl) hend
  have hend₂ : EndsBlock t₂.chars := h₂ ▸ onlyIf_string (endsBlock_opening rfl rfl) hend₃
  have hend₁ : EndsBlock t₁.chars := h₁ ▸ onlyIf_string (endsBlock_opening rfl rfl) hend₂
  have hprogram : readEntry "program" readString [] t₃.chars = (Yaml.kept r.program, []) := by
    rw [← h₃]
    exact readEntry_onlyIf (readEntry_string _ _ hend) kept_of_isEmpty rfl
  have herrorKind : readEntry "error_kind" readString [] t₂.chars =
      (Yaml.kept r.errorKind, t₃.chars) := by
    rw [← h₂]
    refine readEntry_onlyIf (readEntry_string _ _ hend₃) kept_of_isEmpty ?_
    rw [← h₃]
    exact onlyIf_string (fun _ => rfl) rfl
  have herror : readEntry "error" readString [] t₁.chars = (Yaml.kept r.error, t₂.chars) := by
    rw [← h₁]
    refine readEntry_onlyIf (readEntry_string _ _ hend₂) kept_of_isEmpty ?_
    rw [← h₂, ← h₃]
    exact onlyIf_string (fun _ => rfl) (onlyIf_string (fun _ => rfl) rfl)
  have hall : r.yaml = intEntry "tokens" r.tokens ++ (boolEntry "valid" r.valid ++
      (intEntry "instructions" r.instructions ++ (intEntry "depth" r.depth ++
      (intEntry "steps" r.steps ++ (intEntry "pointer" r.pointer ++
      (stringEntry "output" r.output ++ (configEntry r.config ++ t₁))))))) := by
    rw [← h₁, ← h₂, ← h₃]
    simp [yaml]
  unfold read
  rw [hall]
  simp only [readEntry_int, readEntry_bool,
    readEntry_string _ _ (endsBlock_configEntry r.config t₁), readConfig_configEntry _ hend₁, herror, herrorKind, hprogram]
  rfl

theorem yaml_kept (r : Report) : r.kept.yaml = r.yaml := by
  have hentry (key t : Text) : stringEntry key (Yaml.kept t) = stringEntry key t := by
    rw [stringEntry, writeString_kept, stringEntry]
  unfold yaml kept
  simp only [hentry, isEmpty_kept]

theorem kept_eq_self_iff (r : Report) :
    r.kept = r ↔ ∀ t ∈ [r.output, r.error, r.errorKind, r.program], losesBreak t = false := by
  cases r
  simp [kept, Yaml.kept_eq_self_iff]

/-- **The document of a report tells everything but lost line feeds.** It is read back as what is
kept of the report, and two reports have the same document exactly if the same is kept of them. A
report is kept as it is unless one of its texts begins with a line feed in front of a line that
begins with a space and ends with a line feed. -/
theorem yaml_eq_iff_kept (r r' : Report) :
    read r.yaml = r.kept ∧ (r.yaml = r'.yaml ↔ r.kept = r'.kept) ∧
      (r.kept = r ↔ ∀ t ∈ [r.output, r.error, r.errorKind, r.program], losesBreak t = false) := by
  refine ⟨read_yaml r, ⟨fun h => ?_, fun h => ?_⟩, kept_eq_self_iff r⟩
  · rw [← read_yaml r, h, read_yaml r']
  · rw [← yaml_kept r, h, yaml_kept r']

/-- Two reports whose outputs differ by a line feed have one document. -/
theorem yaml_leading_break :
    ∃ r r' : Report, r.output = "\n a\nb" ∧ r'.output = " a\nb" ∧ r ≠ r' ∧ r.yaml = r'.yaml := by
  have hwrite : writeString "\n a\nb" = writeString " a\nb" := by decide +kernel
  refine ⟨⟨0, false, 0, 0, 0, 0, "\n a\nb", .zero, [], [], []⟩,
    ⟨0, false, 0, 0, 0, 0, " a\nb", .zero, [], [], []⟩, rfl, rfl, fun h => ?_, ?_⟩
  · exact absurd (congrArg output h) (by decide)
  · simp only [yaml, stringEntry, hwrite]

end Report

end TapeAsm
