import Mathlib.Data.List.Destutter
import TapeAsm.Proofs.Settings.Loading

/-!
# Files that disagree on the step limit

A file sets a step limit if it says which word it is (`File.stepLimit?`). The limits that files set
are compared each with the one before it only: `dropRepeats` keeps those that change.

* `one_lt_length_dropRepeats_iff`: more than one is kept exactly if two of them differ, wherever
  these stand, since what is kept has the same members (`mem_dropRepeats`) and no two neighbours
  alike (`isChain_dropRepeats`). First and last stay what they are (`head?_dropRepeats`,
  `getLast?_dropRepeats`).
* `stepLimit_of_known`, `stepLimit_of_unknown`: the two outcomes for files that are loaded. A value
  that is no machine word ends the reading of the files before anything is compared.
* `conflict_reported` puts this together for all lists of valid files, in every language in which
  the schema of the settings compiles.
-/

set_option autoImplicit false

namespace TapeAsm.Settings

/-! ## Changes in a list -/

section
variable {α : Type} [DecidableEq α] {l : List α}

theorem dropRepeats_eq_destutter (l : List α) : dropRepeats l = l.destutter (· ≠ ·) := by
  fun_induction dropRepeats l with
  | case1 => rfl
  | case2 a => rfl
  | case3 b rest ih => rw [ih, List.destutter_cons_cons, if_neg (not_not.2 rfl)]; rfl
  | case4 a b rest hne ih => rw [ih, List.destutter_cons_cons, if_pos hne]; rfl

theorem dropRepeats_sublist (l : List α) : (dropRepeats l).Sublist l := by
  rw [dropRepeats_eq_destutter]
  exact List.destutter_sublist _ l

theorem isChain_dropRepeats (l : List α) : (dropRepeats l).IsChain (· ≠ ·) := by
  rw [dropRepeats_eq_destutter]
  exact List.isChain_destutter _ l

theorem mem_dropRepeats {a : α} : a ∈ dropRepeats l ↔ a ∈ l := by
  fun_induction dropRepeats l with
  | case1 => rfl
  | case2 b => rfl
  | case3 b rest ih => simp [ih]
  | case4 b c rest hne ih => simp [ih]

theorem head?_dropRepeats (l : List α) : (dropRepeats l).head? = l.head? := by
  fun_induction dropRepeats l with
  | case1 => rfl
  | case2 a => rfl
  | case3 b rest ih => exact ih
  | case4 a b rest hne ih => rfl

theorem getLast?_dropRepeats (l : List α) : (dropRepeats l).getLast? = l.getLast? := by
  fun_induction dropRepeats l with
  | case1 => rfl
  | case2 a => rfl
  | case3 b rest ih => rw [ih, List.getLast?_cons_cons]
  | case4 a b rest hne ih => rw [List.getLast?_cons, ih, List.getLast?_cons (l := b :: rest)]

/-- **A list changes exactly if two of its items differ**, neighbours or not. -/
theorem one_lt_length_dropRepeats_iff :
    1 < (dropRepeats l).length ↔ ∃ a ∈ l, ∃ b ∈ l, a ≠ b := by
  constructor
  · intro h
    rcases hd : dropRepeats l with _ | ⟨a, _ | ⟨b, rest⟩⟩
    · simp [hd] at h
    · simp [hd] at h
    · have hchain := isChain_dropRepeats l
      rw [hd, List.isChain_cons_cons] at hchain
      have ha : a ∈ dropRepeats l := by simp [hd]
      have hb : b ∈ dropRepeats l := by simp [hd]
      exact ⟨a, mem_dropRepeats.1 ha, b, mem_dropRepeats.1 hb, hchain.1⟩
  · rintro ⟨a, ha, b, hb, hne⟩
    rw [← mem_dropRepeats] at ha hb
    rcases hd : dropRepeats l with _ | ⟨c, _ | ⟨d, rest⟩⟩
    · simp [hd] at ha
    · -- both would be the only item that is kept
      rw [hd, List.mem_singleton] at ha hb
      exact absurd (ha.trans hb.symm) hne
    · simp

end

/-! ## What the files set -/

section
variable (L : Language)

/-- The step limit that a file sets. -/
def File.stepLimit? (file : File) : Option Int :=
  file.document? L schema >>= (L.lookup? · "max_steps") >>= L.int?

/-- Two of the files set step limits that differ. -/
def Conflicting (files : List File) : Prop :=
  ∃ f ∈ files, ∃ g ∈ files, ∃ m n, f.stepLimit? L = some m ∧ g.stepLimit? L = some n ∧ m ≠ n

/-- The record that warns of step limits. -/
def conflictRecord (limits : List Int) : Log.Record :=
  ⟨.warn, "max_steps differs between config files, the first one is used",
    [⟨"values", .list (limits.map Text.ofInt)⟩]⟩

/-- **The changes of the step limit** from the first file that sets it to the last. -/
structure Changes (files : List File) (limits : List Int) : Prop where
  first : limits.head? = files.findSome? (·.stepLimit? L)
  last : limits.getLast? = files.reverse.findSome? (·.stepLimit? L)
  differ : limits.IsChain (· ≠ ·)
  inOrder : limits.Sublist (files.filterMap (·.stepLimit? L))

end

variable {L : Language}

theorem conflicting_iff {files : List File} :
    Conflicting L files ↔
      ∃ m ∈ files.filterMap (·.stepLimit? L), ∃ n ∈ files.filterMap (·.stepLimit? L), m ≠ n := by
  simp only [List.mem_filterMap]
  constructor
  · rintro ⟨f, hf, g, hg, m, n, hm, hn, hne⟩
    exact ⟨m, ⟨f, hf, hm⟩, n, ⟨g, hg, hn⟩, hne⟩
  · rintro ⟨m, ⟨f, hf, hm⟩, n, ⟨g, hg, hn⟩, hne⟩
    exact ⟨f, hf, g, hg, m, n, hm, hn, hne⟩

theorem changes_dropRepeats (files : List File) :
    Changes L files (dropRepeats (files.filterMap (·.stepLimit? L))) where
  first := by rw [head?_dropRepeats, List.head?_filterMap]
  last := by rw [getLast?_dropRepeats, List.getLast?_filterMap]
  differ := isChain_dropRepeats _
  inOrder := dropRepeats_sublist _

/-! ## What is logged -/

theorem stepLimitRecords_of_differ {limits : List Int} (h : ∃ m ∈ limits, ∃ n ∈ limits, m ≠ n) :
    stepLimitRecords limits = [conflictRecord (dropRepeats limits)] :=
  if_pos (one_lt_length_dropRepeats_iff.2 h)

theorem stepLimitRecords_of_same {limits : List Int} (h : ¬∃ m ∈ limits, ∃ n ∈ limits, m ≠ n) :
    stepLimitRecords limits = [] :=
  if_neg (mt one_lt_length_dropRepeats_iff.1 h)

section
variable {l : Loader L} {values : List L.Value} (hl : l.values "max_steps" = .ok values)
include hl

theorem stepLimit_of_known (h : ∀ v ∈ values, ∃ n, L.int? v = some n) (flag default : Int) :
    stepLimit flag l default = (stepLimitRecords (values.filterMap L.int?),
      .ok (firstNonzero 0 [flag, (values.findSome? L.int?).getD 0, default])) := by
  rw [stepLimit, all_eq hl h]
  dsimp only
  rw [number, first_eq hl h]
  rfl

theorem stepLimit_of_unknown (h : ∃ v ∈ values, L.int? v = none) (flag default : Int) :
    stepLimit flag l default = ([], .error .decode) := by
  have hstop : (Loader.decodeAll L.int? values).2 = some .decode := by
    clear hl
    induction values with
    | nil => simp at h
    | cons v values ih =>
      rw [Loader.decodeAll]
      cases hv : L.int? v with
      | none => rfl
      | some n => exact ih (by simpa [hv] using h)
  rw [stepLimit, Loader.all, hl]
  dsimp only
  rcases hd : Loader.decodeAll L.int? values with ⟨limits, error⟩
  rw [hd] at hstop
  cases hstop
  rfl

end

variable {files : List File}

theorem filterMap_int?_found :
    (found L schema files "max_steps").filterMap L.int? = files.filterMap (·.stepLimit? L) := by
  rw [found, List.filterMap_filterMap]
  rfl

theorem values_of_valid (hschema : schemaCompiles L schema = true)
    (hvalid : ∀ file ∈ files, (file.document? L schema).isSome = true) :
    (Loader.load schema files L).values "max_steps" = .ok (found L schema files "max_steps") := by
  rw [load_eq_ok hschema hvalid]
  exact congrArg Except.ok (values_eq_found "max_steps")

/-- **Files that set machine words are compared, and the first one counts.** A record is logged
exactly if two of the files differ, and it shows the changes from the first to the last. A file that
says anything else of the limit is not passed over: there is no limit then, and nothing is
logged. -/
theorem conflict_reported (flag default : Int) (hschema : schemaCompiles L schema = true)
    (hvalid : ∀ file ∈ files, (file.document? L schema).isSome = true) :
    ((∀ v ∈ found L schema files "max_steps", ∃ n, L.int? v = some n) →
      ((stepLimit flag (Loader.load schema files L) default).1 ≠ [] ↔ Conflicting L files) ∧
      (Conflicting L files → ∃ limits, Changes L files limits ∧
        (stepLimit flag (Loader.load schema files L) default).1 = [conflictRecord limits]) ∧
      (stepLimit flag (Loader.load schema files L) default).2 =
        .ok (firstNonzero 0 [flag, (files.findSome? (·.stepLimit? L)).getD 0, default])) ∧
    ((∃ v ∈ found L schema files "max_steps", L.int? v = none) →
      stepLimit flag (Loader.load schema files L) default = ([], .error .decode)) := by
  have hvalues := values_of_valid hschema hvalid
  refine ⟨fun hknown => ?_, fun hunknown => stepLimit_of_unknown hvalues hunknown flag default⟩
  rw [stepLimit_of_known hvalues hknown, ← List.head?_filterMap, filterMap_int?_found,
    List.head?_filterMap, conflicting_iff]
  refine ⟨⟨fun hlogged => ?_, fun hdiffer => ?_⟩, fun hdiffer => ?_, rfl⟩
  · by_contra hsame
    exact hlogged (stepLimitRecords_of_same hsame)
  · simp [stepLimitRecords_of_differ hdiffer]
  · exact ⟨_, changes_dropRepeats files, stepLimitRecords_of_differ hdiffer⟩

/-- Five files: the limit changes and changes back, one file repeats it and one sets none. -/
def changingFiles : List File :=
  [⟨"a.cue", some "max_steps: 10\n"⟩, ⟨"b.cue", some "cells: 5\n"⟩,
    ⟨"c.cue", some "max_steps: 20\n"⟩, ⟨"d.cue", some "max_steps: 20\ndebug: true\n"⟩,
    ⟨"e.cue", some "max_steps: 10\n"⟩]

theorem conflict_reported_changing :
    schemaCompiles Cue.language schema = true ∧
    (∀ file ∈ changingFiles, (file.document? Cue.language schema).isSome = true) ∧
    (∀ v ∈ found Cue.language schema changingFiles "max_steps", ∃ n, v.int? = some n) ∧
    Conflicting Cue.language changingFiles ∧
    (∃ limits, Changes Cue.language changingFiles limits ∧
      (stepLimit 0 (Loader.load schema changingFiles) 30000).1 = [conflictRecord limits]) ∧
    (stepLimit 0 (Loader.load schema changingFiles) 30000).2 = .ok 10 := by
  obtain ⟨hschema, hvalid, hints, hlimits⟩ : schemaCompiles Cue.language schema = true ∧
      (∀ file ∈ changingFiles, (file.document? Cue.language schema).isSome = true) ∧
      (∀ v ∈ found Cue.language schema changingFiles "max_steps", v.int?.isSome = true) ∧
      changingFiles.map (·.stepLimit? Cue.language) =
        [some 10, none, some 20, some 20, some 10] := by
    decide +kernel
  have hknown : ∀ v ∈ found Cue.language schema changingFiles "max_steps", ∃ n, v.int? = some n :=
    fun v hv => Option.isSome_iff_exists.1 (hints v hv)
  have hconflict : Conflicting Cue.language changingFiles := by
    rw [conflicting_iff, ← Function.id_comp (File.stepLimit? Cue.language), ← List.filterMap_map,
      hlimits]
    decide
  have hfirst : changingFiles.findSome? (·.stepLimit? Cue.language) = some 10 := by
    rw [← Function.id_comp (File.stepLimit? Cue.language), ← List.findSome?_map, hlimits]
    rfl
  obtain ⟨-, hrecord, hlimit⟩ := (conflict_reported 0 30000 hschema hvalid).1 hknown
  rw [hfirst] at hlimit
  exact ⟨hschema, hvalid, hknown, hconflict, hrecord hconflict, hlimit⟩

/-- Two files that set different limits, and a valid one in between that only says that there is
one. -/
def undecidedFiles : List File :=
  [⟨"a.cue", some "max_steps: 10\n"⟩, ⟨"b.cue", some "max_steps: int\n"⟩,
    ⟨"c.cue", some "max_steps: 20\n"⟩]

/-- The limits differ, and nothing warns of it. -/
theorem conflict_unreported :
    (∀ file ∈ undecidedFiles, (file.document? Cue.language schema).isSome = true) ∧
    Conflicting Cue.language undecidedFiles ∧
    stepLimit 0 (Loader.load schema undecidedFiles) 0 = ([], .error .decode) := by
  obtain ⟨hvalid, hlimits, hanswer⟩ :
      (∀ file ∈ undecidedFiles, (file.document? Cue.language schema).isSome = true) ∧
      undecidedFiles.map (·.stepLimit? Cue.language) = [some 10, none, some 20] ∧
      stepLimit 0 (Loader.load schema undecidedFiles) 0 = ([], .error .decode) := by
    decide +kernel
  refine ⟨hvalid, ?_, hanswer⟩
  rw [conflicting_iff, ← Function.id_comp (File.stepLimit? Cue.language), ← List.filterMap_map,
    hlimits]
  decide

end TapeAsm.Settings
