import TapeAsm.Proofs.Settings.Effective

/-!
# Files loaded together

Files are loaded all or none. `File.document?` says of one file what it holds if it is read,
compiles and satisfies the schema, without regard to the others; `load_eq_ok` and
`exists_load_eq_error` say what loading a list of files comes to. If it fails, every question fails
with the same error (`Loader.Fails`). If it succeeds, all questions about a path are answered from
one list, that of the values of the files that set it (`Loader.Answers`). `load_consistent` puts
both together. None of it depends on the language that the files are written in.
-/

set_option autoImplicit false

namespace TapeAsm.Settings

section
variable (L : Language)

/-! ## What a file holds -/

/-- The schema whose declarations a source lists, and which admits no other fields. -/
def schemaOf? (source : Text) : Option L.Schema := L.schema? ("close(\x7b" ++ source ++ "\x7d)")

/-- Does the source of a schema compile? An empty one is no schema. -/
def schemaCompiles (source : Text) : Bool := source.isEmpty || (schemaOf? L source).isSome

/-- Does a document satisfy the schema with a source, if there is one? -/
def validates (source : Text) (document : L.Document) : Bool :=
  source.isEmpty || (schemaOf? L source).any (L.accepts · document)

/-- **What a file holds** if it can be read, compiles and is valid. -/
def File.document? (source : Text) (file : File) : Option L.Document := do
  let content ← file.content
  let document ← L.document? content
  if validates L source document then some document else none

/-- The file as it is loaded. -/
def File.root? (source : Text) (file : File) : Option (Root L) :=
  (file.document? L source).map fun document => ⟨file.path, document⟩

/-- The values at a path, of the files that set it, in the order of the files. -/
def found (source : Text) (files : List File) (path : Text) : List L.Value :=
  files.filterMap fun file => file.document? L source >>= (L.lookup? · path)

end

variable {L : Language}

theorem File.root?_eq_some {source : Text} {file : File} {document : L.Document}
    (h : file.document? L source = some document) :
    file.root? L source = some ⟨file.path, document⟩ := by
  rw [root?, h]
  rfl

/-! ## Loading -/

section
variable {source : Text} {schema : Option L.Schema}

theorem loadSchema_eq_ok (h : schemaCompiles L source = true) :
    ∃ schema, Loader.loadSchema L source = .ok schema := by
  rw [schemaCompiles, Bool.or_eq_true] at h
  unfold Loader.loadSchema
  by_cases hempty : source.isEmpty = true
  · exact ⟨none, if_pos hempty⟩
  · obtain ⟨schema, hschema⟩ := Option.isSome_iff_exists.1 (h.resolve_left hempty)
    rw [schemaOf?] at hschema
    exact ⟨some schema, by rw [if_neg hempty, hschema]⟩

theorem loadSchema_eq_error (h : schemaCompiles L source = false) :
    Loader.loadSchema L source = .error .compileSchema := by
  rw [schemaCompiles, Bool.or_eq_false_iff, Option.isSome_eq_false_iff,
    Option.isNone_iff_eq_none] at h
  obtain ⟨hempty, hread⟩ := h
  rw [schemaOf?] at hread
  rw [Loader.loadSchema, hread]
  simp [hempty]

variable (hs : Loader.loadSchema L source = .ok schema)
include hs

theorem all_accepts_eq (document : L.Document) :
    schema.all (L.accepts · document) = validates L source document := by
  unfold validates schemaOf?
  rw [Loader.loadSchema] at hs
  by_cases hempty : source.isEmpty = true
  · rw [if_pos hempty] at hs
    cases hs
    simp [hempty]
  · rw [if_neg hempty] at hs
    cases hread : L.schema? ("close(\x7b" ++ source ++ "\x7d)") with
    | none => rw [hread] at hs; cases hs
    | some s =>
      rw [hread] at hs
      cases hs
      simp [hempty]

/-- A file is loaded exactly if it holds something. -/
theorem loadFile_cases (file : File) :
    (∃ document, file.document? L source = some document ∧
      Loader.loadFile L schema file = .ok ⟨file.path, document⟩) ∨
    (file.document? L source = none ∧ ∃ e, Loader.loadFile L schema file = .error e) := by
  unfold File.document? Loader.loadFile
  cases file.content with
  | none => exact .inr ⟨rfl, _, rfl⟩
  | some content =>
    cases hread : L.document? content with
    | none => exact .inr ⟨by simp [hread], by simp [hread]⟩
    | some document =>
      have haccepts := all_accepts_eq hs document
      cases hv : validates L source document with
      | true => exact .inl ⟨document, by simp [hread, hv], by simp [hread, haccepts, hv]⟩
      | false => exact .inr ⟨by simp [hread, hv], by simp [hread, haccepts, hv]⟩

theorem mapM_loadFile_eq_ok {files : List File}
    (h : ∀ file ∈ files, (file.document? L source).isSome = true) :
    files.mapM (Loader.loadFile L schema) = .ok (files.filterMap (·.root? L source)) := by
  induction files with
  | nil => rfl
  | cons file files ih =>
    obtain ⟨hfile, hfiles⟩ := List.forall_mem_cons.1 h
    rcases loadFile_cases hs file with ⟨document, hdocument, hload⟩ | ⟨hnone, -⟩
    · rw [List.mapM_cons, hload, ih hfiles, List.filterMap_cons_some (File.root?_eq_some hdocument)]
      rfl
    · simp [hnone] at hfile

theorem exists_mapM_loadFile_eq_error {files : List File}
    (h : ∃ file ∈ files, file.document? L source = none) :
    ∃ e, files.mapM (Loader.loadFile L schema) = .error e := by
  induction files with
  | nil =>
    obtain ⟨file, hfile, -⟩ := h
    cases hfile
  | cons file files ih =>
    rw [List.mapM_cons]
    rcases loadFile_cases hs file with ⟨document, hdocument, hload⟩ | ⟨-, e, hload⟩
    · -- this file is loaded for nothing, since a later one fails
      have hlater : ∃ file ∈ files, file.document? L source = none := by simpa [hdocument] using h
      obtain ⟨e, he⟩ := ih hlater
      exact ⟨e, by rw [hload, he]; rfl⟩
    · exact ⟨e, by rw [hload]; rfl⟩

end

variable {source : Text} {files : List File}

/-- **All files are loaded**, in order, if each of them holds something. -/
theorem load_eq_ok (hs : schemaCompiles L source = true)
    (h : ∀ file ∈ files, (file.document? L source).isSome = true) :
    Loader.load source files L = .ok (files.filterMap (·.root? L source)) := by
  obtain ⟨schema, hschema⟩ := loadSchema_eq_ok hs
  rw [Loader.load, hschema]
  exact mapM_loadFile_eq_ok hschema h

/-- **Nothing is loaded** if the schema does not compile or one file holds nothing. -/
theorem exists_load_eq_error
    (h : schemaCompiles L source = false ∨ ∃ file ∈ files, file.document? L source = none) :
    ∃ e, Loader.load source files L = .error e := by
  cases hs : schemaCompiles L source with
  | false => exact ⟨_, by rw [Loader.load, loadSchema_eq_error hs]; rfl⟩
  | true =>
    obtain ⟨schema, hschema⟩ := loadSchema_eq_ok hs
    have hfile := h.resolve_left (by simp [hs])
    rw [Loader.load, hschema]
    exact exists_mapM_loadFile_eq_error hschema hfile

theorem paths_eq (h : ∀ file ∈ files, (file.document? L source).isSome = true) :
    (files.filterMap (·.root? L source)).map (·.path) = files.map (·.path) := by
  induction files with
  | nil => rfl
  | cons file files ih =>
    obtain ⟨hfile, hfiles⟩ := List.forall_mem_cons.1 h
    obtain ⟨document, hdocument⟩ := Option.isSome_iff_exists.1 hfile
    rw [List.filterMap_cons_some (File.root?_eq_some hdocument), List.map_cons, List.map_cons,
      ih hfiles]

theorem values_eq_found (path : Text) :
    (files.filterMap (·.root? L source)).filterMap (L.lookup? ·.document path) =
      found L source files path := by
  rw [List.filterMap_filterMap]
  unfold found
  congr 1
  funext file
  cases hdocument : file.document? L source <;> simp [File.root?, hdocument]

/-! ## Questions -/

/-- **Every question fails**, with the same error: nothing is found, and a target stays as it is. -/
structure Loader.Fails (l : Loader L) (e : LoadError) : Prop where
  paths : l.paths = .error e
  values : ∀ path, l.values path = .error e
  assign : ∀ {α : Type} (decode : L.Value → Option α) (path : Text) (target : α),
    l.assign decode path target = (target, some (.load e))
  first : ∀ {α : Type} (decode : L.Value → Option α) (zero : α) (path : Text),
    l.first decode zero path = .error (.load e)
  all : ∀ {α : Type} (decode : L.Value → Option α) (path : Text) (limit : Option Nat),
    l.all decode path limit = ([], some (.load e))

/-- **The questions about a path are answered from one list**: all of it or as much as is asked for,
or its head. Without a head the target stays as it is, and the answer is zero. -/
structure Loader.Answers {α : Type} (l : Loader L) (decode : L.Value → Option α) (path : Text)
    (answers : List α) : Prop where
  all : l.all decode path none = (answers, none)
  limited : ∀ limit, l.all decode path (some limit) = (answers.take limit, none)
  assign : ∀ target, l.assign decode path target =
    (answers.head?.getD target, if answers.isEmpty then some .notFound else none)
  first : ∀ zero, l.first decode zero path = .ok (answers.head?.getD zero)

theorem fails_error (e : LoadError) : Loader.Fails (.error e : Loader L) e :=
  ⟨rfl, fun _ => rfl, fun _ _ _ => rfl, fun _ _ _ => rfl, fun _ _ _ => rfl⟩

section
variable {α : Type} {decode : L.Value → Option α} {values : List L.Value}
  (hd : ∀ v ∈ values, ∃ a, decode v = some a)
include hd

theorem take_filterMap (n : Nat) :
    (values.take n).filterMap decode = (values.filterMap decode).take n := by
  induction values generalizing n with
  | nil => simp
  | cons v values ih =>
    obtain ⟨⟨a, ha⟩, hrest⟩ := List.forall_mem_cons.1 hd
    cases n with
    | zero => rfl
    | succ n => simp [ha, ih hrest]

theorem answers_of_values {l : Loader L} {path : Text} (hl : l.values path = .ok values) :
    l.Answers decode path (values.filterMap decode) := by
  refine ⟨all_eq hl hd, fun limit => ?_, fun target => ?_, fun zero => ?_⟩
  · have htake : ∀ v ∈ values.take limit, ∃ a, decode v = some a := fun v hv =>
      hd v (List.mem_of_mem_take hv)
    rw [Loader.all, hl, ← take_filterMap hd]
    exact decodeAll_eq htake
  · rw [Loader.assign, hl]
    cases values with
    | nil => rfl
    | cons v values =>
      obtain ⟨a, ha⟩ := hd v List.mem_cons_self
      simp [ha]
  · rw [first_eq hl hd zero, List.head?_filterMap]

end

/-- **Loading is all or nothing, and the questions agree**, in every language. If the schema does
not compile or a file cannot be read, does not compile or is not valid, every question about every
path fails. Otherwise the paths are those of the files, and the values at a path are those of the
files that set it, in order; if they can be decoded, all questions about them are answered from the
decoded values. -/
theorem load_consistent (L : Language) (source : Text) (files : List File) :
    (schemaCompiles L source = false ∨ (∃ file ∈ files, file.document? L source = none) →
      ∃ e, (Loader.load source files L).Fails e) ∧
    (schemaCompiles L source = true → (∀ file ∈ files, (file.document? L source).isSome = true) →
      (Loader.load source files L).paths = .ok (files.map (·.path)) ∧
      ∀ path, (Loader.load source files L).values path = .ok (found L source files path) ∧
        ∀ {α : Type} (decode : L.Value → Option α),
          (∀ v ∈ found L source files path, ∃ a, decode v = some a) →
          (Loader.load source files L).Answers decode path
            ((found L source files path).filterMap decode)) := by
  refine ⟨fun h => ?_, fun hs h => ?_⟩
  · obtain ⟨e, he⟩ := exists_load_eq_error h
    rw [he]
    exact ⟨e, fails_error e⟩
  · rw [load_eq_ok hs h]
    have hvalues : ∀ path, Loader.values (.ok (files.filterMap (·.root? L source))) path =
        .ok (found L source files path) := fun path => congrArg Except.ok (values_eq_found path)
    refine ⟨congrArg Except.ok (paths_eq h), fun path => ⟨hvalues path, fun decode hd => ?_⟩⟩
    exact answers_of_values hd (hvalues path)

/-- Two files that both set the limit, the second also the cells. -/
def twoFiles : List File :=
  [⟨"a.cue", some "max_steps: 2000\n"⟩, ⟨"b.cue", some "cells: 64\nmax_steps: 9\n"⟩]

/-- The limits of both files, a switch that neither sets, and a third file with no cells. -/
theorem load_consistent_two_files :
    schemaCompiles Cue.language schema = true ∧
    (∀ file ∈ twoFiles, (file.document? Cue.language schema).isSome = true) ∧
    (Loader.load schema twoFiles).all Cue.Value.int? "max_steps" none = ([2000, 9], none) ∧
    (Loader.load schema twoFiles).first Cue.Value.int? 0 "max_steps" = .ok 2000 ∧
    (Loader.load schema twoFiles).assign Cue.Value.bool? "debug" true = (true, some .notFound) ∧
    ∃ e, (Loader.load schema (twoFiles ++ [⟨"c.cue", some "cells: 0\n"⟩])).Fails e := by
  obtain ⟨hs, hfiles, hlimits, hswitches, hbroken⟩ : schemaCompiles Cue.language schema = true ∧
      (∀ file ∈ twoFiles, (file.document? Cue.language schema).isSome = true) ∧
      (found Cue.language schema twoFiles "max_steps").map Cue.Value.int? = [some 2000, some 9] ∧
      (found Cue.language schema twoFiles "debug").isEmpty = true ∧
      (File.document? Cue.language schema ⟨"c.cue", some "cells: 0\n"⟩).isNone = true := by
    decide +kernel
  have hd : ∀ v ∈ found Cue.language schema twoFiles "max_steps", ∃ a, v.int? = some a := by
    intro v hv
    have hmem : v.int? ∈ [some 2000, some 9] := hlimits ▸ List.mem_map_of_mem hv
    rcases List.mem_cons.1 hmem with h | h
    · exact ⟨2000, h⟩
    · exact ⟨9, List.mem_singleton.1 h⟩
  have hlist : (found Cue.language schema twoFiles "max_steps").filterMap Cue.Value.int? =
      [2000, 9] := by
    rw [← Function.id_comp Cue.Value.int?, ← List.filterMap_map, hlimits]
    rfl
  obtain ⟨-, hanswers⟩ := (load_consistent Cue.language schema twoFiles).2 hs hfiles
  have hsteps := (hanswers "max_steps").2 Cue.Value.int? hd
  have hswitch := (hanswers "debug").2 Cue.Value.bool?
  rw [hlist] at hsteps
  rw [List.isEmpty_iff.1 hswitches] at hswitch
  exact ⟨hs, hfiles, hsteps.all, hsteps.first 0, (hswitch (by simp)).assign true,
    (load_consistent Cue.language schema _).1
      (.inr ⟨_, by simp, Option.isNone_iff_eq_none.1 hbroken⟩)⟩

end TapeAsm.Settings
