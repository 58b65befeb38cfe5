import TapeAsm.Machine.Basic
import TapeAsm.Tool.Start

/-!
# Effective settings

Three settings are numbers, and each may come from a flag, from the files, from the defaults of a
program and from the standard of machines. Two rules choose among them: settings are resolved to the
first number that is not zero, and a machine replaces one that is not positive by the standard. For
files that set positive numbers (`Root.Regular`), in whatever language, nothing fails on the way
(`exists_resolve_eq`), and `effective_settings` says what the two rules come to: the first positive
number in order of precedence, unless the flag is negative. A negative flag counts as set for the
first rule and as not set for the second, and so selects the standard over files and defaults.
-/

set_option autoImplicit false

namespace TapeAsm.Settings

/-- The settings that are numbers. -/
inductive Setting where
  | cells
  | maxValue
  | maxSteps
  deriving DecidableEq, Repr

namespace Setting

/-- Where files set it. -/
def path : Setting → Text
  | cells => "cells"
  | maxValue => "max_value"
  | maxSteps => "max_steps"

/-- The number of its flag, zero if the flag is not given. -/
def flag (f : Flags) : Setting → Int
  | cells => f.cells
  | maxValue => f.maxValue
  | maxSteps => f.maxSteps

/-- Its number in a configuration. -/
def of (c : Config) : Setting → Int
  | cells => c.cells
  | maxValue => c.maxValue
  | maxSteps => c.maxSteps

end Setting

variable {L : Language}

/-- The number that a file sets. -/
def Root.number? (root : Root L) (s : Setting) : Option Int :=
  L.lookup? root.document s.path >>= L.int?

/-- **A file as the schema asks for**: what it sets are positive words, and a truth value. -/
structure Root.Regular (root : Root L) : Prop where
  number : ∀ (s : Setting) (v : L.Value), L.lookup? root.document s.path = some v →
    ∃ n, L.int? v = some n ∧ 0 < n
  debug : ∀ v : L.Value, L.lookup? root.document "debug" = some v → ∃ b, L.bool? v = some b

def Root.regularB (root : Root L) : Bool :=
  ([.cells, .maxValue, .maxSteps] : List Setting).all (fun s =>
    (L.lookup? root.document s.path).all fun v => (L.int? v).any (0 < ·)) &&
  (L.lookup? root.document "debug").all fun v => (L.bool? v).isSome

theorem Root.regularB_iff (root : Root L) : root.regularB = true ↔ root.Regular := by
  rw [regularB, Bool.and_eq_true, List.all_eq_true]
  constructor
  · rintro ⟨hnumber, hdebug⟩
    refine ⟨fun s v hv => ?_, fun v hv => ?_⟩
    · have hs := hnumber s (by cases s <;> decide)
      simpa [hv, Option.any_eq_true] using hs
    · simpa [hv, Option.isSome_iff_exists] using hdebug
  · rintro ⟨hnumber, hdebug⟩
    refine ⟨fun s _ => ?_, ?_⟩
    · cases hv : L.lookup? root.document s.path with
      | none => rfl
      | some v =>
        obtain ⟨n, hn, hpos⟩ := hnumber s v hv
        simp [hn, hpos]
    · cases hv : L.lookup? root.document "debug" with
      | none => rfl
      | some v =>
        obtain ⟨b, hb⟩ := hdebug v hv
        simp [hb]

instance (root : Root L) : Decidable root.Regular := decidable_of_iff _ root.regularB_iff

/-- The first positive number, if there is one. -/
def firstPositive? (values : List Int) : Option Int := values.find? (0 < ·)

/-- Where the number of a setting may come from, in order of precedence. -/
def sources (flags : Flags) (roots : List (Root L)) (defaults : Config) (s : Setting) : List Int :=
  s.flag flags :: (roots.findSome? (·.number? s)).toList ++ [s.of defaults, s.of .standard]

/-- The number that a setting is resolved to: the first that is not zero. -/
def resolved (flags : Flags) (roots : List (Root L)) (defaults : Config) (s : Setting) : Int :=
  firstNonzero 0 [s.flag flags, (roots.findSome? (·.number? s)).getD 0, s.of defaults]

/-! ## Files -/

section
variable {α : Type} {decode : L.Value → Option α} {values : List L.Value} {l : Loader L}
  {path : Text} (hl : l.values path = .ok values)
  (hd : ∀ v ∈ values, ∃ a, decode v = some a)
include hd

/-- Values that can be decoded are all decoded. -/
theorem decodeAll_eq : Loader.decodeAll decode values = (values.filterMap decode, none) := by
  induction values with
  | nil => rfl
  | cons v values ih =>
    obtain ⟨a, ha⟩ := hd v List.mem_cons_self
    have hrest := ih fun w hw => hd w (List.mem_cons_of_mem v hw)
    simp only [Loader.decodeAll, ha, hrest, List.filterMap_cons]

include hl

theorem all_eq : l.all decode path none = (values.filterMap decode, none) := by
  rw [Loader.all, hl]
  exact decodeAll_eq hd

theorem first_eq (zero : α) :
    l.first decode zero path = .ok ((values.findSome? decode).getD zero) := by
  rw [Loader.first, Loader.assign, hl]
  cases values with
  | nil => rfl
  | cons v values =>
    obtain ⟨a, ha⟩ := hd v List.mem_cons_self
    simp only [ha, List.findSome?_cons, Option.getD_some]

end

/-- The values at a path, of files that have been loaded. -/
theorem values_ok (roots : List (Root L)) (path : Text) :
    Loader.values (.ok roots) path = .ok (roots.filterMap (L.lookup? ·.document path)) := rfl

section
variable {roots : List (Root L)} (hroots : ∀ root ∈ roots, root.Regular)
include hroots

theorem exists_int_of_mem (s : Setting) :
    ∀ v ∈ roots.filterMap (L.lookup? ·.document s.path), ∃ n, L.int? v = some n := by
  intro v hv
  obtain ⟨root, hroot, hlookup⟩ := List.mem_filterMap.1 hv
  obtain ⟨n, hn, -⟩ := (hroots root hroot).number s v hlookup
  exact ⟨n, hn⟩

theorem exists_bool_of_mem :
    ∀ v ∈ roots.filterMap (L.lookup? ·.document "debug"), ∃ b, L.bool? v = some b := by
  intro v hv
  obtain ⟨root, hroot, hlookup⟩ := List.mem_filterMap.1 hv
  exact (hroots root hroot).debug v hlookup

/-- A number that a file sets is positive. -/
theorem pos_of_findSome? {s : Setting} {n : Int} (h : roots.findSome? (·.number? s) = some n) :
    0 < n := by
  obtain ⟨root, hroot, hn⟩ := List.exists_of_findSome?_eq_some h
  obtain ⟨v, hlookup, hv⟩ := Option.bind_eq_some_iff.1 hn
  obtain ⟨n', hn', hpos⟩ := (hroots root hroot).number s v hlookup
  rw [hv] at hn'
  cases hn'
  exact hpos

theorem number_eq (flags : Flags) (defaults : Config) (s : Setting) :
    number (s.flag flags) (.ok roots) s.path (s.of defaults) =
      .ok (resolved flags roots defaults s) := by
  have hfirst := first_eq (values_ok roots s.path) (exists_int_of_mem hroots s) 0
  rw [← List.head?_filterMap, List.filterMap_filterMap, List.head?_filterMap] at hfirst
  rw [number, hfirst]
  rfl

theorem stepLimit_eq (flags : Flags) (defaults : Config) :
    (stepLimit flags.maxSteps (.ok roots) defaults.maxSteps).2 =
      .ok (resolved flags roots defaults .maxSteps) := by
  have hall := all_eq (values_ok roots Setting.maxSteps.path) (exists_int_of_mem hroots .maxSteps)
  rw [stepLimit, show Text.ofString "max_steps" = Setting.maxSteps.path from rfl, hall]
  exact number_eq hroots flags defaults .maxSteps

theorem exists_debug_eq (flag default : Bool) :
    ∃ b, debug flag (.ok roots) default = .ok b := by
  have hfirst := first_eq (values_ok roots "debug") (exists_bool_of_mem hroots) false
  rw [debug, hfirst]
  cases flag with
  | true => exact ⟨true, rfl⟩
  | false => exact ⟨_, rfl⟩

/-- **Nothing fails on regular files**, and every number is the first that is not zero. -/
theorem exists_resolve_eq (flags : Flags) (defaults : Config) :
    ∃ config, (resolve flags (.ok roots) defaults).2 = .ok config ∧
      ∀ s : Setting, s.of config = resolved flags roots defaults s := by
  obtain ⟨b, hdebug⟩ := exists_debug_eq hroots flags.debug defaults.debug
  have hcells := number_eq hroots flags defaults .cells
  have hvalue := number_eq hroots flags defaults .maxValue
  have hsteps := stepLimit_eq hroots flags defaults
  simp only [Setting.path, Setting.flag, Setting.of] at hcells hvalue
  refine ⟨⟨resolved flags roots defaults .cells, resolved flags roots defaults .maxValue,
    resolved flags roots defaults .maxSteps, b⟩, ?_, fun s => ?_⟩
  · rw [resolve, hcells, hvalue]
    simp only [hsteps, hdebug]
    rfl
  · cases s <;> rfl

end

/-! ## The two rules together -/

theorem firstNonzero_cons (value : Int) (values : List Int) :
    firstNonzero 0 (value :: values) = if value = 0 then firstNonzero 0 values else value := by
  by_cases h : value = 0 <;> simp [firstNonzero, h]

theorem firstPositive?_cons (value : Int) (values : List Int) :
    firstPositive? (value :: values) = if 0 < value then some value else firstPositive? values := by
  by_cases h : 0 < value <;> simp [firstPositive?, h]

theorem positiveOr_of_pos {standard value : Int} (h : 0 < value) :
    Config.positiveOr standard value = value := if_neg (by omega)

theorem positiveOr_of_nonpos {standard value : Int} (h : value ≤ 0) :
    Config.positiveOr standard value = standard := if_pos h

/-- **The two rules choose the first positive number** as long as only the last number before the
standard may be negative. -/
theorem firstPositive?_append {standard : Int} (hstandard : 0 < standard) (last : Int)
    {values : List Int} (h : ∀ v ∈ values, 0 ≤ v) :
    firstPositive? (values ++ [last, standard]) =
      some (Config.positiveOr standard (firstNonzero 0 (values ++ [last]))) := by
  induction values with
  | nil =>
    have hlast : firstNonzero 0 [last] = last := by
      rw [firstNonzero_cons]
      split
      · rename_i hzero
        exact hzero.symm
      · rfl
    rw [List.nil_append, List.nil_append, hlast, firstPositive?_cons, firstPositive?_cons,
      if_pos hstandard]
    split
    · rw [positiveOr_of_pos ‹_›]
    · rw [positiveOr_of_nonpos (by omega)]
  | cons value values ih =>
    have hrest := ih fun v hv => h v (List.mem_cons_of_mem value hv)
    have hvalue := h value List.mem_cons_self
    rw [List.cons_append, List.cons_append, firstPositive?_cons, firstNonzero_cons, hrest]
    -- zero is passed over by both rules, and anything else here is positive
    by_cases hzero : value = 0
    · rw [if_neg (by omega), if_pos hzero]
    · rw [if_pos (by omega), if_neg hzero, positiveOr_of_pos (by omega)]

/-- A file that sets nothing does not matter to what settings are resolved to. -/
theorem firstNonzero_file (flag default : Int) (file : Option Int) :
    firstNonzero 0 [flag, file.getD 0, default] =
      firstNonzero 0 (flag :: file.toList ++ [default]) := by
  cases file with
  | none => simp [firstNonzero_cons]
  | some n => rfl

theorem Setting.of_withDefaults (s : Setting) (c : Config) :
    s.of c.withDefaults = Config.positiveOr (s.of .standard) (s.of c) := by
  cases s <;> rfl

theorem Setting.of_standard_pos (s : Setting) : 0 < s.of .standard := by
  cases s <;> decide

/-- **The effective settings.** On regular files nothing fails, and each setting of the machine is
the first positive number in order of precedence if its flag is not negative. If the flag is
negative, it is the standard, whatever files and defaults say. -/
theorem effective_settings (flags : Flags) {roots : List (Root L)}
    (hroots : ∀ root ∈ roots, root.Regular) (defaults : Config) :
    ∃ config, (resolve flags (.ok roots) defaults).2 = .ok config ∧ ∀ s : Setting,
      (0 ≤ s.flag flags →
        firstPositive? (sources flags roots defaults s) =
          some (s.of (Machine.new config).config)) ∧
      (s.flag flags < 0 → s.of (Machine.new config).config = s.of .standard) := by
  obtain ⟨config, hresolve, hconfig⟩ := exists_resolve_eq hroots flags defaults
  refine ⟨config, hresolve, fun s => ?_⟩
  have hmachine : s.of (Machine.new config).config =
      Config.positiveOr (s.of .standard) (s.of config) := s.of_withDefaults config
  rw [hmachine, hconfig, resolved]
  constructor
  · intro hflag
    rw [firstNonzero_file]
    refine firstPositive?_append s.of_standard_pos (s.of defaults) fun v hv => ?_
    obtain rfl | hfile := List.mem_cons.1 hv
    · exact hflag
    · exact Int.le_of_lt (pos_of_findSome? hroots (Option.mem_toList.1 hfile))
  · intro hflag
    have hset : s.flag flags ≠ 0 := by omega
    rw [firstNonzero_cons, if_neg hset, positiveOr_of_nonpos (by omega)]

/-- Two files, the first of which sets the limit and the second the cells; no flags. -/
theorem effective_settings_of_files :
    ∃ roots, Loader.load schema
        [⟨"bfa.cue", some "max_steps: 2000\n"⟩, ⟨".bfa.cue", some "cells: 64\nmax_steps: 9\n"⟩] =
          .ok roots ∧
      (∀ root ∈ roots, root.Regular) ∧
      ∃ config, (resolve {} (.ok roots) Tool.defaults).2 = .ok config ∧
        (Machine.new config).config.cells = 64 ∧ (Machine.new config).config.maxSteps = 2000 := by
  have hfiles : (match Loader.load schema
      [⟨"bfa.cue", some "max_steps: 2000\n"⟩, ⟨".bfa.cue", some "cells: 64\nmax_steps: 9\n"⟩] with
    | .ok roots => decide ((∀ root ∈ roots, root.Regular) ∧
        firstPositive? (sources {} roots Tool.defaults .cells) = some 64 ∧
        firstPositive? (sources {} roots Tool.defaults .maxSteps) = some 2000)
    | .error _ => false) = true := by decide +kernel
  split at hfiles
  · rename_i roots hload
    obtain ⟨hroots, hcells, hsteps⟩ := of_decide_eq_true hfiles
    obtain ⟨config, hconfig, hset⟩ := effective_settings {} hroots Tool.defaults
    have hcells' := (hset .cells).1 (by decide)
    have hsteps' := (hset .maxSteps).1 (by decide)
    rw [hcells] at hcells'
    rw [hsteps] at hsteps'
    exact ⟨roots, hload, hroots, config, hconfig, (Option.some.inj hcells').symm,
      (Option.some.inj hsteps').symm⟩
  · cases hfiles

/-- A negative flag for the limit, without files: the program's own limit is the first positive
number, and the machine gets the standard, which is greater. -/
theorem negative_flag_raises_limit :
    (resolve { maxSteps := -1 } (.ok [] : Loader) Tool.defaults).2 = .ok ⟨0, 0, -1, false⟩ ∧
    (Machine.new ⟨0, 0, -1, false⟩).config.maxSteps = 100000 ∧
    firstPositive? (sources { maxSteps := -1 } ([] : List (Root Cue.language)) Tool.defaults
      .maxSteps) = some 30000 :=
  ⟨rfl, rfl, rfl⟩

end TapeAsm.Settings
