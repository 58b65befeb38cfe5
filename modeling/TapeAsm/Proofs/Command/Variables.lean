import TapeAsm.Proofs.Command.Binding
import TapeAsm.Proofs.Command.Composition

/-!
# Variables and switches

A registry may hold nothing but variables and switches, each with a cell of its own. A command line
is then a sequence of groups: a name with the argument of its variable, a name with a point, or the
name of a switch with or without an exclamation mark (`Complete`). Each of them sets one cell, and
the first thing that is no such group ends the line (`Bad`).

`execute_group` and `execute_bad` say what one group does, and `execute_groups` what a sequence of
them does. So each cell holds what the last group of its own says, and groups for different cells
can change places (`last_group_wins`).
-/

set_option autoImplicit false

namespace TapeAsm.Command

/-! ## Cells and definitions -/

/-- The values of the variables, by number. -/
abbrev Cells := Nat → Arg

/-- The values with one of them replaced. -/
def Cells.set (s : Cells) (i : Nat) (a : Arg) : Cells := fun j => if j = i then a else s j

theorem Cells.set_same (s : Cells) (i : Nat) (a : Arg) : s.set i a i = a := if_pos rfl

theorem Cells.set_other {i j : Nat} (s : Cells) (a : Arg) (h : j ≠ i) : s.set i a j = s j :=
  if_neg h

theorem Cells.set_comm {i j : Nat} (s : Cells) (a b : Arg) (h : i ≠ j) :
    (s.set i a).set j b = (s.set j b).set i a := by
  funext k
  by_cases hi : k = i
  · subst hi
    rw [set_other _ _ h, set_same, set_same]
  · by_cases hj : k = j
    · subst hj
      rw [set_same, set_other _ _ hi, set_same]
    · rw [set_other _ _ hj, set_other _ _ hi, set_other _ _ hi, set_other _ _ hj]

/-- The definition of a variable of a kind, or of a switch. -/
inductive Definition where
  | value (name : Text) (kind : Kind)
  | switch (name : Text)
  deriving DecidableEq, Repr

namespace Definition

/-- The names that the definition binds. -/
def names : Definition → List Text
  | value name _ => [name, name ++ "."]
  | switch name => [name, "!" ++ name]

/-- The commands of the definition, on a cell. -/
def commands (cell : Nat) : Definition → List (Text × Command Cells)
  | value name kind => Registry.variableCommands name kind fun a s => s.set cell a
  | switch name => Registry.switchCommands name fun b s => s.set cell (.bool b)

/-- May the argument of the variable not be left out? -/
def isMandatory : Definition → Bool
  | value _ kind => !kind.isOptional
  | switch _ => true

/-- Definitions that can be made one after the other: all names are distinct. The variables take
arguments that cannot be left out. -/
structure Regular (defs : List Definition) : Prop where
  distinct : (defs.flatMap names).Nodup
  mandatory : ∀ d ∈ defs, d.isMandatory = true

instance (defs : List Definition) : Decidable (Regular defs) :=
  decidable_of_iff ((defs.flatMap names).Nodup ∧ ∀ d ∈ defs, d.isMandatory = true)
    ⟨fun ⟨hd, hm⟩ => ⟨hd, hm⟩, fun ⟨hd, hm⟩ => ⟨hd, hm⟩⟩

/-- The commands of all definitions, each on the cell with its number. -/
def entries (defs : List Definition) : List (Text × Command Cells) :=
  defs.zipIdx.flatMap fun (d, i) => d.commands i

/-- The registry of variables and switches. -/
def registry (defs : List Definition) : Registry Cells := (Registry.empty.defineAll (entries defs)).1

/-! ## What the names stand for -/

variable {defs : List Definition}

theorem flatMap_namesOf_commands (d : Definition) (cell : Nat) :
    (d.commands cell).flatMap Registry.namesOf = d.names := by
  cases d <;> rfl

theorem flatMap_namesOf_entries (defs : List Definition) :
    (entries defs).flatMap Registry.namesOf = defs.flatMap names := by
  unfold entries
  rw [List.flatMap_assoc]
  simp only [flatMap_namesOf_commands]
  conv => rhs; rw [← List.zipIdx_map_fst 0 defs, List.flatMap_map]

theorem entries_defined (h : Regular defs) :
    (Registry.empty.defineAll (entries defs)).2 = none := by
  refine Registry.defineAll_snd_eq_none ?_ fun n _ => rfl
  rw [flatMap_namesOf_entries]
  exact h.distinct

theorem command?_registry (h : Regular defs) {i : Nat} {d : Definition} {n : Text}
    {c : Command Cells} (hd : defs[i]? = some d) (hc : (n, c) ∈ d.commands i) :
    (registry defs).command? n = some c := by
  have hmem : (n, c) ∈ entries defs :=
    List.mem_flatMap.2 ⟨(d, i), List.mem_zipIdx_iff_getElem?.2 hd, hc⟩
  exact Registry.command?_defineAll_of_mem (entries_defined h) hmem List.mem_cons_self

theorem command?_registry_eq_none {n : Text} (hn : ∀ d ∈ defs, n ∉ d.names) :
    (registry defs).command? n = none := by
  have hfind : (registry defs).find? n = none := by
    refine Registry.find?_defineAll_of_not_mem (fun entry he hmem => ?_) Registry.empty
    have hall : n ∈ (entries defs).flatMap Registry.namesOf := List.mem_flatMap.2 ⟨entry, he, hmem⟩
    rw [flatMap_namesOf_entries] at hall
    obtain ⟨d, hd, hname⟩ := List.mem_flatMap.1 hall
    exact hn d hd hname
  rw [Registry.command?, hfind]
  rfl

theorem mandatory_registry (h : Regular defs) : (registry defs).Mandatory := by
  intro c hc kind hk
  have hc := Registry.mem_commands_defineAll hc
  obtain ⟨entry, he, rfl⟩ := hc.resolve_left (by simp [Registry.empty])
  obtain ⟨⟨d, i⟩, hd, hentry⟩ := List.mem_flatMap.1 he
  have hmandatory := h.mandatory d (List.fst_mem_of_mem_zipIdx hd)
  cases d with
  | value name own =>
    simp only [commands, Registry.variableCommands, List.mem_cons, List.not_mem_nil,
      or_false] at hentry
    rcases hentry with rfl | rfl
    · obtain rfl := List.mem_singleton.1 hk
      simpa [isMandatory] using hmandatory
    · cases hk
  | switch name =>
    simp only [commands, Registry.switchCommands, List.mem_cons, List.not_mem_nil,
      or_false] at hentry
    rcases hentry with rfl | rfl <;> cases hk

end Definition

open Definition

/-! ## Groups -/

/-- Words that belong together, with the cell that they set and its new value. -/
structure Group where
  words : List Text
  cell : Nat
  value : Arg

/-- The cells after a group. -/
def Group.apply (s : Cells) (g : Group) : Cells := s.set g.cell g.value

/-- What a sequence of groups sets a cell to: the value of the last group for it, if there is
one. -/
def lastSet (groups : List Group) (i : Nat) : Option Arg :=
  (groups.filter fun g => g.cell = i).getLast?.map (·.value)

/-- **The complete groups**: a name with an argument that can be converted, the reset of a variable,
and a switch set or cleared. White space around a name does not count. -/
inductive Complete (defs : List Definition) : Group → Prop
  | set {i : Nat} {name : Text} {kind : Kind} {word arg : Text} {a : Arg} :
      defs[i]? = some (.value name kind) → word.trim = name → kind.convert arg = .ok a →
      Complete defs ⟨[word, arg], i, a⟩
  | reset {i : Nat} {name : Text} {kind : Kind} {word : Text} :
      defs[i]? = some (.value name kind) → word.trim = name ++ "." →
      Complete defs ⟨[word], i, .zero kind⟩
  | on {i : Nat} {name word : Text} :
      defs[i]? = some (.switch name) → word.trim = name → Complete defs ⟨[word], i, .bool true⟩
  | off {i : Nat} {name word : Text} :
      defs[i]? = some (.switch name) → word.trim = "!" ++ name →
      Complete defs ⟨[word], i, .bool false⟩

/-- **The ways to go wrong**: no such name, no argument left, or one that cannot be converted. -/
inductive Bad (defs : List Definition) : List Text → Prop
  | unknown {word : Text} {rest : List Text} :
      (∀ d ∈ defs, word.trim ∉ d.names) → Bad defs (word :: rest)
  | missing {i : Nat} {name : Text} {kind : Kind} {word : Text} :
      defs[i]? = some (.value name kind) → word.trim = name → Bad defs [word]
  | unfit {i : Nat} {name : Text} {kind : Kind} {word arg : Text} {rest : List Text} {e : ArgError} :
      defs[i]? = some (.value name kind) → word.trim = name → kind.convert arg = .error e →
      Bad defs (word :: arg :: rest)

/-- A command line as complete groups and what is behind them: nothing, or the first bad group. -/
structure Splits (defs : List Definition) (args : List Text) (groups : List Group)
    (rest : List Text) : Prop where
  words : args = groups.flatMap (·.words) ++ rest
  complete : ∀ g ∈ groups, Complete defs g
  stop : rest = [] ∨ Bad defs rest

variable {defs : List Definition}

theorem Splits.cons {args rest : List Text} {groups : List Group} {g : Group}
    (hg : Complete defs g) (h : Splits defs args groups rest) :
    Splits defs (g.words ++ args) (g :: groups) rest := by
  refine ⟨?_, List.forall_mem_cons.2 ⟨hg, h.complete⟩, h.stop⟩
  rw [h.words, List.flatMap_cons, List.append_assoc]

/-- **Every command line can be split.** -/
theorem exists_splits (defs : List Definition) :
    ∀ args : List Text, ∃ groups rest, Splits defs args groups rest
  | [] => ⟨[], [], rfl, by simp, .inl rfl⟩
  | word :: args => by
    by_cases hknown : ∃ d ∈ defs, word.trim ∈ d.names
    · obtain ⟨d, hd, hname⟩ := hknown
      obtain ⟨i, hi⟩ := List.mem_iff_getElem?.1 hd
      obtain ⟨groups, rest, hrest⟩ := exists_splits defs args
      cases d with
      | value name kind =>
        rcases (by simpa [names] using hname) with hw | hw
        · -- the next word is the argument, whatever it looks like
          match args with
          | [] => exact ⟨[], [word], rfl, by simp, .inr (.missing hi hw)⟩
          | arg :: args =>
            cases ha : kind.convert arg with
            | error e => exact ⟨[], word :: arg :: args, rfl, by simp, .inr (.unfit hi hw ha)⟩
            | ok a =>
              obtain ⟨groups, rest, hrest⟩ := exists_splits defs args
              exact ⟨_, rest, hrest.cons (.set hi hw ha)⟩
        · exact ⟨_, rest, hrest.cons (.reset hi hw)⟩
      | switch name =>
        rcases (by simpa [names] using hname) with hw | hw
        · exact ⟨_, rest, hrest.cons (.on hi hw)⟩
        · exact ⟨_, rest, hrest.cons (.off hi hw)⟩
    · refine ⟨[], word :: args, rfl, by simp, .inr (.unknown fun d hd hname => ?_)⟩
      exact hknown ⟨d, hd, hname⟩

/-! ## What a group does -/

theorem lastSet_foldl (groups : List Group) (s : Cells) (i : Nat) :
    groups.foldl Group.apply s i = (lastSet groups i).getD (s i) := by
  induction groups generalizing s with
  | nil => rfl
  | cons g groups ih =>
    rw [List.foldl_cons, ih]
    unfold lastSet
    by_cases hi : g.cell = i
    · -- the value of this group stays unless a later one is for the same cell
      subst hi
      have hcell : Group.apply s g g.cell = g.value := s.set_same g.cell g.value
      rw [hcell, List.filter_cons_of_pos (by simp), List.getLast?_cons]
      cases (groups.filter fun g' => g'.cell = g.cell).getLast? <;> rfl
    · have hcell : Group.apply s g i = s i := s.set_other g.value (Ne.symm hi)
      rw [hcell, List.filter_cons_of_neg (by simpa using hi)]

/-- A command that has its arguments is run, and the line goes on behind them. -/
theorem execute_command {σ : Type} {r : Registry σ} {word : Text} {rest : List Text}
    {c : Command σ} {args : List Arg} {s s' : σ} (hc : r.command? word.trim = some c)
    (ha : readArgs c.params rest = .ok args) (hh : c.handler args s = (s', .done)) :
    r.execute (word :: rest) s = r.executeAfter c.params.length rest s' := by
  rw [Registry.execute, Registry.executeAfter]
  simp only [hc, ha, hh]

theorem execute_refused {σ : Type} {r : Registry σ} {word : Text} {rest : List Text}
    {c : Command σ} {e : ArgError} (s : σ) (hc : r.command? word.trim = some c)
    (ha : readArgs c.params rest = .error e) :
    r.execute (word :: rest) s = (s, .failed (.argument word.trim e)) := by
  rw [Registry.execute, Registry.executeAfter]
  simp only [hc, ha]

theorem readArgs_single {kind : Kind} {arg : Text} {a : Arg} (ha : kind.convert arg = .ok a)
    (rest : List Text) : readArgs [kind] (arg :: rest) = .ok [a] := by
  rw [readArgs, ha]
  rfl

theorem readArgs_unfit {kind : Kind} {arg : Text} {e : ArgError} (ha : kind.convert arg = .error e)
    (rest : List Text) : readArgs [kind] (arg :: rest) = .error e := by
  rw [readArgs, ha]
  rfl

section
variable (h : Regular defs) (s : Cells)
include h

/-- **A complete group sets its cell** and leaves the others, and the line goes on behind it. -/
theorem execute_group {g : Group} (hg : Complete defs g) (rest : List Text) :
    (registry defs).execute (g.words ++ rest) s = (registry defs).execute rest (g.apply s) := by
  cases hg with
  | set hd hw ha =>
    have hc := command?_registry h hd List.mem_cons_self
    exact execute_command (hw ▸ hc) (readArgs_single ha rest) rfl
  | reset hd hw =>
    have hc := command?_registry h hd (List.mem_cons_of_mem _ List.mem_cons_self)
    exact execute_command (hw ▸ hc) rfl rfl
  | on hd hw =>
    have hc := command?_registry h hd List.mem_cons_self
    exact execute_command (hw ▸ hc) rfl rfl
  | off hd hw =>
    have hc := command?_registry h hd (List.mem_cons_of_mem _ List.mem_cons_self)
    exact execute_command (hw ▸ hc) rfl rfl

/-- **A bad group changes nothing** and ends the line with an error. -/
theorem execute_bad {words : List Text} (hb : Bad defs words) :
    ∃ e, (registry defs).execute words s = (s, .failed e) := by
  cases hb with
  | @unknown word rest hn =>
    refine ⟨.unknown word.trim, ?_⟩
    rw [Registry.execute, Registry.executeAfter]
    simp only [command?_registry_eq_none hn]
  | @missing i name kind word hd hw =>
    have hc := command?_registry h hd List.mem_cons_self
    have hkind : kind.isOptional = false := by
      simpa [isMandatory] using h.mandatory _ (List.mem_of_getElem? hd)
    have ha : readArgs [kind] [] = .error .missing := by
      rw [readArgs, Kind.whenMissing_eq hkind]
      rfl
    exact ⟨_, execute_refused s (hw ▸ hc) ha⟩
  | @unfit i name kind word arg rest e hd hw ha =>
    have hc := command?_registry h hd List.mem_cons_self
    exact ⟨_, execute_refused s (hw ▸ hc) (readArgs_unfit ha rest)⟩

/-- **Complete groups take effect one after the other.** -/
theorem execute_groups {groups : List Group} (hg : ∀ g ∈ groups, Complete defs g)
    (rest : List Text) :
    (registry defs).execute (groups.flatMap (·.words) ++ rest) s =
      (registry defs).execute rest (groups.foldl Group.apply s) := by
  induction groups generalizing s with
  | nil => rfl
  | cons g groups ih =>
    obtain ⟨hfirst, hothers⟩ := List.forall_mem_cons.1 hg
    rw [List.flatMap_cons, List.append_assoc, execute_group h s hfirst, ih _ hothers,
      List.foldl_cons]

theorem execute_splits {args rest : List Text} {groups : List Group}
    (hs : Splits defs args groups rest) :
    ((registry defs).execute args s).1 = groups.foldl Group.apply s ∧
      (rest = [] → ((registry defs).execute args s).2 = .finished) ∧
      (rest ≠ [] → ∃ e, ((registry defs).execute args s).2 = .failed e) := by
  rw [hs.words, execute_groups h s hs.complete]
  rcases hs.stop with rfl | hb
  · exact ⟨rfl, fun _ => rfl, fun hne => absurd rfl hne⟩
  · obtain ⟨e, he⟩ := execute_bad h (groups.foldl Group.apply s) hb
    rw [he]
    refine ⟨rfl, fun hnil => ?_, fun _ => ⟨e, rfl⟩⟩
    subst hnil
    cases hb

/-- Two groups for different cells can change places. -/
theorem execute_swap {g g' : Group} (hg : Complete defs g) (hg' : Complete defs g')
    (hne : g.cell ≠ g'.cell) (after : List Text) :
    (registry defs).execute (g.words ++ (g'.words ++ after)) s =
      (registry defs).execute (g'.words ++ (g.words ++ after)) s := by
  rw [execute_group h s hg, execute_group h _ hg', execute_group h s hg', execute_group h _ hg]
  exact congrArg _ (s.set_comm g.value g'.value hne)

/-- **The last group wins, and groups for different variables do not interfere.** Every command line
is a sequence of complete groups with nothing or a bad group behind it. Whichever of these it ends
with, each cell then holds the value of the last complete group for it, or the value from before if
there is none. Where two neighbouring groups are for different cells, the line ends in the same way
with their places changed, whatever stands before and behind them. -/
theorem last_group_wins :
    (∀ args, ∃ groups rest, Splits defs args groups rest) ∧
    (∀ args groups rest, Splits defs args groups rest →
      (∀ i, ((registry defs).execute args s).1 i = (lastSet groups i).getD (s i)) ∧
      (rest = [] → ((registry defs).execute args s).2 = .finished) ∧
      (rest ≠ [] → ∃ e, ((registry defs).execute args s).2 = .failed e)) ∧
    ∀ (before after : List Text) (g g' : Group), Complete defs g → Complete defs g' →
      g.cell ≠ g'.cell → ((registry defs).execute before s).2.wantsMore = false →
      (registry defs).execute (before ++ (g.words ++ (g'.words ++ after))) s =
        (registry defs).execute (before ++ (g'.words ++ (g.words ++ after))) s := by
  refine ⟨exists_splits defs, fun args groups rest hs => ?_, ?_⟩
  · obtain ⟨hcells, hend⟩ := execute_splits h s hs
    refine ⟨fun i => ?_, hend⟩
    rw [hcells, lastSet_foldl]
  · intro before after g g' hg hg' hne hbefore
    -- what stands before may end the line already, and then neither order is reached
    have hcut := Registry.execute_cut (mandatory_registry h) before
    rw [(hcut _ hbefore).1, (hcut _ hbefore).1]
    rcases (registry defs).execute before s with ⟨s', _ | e | _⟩
    · exact execute_swap h s' hg hg' hne after
    · rfl
    · rfl

end

/-- Two numbers, a text and a switch. -/
def samples : List Definition :=
  [.value "-n" (.int .bits8), .value "-f" .text, .switch "-d", .value "-m" (.uint .bits16)]

/-- Cells with the same value from before. -/
def untouched : Cells := fun _ => .int 1

/-- The text is set to the name of the switch, the first number is reset, its next value does not
fit, and the second number keeps its value. The text and the switch can be set in the other
order. -/
theorem last_group_wins_samples :
    Regular samples ∧
    (let ended := (registry samples).execute
        ["-n", "5", "-f", "-d", " -d", "-n.", "-n", "128", "-m", "2"] untouched;
      ended.1 0 = .int 0 ∧ ended.1 1 = .text "-d" ∧ ended.1 2 = .bool true ∧ ended.1 3 = .int 1 ∧
        ∃ e, ended.2 = .failed e) ∧
    (registry samples).execute ["-n", "5", "-f", "-d", "!-d", "-n."] untouched =
      (registry samples).execute ["-n", "5", "!-d", "-f", "-d", "-n."] untouched := by
  have hregular : Regular samples := by decide +kernel
  have hn : samples[0]? = some (.value "-n" (.int .bits8)) := rfl
  have hf : samples[1]? = some (.value "-f" .text) := rfl
  have hd : samples[2]? = some (.switch "-d") := rfl
  have hnumber : Complete samples ⟨["-n", "5"], 0, .int 5⟩ := .set hn (by decide +kernel) rfl
  have htext : Complete samples ⟨["-f", "-d"], 1, .text "-d"⟩ := .set hf (by decide +kernel) rfl
  have hon : Complete samples ⟨[" -d"], 2, .bool true⟩ := .on hd (by decide +kernel)
  have hoff : Complete samples ⟨["!-d"], 2, .bool false⟩ := .off hd (by decide +kernel)
  have hreset : Complete samples ⟨["-n."], 0, .int 0⟩ := .reset hn (by decide +kernel)
  have hbad : Splits samples ["-n", "128", "-m", "2"] [] ["-n", "128", "-m", "2"] :=
    ⟨rfl, by simp, .inr (.unfit hn (by decide +kernel) rfl)⟩
  have hsplits := (((hbad.cons hreset).cons hon).cons htext).cons hnumber
  obtain ⟨-, hlast, hswap⟩ := last_group_wins hregular untouched
  obtain ⟨hcells, -, hfailed⟩ := hlast _ _ _ hsplits
  refine ⟨hregular, ⟨hcells 0, hcells 1, hcells 2, hcells 3, hfailed (by simp)⟩, ?_⟩
  exact hswap ["-n", "5"] ["-n."] _ _ htext hoff (by decide) (by decide +kernel)

end TapeAsm.Command
