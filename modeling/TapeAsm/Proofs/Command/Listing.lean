import TapeAsm.Proofs.Command.Definitions
import TapeAsm.Proofs.Program.Lines
import TapeAsm.Proofs.Text.Table

/-!
# The usage as a table

Definitions that all come to their end list their names in turn (`names_defineAll`), and no name is
listed twice (`nodup_defineAll`), because each was new when it was bound. The usage sorts the names,
and each has its own command, so it is the table of the definitions sorted by name
(`usage_eq_align`).

`usage_tabulates` reads the lines off the usage again: one for each definition, in ascending order
of the names, with all descriptions in one column. Names, aliases and descriptions must not cut a
cell or a line (`Printable`); what a kind is called by itself never does (`Kind.uncut_name`).
-/

set_option autoImplicit false

namespace TapeAsm

namespace Command.Kind

/-- The name that a kind has from elsewhere, if it has one. -/
def foreign? : Kind → Option Text
  | other name => some name
  | optional kind => kind.foreign?
  | _ => none

variable {kind : Kind}

theorem uncut_name (h : ∀ name ∈ kind.foreign?, name.Uncut) : kind.name.Uncut := by
  induction kind with
  | bool => decide
  | text => decide
  | int width => cases width <;> decide
  | uint width => cases width <;> decide
  | other name => exact h name rfl
  | optional kind ih => exact Text.Uncut.append (t := Text.ofString "*") (by decide) (ih h)

/-- The kind of a parameter that may not be left out. -/
def required : Kind → Kind
  | optional kind => kind
  | kind => kind

theorem placeholder_eq (kind : Kind) : kind.placeholder = "<" ++ kind.required.name ++ ">" := by
  cases kind <;> rfl

theorem uncut_placeholder (h : ∀ name ∈ kind.foreign?, name.Uncut) :
    Text.Uncut ("<" ++ kind.required.name ++ ">") := by
  have hopening : Text.Uncut "<" := by decide
  have hname : kind.required.name.Uncut := by
    cases kind with
    | optional kind => exact uncut_name h
    | _ => exact uncut_name h
  exact (hopening.append hname).append (by decide)

end Command.Kind

namespace Registry

variable {σ : Type} {r : Registry σ} {entries : List (Text × Command σ)}

/-! ## Names of definitions -/

theorem names_defineAll (h : (r.defineAll entries).2 = none) :
    (r.defineAll entries).1.names = r.names ++ entries.map (·.1) := by
  induction entries generalizing r with
  | nil => simp [defineAll]
  | cons entry entries ih =>
    obtain ⟨name, c⟩ := entry
    obtain ⟨-, heq⟩ := defineAll_cons_eq h
    rw [heq] at h ⊢
    rw [ih h, names_define, List.append_assoc]
    rfl

/-- **Definitions that come to their end have distinct names**, none of which was bound before. -/
theorem nodup_defineAll (h : (r.defineAll entries).2 = none) :
    (entries.map (·.1)).Nodup ∧ ∀ n ∈ entries.map (·.1), r.find? n = none := by
  induction entries generalizing r with
  | nil => simp
  | cons entry entries ih =>
    obtain ⟨name, c⟩ := entry
    obtain ⟨hd, heq⟩ := defineAll_cons_eq h
    rw [heq] at h
    obtain ⟨hdistinct, hfree⟩ := ih h
    have hbound : (r.define name c).1.find? name = some r.commands.size :=
      find?_bind_of_mem hd List.mem_cons_self
    have hname : r.find? name = none := (bind_snd_eq_none_iff.1 hd).2 name List.mem_cons_self
    refine ⟨List.nodup_cons.2 ⟨fun hmem => ?_, hdistinct⟩, ?_⟩
    · have hnew := hfree name hmem
      rw [hbound] at hnew
      cases hnew
    · refine List.forall_mem_cons.2 ⟨hname, fun n hn => ?_⟩
      -- a name that was bound before would still be
      cases hold : r.find? n with
      | none => rfl
      | some id =>
        have hnew := hfree n hn
        rw [find?_define_of_some hold] at hnew
        cases hnew

/-! ## Sorted definitions -/

theorem le_iff (a b : Text) : Text.le a b = true ↔ a ≤ b := by
  rw [Text.le, Bool.not_eq_true']
  exact List.lex_eq_false_iff_ge

/-- Definitions in the order of the usage. -/
def sorted (entries : List (Text × Command σ)) : List (Text × Command σ) :=
  entries.mergeSort fun a b => Text.le a.1 b.1

theorem sorted_perm (entries : List (Text × Command σ)) : (sorted entries).Perm entries :=
  List.mergeSort_perm _ _

theorem map_fst_sorted (entries : List (Text × Command σ)) :
    (sorted entries).map (·.1) = (entries.map (·.1)).mergeSort Text.le :=
  List.map_mergeSort fun _ _ _ _ => rfl

/-- Distinct names ascend when they are sorted. -/
theorem sorted_ascending (h : (entries.map (·.1)).Nodup) :
    ((sorted entries).map (·.1)).Pairwise (· < ·) := by
  have hle : ((entries.map (·.1)).mergeSort Text.le).Pairwise fun a b => Text.le a b = true := by
    apply List.pairwise_mergeSort
    · intro a b c hab hbc
      rw [le_iff] at hab hbc ⊢
      exact List.le_trans hab hbc
    · intro a b
      rw [Bool.or_eq_true, le_iff, le_iff]
      exact List.le_total a b
  have hne := (List.mergeSort_perm (entries.map (·.1)) Text.le).nodup_iff.2 h
  rw [map_fst_sorted]
  refine (hle.and hne).imp fun {a b} hab => ?_
  exact Std.lt_of_le_of_ne ((le_iff a b).1 hab.1) hab.2

/-! ## Lines -/

/-- What the usage shows of a definition before its description: the name, the aliases and the
kinds of the parameters in angle brackets. -/
def heading (entry : Text × Command σ) : Text :=
  Text.join ", " (namesOf entry) ++ " " ++
    Text.join " " (entry.2.params.map fun kind => "<" ++ kind.required.name ++ ">")

/-- A definition as an item of the usage. -/
def item (entry : Text × Command σ) : Text.Item := ⟨heading entry, entry.2.description⟩

/-- **A definition that can be shown in one line.** -/
structure Printable (entry : Text × Command σ) : Prop where
  names : ∀ n ∈ namesOf entry, n.Uncut
  description : entry.2.description.Uncut
  /-- Types are named in a source text, and no such name has a byte that cuts. -/
  params : ∀ kind ∈ entry.2.params, ∀ name ∈ kind.foreign?, name.Uncut

theorem uncut_item {entry : Text × Command σ} (h : Printable entry) : (item entry).Uncut := by
  have hnames : Text.Uncut (Text.join ", " (namesOf entry)) :=
    Text.Uncut.join (by decide) h.names
  have hparams : Text.Uncut
      (Text.join " " (entry.2.params.map fun kind => "<" ++ kind.required.name ++ ">")) := by
    refine Text.Uncut.join (by decide) fun t ht => ?_
    obtain ⟨kind, hkind, rfl⟩ := List.mem_map.1 ht
    exact Command.Kind.uncut_placeholder (h.params kind hkind)
  exact ⟨(hnames.append (by decide)).append hparams, h.description⟩

theorem usageLine_eq {entry : Text × Command σ} (h : r.command? entry.1 = some entry.2) :
    r.usageLine entry.1 = (item entry).text := by
  rw [usageLine, h, funext Command.Kind.placeholder_eq]
  rfl

/-- **The usage is the table of the definitions** sorted by name. -/
theorem usage_eq_align (hnames : r.names = entries.map (·.1))
    (hcommand : ∀ entry ∈ entries, r.command? entry.1 = some entry.2) :
    r.usage = Text.align (((sorted entries).map item).flatMap Text.Item.text) := by
  rw [usage, hnames, ← map_fst_sorted, List.flatMap_map, List.flatMap_map]
  congr 1
  refine List.flatMap_congr fun entry hentry => usageLine_eq ?_
  exact hcommand entry ((sorted_perm entries).mem_iff.1 hentry)

/-- The lines of an aligned table, read off its text again. -/
theorem lines_align {items : List Text.Item} (h : ∀ i ∈ items, i.Uncut) :
    Text.splitOn (Text.ascii '\n') (Text.align (items.flatMap Text.Item.text)) =
      items.map (Text.Item.line (Text.descriptionColumn items)) ++ [[]] := by
  have hbare : ∀ line ∈ items.map (Text.Item.line (Text.descriptionColumn items)),
      Text.ascii '\n' ∉ line := by
    intro line hline
    obtain ⟨i, hi, rfl⟩ := List.mem_map.1 hline
    exact Text.newline_not_mem_line (h i hi) _
  rw [Text.align_items h, ← Text.splitOn_lines hbare, List.flatMap_map]
  rfl

/-- **A usage that tabulates definitions**, listed in some order, with the descriptions in a
column. -/
structure Tabulates (usage : Text) (entries listed : List (Text × Command σ)) (column : Nat) :
    Prop where
  /-- Each definition is listed once, -/
  complete : listed.Perm entries
  /-- in ascending order of the names, byte by byte. -/
  ordered : (listed.map (·.1)).Pairwise (· < ·)
  /-- The lines are the headings, each with spaces behind it, and then the descriptions. -/
  lines : Text.splitOn (Text.ascii '\n') usage =
    listed.map (fun entry => heading entry ++
      Text.spaces (column - (heading entry).chars.length) ++ entry.2.description) ++ [[]]
  /-- All descriptions begin behind the same number of characters, -/
  aligned : ∀ entry ∈ listed,
    (heading entry ++ Text.spaces (column - (heading entry).chars.length)).chars.length = column
  /-- which is two more than the widest heading has. -/
  room : ∀ entry ∈ listed, (heading entry).chars.length + 2 ≤ column
  widest : listed ≠ [] → ∃ entry ∈ listed, (heading entry).chars.length + 2 = column

theorem tabulates_align {listed : List (Text × Command σ)} (hperm : listed.Perm entries)
    (hordered : (listed.map (·.1)).Pairwise (· < ·)) (h : ∀ entry ∈ listed, Printable entry) :
    Tabulates (Text.align ((listed.map item).flatMap Text.Item.text)) entries listed
      (Text.descriptionColumn (listed.map item)) := by
  have hitems : ∀ i ∈ listed.map item, i.Uncut := by
    intro i hi
    obtain ⟨entry, hentry, rfl⟩ := List.mem_map.1 hi
    exact uncut_item (h entry hentry)
  have hroom : ∀ entry ∈ listed,
      (heading entry).chars.length + 2 ≤ Text.descriptionColumn (listed.map item) := by
    intro entry hentry
    exact Text.le_column (List.mem_map_of_mem (f := item) hentry)
  refine ⟨hperm, hordered, ?_, fun entry hentry => ?_, hroom, fun hne => ?_⟩
  · rw [lines_align hitems, List.map_map]
    rfl
  · have hle := hroom entry hentry
    exact Text.length_chars_lead (i := item entry) (uncut_item (h entry hentry)).1.utf8
      (Nat.le_of_add_right_le hle)
  · have hitem : listed.map item ≠ [] := by simpa using hne
    obtain ⟨i, hi, hwidth⟩ := Text.exists_eq_column hitem
    obtain ⟨entry, hentry, rfl⟩ := List.mem_map.1 hi
    exact ⟨entry, hentry, hwidth⟩

/-- **The usage of definitions that come to their end.** No listed name lacks a command, and the
usage tabulates the definitions: one line for each name, in byte order, and every description two
behind the widest heading. -/
theorem usage_tabulates (h : (empty : Registry σ).defineAll entries = (r, none))
    (hprintable : ∀ entry ∈ entries, Printable entry) :
    r.usage? = some r.usage ∧ (∀ entry ∈ entries, r.command? entry.1 = some entry.2) ∧
      ∃ listed column, Tabulates r.usage entries listed column := by
  have hdefined : ((empty : Registry σ).defineAll entries).2 = none := by rw [h]
  have hnames : r.names = entries.map (·.1) := by
    have hlisted := names_defineAll hdefined
    rwa [h] at hlisted
  have hcommand : ∀ entry ∈ entries, r.command? entry.1 = some entry.2 := by
    intro entry hentry
    have hbound := command?_defineAll_of_mem hdefined hentry List.mem_cons_self
    rwa [h] at hbound
  refine ⟨usage?_eq_some fun n hn => ?_, hcommand, sorted entries,
    Text.descriptionColumn ((sorted entries).map item), ?_⟩
  · rw [hnames] at hn
    obtain ⟨entry, hentry, rfl⟩ := List.mem_map.1 hn
    exact ⟨entry.2, hcommand entry hentry⟩
  · rw [usage_eq_align hnames hcommand]
    refine tabulates_align (sorted_perm entries) (sorted_ascending (nodup_defineAll hdefined).1) ?_
    intro entry hentry
    exact hprintable entry ((sorted_perm entries).mem_iff.1 hentry)

/-- Three definitions: one with an alias and characters of two bytes, one with nothing but a name,
and one with two parameters. -/
def samples : List (Text × Command Unit) :=
  [("größe", { action id with
      params := [.int .word], description := "how large", aliases := ["-g"] }),
    ("?", action id),
    ("count", { action id with
      params := [.optional .text, .other "[]uint8"], description := "how many" })]

theorem usage_tabulates_samples :
    ∃ r, (empty : Registry Unit).defineAll samples = (r, none) ∧
      (∀ entry ∈ samples, Printable entry) ∧
      ∃ listed column, Tabulates r.usage samples listed column := by
  have hdefined : ((empty : Registry Unit).defineAll samples).2 = none := by decide
  obtain ⟨r, h⟩ : ∃ r, (empty : Registry Unit).defineAll samples = (r, none) :=
    ⟨_, Prod.ext rfl hdefined⟩
  have hprintable : ∀ entry ∈ samples, Printable entry := by
    have htexts : ∀ entry ∈ samples, (∀ n ∈ namesOf entry, n.Uncut) ∧
        entry.2.description.Uncut ∧
        ∀ kind ∈ entry.2.params, ∀ name ∈ kind.foreign?, name.Uncut := by
      decide +kernel
    intro entry hentry
    obtain ⟨hnames, hdescription, hparams⟩ := htexts entry hentry
    exact ⟨hnames, hdescription, hparams⟩
  exact ⟨r, h, hprintable, (usage_tabulates h hprintable).2.2⟩

-- the third name has more bytes than characters, and the first line ends in spaces
example : ((empty : Registry Unit).defineAll samples).1.usage =
    Text.ofString ("?                         \n" ++ "count <string> <[]uint8>  how many\n" ++
      "größe, -g <int>           how large\n") := by
  cbv

end Registry

end TapeAsm
