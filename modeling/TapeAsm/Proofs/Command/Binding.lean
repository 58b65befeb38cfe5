import TapeAsm.Command.Registry

/-!
# What names stand for

A definition binds the name of its command and the aliases, one after the other. What is bound stays
bound to the same command whatever is defined later, also where a definition stops at a duplicate
(`command?_defineAll_of_some`). Definitions that do not stop bind all their names
(`command?_defineAll_of_mem`) and no others (`find?_defineAll_of_not_mem`), and they do not stop if
these names are distinct and new (`defineAll_snd_eq_none`).
-/

set_option autoImplicit false

namespace TapeAsm.Registry

variable {σ : Type} {r : Registry σ} {id : Nat} {n name : Text} {names : List Text}
  {c : Command σ} {entries : List (Text × Command σ)}

/-- The names that a definition binds. -/
def namesOf (entry : Text × Command σ) : List Text := entry.1 :: entry.2.aliases

/-! ## Binding -/

theorem find?_cons (r : Registry σ) (id : Nat) (n name : Text) :
    find? { r with bindings := (name, id) :: r.bindings } n =
      if n = name then some id else r.find? n := by
  unfold find?
  rw [List.lookup_cons]
  by_cases h : n = name
  · simp [h]
  · have hbeq : (n == name) = false := beq_eq_false_iff_ne.2 h
    simp [h, hbeq]

theorem bind_cons_of_bound {other : Nat} (h : r.find? name = some other) :
    r.bind id (name :: names) = (r, some name) := by
  simp [bind, h]

theorem bind_cons_of_free (h : r.find? name = none) :
    r.bind id (name :: names) =
      bind { r with bindings := (name, id) :: r.bindings } id names := by
  simp [bind, h]

theorem commands_bind (r : Registry σ) (id : Nat) (names : List Text) :
    (r.bind id names).1.commands = r.commands := by
  induction names generalizing r with
  | nil => rfl
  | cons name names ih =>
    cases h : r.find? name with
    | some other => rw [bind_cons_of_bound h]
    | none => rw [bind_cons_of_free h, ih]

theorem find?_bind_of_some {other : Nat} (h : r.find? n = some other) (names : List Text) :
    (r.bind id names).1.find? n = some other := by
  induction names generalizing r with
  | nil => exact h
  | cons name names ih =>
    cases hname : r.find? name with
    | some bound => rw [bind_cons_of_bound hname]; exact h
    | none =>
      rw [bind_cons_of_free hname]
      apply ih
      have hne : n ≠ name := by
        rintro rfl
        rw [h] at hname
        cases hname
      rw [find?_cons, if_neg hne, h]

theorem find?_bind_of_mem (h : (r.bind id names).2 = none) (hn : n ∈ names) :
    (r.bind id names).1.find? n = some id := by
  induction names generalizing r with
  | nil => cases hn
  | cons name names ih =>
    cases hname : r.find? name with
    | some bound => rw [bind_cons_of_bound hname] at h; cases h
    | none =>
      rw [bind_cons_of_free hname] at h ⊢
      rcases List.mem_cons.1 hn with rfl | hn
      · exact find?_bind_of_some (by rw [find?_cons, if_pos rfl]) names
      · exact ih h hn

theorem find?_bind_of_not_mem (hn : n ∉ names) (r : Registry σ) (id : Nat) :
    (r.bind id names).1.find? n = r.find? n := by
  induction names generalizing r with
  | nil => rfl
  | cons name names ih =>
    have hne : n ≠ name := List.ne_of_not_mem_cons hn
    cases hname : r.find? name with
    | some bound => rw [bind_cons_of_bound hname]
    | none =>
      rw [bind_cons_of_free hname, ih (List.not_mem_of_not_mem_cons hn), find?_cons, if_neg hne]

theorem bind_snd_eq_none (hd : names.Nodup) (hfree : ∀ n ∈ names, r.find? n = none) :
    (r.bind id names).2 = none := by
  induction names generalizing r with
  | nil => rfl
  | cons name names ih =>
    obtain ⟨hname, hnames⟩ := List.forall_mem_cons.1 hfree
    obtain ⟨hnot, hd⟩ := List.nodup_cons.1 hd
    rw [bind_cons_of_free hname]
    refine ih hd fun n hn => ?_
    have hne : n ≠ name := by
      rintro rfl
      exact hnot hn
    rw [find?_cons, if_neg hne, hnames n hn]

/-! ## One definition -/

theorem define_eq (r : Registry σ) (name : Text) (c : Command σ) :
    r.define name c =
      bind { r with commands := r.commands.push c, names := r.names ++ [name] } r.commands.size
        (namesOf (name, c)) := rfl

theorem commands_define (r : Registry σ) (name : Text) (c : Command σ) :
    (r.define name c).1.commands = r.commands.push c :=
  commands_bind _ _ _

/-- What is bound stays bound to the same command. -/
theorem command?_define_of_some {old : Command σ} (h : r.command? n = some old) (name : Text)
    (c : Command σ) : (r.define name c).1.command? n = some old := by
  obtain ⟨id, hid, hc⟩ := Option.bind_eq_some_iff.1 h
  have hfind : (r.define name c).1.find? n = some id := by
    rw [define_eq]
    apply find?_bind_of_some
    exact hid
  obtain ⟨hlt, -⟩ := Array.getElem?_eq_some_iff.1 hc
  rw [command?, hfind, commands_define]
  exact (Array.getElem?_push_lt hlt).trans (Array.getElem?_eq_getElem hlt ▸ hc)

theorem command?_define_of_mem (h : (r.define name c).2 = none) (hn : n ∈ namesOf (name, c)) :
    (r.define name c).1.command? n = some c := by
  have hfind : (r.define name c).1.find? n = some r.commands.size := find?_bind_of_mem h hn
  rw [command?, hfind, commands_define]
  exact Array.getElem?_push_size

theorem find?_define_of_not_mem (hn : n ∉ namesOf (name, c)) (r : Registry σ) :
    (r.define name c).1.find? n = r.find? n :=
  find?_bind_of_not_mem hn _ _

theorem define_snd_eq_none (hd : (namesOf (name, c)).Nodup)
    (hfree : ∀ n ∈ namesOf (name, c), r.find? n = none) : (r.define name c).2 = none :=
  bind_snd_eq_none hd hfree

/-! ## Several definitions -/

theorem defineAll_cons_of_some {stopped : Text} (h : (r.define name c).2 = some stopped) :
    r.defineAll ((name, c) :: entries) = r.define name c := by
  rw [defineAll]
  rcases hd : r.define name c with ⟨r', stop⟩
  rw [hd] at h
  cases h
  rfl

theorem defineAll_cons_of_none (h : (r.define name c).2 = none) :
    r.defineAll ((name, c) :: entries) = (r.define name c).1.defineAll entries := by
  rw [defineAll]
  rcases hd : r.define name c with ⟨r', stop⟩
  rw [hd] at h
  cases h
  rfl

/-- Definitions that come to their end begin with one that does, and go on from there. -/
theorem defineAll_cons_eq (h : (r.defineAll ((name, c) :: entries)).2 = none) :
    (r.define name c).2 = none ∧
      r.defineAll ((name, c) :: entries) = (r.define name c).1.defineAll entries := by
  cases hd : (r.define name c).2 with
  | some stopped =>
    rw [defineAll_cons_of_some hd, hd] at h
    cases h
  | none => exact ⟨rfl, defineAll_cons_of_none hd⟩

/-- **A name once bound is not bound anew.** -/
theorem command?_defineAll_of_some {old : Command σ} (h : r.command? n = some old)
    (entries : List (Text × Command σ)) : (r.defineAll entries).1.command? n = some old := by
  induction entries generalizing r with
  | nil => exact h
  | cons entry entries ih =>
    obtain ⟨name, c⟩ := entry
    have hnext := command?_define_of_some h name c
    cases hd : (r.define name c).2 with
    | some stopped => rw [defineAll_cons_of_some hd]; exact hnext
    | none => rw [defineAll_cons_of_none hd]; exact ih hnext

/-- **Definitions that do not stop bind all their names.** -/
theorem command?_defineAll_of_mem {entry : Text × Command σ} (h : (r.defineAll entries).2 = none)
    (he : entry ∈ entries) (hn : n ∈ namesOf entry) :
    (r.defineAll entries).1.command? n = some entry.2 := by
  induction entries generalizing r with
  | nil => cases he
  | cons first entries ih =>
    obtain ⟨name, c⟩ := first
    obtain ⟨hd, heq⟩ := defineAll_cons_eq h
    rw [heq] at h ⊢
    rcases List.mem_cons.1 he with rfl | he
    · exact command?_defineAll_of_some (command?_define_of_mem hd hn) entries
    · exact ih h he

theorem find?_defineAll_of_not_mem (hn : ∀ entry ∈ entries, n ∉ namesOf entry) (r : Registry σ) :
    (r.defineAll entries).1.find? n = r.find? n := by
  induction entries generalizing r with
  | nil => rfl
  | cons entry entries ih =>
    obtain ⟨name, c⟩ := entry
    obtain ⟨hfirst, hrest⟩ := List.forall_mem_cons.1 hn
    have hnext := find?_define_of_not_mem hfirst r
    cases hd : (r.define name c).2 with
    | some stopped => rw [defineAll_cons_of_some hd, hnext]
    | none => rw [defineAll_cons_of_none hd, ih hrest, hnext]

/-- Definitions do not stop if their names are distinct and not bound yet. -/
theorem defineAll_snd_eq_none (hd : (entries.flatMap namesOf).Nodup)
    (hfree : ∀ n ∈ entries.flatMap namesOf, r.find? n = none) : (r.defineAll entries).2 = none := by
  induction entries generalizing r with
  | nil => rfl
  | cons entry entries ih =>
    obtain ⟨name, c⟩ := entry
    rw [List.flatMap_cons] at hd hfree
    obtain ⟨hown, hothers, hdisjoint⟩ := List.nodup_append.1 hd
    obtain ⟨hfirst, hrest⟩ := List.forall_mem_append.1 hfree
    rw [defineAll_cons_of_none (define_snd_eq_none hown hfirst)]
    refine ih hothers fun n hn => ?_
    have hnot : n ∉ namesOf (name, c) := fun h => hdisjoint n h n hn rfl
    rw [find?_define_of_not_mem hnot, hrest n hn]

/-- The commands of a registry come from its definitions. -/
theorem mem_commands_defineAll (h : c ∈ (r.defineAll entries).1.commands) :
    c ∈ r.commands ∨ ∃ entry ∈ entries, entry.2 = c := by
  induction entries generalizing r with
  | nil => exact .inl h
  | cons entry entries ih =>
    obtain ⟨name, first⟩ := entry
    have hnew : c ∈ (r.define name first).1.commands → c ∈ r.commands ∨ first = c := by
      intro hc
      rw [commands_define, Array.mem_push] at hc
      exact hc.imp_right Eq.symm
    have hsplit : c ∈ (r.define name first).1.commands ∨ ∃ entry ∈ entries, entry.2 = c := by
      cases hd : (r.define name first).2 with
      | some stopped => rw [defineAll_cons_of_some hd] at h; exact .inl h
      | none => rw [defineAll_cons_of_none hd] at h; exact ih h
    rcases hsplit with hc | ⟨entry, he, rfl⟩
    · rcases hnew hc with hc | rfl
      · exact .inl hc
      · exact .inr ⟨(name, first), List.mem_cons_self, rfl⟩
    · exact .inr ⟨entry, List.mem_cons_of_mem _ he, rfl⟩

end TapeAsm.Registry
