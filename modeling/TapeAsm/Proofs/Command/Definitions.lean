import TapeAsm.Command.Usage
import TapeAsm.Proofs.Command.Binding

/-!
# Registries between definitions

A definition lists its name first and then binds its names one by one, so one that stops at a
duplicate leaves a command that is half bound. Attempts at definitions go on from there
(`Registry.attempting`).

* `Sound r`: every listed name is bound, and names are bound to commands that exist. It is kept by a
  definition however it ends (`Sound.define`): the listed name is the first to be bound, and if it
  is not bound now it was bound before (`isSome_find?_bind`).
* `bind_snd_eq_none_iff`: binding comes to its end exactly if the names are distinct and new.
* `attempts_orderly` puts this together for every sequence of attempts from the empty registry.
-/

set_option autoImplicit false

namespace TapeAsm.Registry

variable {σ : Type} {r : Registry σ} {id : Nat} {n name : Text} {names : List Text}
  {c : Command σ}

/-- The registry after attempts at definitions, one after the other. One that stops leaves what it
has bound so far, and the next goes on from there. -/
def attempting (r : Registry σ) (attempts : List (Text × Command σ)) : Registry σ :=
  attempts.foldl (fun r entry => (r.define entry.1 entry.2).1) r

/-- The usage, where every listed name is bound to a command. -/
def usage? (r : Registry σ) : Option Text :=
  ((r.names.mergeSort Text.le).mapM fun name =>
    (r.command? name).map fun _ => r.usageLine name).map fun lines => Text.align lines.flatten

/-! ## Binding -/

theorem names_bind (r : Registry σ) (id : Nat) (names : List Text) :
    (r.bind id names).1.names = r.names := by
  induction names generalizing r with
  | nil => rfl
  | cons name names ih =>
    cases h : r.find? name with
    | some other => rw [bind_cons_of_bound h]
    | none => rw [bind_cons_of_free h, ih]

/-- The first of the names is bound however the binding ends. -/
theorem isSome_find?_bind (r : Registry σ) (id : Nat) (name : Text) (names : List Text) :
    ((r.bind id (name :: names)).1.find? name).isSome := by
  cases h : r.find? name with
  | some other =>
    rw [find?_bind_of_some h]
    rfl
  | none =>
    have hbound : find? { r with bindings := (name, id) :: r.bindings } name = some id := by
      rw [find?_cons, if_pos rfl]
    rw [bind_cons_of_free h, find?_bind_of_some hbound]
    rfl

/-- A name is bound to what it was bound to before, or to the new command. -/
theorem find?_of_bind {k : Nat} (h : (r.bind id names).1.find? n = some k) :
    r.find? n = some k ∨ k = id := by
  induction names generalizing r with
  | nil => exact .inl h
  | cons name names ih =>
    cases hname : r.find? name with
    | some other =>
      rw [bind_cons_of_bound hname] at h
      exact .inl h
    | none =>
      rw [bind_cons_of_free hname] at h
      obtain hk | rfl := ih h
      · rw [find?_cons] at hk
        split at hk
        · exact .inr (Option.some.inj hk).symm
        · exact .inl hk
      · exact .inr rfl

/-- **Binding comes to its end exactly if the names are distinct and new.** -/
theorem bind_snd_eq_none_iff :
    (r.bind id names).2 = none ↔ names.Nodup ∧ ∀ n ∈ names, r.find? n = none := by
  refine ⟨fun h => ?_, fun ⟨hd, hfree⟩ => bind_snd_eq_none hd hfree⟩
  induction names generalizing r with
  | nil => exact ⟨List.nodup_nil, by simp⟩
  | cons name names ih =>
    cases hname : r.find? name with
    | some other =>
      rw [bind_cons_of_bound hname] at h
      cases h
    | none =>
      rw [bind_cons_of_free hname] at h
      obtain ⟨hd, hfree⟩ := ih h
      -- the names that follow are new where this one is bound already, so they differ from it
      have hnew : ∀ n ∈ names, n ≠ name ∧ r.find? n = none := by
        intro n hn
        have hfind := hfree n hn
        rw [find?_cons] at hfind
        split at hfind
        · cases hfind
        · rename_i hne
          exact ⟨hne, hfind⟩
      refine ⟨List.nodup_cons.2 ⟨fun hmem => (hnew name hmem).1 rfl, hd⟩, ?_⟩
      exact List.forall_mem_cons.2 ⟨hname, fun n hn => (hnew n hn).2⟩

/-! ## What a definition keeps -/

/-- **A sound registry**: its listed names are bound, and to commands that it has. -/
structure Sound (r : Registry σ) : Prop where
  listed : ∀ n ∈ r.names, (r.find? n).isSome
  known : ∀ n id, r.find? n = some id → id < r.commands.size

theorem sound_empty : Sound (empty : Registry σ) where
  listed := by simp [empty]
  known := by simp [empty, find?]

theorem names_define (r : Registry σ) (name : Text) (c : Command σ) :
    (r.define name c).1.names = r.names ++ [name] :=
  names_bind _ _ _

theorem find?_define_of_some (h : r.find? n = some id) (name : Text) (c : Command σ) :
    (r.define name c).1.find? n = some id := by
  rw [define_eq]
  apply find?_bind_of_some
  exact h

theorem Sound.define (h : Sound r) (name : Text) (c : Command σ) : Sound (r.define name c).1 where
  listed := by
    intro n hn
    rw [names_define, List.mem_append, List.mem_singleton] at hn
    rcases hn with hn | rfl
    · obtain ⟨id, hid⟩ := Option.isSome_iff_exists.1 (h.listed n hn)
      rw [find?_define_of_some hid]
      rfl
    · exact isSome_find?_bind _ _ _ _
  known := by
    intro n id hid
    rw [commands_define, Array.size_push]
    obtain hold | rfl := find?_of_bind hid
    · exact Nat.lt_succ_of_lt (h.known n id hold)
    · exact Nat.lt_succ_self _

theorem Sound.attempting (h : Sound r) (attempts : List (Text × Command σ)) :
    Sound (r.attempting attempts) := by
  induction attempts generalizing r with
  | nil => exact h
  | cons entry attempts ih => exact ih (h.define entry.1 entry.2)

theorem Sound.exists_command? (h : Sound r) (hid : r.find? n = some id) :
    ∃ c, r.command? n = some c := by
  have hlt := h.known n id hid
  refine ⟨r.commands[id], ?_⟩
  rw [command?, hid]
  exact Array.getElem?_eq_getElem hlt

theorem Sound.exists_command?_of_mem (h : Sound r) (hn : n ∈ r.names) :
    ∃ c, r.command? n = some c := by
  obtain ⟨id, hid⟩ := Option.isSome_iff_exists.1 (h.listed n hn)
  exact h.exists_command? hid

theorem find?_attempting_of_some (h : r.find? n = some id) (attempts : List (Text × Command σ)) :
    (r.attempting attempts).find? n = some id := by
  induction attempts generalizing r with
  | nil => exact h
  | cons entry attempts ih => exact ih (find?_define_of_some h entry.1 entry.2)

theorem command?_attempting_of_some (h : r.command? n = some c)
    (attempts : List (Text × Command σ)) : (r.attempting attempts).command? n = some c := by
  induction attempts generalizing r with
  | nil => exact h
  | cons entry attempts ih => exact ih (command?_define_of_some h entry.1 entry.2)

theorem mapM_usageLine (h : ∀ n ∈ names, ∃ c, r.command? n = some c) :
    (names.mapM fun name => (r.command? name).map fun _ => r.usageLine name) =
      some (names.map r.usageLine) := by
  induction names with
  | nil => rfl
  | cons name names ih =>
    obtain ⟨⟨c, hc⟩, hrest⟩ := List.forall_mem_cons.1 h
    simp [hc, ih hrest]

/-- Where every listed name is bound to a command, the usage can be written. -/
theorem usage?_eq_some (h : ∀ n ∈ r.names, ∃ c, r.command? n = some c) :
    r.usage? = some r.usage := by
  have hsorted : ∀ n ∈ r.names.mergeSort Text.le, ∃ c, r.command? n = some c := by
    intro n hn
    exact h n (List.mem_mergeSort.1 hn)
  rw [usage?, mapM_usageLine hsorted, usage, List.flatMap_def]
  rfl

/-! ## Attempts in turn -/

/-- **An orderly registry.** -/
structure Orderly (r : Registry σ) : Prop where
  /-- Every listed name is bound to a command, -/
  listed : ∀ n ∈ r.names, ∃ c, r.command? n = some c
  /-- so that the usage never lacks one. -/
  usage : r.usage? = some r.usage
  /-- Whatever is attempted later, a bound name stays bound to the same command. -/
  kept : ∀ later n id, r.find? n = some id →
    (r.attempting later).find? n = some id ∧ (r.attempting later).command? n = r.command? n
  /-- A definition comes to its end exactly if its names are distinct and not bound yet, -/
  completes_iff : ∀ name c, (r.define name c).2 = none ↔
    (name :: c.aliases).Nodup ∧ ∀ n ∈ name :: c.aliases, r.find? n = none
  /-- and then all of them, none of which was bound before, are bound to the new command. -/
  bound : ∀ name c, (r.define name c).2 = none → ∀ n ∈ name :: c.aliases,
    r.find? n = none ∧ (r.define name c).1.find? n = some r.commands.size ∧
      (r.define name c).1.command? n = some c

/-- **A registry is orderly after all attempts at definitions**, those that stopped included. -/
theorem attempts_orderly (attempts : List (Text × Command σ)) :
    Orderly ((empty : Registry σ).attempting attempts) := by
  have hsound := sound_empty.attempting attempts
  have hlisted := fun n => hsound.exists_command?_of_mem (n := n)
  refine ⟨hlisted, usage?_eq_some hlisted, fun later n id hid => ?_, fun name c => ?_,
    fun name c hc n hn => ?_⟩
  · obtain ⟨c, hc⟩ := hsound.exists_command? hid
    rw [find?_attempting_of_some hid, command?_attempting_of_some hc, hc]
    exact ⟨rfl, rfl⟩
  · exact bind_snd_eq_none_iff
  · have hfree := (bind_snd_eq_none_iff.1 hc).2 n hn
    exact ⟨hfree, find?_bind_of_mem hc hn, command?_define_of_mem hc hn⟩

-- the second definition stops at its second alias: the first one is bound, the third is not
example :
    let c : Command Unit := action fun s => s
    let r := empty.attempting [("a", c), ("b", { c with aliases := ["c", "a", "d"] })]
    r.names = [("a" : Text), "b"] ∧
      [("a" : Text), "b", "c", "d"].map r.find? = [some 0, some 1, some 1, none] := by
  decide

end TapeAsm.Registry
