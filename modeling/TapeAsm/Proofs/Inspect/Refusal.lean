import TapeAsm.Inspect.Datum

/-!
# Which data are refused

A datum is shown part by part, and the first part that cannot be shown refuses the whole. The parts
that are looked at are those that `Datum.Reaches` leads to: items, keys and values of mappings,
exported fields and what references refer to, but nothing behind a name.

* `refused_list_iff`, `refused_map_iff`, `refused_record_iff`, `refused_reference_iff`: when a datum
  is refused, told by its parts. `toValues_eq_error_iff`, `mapEntries_eq_error_iff` and
  `fieldEntries_eq_error_iff` say it of the loops over items, entries and fields.
* `Reaches.refused`: what is refused refuses everything that it is reached from.
* `exists_fault`: what is refused reaches a part that is refused on its own account (`AtFault`).
* `toValue_fails_iff` puts the two together: what is at fault is something of an unsupported type, a
  mapping with a key that cannot be one, or a reference to nothing that would be asked for a name.
-/

set_option autoImplicit false

namespace TapeAsm.Inspect.Datum

/-- **The parts of a datum that are looked at** when it is shown. A reference to something that has
a name is not followed; a record is shown by its fields even if it has one. -/
inductive Reaches : Datum → Datum → Prop where
  | self (d : Datum) : Reaches d d
  | item {items : List Datum} {d part : Datum} :
      d ∈ items → Reaches d part → Reaches (list items) part
  | key {entries : List (Datum × Datum)} {k d part : Datum} :
      (k, d) ∈ entries → Reaches k part → Reaches (map entries) part
  | entry {entries : List (Datum × Datum)} {k d part : Datum} :
      (k, d) ∈ entries → Reaches d part → Reaches (map entries) part
  | field {name : Option Text} {fields : List Field} {label : Text} {d part : Datum} :
      .mk label true d ∈ fields → Reaches d part → Reaches (record name fields) part
  | reference {target part : Datum} :
      target.name? = none → Reaches target part → Reaches (reference target) part
  | box {content part : Datum} : Reaches content part → Reaches (box content) part

/-- The datum has no value. -/
def Refused (d : Datum) : Prop := ∃ refusal, d.toValue = .error refusal

/-- The datum has a value, but one that cannot be a key. -/
def Unhashable (d : Datum) : Prop :=
  ∃ value type, d.toValue = .ok value ∧ value.unhashable? = some type

/-- What refuses a datum on its own account, whatever its parts are. -/
inductive AtFault : Datum → Prop where
  | unsupported (type : Text) : AtFault (unsupported type)
  | absent (naming : Naming) : AtFault (absent (some naming))
  | key {entries : List (Datum × Datum)} {k d : Datum} :
      (k, d) ∈ entries → k.Unhashable → AtFault (map entries)

/-! ## Computations that fail -/

section
variable {ε α β : Type} {x : Except ε α} {f : α → Except ε β}

theorem bind_eq_error_iff :
    (∃ e, x >>= f = .error e) ↔
      (∃ e, x = .error e) ∨ ∃ a, x = .ok a ∧ ∃ e, f a = .error e := by
  cases x with
  | error e => simp [bind, Except.bind]
  | ok a => simp [bind, Except.bind]

/-- Where the second part fails or not whatever the first one gives. -/
theorem bind_eq_error_iff_or {p : Prop} (h : ∀ a, (∃ e, f a = .error e) ↔ p) :
    (∃ e, x >>= f = .error e) ↔ (∃ e, x = .error e) ∨ p := by
  rw [bind_eq_error_iff]
  cases x with
  | error e => simp
  | ok a => simp [h]

end

/-! ## Loops over parts -/

theorem toValues_eq_error_iff (items : List Datum) :
    (∃ e, toValues items = .error e) ↔ ∃ d ∈ items, d.Refused := by
  induction items with
  | nil =>
    change (∃ e, Except.ok [] = .error e) ↔ _
    simp
  | cons item rest ih =>
    have hrest : ∀ value, (∃ e, (toValues rest >>= fun values => .ok (value :: values)) =
        (.error e : Except Refusal (List Value))) ↔ ∃ d ∈ rest, d.Refused := by
      intro value
      rw [← ih, bind_eq_error_iff]
      simp
    change (∃ e, (item.toValue >>= fun value => toValues rest >>= fun values =>
      .ok (value :: values)) = .error e) ↔ _
    rw [bind_eq_error_iff_or hrest]
    simp [Refused]

theorem insertKey_eq_error_iff (key value : Value) (entries : List (Value × Value)) :
    (∃ e, insertKey key value entries = .error e) ↔ ∃ type, key.unhashable? = some type := by
  unfold insertKey
  cases key.unhashable? with
  | some type => simp
  | none => simp

theorem mapEntry_eq_error_iff (before : List (Value × Value)) (k d : Datum) :
    (∃ e, mapEntry before (k, d) = .error e) ↔ k.Refused ∨ d.Refused ∨ k.Unhashable := by
  have hkey : ∀ value, (∃ e, (toValue d >>= fun v => insertKey value v before) = .error e) ↔
      d.Refused ∨ ∃ type, value.unhashable? = some type :=
    fun value => bind_eq_error_iff_or fun v => insertKey_eq_error_iff value v before
  change (∃ e, (toValue k >>= fun value => toValue d >>= fun v => insertKey value v before) =
    .error e) ↔ _
  rw [bind_eq_error_iff]
  simp only [hkey]
  constructor
  · rintro (hk | ⟨value, hvalue, hd | ⟨type, htype⟩⟩)
    · exact .inl hk
    · exact .inr (.inl hd)
    · exact .inr (.inr ⟨value, type, hvalue, htype⟩)
  · rintro (hk | hd | ⟨value, type, hvalue, htype⟩)
    · exact .inl hk
    · cases hk : k.toValue with
      | error e => exact .inl ⟨e, rfl⟩
      | ok value => exact .inr ⟨value, rfl, .inl hd⟩
    · exact .inr ⟨value, hvalue, .inr ⟨type, htype⟩⟩

theorem mapEntries_eq_error_iff (before : List (Value × Value)) (entries : List (Datum × Datum)) :
    (∃ e, mapEntries before entries = .error e) ↔
      ∃ k d, (k, d) ∈ entries ∧ (k.Refused ∨ d.Refused ∨ k.Unhashable) := by
  induction entries generalizing before with
  | nil =>
    change (∃ e, Except.ok before = .error e) ↔ _
    simp
  | cons entry rest ih =>
    obtain ⟨k, d⟩ := entry
    change (∃ e, (mapEntry before (k, d) >>= fun entries => mapEntries entries rest) =
      .error e) ↔ _
    rw [bind_eq_error_iff_or ih, mapEntry_eq_error_iff]
    constructor
    · rintro (h | ⟨k', d', hmem, h⟩)
      · exact ⟨k, d, List.mem_cons_self, h⟩
      · exact ⟨k', d', List.mem_cons_of_mem _ hmem, h⟩
    · rintro ⟨k', d', hmem, h⟩
      rcases List.mem_cons.1 hmem with heq | hmem
      · cases heq
        exact .inl h
      · exact .inr ⟨k', d', hmem, h⟩

theorem fieldEntry_eq_error_iff (before : List (Value × Value)) (label : Text) (exported : Bool)
    (d : Datum) :
    (∃ e, fieldEntry before (.mk label exported d) = .error e) ↔ exported = true ∧ d.Refused := by
  have hlabel : ∀ value, (∃ e, insertKey (.text label) value before = .error e) ↔ False := by
    intro value
    simp [insertKey_eq_error_iff, Value.unhashable?]
  cases exported with
  | false =>
    change (∃ e, Except.ok before = .error e) ↔ _
    simp
  | true =>
    change (∃ e, (toValue d >>= fun value => insertKey (.text label) value before) =
      .error e) ↔ _
    rw [bind_eq_error_iff_or hlabel]
    simp [Refused]

theorem fieldEntries_eq_error_iff (before : List (Value × Value)) (fields : List Field) :
    (∃ e, fieldEntries before fields = .error e) ↔
      ∃ label d, .mk label true d ∈ fields ∧ d.Refused := by
  induction fields generalizing before with
  | nil =>
    change (∃ e, Except.ok before = .error e) ↔ _
    simp
  | cons field rest ih =>
    obtain ⟨label, exported, d⟩ := field
    change (∃ e, (fieldEntry before (.mk label exported d) >>= fun entries =>
      fieldEntries entries rest) = .error e) ↔ _
    rw [bind_eq_error_iff_or ih, fieldEntry_eq_error_iff]
    constructor
    · rintro (⟨rfl, h⟩ | ⟨label', d', hmem, h⟩)
      · exact ⟨label, d, List.mem_cons_self, h⟩
      · exact ⟨label', d', List.mem_cons_of_mem _ hmem, h⟩
    · rintro ⟨label', d', hmem, h⟩
      rcases List.mem_cons.1 hmem with heq | hmem
      · cases heq
        exact .inl ⟨rfl, h⟩
      · exact .inr ⟨label', d', hmem, h⟩

/-! ## Refusal by parts -/

theorem refused_list_iff {items : List Datum} :
    (list items).Refused ↔ ∃ d ∈ items, d.Refused := by
  change (∃ e, (toValues items >>= fun values => .ok (Value.list values)) = .error e) ↔ _
  rw [bind_eq_error_iff_or (p := False) (by simp), or_false, toValues_eq_error_iff]

theorem refused_map_iff {entries : List (Datum × Datum)} :
    (map entries).Refused ↔
      ∃ k d, (k, d) ∈ entries ∧ (k.Refused ∨ d.Refused ∨ k.Unhashable) := by
  change (∃ e, (mapEntries [] entries >>= fun entries => .ok (Value.dict entries)) = .error e) ↔ _
  rw [bind_eq_error_iff_or (p := False) (by simp), or_false, mapEntries_eq_error_iff]

theorem refused_record_iff {name : Option Text} {fields : List Field} :
    (record name fields).Refused ↔ ∃ label d, .mk label true d ∈ fields ∧ d.Refused := by
  change (∃ e, (fieldEntries [] fields >>= fun entries => .ok (Value.dict entries)) = .error e) ↔ _
  rw [bind_eq_error_iff_or (p := False) (by simp), or_false, fieldEntries_eq_error_iff]

theorem refused_reference_iff {target : Datum} :
    (reference target).Refused ↔ target.name? = none ∧ target.Refused := by
  rw [Refused, toValue]
  cases target.name? with
  | some name => simp
  | none => simp [Refused]

theorem refused_box_iff {content : Datum} : (box content).Refused ↔ content.Refused :=
  Iff.rfl

theorem AtFault.refused {d : Datum} (h : AtFault d) : d.Refused := by
  cases h with
  | unsupported type => exact ⟨_, rfl⟩
  | absent naming => exact ⟨_, rfl⟩
  | key hmem hk => exact refused_map_iff.2 ⟨_, _, hmem, .inr (.inr hk)⟩

/-- **What is refused refuses everything that it is reached from.** -/
theorem Reaches.refused {d part : Datum} (h : Reaches d part) (hp : part.Refused) :
    d.Refused := by
  induction h with
  | self d => exact hp
  | item hmem _ ih => exact refused_list_iff.2 ⟨_, hmem, ih hp⟩
  | key hmem _ ih => exact refused_map_iff.2 ⟨_, _, hmem, .inl (ih hp)⟩
  | entry hmem _ ih => exact refused_map_iff.2 ⟨_, _, hmem, .inr (.inl (ih hp))⟩
  | field hmem _ ih => exact refused_record_iff.2 ⟨_, _, hmem, ih hp⟩
  | reference hname _ ih => exact refused_reference_iff.2 ⟨hname, ih hp⟩
  | box _ ih => exact refused_box_iff.2 (ih hp)

/-! ## The part that is at fault -/

theorem sizeOf_lt_of_mem_map {entries : List (Datum × Datum)} {k d : Datum}
    (h : (k, d) ∈ entries) :
    sizeOf k < sizeOf (map entries) ∧ sizeOf d < sizeOf (map entries) := by
  have hlt := List.sizeOf_lt_of_mem h
  simp only [map.sizeOf_spec, Prod.mk.sizeOf_spec] at hlt ⊢
  omega

/-- **What is refused reaches a part that is at fault.** -/
theorem exists_fault : (d : Datum) → d.Refused → ∃ part, Reaches d part ∧ AtFault part
  | list items, h => by
    obtain ⟨d, hmem, hd⟩ := refused_list_iff.1 h
    obtain ⟨part, hreach, hfault⟩ := exists_fault d hd
    exact ⟨part, .item hmem hreach, hfault⟩
  | map entries, h => by
    obtain ⟨k, d, hmem, hk | hd | hk⟩ := refused_map_iff.1 h
    · obtain ⟨part, hreach, hfault⟩ := exists_fault k hk
      exact ⟨part, .key hmem hreach, hfault⟩
    · obtain ⟨part, hreach, hfault⟩ := exists_fault d hd
      exact ⟨part, .entry hmem hreach, hfault⟩
    · exact ⟨_, .self _, .key hmem hk⟩
  | record name fields, h => by
    obtain ⟨label, d, hmem, hd⟩ := refused_record_iff.1 h
    obtain ⟨part, hreach, hfault⟩ := exists_fault d hd
    exact ⟨part, .field hmem hreach, hfault⟩
  | reference target, h => by
    obtain ⟨hname, ht⟩ := refused_reference_iff.1 h
    obtain ⟨part, hreach, hfault⟩ := exists_fault target ht
    exact ⟨part, .reference hname hreach, hfault⟩
  | box content, h => by
    obtain ⟨part, hreach, hfault⟩ := exists_fault content (refused_box_iff.1 h)
    exact ⟨part, .box hreach, hfault⟩
  | unsupported type, _ => ⟨_, .self _, .unsupported type⟩
  | absent (some naming), _ => ⟨_, .self _, .absent naming⟩
  | absent none, h | nothing, h | bool _, h | int _, h | float _, h | text _, h | bytes _, h
  | codes _, h | named _, h | function, h | value _, h => by
    obtain ⟨e, he⟩ := h
    cases he
termination_by d => sizeOf d
decreasing_by
  · have := List.sizeOf_lt_of_mem hmem
    simp only [list.sizeOf_spec]
    omega
  · exact (sizeOf_lt_of_mem_map hmem).1
  · exact (sizeOf_lt_of_mem_map hmem).2
  · have := List.sizeOf_lt_of_mem hmem
    simp only [record.sizeOf_spec, Field.mk.sizeOf_spec] at this ⊢
    omega
  · simp only [reference.sizeOf_spec]
    omega
  · simp only [box.sizeOf_spec]
    omega

/-- **A datum is refused exactly if it reaches something of an unsupported type, a key that becomes
a list or a dictionary, or a reference to nothing that would be asked for a name.** A reference to
nothing is shown as nothing only where the type that it could refer to does not name its values. -/
theorem toValue_fails_iff (d : Datum) :
    ((∃ refusal, d.toValue = .error refusal) ↔
      (∃ type, Reaches d (unsupported type)) ∨
      (∃ entries k v, Reaches d (map entries) ∧ (k, v) ∈ entries ∧ k.Unhashable) ∨
      ∃ naming, Reaches d (absent (some naming))) ∧
    ∀ naming, (absent naming).toValue = .ok .none ↔ naming = none := by
  refine ⟨⟨fun h => ?_, ?_⟩, fun naming => ?_⟩
  · obtain ⟨part, hreach, hfault⟩ := exists_fault d h
    cases hfault with
    | unsupported type => exact .inl ⟨type, hreach⟩
    | absent naming => exact .inr (.inr ⟨naming, hreach⟩)
    | key hmem hk => exact .inr (.inl ⟨_, _, _, hreach, hmem, hk⟩)
  · rintro (⟨type, hreach⟩ | ⟨entries, k, v, hreach, hmem, hk⟩ | ⟨naming, hreach⟩)
    · exact hreach.refused (AtFault.unsupported type).refused
    · exact hreach.refused (AtFault.key hmem hk).refused
    · exact hreach.refused (AtFault.absent naming).refused
  · cases naming with
    | none => exact ⟨fun _ => rfl, fun _ => rfl⟩
    | some naming => exact ⟨fun h => (by cases h), fun h => (by cases h)⟩

/-- A reference to no operation is refused, although it reaches neither a mapping nor anything of an
unsupported type. -/
theorem absent_operation_refused :
    (absent (some opNaming)).toValue = .error (.namedAbsent opNaming.method opNaming.type) ∧
    (¬∃ type, Reaches (absent (some opNaming)) (unsupported type)) ∧
    ¬∃ entries, Reaches (absent (some opNaming)) (map entries) := by
  refine ⟨rfl, ?_, ?_⟩
  · rintro ⟨type, h⟩
    cases h
  · rintro ⟨entries, h⟩
    cases h

end TapeAsm.Inspect.Datum
