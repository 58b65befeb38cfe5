import TapeAsm.Failure

/-!
# Which error a failure is told by

A failure is a tree, and what is inside it stands at positions (`Failure.part?`): a position says
which cause to go into, from the top down, and the lexicographic order of positions is the
depth-first order of the tree. `Failure.First` is the first error of a kind in this order.

The two descriptions of a failure go different ways. The kind asks for marks, which bare marks and
the causes of structural errors carry too; the message looks for an error by its type.
`firstOf?_cases` says what the search finds, `carries_iff_occurs` what the marks mean, and
`Failure.kind_and_message` that both describe the same error where every mark belongs to an error
(`Failure.Documented`).
-/

set_option autoImplicit false

namespace TapeAsm

/-- The mark that a kind is recognised by. -/
def FailureKind.mark? : FailureKind → Option Mark
  | lexical => some .lexical
  | structural => some .structural
  | stepLimit => some .stepLimit
  | other => none

namespace Failure

/-! ## Positions -/

/-- What stands at a position. A context has one cause, at 0. -/
def part? : Failure → List Nat → Option Failure
  | failure, [] => some failure
  | .wrapped _ cause, 0 :: position => cause.part? position
  | .joined causes, i :: position => causes[i]?.bind fun cause => cause.part? position
  | _, _ => none

/-- The kind of an error by its type alone. -/
def own : Failure → FailureKind
  | .lexical _ => .lexical
  | .structural _ => .structural
  | .stepLimit _ => .stepLimit
  | _ => .other

/-- Is there an error of the kind anywhere in the tree? -/
def Occurs (failure : Failure) (k : FailureKind) : Prop :=
  ∃ position e, failure.part? position = some e ∧ e.own = k

/-- The first error of a kind: none stands at a lesser position. -/
def First (failure : Failure) (k : FailureKind) (e : Failure) : Prop :=
  ∃ position, failure.part? position = some e ∧ e.own = k ∧
    ∀ other e', failure.part? other = some e' → e'.own = k → ¬List.Lex (· < ·) other position

/-- Is a leaf one that programs are refused or halted with, or a plain text? A bare mark is not, and
the cause of a structural error is a fault of parsing. -/
def isDocumented : Failure → Bool
  | .mark _ => false
  | .structural error => [.unmatched, .unrecognized, .unclosed].contains error.cause
  | _ => true

/-- **A failure made of documented errors**, by contexts and joining. -/
def Documented (failure : Failure) : Prop := ∀ e ∈ failure.leaves, e.isDocumented = true

instance (failure : Failure) : Decidable failure.Documented :=
  inferInstanceAs (Decidable (∀ e ∈ failure.leaves, e.isDocumented = true))

/-! ## Leaves -/

/-- Is the failure one without a cause? -/
def isLeaf : Failure → Bool
  | .wrapped _ _ => false
  | .joined _ => false
  | _ => true

theorem leaves_of_isLeaf {f : Failure} (h : f.isLeaf = true) : f.leaves = [f] := by
  cases f with
  | wrapped context cause => cases h
  | joined causes => cases h
  | _ => rfl

theorem part?_of_isLeaf {f : Failure} (h : f.isLeaf = true) {position : List Nat} {e : Failure} :
    f.part? position = some e ↔ position = [] ∧ e = f := by
  cases position with
  | nil => simp [part?, eq_comm]
  | cons i position =>
    cases f with
    | wrapped context cause => cases h
    | joined causes => cases h
    | _ => simp [part?]

/-- **Induction over a failure**, with the causes that are joined taken off one by one. -/
theorem induct {motive : Failure → Prop} (leaf : ∀ f : Failure, f.isLeaf = true → motive f)
    (wrapped : ∀ (context : Text) (cause : Failure), motive cause → motive (.wrapped context cause))
    (nil : motive (.joined []))
    (cons : ∀ (cause : Failure) (causes : List Failure), motive cause → motive (.joined causes) →
      motive (.joined (cause :: causes))) : ∀ f, motive f
  | .wrapped context cause => wrapped context cause (induct leaf wrapped nil cons cause)
  | .joined [] => nil
  | .joined (cause :: causes) =>
    cons cause causes (induct leaf wrapped nil cons cause)
      (induct leaf wrapped nil cons (.joined causes))
  | .plain text => leaf (.plain text) rfl
  | .mark m => leaf (.mark m) rfl
  | .structural error => leaf (.structural error) rfl
  | .stepLimit error => leaf (.stepLimit error) rfl
  | .lexical error => leaf (.lexical error) rfl

/-! ## Occurrence -/

section
variable {k : FailureKind} {e cause : Failure} {causes : List Failure} {context : Text}

theorem occurs_leaf_iff {f : Failure} (h : f.isLeaf = true) : f.Occurs k ↔ f.own = k := by
  constructor
  · rintro ⟨position, e, he, hown⟩
    obtain ⟨-, rfl⟩ := (part?_of_isLeaf h).1 he
    exact hown
  · intro hown
    exact ⟨[], f, rfl, hown⟩

/-- The top comes before everything inside. -/
theorem first_self (h : e.own = k) : e.First k e := by
  refine ⟨[], rfl, h, fun other e' _ _ => ?_⟩
  exact List.not_lex_nil

variable (hk : k ≠ .other)
include hk

theorem occurs_wrapped_iff : (wrapped context cause).Occurs k ↔ cause.Occurs k := by
  constructor
  · rintro ⟨position, e, he, hown⟩
    match position with
    | [] => cases he; exact absurd hown.symm hk
    | 0 :: position => exact ⟨position, e, he, hown⟩
    | (i + 1) :: position => simp [part?] at he
  · rintro ⟨position, e, he, hown⟩
    exact ⟨0 :: position, e, he, hown⟩

theorem First.wrapped (h : cause.First k e) : (wrapped context cause).First k e := by
  obtain ⟨position, he, hown, hmin⟩ := h
  refine ⟨0 :: position, he, hown, fun other e' he' hown' => ?_⟩
  match other with
  | [] => cases he'; exact absurd hown'.symm hk
  | 0 :: other =>
    have hge := hmin other e' he' hown'
    simpa [List.cons_lex_cons_iff] using hge
  | (i + 1) :: other => simp [part?] at he'

theorem not_occurs_joined_nil : ¬(joined []).Occurs k := by
  rintro ⟨position, e, he, hown⟩
  cases position with
  | nil => cases he; exact absurd hown.symm hk
  | cons i position => simp [part?] at he

theorem occurs_joined_cons_iff :
    (joined (cause :: causes)).Occurs k ↔ cause.Occurs k ∨ (joined causes).Occurs k := by
  constructor
  · rintro ⟨position, e, he, hown⟩
    match position with
    | [] => cases he; exact absurd hown.symm hk
    | 0 :: position => exact .inl ⟨position, e, by simpa [part?] using he, hown⟩
    | (i + 1) :: position => exact .inr ⟨i :: position, e, by simpa [part?] using he, hown⟩
  · rintro (⟨position, e, he, hown⟩ | ⟨position, e, he, hown⟩)
    · exact ⟨0 :: position, e, by simpa [part?] using he, hown⟩
    · cases position with
      | nil => cases he; exact absurd hown.symm hk
      | cons i position => exact ⟨(i + 1) :: position, e, by simpa [part?] using he, hown⟩

theorem First.joined_head (h : cause.First k e) : (joined (cause :: causes)).First k e := by
  obtain ⟨position, he, hown, hmin⟩ := h
  refine ⟨0 :: position, by simpa [part?] using he, hown, fun other e' he' hown' => ?_⟩
  match other with
  | [] => cases he'; exact absurd hown'.symm hk
  | 0 :: other =>
    have hge := hmin other e' (by simpa [part?] using he') hown'
    simpa [List.cons_lex_cons_iff] using hge
  | (i + 1) :: other => simp [List.cons_lex_cons_iff]

theorem First.joined_tail (hnot : ¬cause.Occurs k) (h : (joined causes).First k e) :
    (joined (cause :: causes)).First k e := by
  obtain ⟨position, he, hown, hmin⟩ := h
  cases position with
  | nil => cases he; exact absurd hown.symm hk
  | cons i position =>
    refine ⟨(i + 1) :: position, by simpa [part?] using he, hown, fun other e' he' hown' => ?_⟩
    match other with
    | [] => cases he'; exact absurd hown'.symm hk
    | 0 :: other => exact absurd ⟨other, e', by simpa [part?] using he', hown'⟩ hnot
    | (j + 1) :: other =>
      have hge := hmin (j :: other) e' (by simpa [part?] using he') hown'
      simpa [List.cons_lex_cons_iff] using hge

end

/-! ## Searching for an error -/

/-- The first leaf whose type is of the kind. -/
def firstOf? (failure : Failure) (k : FailureKind) : Option Failure :=
  failure.leaves.find? fun e => e.own = k

/-- **A search of the leaves finds the first error of its kind**, or there is none. -/
theorem firstOf?_cases {k : FailureKind} (hk : k ≠ .other) (f : Failure) :
    (∃ e, f.firstOf? k = some e ∧ f.First k e) ∨ (f.firstOf? k = none ∧ ¬f.Occurs k) := by
  induction f using induct with
  | leaf f hleaf =>
    rw [firstOf?, leaves_of_isLeaf hleaf, occurs_leaf_iff hleaf]
    by_cases h : f.own = k
    · exact .inl ⟨f, by simp [h], first_self h⟩
    · exact .inr ⟨by simp [h], h⟩
  | wrapped context cause ih =>
    rw [firstOf?, leaves, ← firstOf?, occurs_wrapped_iff hk]
    obtain ⟨e, hfind, hfirst⟩ | hnone := ih
    · exact .inl ⟨e, hfind, hfirst.wrapped hk⟩
    · exact .inr hnone
  | nil => exact .inr ⟨rfl, not_occurs_joined_nil hk⟩
  | cons cause causes ih ihs =>
    have happend : firstOf? (joined (cause :: causes)) k =
        (cause.firstOf? k).or (firstOf? (joined causes) k) := by
      simp [firstOf?, leaves, leavesOf]
    rw [happend, occurs_joined_cons_iff hk]
    -- what the first cause holds comes before what the others hold
    obtain ⟨e, hfind, hfirst⟩ | ⟨hnone, hnot⟩ := ih
    · exact .inl ⟨e, by rw [hfind]; rfl, hfirst.joined_head hk⟩
    · rw [hnone, Option.none_or]
      obtain ⟨e, hfind, hfirst⟩ | ⟨hnones, hnots⟩ := ihs
      · exact .inl ⟨e, hfind, hfirst.joined_tail hk hnot⟩
      · exact .inr ⟨hnones, not_or.2 ⟨hnot, hnots⟩⟩

section
variable {k : FailureKind} (hk : k ≠ .other) {f : Failure}
include hk

theorem firstOf?_of_occurs (h : f.Occurs k) : ∃ e, f.firstOf? k = some e ∧ f.First k e := by
  rcases firstOf?_cases hk f with hsome | ⟨-, hnot⟩
  · exact hsome
  · exact absurd h hnot

theorem firstOf?_of_not_occurs (h : ¬f.Occurs k) : f.firstOf? k = none := by
  rcases firstOf?_cases hk f with ⟨e, -, position, he, hown, -⟩ | ⟨hnone, -⟩
  · exact absurd ⟨position, e, he, hown⟩ h
  · exact hnone

end

theorem map_findSome? {α : Type} {sel : Failure → Option α} {say : α → Text} {k : FailureKind}
    (h : ∀ e, (sel e).map say = if e.own = k then some e.text else none) (f : Failure) :
    (f.leaves.findSome? sel).map say = (f.firstOf? k).map text := by
  rw [firstOf?]
  induction f.leaves with
  | nil => rfl
  | cons e rest ih =>
    have he := h e
    rw [List.findSome?_cons, List.find?_cons]
    by_cases hown : e.own = k
    · rw [if_pos hown] at he
      obtain ⟨a, ha, hsay⟩ := Option.map_eq_some_iff.1 he
      simp [ha, hsay, hown]
    · rw [if_neg hown, Option.map_eq_none_iff] at he
      simp [he, hown, ih]

/-- The message is the text of the first error that is found, kind after kind. -/
theorem message_eq (f : Failure) :
    f.message = (((f.firstOf? .lexical).or ((f.firstOf? .structural).or
      (f.firstOf? .stepLimit))).map text).getD f.text := by
  have hlexical : f.lexical?.map Lexical.message = (f.firstOf? .lexical).map text :=
    map_findSome? (fun e => by cases e <;> rfl) f
  have hstructural : f.structural?.map Structural.message = (f.firstOf? .structural).map text :=
    map_findSome? (fun e => by cases e <;> rfl) f
  have hlimit : f.stepLimit?.map StepLimit.message = (f.firstOf? .stepLimit).map text :=
    map_findSome? (fun e => by cases e <;> rfl) f
  rw [Option.map_or, Option.map_or, ← hlexical, ← hstructural, ← hlimit, message]
  cases f.lexical? with
  | some error => rfl
  | none =>
    cases f.structural? with
    | some error => rfl
    | none => cases f.stepLimit? <;> rfl

/-! ## Marks -/

section
variable {k : FailureKind} {m : Mark} (hm : k.mark? = some m)
include hm

theorem carries_leaf_iff {f : Failure} (hleaf : f.isLeaf = true) (hf : f.isDocumented = true) :
    f.carries m = true ↔ f.own = k := by
  cases f with
  | structural error =>
    have hcause : error.cause = .unmatched ∨ error.cause = .unrecognized ∨
        error.cause = .unclosed := by simpa [isDocumented] using hf
    rcases hcause with hc | hc | hc <;> cases k <;> cases hm <;> simp [carries, own, hc]
  | mark own => cases hf
  | wrapped context cause => cases hleaf
  | joined causes => cases hleaf
  | _ => cases k <;> cases hm <;> simp [carries, own]

/-- **A mark stands for the occurrence of its kind** where all errors are documented. -/
theorem carries_iff_occurs {f : Failure} (h : f.Documented) :
    f.carries m = true ↔ f.Occurs k := by
  have hk : k ≠ .other := by
    rintro rfl
    cases hm
  induction f using induct with
  | leaf f hleaf =>
    rw [occurs_leaf_iff hleaf]
    exact carries_leaf_iff hm hleaf (h f (by simp [leaves_of_isLeaf hleaf]))
  | wrapped context cause ih =>
    rw [carries, occurs_wrapped_iff hk]
    exact ih h
  | nil =>
    have := not_occurs_joined_nil hk
    simp [carries, anyCarries, this]
  | cons cause causes ih ihs =>
    rw [Documented, leaves, leavesOf, List.forall_mem_append] at h
    rw [carries, anyCarries, Bool.or_eq_true, occurs_joined_cons_iff hk]
    exact or_congr (ih h.1) (ihs h.2)

end

/-! ## The two descriptions -/

/-- **The kind and the message describe the same error.** In a failure made of documented errors,
the first of the three kinds that occurs is the one that is named, and the message is the text of
the first error of that kind in depth-first order. If none of them occurs, the kind says so and the
message is the whole text. -/
theorem kind_and_message {f : Failure} (h : f.Documented) :
    (f.Occurs .lexical → f.kind.text = "lexical mismatch" ∧
      ∃ e, f.First .lexical e ∧ f.message = e.text) ∧
    (¬f.Occurs .lexical → f.Occurs .structural → f.kind.text = "structural" ∧
      ∃ e, f.First .structural e ∧ f.message = e.text) ∧
    (¬f.Occurs .lexical → ¬f.Occurs .structural → f.Occurs .stepLimit →
      f.kind.text = "step limit exceeded" ∧ ∃ e, f.First .stepLimit e ∧ f.message = e.text) ∧
    (¬f.Occurs .lexical → ¬f.Occurs .structural → ¬f.Occurs .stepLimit →
      f.kind.text = "other" ∧ f.message = f.text) := by
  have hlexical := carries_iff_occurs (k := .lexical) rfl h
  have hstructural := carries_iff_occurs (k := .structural) rfl h
  have hlimit := carries_iff_occurs (k := .stepLimit) rfl h
  refine ⟨fun ho => ?_, fun h1 ho => ?_, fun h1 h2 ho => ?_, fun h1 h2 h3 => ?_⟩
  · obtain ⟨e, he, hfirst⟩ := firstOf?_of_occurs (by decide) ho
    refine ⟨?_, e, hfirst, ?_⟩
    · simp [kind, hlexical.2 ho, FailureKind.text]
    · simp [message_eq, he]
  · obtain ⟨e, he, hfirst⟩ := firstOf?_of_occurs (by decide) ho
    refine ⟨?_, e, hfirst, ?_⟩
    · simp [kind, mt hlexical.1 h1, hstructural.2 ho, FailureKind.text]
    · simp [message_eq, firstOf?_of_not_occurs (by decide) h1, he]
  · obtain ⟨e, he, hfirst⟩ := firstOf?_of_occurs (by decide) ho
    refine ⟨?_, e, hfirst, ?_⟩
    · simp [kind, mt hlexical.1 h1, mt hstructural.1 h2, hlimit.2 ho, FailureKind.text]
    · simp [message_eq, firstOf?_of_not_occurs (by decide) h1,
        firstOf?_of_not_occurs (by decide) h2, he]
  · refine ⟨?_, ?_⟩
    · simp [kind, mt hlexical.1 h1, mt hstructural.1 h2, mt hlimit.1 h3, FailureKind.text]
    · simp [message_eq, firstOf?_of_not_occurs (by decide) h1,
        firstOf?_of_not_occurs (by decide) h2, firstOf?_of_not_occurs (by decide) h3]

/-- A structural error, and two lists of invalid tokens of which the first stands deeper. -/
def mixed : Failure :=
  joined [wrapped "run" (structural ⟨.unclosed, 0, "LOOP_START"⟩),
    joined [plain "a", wrapped "b" (lexical ⟨[⟨"MOV", 2⟩]⟩)], lexical ⟨[⟨"ADD", 3⟩]⟩]

theorem kind_and_message_mixed :
    mixed.Documented ∧ mixed.Occurs .lexical ∧ mixed.kind.text = "lexical mismatch" ∧
      ∃ e, mixed.First .lexical e ∧ e.text = "tokens are not valid: line 2: \"MOV\"" := by
  have hdocumented : mixed.Documented := by decide
  have hoccurs : mixed.Occurs .lexical := ⟨[1, 1, 0], _, rfl, rfl⟩
  obtain ⟨hkind, e, hfirst, hmessage⟩ := (kind_and_message hdocumented).1 hoccurs
  refine ⟨hdocumented, hoccurs, hkind, e, hfirst, ?_⟩
  rw [← hmessage]
  decide +kernel

end Failure

end TapeAsm
