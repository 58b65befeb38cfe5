import TapeAsm.Log.Span
import TapeAsm.Proofs.Log.Lines

/-!
# Spans in log lines

Loggers are derived from one another by adding attributes and by opening groups, and contexts by
entering spans. What a derived logger adds to a record depends on the whole derivation: an attribute
is qualified by the groups that were open when it was added (`given`), and the attributes of a
record, its span among them, by all of them (`derive_eq`, `qualification`).

`line_shows_span`: a line shows the span of the innermost context last, under the key `logs.span`
behind the names of the open groups, and nothing of the kind where there is no span. The full key is
`logs.span` itself exactly if no group with a name is open.
-/

set_option autoImplicit false

namespace TapeAsm.Log

/-- How a logger is derived from another. -/
inductive Derivation where
  | attrs (attrs : List Attr)
  | group (name : Text)

namespace Derivation

/-- What a derivation puts before the keys of everything added later. -/
def qualifier : Derivation → Text
  | attrs _ => []
  | group name => if name.isEmpty then [] else name ++ "."

/-- What derivations put before the keys of everything added after them. -/
def qualification (steps : List Derivation) : Text := steps.flatMap qualifier

/-- The attributes that derivations add, each with the groups that were open then. -/
def given : (groups : Text) → List Derivation → List Entry
  | _, [] => []
  | groups, attrs added :: steps => added.map (⟨groups, ·⟩) ++ given groups steps
  | groups, group name :: steps => given (groups ++ qualifier (group name)) steps

theorem given_cons (groups : Text) (d : Derivation) (steps : List Derivation) :
    given groups (d :: steps) = given groups [d] ++ given (groups ++ d.qualifier) steps := by
  cases d with
  | attrs attrs => simp [given, qualifier]
  | group name => simp [given]

theorem qualification_eq_nil_iff (steps : List Derivation) :
    qualification steps = [] ↔ ∀ name, .group name ∈ steps → name = [] := by
  rw [qualification, List.flatMap_eq_nil_iff]
  constructor
  · intro h name hmem
    have hname := h _ hmem
    cases name with
    | nil => rfl
    | cons b name => simp [qualifier] at hname
  · intro h d hmem
    cases d with
    | attrs attrs => rfl
    | group name => rw [h name hmem]; rfl

end Derivation

/-- One derivation. -/
def Logger.step (l : Logger) : Derivation → Logger
  | .attrs attrs => l.withAttrs attrs
  | .group name => l.withGroup name

/-- Derivations in turn. -/
def Logger.derive (l : Logger) (steps : List Derivation) : Logger := steps.foldl Logger.step l

/-- The context in spans entered in turn, the last one innermost. -/
def Context.within (c : Context) (spans : List Span) : Context := spans.foldl Context.enter c

namespace Logger

theorem step_eq (l : Logger) (d : Derivation) :
    l.step d = ⟨l.bound ++ Derivation.given l.groups [d], l.groups ++ d.qualifier⟩ := by
  cases d with
  | attrs attrs => simp [step, withAttrs, Derivation.given, Derivation.qualifier]
  | group name =>
    cases hname : name.isEmpty with
    | true => simp [step, withGroup, Derivation.given, Derivation.qualifier, hname]
    | false => simp [step, withGroup, Derivation.given, Derivation.qualifier, hname]

/-- **A derived logger** has the attributes given on the way and the groups opened on the way. -/
theorem derive_eq (l : Logger) (steps : List Derivation) :
    l.derive steps = ⟨l.bound ++ Derivation.given l.groups steps,
      l.groups ++ Derivation.qualification steps⟩ := by
  induction steps generalizing l with
  | nil => simp [derive, Derivation.given, Derivation.qualification]
  | cons d steps ih =>
    have hstep : l.derive (d :: steps) = (l.step d).derive steps := rfl
    rw [hstep, ih, step_eq, Derivation.given_cons l.groups d steps]
    simp [Derivation.qualification]

end Logger

/-- What a line shows apart from the span: the level, the message, what the derivations of the
logger have given, and the attributes of the record. -/
def unmarked (steps : List Derivation) (r : Record) : List (Text × Text) :=
  (Text.ofString "level", r.level.name) :: (Text.ofString "msg", r.message) ::
    shown (Derivation.given [] steps ++ r.attrs.map (⟨Derivation.qualification steps, ·⟩))

theorem span_within (spans : List Span) (span : Span) :
    (Context.background.within (spans ++ [span])).span = some span := by
  rw [Context.within, List.foldl_append]
  rfl

/-- The entries of a record under a derived logger: what the derivations have given, then the
attributes of the record and its span, qualified alike. -/
theorem entries_derive (steps : List Derivation) (span : Option Span) (r : Record) :
    (Logger.plain.derive steps).entries span r =
      Derivation.given [] steps ++ r.attrs.map (⟨Derivation.qualification steps, ·⟩) ++
        span.toList.map fun s => ⟨Derivation.qualification steps, ⟨"logs.span", .text s⟩⟩ := by
  rw [Logger.derive_eq]
  cases span <;> simp [Logger.entries, Logger.plain]

theorem readLine_write (l : Logger) {threshold : Level} {r : Record} (h : threshold ≤ r.level)
    (span : Option Span) : readLine (l.write threshold span r) =
      (Text.ofString "level", r.level.name) :: (Text.ofString "msg", r.message) ::
        shown (l.entries span r) := by
  have hwrite : l.write threshold span r = l.line span r := by
    simp [Logger.write, Text.onlyIf, h]
  rw [hwrite, readLine_line]

/-- **Every line shows the span of its context, under a key that the open groups qualify.** The span
is that of the innermost context and comes last, behind what the line shows without it; a context
without a span adds nothing. The full key is `logs.span` exactly if no group with a name is open. -/
theorem line_shows_span (steps : List Derivation) {threshold : Level} {r : Record}
    (h : threshold ≤ r.level) (outer : List Span) (span : Span) :
    readLine ((Logger.plain.derive steps).write threshold
        (Context.background.within (outer ++ [span])).span r) =
      unmarked steps r ++ [(Derivation.qualification steps ++ "logs.span", span)] ∧
    readLine ((Logger.plain.derive steps).write threshold Context.background.span r) =
      unmarked steps r ∧
    (Derivation.qualification steps ++ "logs.span" = Text.ofString "logs.span" ↔
      ∀ name, .group name ∈ steps → name = []) := by
  refine ⟨?_, ?_, ?_⟩
  · rw [readLine_write _ h, span_within, entries_derive, shown_append]
    rfl
  · rw [readLine_write _ h, entries_derive]
    simp [unmarked, Context.background]
  · rw [← Derivation.qualification_eq_nil_iff]
    simp

/-- A logger with an attribute and a group behind it, in the inner of two spans. -/
theorem line_shows_span_grouped :
    Level.warn ≤ (Record.mk .warn "m" []).level ∧
    readLine ((Logger.plain.derive [.attrs [⟨"program", .text "a b"⟩], .group "vm"]).write .warn
        (Context.background.within ["S1", "S2"]).span ⟨.warn, "m", []⟩) =
      [("level", "WARN"), ("msg", "m"), ("program", "a b"), ("vm.logs.span", "S2")].map
        fun pair => (Text.ofString pair.1, Text.ofString pair.2) := by
  have hlevel : Level.warn ≤ (Record.mk .warn "m" []).level := by decide
  exact ⟨hlevel, (line_shows_span [.attrs [⟨"program", .text "a b"⟩], .group "vm"] hlevel
    ["S1"] "S2").1⟩

/-- Under an open group, no attribute of the line has `logs.span` for its full key. -/
theorem span_behind_group :
    (Logger.plain.withGroup "g").write .warn (some "abc") ⟨.warn, "m", []⟩ =
      Text.ofString "level=WARN msg=m g.logs.span=abc\n" ∧
    ∀ pair ∈ readLine (Text.ofString "level=WARN msg=m g.logs.span=abc\n"),
      pair.1 ≠ Text.ofString "logs.span" := by
  decide

end TapeAsm.Log
