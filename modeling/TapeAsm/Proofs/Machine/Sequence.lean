import TapeAsm.Proofs.Machine.Interpretation
import TapeAsm.Proofs.Machine.Run
import TapeAsm.Proofs.Program.Lines

/-!
# One program after another

A run is determined by where it starts: with enough fuel it comes to whatever `Machine.Runs` says
(`Runs.run_eq`), so executions can be put together from derivations. `Runs.extend`: what is left to
do can be cut in two anywhere, and a run does the first part and then, if that finishes, the second.

For programs this is `Machine.execute_append`, and with scanning and parsing, which are done part by
part as well, `Machine.interpret_append`: interpreting two sources with a line end between them is
interpreting the one and, unless that is stopped, the other.
-/

set_option autoImplicit false

namespace TapeAsm

/-! ## Runs determine executions -/

theorem Level.Next.eq_next? {value : Int} {levels : List Level}
    {next : Option (Instr × List Level)} (h : Level.Next value levels next) :
    Level.next? (.ok value) levels = .ok next := by
  induction h with
  | done => rfl
  | here => rfl
  | again hv => simp [Level.next?, hv]
  | @leave body outer next hv _ ih =>
    cases body with
    | nil => exact ih
    | cons i rest =>
      have hz : value = 0 := hv.resolve_left (List.cons_ne_nil i rest)
      rw [Level.next?, if_pos hz, ih]

namespace Machine

/-- A visit is determined by the machine and the instruction. -/
theorem Visits.eq_visit {m : Machine} {i : Instr} {v : Visit} (h : Visits m i v)
    (hr : m.InRange) : m.visit i = v := by
  have ht := tick_inRange hr
  rw [visit_eq hr]
  cases h with
  | limit hlim => rw [if_pos hlim]
  | act hlim hz => rw [if_neg hlim, perform_eq ht _ _ hz]
  | enter hlim hop hv hb => rw [if_neg hlim, perform_loop ht _ hop hv, if_neg (by simpa using hb)]
  | spin hlim hop hv hb =>
    rw [if_neg hlim, perform_loop ht _ hop hv, if_pos (by simpa using hb)]
    rfl

section
variable {levels rest entered : List Level} {m m' : Machine} {i : Instr} {events : List Event}
  {ending : Ending}

/-- A run that has nothing left to visit. -/
theorem run_finish (fuel : Nat) (log : Array Event) (hr : m.InRange)
    (hn : Level.Next m.value levels none) :
    m.run (fuel + 1) levels log = ⟨m, log, .finished⟩ := by
  simp only [run, cell_eq hr, hn.eq_next?]

/-- A run whose first visit ends it. -/
theorem run_stop (fuel : Nat) (log : Array Event) (hr : m.InRange)
    (hn : Level.Next m.value levels (some (i, rest))) (hv : Visits m i (.stopped m' events ending)) :
    m.run (fuel + 1) levels log = ⟨m', log ++ events, ending⟩ := by
  simp only [run, cell_eq hr, hn.eq_next?, hv.eq_visit hr]

/-- A run that goes on after its first visit. -/
theorem run_move (fuel : Nat) (log : Array Event) (hr : m.InRange)
    (hn : Level.Next m.value levels (some (i, rest))) (hv : Visits m i (.moved m' events entered)) :
    m.run (fuel + 1) levels log = m'.run fuel (entered ++ rest) (log ++ events) := by
  simp only [run, cell_eq hr, hn.eq_next?, hv.eq_visit hr]

end

/-- **Every run is the run of the machine**, with enough fuel. -/
theorem Runs.run_eq {levels : List Level} {m : Machine} {log : Array Event} {e : Execution}
    (h : Runs levels m log e) (hr : m.InRange) (hne : e.ending ≠ .crashed .endless) :
    ∃ fuel, m.run fuel levels log = e := by
  induction h with
  | finish hn => exact ⟨1, run_finish 0 _ hr hn⟩
  | stop hn hv => exact ⟨1, run_stop 0 _ hr hn hv⟩
  | move hn hv _ ih =>
    obtain ⟨fuel, hrun⟩ := ih (hv.inRange hr) hne
    exact ⟨fuel + 1, (run_move fuel _ hr hn hv).trans hrun⟩
  | cut => exact absurd rfl hne

/-- Where a limit stops every run, a run of a program is its execution. -/
theorem Runs.execute_eq {p : Program} {m : Machine} {e : Execution}
    (h : Runs [⟨p, []⟩] m #[] e) (hr : m.InRange) (hroom : m.config.maxSteps < Word.max)
    (hne : e.ending ≠ .crashed .endless) : m.execute p = e := by
  obtain ⟨fuel, rfl⟩ := h.run_eq hr hne
  -- the budget and the fuel found may differ, but neither cuts the run short
  have hbudget := run_mono [⟨p, []⟩] m #[] (Nat.le_max_left m.budget fuel)
    (execute_ne_endless hr hroom p)
  have hfuel := run_mono [⟨p, []⟩] m #[] (Nat.le_max_right m.budget fuel) hne
  exact hbudget.symm.trans hfuel

/-! ## Putting runs together -/

theorem append_events (before log : Array Event) (events : List Event) :
    before ++ (log ++ events) = before ++ log ++ events :=
  Array.ext' (by simp)

/-- What was logged before a run does not matter to it. -/
theorem Runs.logged {levels : List Level} {m : Machine} {log : Array Event} {e : Execution}
    (h : Runs levels m log e) (before : Array Event) :
    Runs levels m (before ++ log) ⟨e.machine, before ++ e.log, e.ending⟩ := by
  induction h with
  | finish hn => exact .finish hn
  | stop hn hv =>
    simp only [append_events]
    exact .stop hn hv
  | move hn hv _ ih =>
    rw [append_events] at ih
    exact .move hn hv ih
  | cut => exact .cut

/-- Of what is left to do, only what is next matters to a run. -/
theorem Runs.of_next {levels levels' : List Level} {m : Machine} {log : Array Event}
    {e : Execution} (h : Runs levels m log e)
    (hn : ∀ next, Level.Next m.value levels next → Level.Next m.value levels' next) :
    Runs levels' m log e := by
  cases h with
  | finish h => exact .finish (hn _ h)
  | stop h hv => exact .stop (hn _ h) hv
  | move h hv hrest => exact .move (hn _ h) hv hrest
  | cut => exact .cut

section
variable {value : Int} {inner outer : List Level} {r q body : Program}

/-- Where the first part of what is left to do has run out, the second part is next. -/
theorem next_of_done {next : Option (Instr × List Level)}
    (h : Level.Next value (inner ++ [⟨r, []⟩]) none)
    (hn : Level.Next value (⟨q, body⟩ :: outer) next) :
    Level.Next value (inner ++ ⟨r ++ q, body⟩ :: outer) next := by
  induction inner with
  | nil =>
    cases h with
    | leave _ _ => exact hn
  | cons level inner ih =>
    cases h with
    | leave hv h => exact .leave hv (ih h)

/-- What is next in the first part is next in the whole. -/
theorem next_of_next {i : Instr} {rest : List Level}
    (h : Level.Next value (inner ++ [⟨r, []⟩]) (some (i, rest))) :
    ∃ inner' r', rest = inner' ++ [⟨r', []⟩] ∧
      Level.Next value (inner ++ ⟨r ++ q, body⟩ :: outer)
        (some (i, inner' ++ ⟨r' ++ q, body⟩ :: outer)) := by
  induction inner with
  | nil =>
    cases h with
    | @here _ r' => exact ⟨[], r', rfl, .here⟩
    | leave _ h => cases h
  | cons level inner ih =>
    cases h with
    | @here _ left again => exact ⟨⟨left, again⟩ :: inner, r, rfl, .here⟩
    | @again _ left _ hv => exact ⟨⟨left, _⟩ :: inner, r, rfl, .again hv⟩
    | leave hv h =>
      obtain ⟨inner', r', hrest, hn⟩ := ih h
      exact ⟨inner', r', hrest, .leave hv hn⟩

end

/-- **A run does the first part of what is left to do** and then, if that finishes, the second. -/
theorem Runs.extend {inner outer levels : List Level} {r q body : Program} {m : Machine}
    {log : Array Event} {e : Execution} (h : Runs levels m log e)
    (hl : levels = inner ++ [⟨r, []⟩]) :
    (e.ending = .finished → ∀ e', Runs (⟨q, body⟩ :: outer) e.machine e.log e' →
      Runs (inner ++ ⟨r ++ q, body⟩ :: outer) m log e') ∧
    (e.ending ≠ .finished → Runs (inner ++ ⟨r ++ q, body⟩ :: outer) m log e) := by
  induction h generalizing inner r with
  | finish hn =>
    subst hl
    refine ⟨fun _ e' h' => ?_, fun hne => absurd rfl hne⟩
    exact h'.of_next fun _ hn' => next_of_done hn hn'
  | stop hn hv =>
    subst hl
    obtain ⟨inner', r', -, hn'⟩ := next_of_next (q := q) hn
    refine ⟨fun he => ?_, fun _ => .stop hn' hv⟩
    cases hv <;> cases he
  | @move levels rest entered m m' log i events e hn hv _ ih =>
    subst hl
    obtain ⟨inner', r', rfl, hn'⟩ := next_of_next (q := q) hn
    obtain ⟨hfin, hstop⟩ := ih (List.append_assoc entered inner' [⟨r', []⟩]).symm
    rw [List.append_assoc] at hfin hstop
    exact ⟨fun he e' h' => .move hn' hv (hfin he e' h'), fun hne => .move hn' hv (hstop hne)⟩
  | cut => exact ⟨nofun, fun _ => .cut⟩

/-! ## Programs in sequence -/

section
variable {m : Machine} (hr : m.InRange)
include hr

theorem inRange_execute (p : Program) : (m.execute p).machine.InRange :=
  (runs_execute hr p).keeps (fun hv h => hv.inRange h) hr

theorem config_execute (p : Program) : (m.execute p).machine.config = m.config :=
  (runs_execute hr p).keeps (I := fun m' => m'.config = m.config)
    (fun hv h => hv.config.trans h) rfl

variable (hroom : m.config.maxSteps < Word.max)
include hroom

/-- No execution crashes on the tape, where a limit stops every run. -/
theorem execute_ne_crashed (p : Program) (fault : Fault) :
    (m.execute p).ending ≠ .crashed fault := by
  intro he
  obtain rfl := (runs_execute hr p).crashed he
  exact execute_ne_endless hr hroom p he

/-- **A program behind one that finishes** runs on the machine that the first leaves behind. -/
theorem execute_append {p : Program} (hf : (m.execute p).ending = .finished) (q : Program) :
    m.execute (p ++ q) =
      ⟨((m.execute p).machine.execute q).machine,
        (m.execute p).log ++ ((m.execute p).machine.execute q).log,
        ((m.execute p).machine.execute q).ending⟩ := by
  have hr' := inRange_execute hr p
  have hroom' : (m.execute p).machine.config.maxSteps < Word.max := by
    rw [config_execute hr p]
    exact hroom
  have hq := (runs_execute hr' q).logged (m.execute p).log
  rw [Array.append_empty] at hq
  have hpq : Runs [⟨p ++ q, []⟩] m #[] _ :=
    ((runs_execute hr p).extend (List.nil_append [Level.mk p []]).symm).1 hf _ hq
  exact hpq.execute_eq hr hroom (execute_ne_crashed hr' hroom' q .endless)

/-- A program behind one that does not finish is not reached. -/
theorem execute_append_of_stopped {p : Program} (hs : (m.execute p).ending ≠ .finished)
    (q : Program) : m.execute (p ++ q) = m.execute p := by
  have hpq : Runs [⟨p ++ q, []⟩] m #[] (m.execute p) :=
    ((runs_execute hr p).extend (List.nil_append [Level.mk p []]).symm).2 hs
  exact hpq.execute_eq hr hroom (execute_ne_crashed hr hroom p .endless)

theorem finished_of_execute_append {p q : Program}
    (hf : (m.execute (p ++ q)).ending = .finished) : (m.execute p).ending = .finished := by
  apply Classical.byContradiction
  intro hne
  rw [execute_append_of_stopped hr hroom hne] at hf
  exact hne hf

end

/-! ## Sources in sequence -/

theorem stopOf_eq_none {ending : Ending} : stopOf ending = none ↔ ending = .finished := by
  cases ending <;> simp [stopOf]

/-- Two sources that parse, with a line end between them, are the programs one after the other. -/
theorem parse_texts_append {s₁ s₂ : Text} {p₁ p₂ : Program}
    (h₁ : Program.parse (Token.texts s₁) = .ok p₁)
    (h₂ : Program.parse (Token.texts s₂) = .ok p₂) :
    Program.parse (Token.texts (s₁ ++ Text.newline ++ s₂)) = .ok (p₁ ++ p₂) := by
  rw [Token.texts_append, Program.parse_eq_ok_iff]
  exact (Program.parse_eq_ok_iff.1 h₁).append (Program.parse_eq_ok_iff.1 h₂)

/-- **Interpreting two sources with a line end between them** is interpreting the one and then, on
the machine that it leaves behind, the other, unless the first is stopped: then the whole is stopped
in the same way. No fault stops it. -/
theorem interpret_append {s₁ s₂ : Text} {m : Machine} (hr : m.InRange)
    (hroom : m.config.maxSteps < Word.max)
    (h₁ : ∃ p, Program.parse (Token.texts s₁) = .ok p)
    (h₂ : ∃ p, Program.parse (Token.texts s₂) = .ok p) :
    ((m.interpret s₁).2 = none →
      (m.interpret (s₁ ++ Text.newline ++ s₂)).1.machine =
          ((m.interpret s₁).1.machine.interpret s₂).1.machine ∧
        (m.interpret (s₁ ++ Text.newline ++ s₂)).2 =
          ((m.interpret s₁).1.machine.interpret s₂).2) ∧
    (∀ stop, (m.interpret s₁).2 = some stop →
      (m.interpret (s₁ ++ Text.newline ++ s₂)).1.machine = (m.interpret s₁).1.machine ∧
        (m.interpret (s₁ ++ Text.newline ++ s₂)).2 = some stop) ∧
    ∀ fault, (m.interpret (s₁ ++ Text.newline ++ s₂)).2 ≠ some (.crashed fault) := by
  obtain ⟨p₁, hp₁⟩ := h₁
  obtain ⟨p₂, hp₂⟩ := h₂
  obtain ⟨hm, hs⟩ := interpret_of_parse (m := m) (parse_texts_append hp₁ hp₂)
  obtain ⟨hm₁, hs₁⟩ := interpret_of_parse (m := m) hp₁
  obtain ⟨hm₂, hs₂⟩ := interpret_of_parse (m := (m.execute p₁).machine) hp₂
  rw [hm, hs, hm₁, hs₁, hm₂, hs₂]
  refine ⟨fun hn => ?_, fun stop hstop => ?_, fun fault hf => ?_⟩
  · rw [execute_append hr hroom (stopOf_eq_none.1 hn)]
    exact ⟨rfl, rfl⟩
  · have hne : (m.execute p₁).ending ≠ .finished := fun hf => by
      rw [hf] at hstop
      cases hstop
    rw [execute_append_of_stopped hr hroom hne]
    exact ⟨rfl, hstop⟩
  · cases he : (m.execute (p₁ ++ p₂)).ending with
    | crashed fault' => exact execute_ne_crashed hr hroom _ fault' he
    | finished => rw [he] at hf; cases hf
    | halted error => rw [he] at hf; cases hf

/-- The first source ends in a carriage return, and the limit stops the second. -/
theorem interpret_append_fused :
    InRange ⟨#[0], 0, #[], 0, ⟨1, 255, 3, false⟩⟩ ∧ (3 : Int) < Word.max ∧
    Program.parse (Token.texts "INC\r") = .ok [.simple .inc] ∧
    Program.parse (Token.texts "LOOP_START\nLOOP_END") = .ok [.loop []] ∧
    (interpret ⟨#[0], 0, #[], 0, ⟨1, 255, 3, false⟩⟩
        (("INC\r" : Text) ++ Text.newline ++ ("LOOP_START\nLOOP_END" : Text))).2 =
      some (.failed (.stepLimit ⟨4, 3, .loop⟩)) := by
  have hr : InRange ⟨#[0], 0, #[], 0, ⟨1, 255, 3, false⟩⟩ := by decide
  have ht₁ : Token.texts "INC\r" = [Keyword.inc.text] := by decide +kernel
  have ht₂ : Token.texts "LOOP_START\nLOOP_END" =
      [Keyword.loopStart.text, Keyword.loopEnd.text] := by decide +kernel
  have hp₁ : Program.parse (Token.texts "INC\r") = .ok [.simple .inc] := by rw [ht₁]; rfl
  have hp₂ : Program.parse (Token.texts "LOOP_START\nLOOP_END") = .ok [.loop []] := by
    rw [ht₂]; rfl
  obtain ⟨hm, hs⟩ := interpret_of_parse (m := ⟨#[0], 0, #[], 0, ⟨1, 255, 3, false⟩⟩) hp₁
  obtain ⟨hfin, -, -⟩ := interpret_append hr (by decide) ⟨_, hp₁⟩ ⟨_, hp₂⟩
  refine ⟨hr, by decide, hp₁, hp₂, ?_⟩
  rw [(hfin (hs.trans rfl)).2, hm, (interpret_of_parse hp₂).2]
  rfl

end Machine

end TapeAsm
