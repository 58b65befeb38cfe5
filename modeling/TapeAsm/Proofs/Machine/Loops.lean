import TapeAsm.Proofs.Machine.Limit

/-!
# Loops

A loop that has come to the end of a pass over its body has `Machine.passes` left to do: nothing of
this pass, and further ones as long as the current cell is not zero. Visiting a loop costs one step
and leads there whatever the cell is (`Runs.loop`), and on a cell that is not zero the next thing
done there is the body (`Runs.pass`). So a loop and its unrolling, the body with the loop behind it,
do the same in another order: the loop's own step comes before the first pass or after it.

That the two orders agree needs a run that starts at another counter: `Runs.shifted`, for every run
that finishes and still does so within the limit. `Machine.execute_unrolled` is the law of programs.
-/

set_option autoImplicit false

namespace TapeAsm.Machine

/-! ## Runs from another counter -/

/-- The machine with its counter moved. -/
def shifted (m : Machine) (d : Int) : Machine := { m with steps := m.steps + d }

section
variable {levels : List Level} {m m' : Machine} {log : Array Event} {e : Execution} {d : Int}

theorem act_shifted (m : Machine) (d : Int) (op : Op) :
    (m.shifted d).act op = (m.act op).shifted d := by
  have h := m.act_update (m.steps + d) m.config rfl op
  unfold shifted
  rw [act_steps]
  simpa only [← act_config m op] using h

theorem tick_shifted (hl : m.WithinLimit) (hl' : (m.shifted d).WithinLimit) :
    (m.shifted d).tick = m.tick.shifted d := by
  have hs : (m.shifted d).tick.steps = m.tick.steps + d := by
    rw [hl.tick, hl'.tick]
    simp only [shifted]
    omega
  exact congrArg (fun steps => { m with steps }) hs

theorem tick_eq_shifted (hl : m.WithinLimit) : m.tick = m.shifted 1 :=
  congrArg (fun steps => { m with steps }) hl.tick

theorem Visits.shifted {i : Instr} {events : List Event} {entered : List Level}
    (h : Visits m i (.moved m' events entered)) (hl : m.WithinLimit)
    (hl' : (m.shifted d).WithinLimit) (hlim : m.tick.steps + d ≤ m.config.maxSteps) :
    ∃ events', Visits (m.shifted d) i (.moved (m'.shifted d) events' entered) := by
  have htick := tick_shifted hl hl'
  have hlim' : ¬ (m.shifted d).config.maxSteps < (m.shifted d).tick.steps := by
    rw [htick]
    exact Int.not_lt.2 hlim
  cases h with
  | act _ hz =>
    rw [← act_shifted, ← htick]
    exact ⟨_, .act hlim' hz⟩
  | enter _ hop hv hb =>
    rw [← htick]
    exact ⟨_, .enter hlim' hop hv hb⟩

/-- **A run that finishes** does the same from another counter, if that leads to no step past the
limit. What it logs differs in the numbers of the steps. -/
theorem Runs.shifted (h : Runs levels m log e) (hl : m.WithinLimit) (hf : e.ending = .finished)
    (hmin : Word.min ≤ m.steps + d) (hle : e.machine.steps + d ≤ m.config.maxSteps)
    (log' : Array Event) :
    ∃ log'', Runs levels (m.shifted d) log' ⟨e.machine.shifted d, log'', .finished⟩ := by
  induction h generalizing log' with
  | finish hn => exact ⟨_, .finish hn⟩
  | stop _ hv => cases hv <;> cases hf
  | @move levels rest entered m m' log i events e hn hv hrest ih =>
    obtain ⟨hl', hs⟩ := hl.moved hv
    have hc : m'.config = m.config := hv.config
    -- the counter only grows, so no visit before the last one passes the limit either
    have hge := (hrest.steps_of_finished hl' hf).1
    have htick := hl.tick
    have hshift : (m.shifted d).WithinLimit :=
      ⟨hmin, by simp only [Machine.shifted]; omega, hl.room⟩
    obtain ⟨events', hv'⟩ := hv.shifted hl hshift (by omega)
    obtain ⟨log'', hrun⟩ := ih hl' hf (by omega) (by rw [hc]; exact hle) (log' ++ events')
    exact ⟨log'', .move hn hv' hrun⟩
  | cut => cases hf

end

/-! ## Passes over a body -/

/-- What is left of a loop between two passes over its body. -/
def passes (body : Program) : List Level := [⟨[], body⟩, ⟨[], []⟩]

section
variable {body : Program} {m : Machine} {log : Array Event} {e : Execution} (hb : body ≠ [])
include hb

/-- On a cell that is not zero, a pass is next. -/
theorem Runs.pass (hv : m.value ≠ 0) (h : Runs [⟨body, body⟩, ⟨[], []⟩] m log e) :
    Runs (passes body) m log e := by
  obtain ⟨i, rest, rfl⟩ := List.exists_cons_of_ne_nil hb
  refine h.of_next fun next hn => ?_
  cases hn with
  | here => exact .again hv

/-- A loop costs a step, and then there are passes to come, none on a zero cell. -/
theorem Runs.loop (hlim : ¬ m.config.maxSteps < m.tick.steps)
    (h : Runs (passes body) m.tick (log ++ m.tick.record .loop) e) :
    Runs [⟨[.loop body], []⟩] m log e := by
  obtain ⟨i, rest, rfl⟩ := List.exists_cons_of_ne_nil hb
  by_cases hv : m.value = 0
  · have hact : Visits m (.loop (i :: rest)) _ := .act hlim fun _ => hv
    refine .move .here hact ?_
    have hrecord : m.tick.record .loop ++ m.tick.warning .loop = m.tick.record .loop :=
      List.append_nil _
    simp only [Instr.loop, Instr.op, act, hrecord, List.nil_append]
    refine h.of_next fun next hn => ?_
    cases hn with
    | again hne => exact absurd hv hne
    | leave _ hn => exact hn
  · have henter : Visits m (.loop (i :: rest)) _ := .enter hlim rfl hv hb
    refine .move .here henter ?_
    refine h.of_next fun next hn => ?_
    cases hn with
    | again _ => exact .here
    | leave hz _ => exact absurd (hz.resolve_left hb) hv

/-- A pass whose body finishes is followed by what comes after it. -/
theorem Runs.pass_finished {e' : Execution} (hv : m.value ≠ 0) (h : Runs [⟨body, []⟩] m log e)
    (hf : e.ending = .finished) (h' : Runs (passes body) e.machine e.log e') :
    Runs (passes body) m log e' := by
  have hrun := (h.extend (List.nil_append [Level.mk body []]).symm).1 hf e' h'
  rw [List.append_nil, List.nil_append] at hrun
  exact Runs.pass hb hv hrun

/-- A pass whose body does not finish is the last one. -/
theorem Runs.pass_stopped (hv : m.value ≠ 0) (h : Runs [⟨body, []⟩] m log e)
    (hne : e.ending ≠ .finished) : Runs (passes body) m log e := by
  have hrun : Runs ([] ++ [⟨body ++ [], body⟩, ⟨[], []⟩]) m log e :=
    (h.extend (List.nil_append [Level.mk body []]).symm).2 hne
  rw [List.append_nil, List.nil_append] at hrun
  exact Runs.pass hb hv hrun

end

/-! ## A loop and its unrolling -/

/-- A run that starts with nothing logged, put behind what was logged before. -/
theorem Runs.after_log {levels : List Level} {m : Machine} {e : Execution}
    (h : Runs levels m #[] e) (log : Array Event) :
    Runs levels m log ⟨e.machine, log ++ e.log, e.ending⟩ := by
  have hrun := h.logged log
  rwa [Array.append_empty] at hrun

section
variable {m : Machine} (hr : m.InRange) {body : Program}
include hr

/-- A program whose first step is past the limit. -/
theorem execute_refused (hroom : m.config.maxSteps < Word.max)
    (hlim : m.config.maxSteps < m.tick.steps) (i : Instr) (p : Program) :
    (m.execute (i :: p)).ending ≠ .finished := by
  have hrun : Runs [⟨i :: p, []⟩] m #[] _ := .stop .here (.limit hlim)
  rw [hrun.execute_eq hr hroom nofun]
  nofun

/-- A loop comes to what the passes behind its own step come to. -/
theorem execute_loop {e : Execution} (hroom : m.config.maxSteps < Word.max) (hb : body ≠ [])
    (hlim : ¬ m.config.maxSteps < m.tick.steps) (h : Runs (passes body) m.tick #[] e)
    (hne : e.ending ≠ .crashed .endless) :
    ∃ log, m.execute [.loop body] = ⟨e.machine, log, e.ending⟩ := by
  have hloop : Runs [⟨[.loop body], []⟩] m #[] _ := Runs.loop hb hlim (h.after_log _)
  exact ⟨_, hloop.execute_eq hr hroom hne⟩

variable (hl : m.WithinLimit)
include hl

/-- A body that finishes leaves the machine within the limit. -/
theorem withinLimit_execute (hf : (m.execute body).ending = .finished) :
    (m.execute body).machine.WithinLimit := by
  have hc := config_execute hr body
  obtain ⟨hge, hle⟩ := (runs_execute hr body).steps_of_finished hl hf
  exact ⟨Int.le_trans hl.word hge, hc ▸ hle, hc ▸ hl.room⟩

/-- An unrolled loop that finishes has a first pass that finishes, and room for the loop's own
step. -/
theorem body_of_execute_unrolled
    (hf : (m.execute (body ++ [.loop body])).ending = .finished) :
    (m.execute body).ending = .finished ∧
      (m.execute body).machine.steps < m.config.maxSteps := by
  have hfin := finished_of_execute_append hr hl.room hf
  have hl₁ := withinLimit_execute hr hl hfin
  have hlim : ¬ (m.execute body).machine.config.maxSteps < (m.execute body).machine.tick.steps := by
    intro hlim
    rw [execute_append hr hl.room hfin] at hf
    exact execute_refused (inRange_execute hr body) hl₁.room hlim _ _ hf
  rw [hl₁.tick, config_execute hr body] at hlim
  exact ⟨hfin, by omega⟩

variable (hb : body ≠ []) (hv : m.value ≠ 0)
include hb hv

/-- The same of the loop itself, whose own step comes before the pass. -/
theorem body_of_execute_loop (hf : (m.execute [.loop body]).ending = .finished) :
    (m.execute body).ending = .finished ∧
      (m.execute body).machine.steps < m.config.maxSteps := by
  have hlim : ¬ m.config.maxSteps < m.tick.steps := fun hlim =>
    execute_refused hr hl.room hlim _ _ hf
  have hr' := tick_inRange hr
  have hl' : m.tick.WithinLimit := ⟨Word.min_le_wrap _, Int.not_lt.1 hlim, hl.room⟩
  have hv' : m.tick.value ≠ 0 := hv
  have hruns := runs_execute hr' body
  have hfin : (m.tick.execute body).ending = .finished := by
    apply Classical.byContradiction
    intro hne
    have hstop := Runs.pass_stopped hb hv' hruns hne
    obtain ⟨log, heq⟩ := execute_loop hr hl.room hb hlim hstop
      (execute_ne_crashed hr' hl.room body .endless)
    rw [heq] at hf
    exact hne hf
  have hsteps : (m.tick.execute body).machine.steps ≤ m.config.maxSteps :=
    (hruns.steps_of_finished hl' hfin).2
  -- the same pass one step earlier
  have hback : m.tick.shifted (-1) = m := by
    rw [tick_eq_shifted hl]
    exact congrArg (fun steps => { m with steps }) (Int.add_neg_cancel_right m.steps 1)
  have hmin : Word.min ≤ m.tick.steps + -1 := by
    rw [hl.tick]
    have := hl.word
    omega
  obtain ⟨log, hbody⟩ := hruns.shifted hl' hfin hmin (show _ ≤ m.config.maxSteps by omega) #[]
  rw [hback] at hbody
  rw [hbody.execute_eq hr hl.room nofun]
  refine ⟨rfl, ?_⟩
  simp only [shifted]
  omega

/-- Where the body finishes and leaves room for the loop's own step, the loop and its unrolling come
to the same. -/
theorem execute_loop_eq (hf : (m.execute body).ending = .finished)
    (hlt : (m.execute body).machine.steps < m.config.maxSteps) :
    (m.execute [.loop body]).machine = (m.execute (body ++ [.loop body])).machine ∧
      (m.execute [.loop body]).ending = (m.execute (body ++ [.loop body])).ending := by
  have hruns := runs_execute hr body
  have hge := (hruns.steps_of_finished hl hf).1
  have hr₁ := inRange_execute hr body
  have hl₁ := withinLimit_execute hr hl hf
  have hc₁ := config_execute hr body
  have happend := execute_append hr hl.room hf [.loop body]
  generalize m.execute body = e₁ at *
  have hlim : ¬ m.config.maxSteps < m.tick.steps := by
    rw [hl.tick]
    omega
  have hlim₁ : ¬ e₁.machine.config.maxSteps < e₁.machine.tick.steps := by
    rw [hl₁.tick, hc₁]
    omega
  -- the passes behind the first one and the loop's own step, whichever of these came first
  obtain ⟨e, hpasses, hne⟩ : ∃ e, Runs (passes body) e₁.machine.tick #[] e ∧
      e.ending ≠ .crashed .endless :=
    ⟨_, runs_run e₁.machine.tick.remaining (passes body) #[] (tick_inRange hr₁),
      run_ne_endless _ _ (tick_inRange hr₁) hl₁.room (Nat.le_refl _)⟩
  obtain ⟨log₁, hbehind⟩ := execute_loop hr₁ hl₁.room hb hlim₁ hpasses hne
  have hmin : Word.min ≤ m.steps + 1 := by
    have := hl.word
    omega
  obtain ⟨log, hbody⟩ := hruns.shifted hl hf hmin (by omega) #[]
  rw [← tick_eq_shifted hl, ← tick_eq_shifted hl₁] at hbody
  have hv' : m.tick.value ≠ 0 := hv
  have hpass := Runs.pass_finished hb hv' hbody rfl (hpasses.after_log log)
  obtain ⟨log₂, hfirst⟩ := execute_loop hr hl.room hb hlim hpass hne
  rw [hfirst, happend, hbehind]
  exact ⟨rfl, rfl⟩

/-- The loop and its unrolling come to the same, or neither finishes. -/
theorem execute_loop_cases :
    ((m.execute [.loop body]).machine = (m.execute (body ++ [.loop body])).machine ∧
      (m.execute [.loop body]).ending = (m.execute (body ++ [.loop body])).ending) ∨
    ((m.execute [.loop body]).ending ≠ .finished ∧
      (m.execute (body ++ [.loop body])).ending ≠ .finished) := by
  by_cases hbody : (m.execute body).ending = .finished ∧
      (m.execute body).machine.steps < m.config.maxSteps
  · exact .inl (execute_loop_eq hr hl hb hv hbody.1 hbody.2)
  · refine .inr ⟨fun hf => ?_, fun hf => ?_⟩
    · exact hbody (body_of_execute_loop hr hl hb hv hf)
    · exact hbody (body_of_execute_unrolled hr hl hf)

end

/-- **Unrolling a loop.** On a cell that is not zero, a loop finishes exactly if its body with the
loop behind it does, and both leave the same machine behind. If they do not finish, both are halted
at the limit, with the same counter. -/
theorem execute_unrolled {m : Machine} (hr : m.InRange) (hl : m.WithinLimit) (hv : m.value ≠ 0)
    {body : Program} (hb : body ≠ []) {e e' : Execution} (he : m.execute [.loop body] = e)
    (he' : m.execute (body ++ [.loop body]) = e') :
    (e.ending = .finished ↔ e'.ending = .finished) ∧
    (e.ending = .finished → e.machine = e'.machine) ∧
    (e.ending ≠ .finished →
      (∃ op, e.ending = .halted ⟨e.machine.steps, m.config.maxSteps, op⟩) ∧
      (∃ op, e'.ending = .halted ⟨e'.machine.steps, m.config.maxSteps, op⟩) ∧
      e.machine.steps = e'.machine.steps) := by
  have hcases := execute_loop_cases hr hl hb hv
  have hends := execute_account hr hl [.loop body]
  have hends' := execute_account hr hl (body ++ [.loop body])
  rw [he] at hcases hends
  rw [he'] at hcases hends'
  have hiff : e.ending = .finished ↔ e'.ending = .finished := by
    obtain ⟨-, hsame⟩ | ⟨hne, hne'⟩ := hcases
    · rw [hsame]
    · exact ⟨fun hf => absurd hf hne, fun hf => absurd hf hne'⟩
  refine ⟨hiff, fun hf => ?_, fun hne => ?_⟩
  · obtain ⟨hsame, -⟩ | ⟨hne, -⟩ := hcases
    · exact hsame
    · exact absurd hf hne
  · obtain ⟨hf, -⟩ | ⟨op, hop, hs⟩ := hends
    · exact absurd hf hne
    · obtain ⟨hf', -⟩ | ⟨op', hop', hs'⟩ := hends'
      · exact absurd (hiff.2 hf') hne
      · exact ⟨⟨op, hop⟩, ⟨op', hop'⟩, hs.trans hs'.symm⟩

/-- A loop that moves a two to the next cell in nine steps, under a limit of nine, and a loop in
which an empty one halts the machine: both orders come to the same counter, though not to the same
cell. -/
theorem execute_unrolled_at_limit :
    InRange ⟨#[2, 0], 0, #[], 0, ⟨2, 2, 9, false⟩⟩ ∧
    WithinLimit ⟨#[2, 0], 0, #[], 0, ⟨2, 2, 9, false⟩⟩ ∧
    value ⟨#[2, 0], 0, #[], 0, ⟨2, 2, 9, false⟩⟩ ≠ 0 ∧
    (execute ⟨#[2, 0], 0, #[], 0, ⟨2, 2, 9, false⟩⟩
        [.loop [.simple .right, .simple .inc, .simple .left, .simple .dec]]).machine =
      ⟨#[0, 2], 0, #[], 9, ⟨2, 2, 9, false⟩⟩ ∧
    (execute ⟨#[2, 0], 0, #[], 0, ⟨2, 2, 9, false⟩⟩
        ([.simple .dec, .loop []] ++ [.loop [.simple .dec, .loop []]])).machine.steps = 10 := by
  have hr : InRange ⟨#[2, 0], 0, #[], 0, ⟨2, 2, 9, false⟩⟩ := by decide
  have hl : WithinLimit ⟨#[2, 0], 0, #[], 0, ⟨2, 2, 9, false⟩⟩ := by decide
  have hv : value ⟨#[2, 0], 0, #[], 0, ⟨2, 2, 9, false⟩⟩ ≠ 0 := by decide
  have hbody : [Instr.simple .right, .simple .inc, .simple .left, .simple .dec] ≠ [] := nofun
  have hbody' : [Instr.simple .dec, .loop []] ≠ [] := nofun
  have hmove := execute_unrolled hr hl hv hbody rfl rfl
  have hspin := execute_unrolled hr hl hv hbody' rfl rfl
  refine ⟨hr, hl, hv, ?_, ?_⟩
  · rw [hmove.2.1 (by decide)]
    decide
  · rw [← (hspin.2.2 (by decide)).2.2]
    decide

end TapeAsm.Machine
