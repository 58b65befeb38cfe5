import TapeAsm.Proofs.Machine.Sequence

/-!
# Runs under another limit

The step limit only cuts a run short. `Machine.limited` is the machine under another limit, and a
visit that both limits allow does the same under both (`Visits.limited`). Hence a run that finishes
is a run under every limit that its steps do not pass (`Runs.limited`), and a run that is halted has
the tape that the run under a higher limit has before the same visit (`Runs.halted_limited`).
`Machine.execute_limited` says this of programs, for two limits on one machine.

Fuel counts visits: `m.run n` is the run of `m` cut after its first `n` visits, or the whole of it
if there are no more.
-/

set_option autoImplicit false

namespace TapeAsm.Machine

/-- The machine under another limit. -/
def limited (m : Machine) (limit : Int) : Machine :=
  { m with config := { m.config with maxSteps := limit } }

section
variable {levels : List Level} {m : Machine} {log : Array Event} {e : Execution} {limit : Int}

theorem InRange.limited (h : m.InRange) (limit : Int) : (m.limited limit).InRange :=
  ⟨h.nonneg, h.lt_size⟩

theorem act_limited (m : Machine) (limit : Int) (op : Op) :
    (m.limited limit).act op = (m.act op).limited limit := by
  have h := m.act_update m.steps (m.limited limit).config rfl op
  simpa only [limited, act_config, act_steps] using h

/-! ## Visits and runs that both limits allow -/

theorem Visits.limited {m' : Machine} {i : Instr} {events : List Event} {entered : List Level}
    (h : Visits m i (.moved m' events entered)) (hlim : ¬ limit < m.tick.steps) :
    Visits (m.limited limit) i (.moved (m'.limited limit) events entered) := by
  cases h with
  | act _ hz =>
    rw [← act_limited]
    exact .act hlim hz
  | enter _ hop hv hb => exact .enter hlim hop hv hb

/-- A run that finishes ends between the counter that it starts with and the limit. -/
theorem Runs.steps_of_finished (h : Runs levels m log e) (hl : m.WithinLimit)
    (hf : e.ending = .finished) :
    m.steps ≤ e.machine.steps ∧ e.machine.steps ≤ m.config.maxSteps := by
  obtain ⟨-, hge, hle⟩ | ⟨op, he, -⟩ | he := h.account hl
  · exact ⟨by omega, hle⟩
  · rw [hf] at he
    cases he
  · rw [hf] at he
    cases he

/-- **A run that finishes** does the same under every limit that its steps do not pass. -/
theorem Runs.limited (h : Runs levels m log e) (hl : m.WithinLimit) (hf : e.ending = .finished)
    (hle : e.machine.steps ≤ limit) :
    Runs levels (m.limited limit) log ⟨e.machine.limited limit, e.log, .finished⟩ := by
  induction h with
  | finish hn => exact .finish hn
  | stop _ hv => cases hv <;> cases hf
  | @move levels rest entered m m' log i events e hn hv hrest ih =>
    obtain ⟨hl', hs⟩ := hl.moved hv
    -- the counter only grows, so the other limit allows this visit too
    have hge := (hrest.steps_of_finished hl' hf).1
    have hlim : ¬ limit < m.tick.steps := by
      rw [hl.tick]
      omega
    exact .move hn (hv.limited hlim) (ih hl' hf hle)
  | cut => cases hf

/-! ## Halted runs -/

/-- **A halted run** has the tape that the run under a higher limit has after as many visits as the
lower limit allows. Its last visit, at which it is halted, has had no effect: the run under the
higher limit has the same tape before it. -/
theorem Runs.halted_limited {error : StepLimit} (h : Runs levels m log e) (hr : m.InRange)
    (hl : m.WithinLimit) (hle : m.config.maxSteps ≤ limit) (he : e.ending = .halted error) :
    e.machine.tape =
      ((m.limited limit).run (m.config.maxSteps - m.steps).toNat levels log).machine.tape ∧
    ∃ visits ≤ (m.config.maxSteps - m.steps).toNat,
      m.run (visits + 1) levels log = e ∧
      ((m.limited limit).run visits levels log).ending = .crashed .endless ∧
      e.machine.tape = ((m.limited limit).run visits levels log).machine.tape := by
  induction h with
  | finish _ => cases he
  | @stop levels rest m m' log i events ending hn hv =>
    refine ⟨?_, 0, Nat.zero_le _, run_stop 0 log hr hn hv, rfl, hv.stopped_tape⟩
    have htick := hl.tick
    cases hv with
    | limit hlim =>
      have hzero : (m.config.maxSteps - m.steps).toNat = 0 := by omega
      rw [hzero]
      rfl
    | spin hlim hop hz hb =>
      -- a visit is left, and the run under the higher limit spends it on the same empty loop
      obtain ⟨left, hleft⟩ : ∃ left, (m.config.maxSteps - m.steps).toNat = left + 1 :=
        ⟨(m.config.maxSteps - m.steps).toNat - 1, by omega⟩
      have hlim' : ¬ limit < m.tick.steps := by omega
      have hspin : Visits (m.limited limit) i _ := .spin hlim' hop hz hb
      rw [hleft, run_stop left log (hr.limited limit) hn hspin]
      rfl
  | @move levels rest entered m m' log i events e hn hv _ ih =>
    obtain ⟨hl', hs⟩ := hl.moved hv
    obtain ⟨hlim, hc, -⟩ := hv.counted
    have hlim' : ¬ limit < m.tick.steps := by omega
    have hv' := hv.limited hlim'
    have hleft : (m.config.maxSteps - m.steps).toNat =
        (m'.config.maxSteps - m'.steps).toNat + 1 := by
      have hle' := hl'.le
      rw [hc] at hle' ⊢
      omega
    obtain ⟨htape, visits, hvisits, hrun, hcut, hbefore⟩ :=
      ih (hv.inRange hr) hl' (hc.symm ▸ hle) he
    refine ⟨?_, visits + 1, by omega, ?_, ?_, ?_⟩
    · rw [hleft, run_move _ log (hr.limited limit) hn hv', htape]
    · rw [run_move _ log hr hn hv, hrun]
    · rw [run_move _ log (hr.limited limit) hn hv', hcut]
    · rw [run_move _ log (hr.limited limit) hn hv', hbefore]
  | cut => cases he

/-- More visits print behind what was printed. -/
theorem output_run_mono {fuel fuel' : Nat} (levels : List Level) (log : Array Event)
    (hr : m.InRange) (hf : fuel ≤ fuel') :
    (m.run fuel levels log).machine.output.toList <+:
      (m.run fuel' levels log).machine.output.toList := by
  induction fuel generalizing fuel' levels m log with
  | zero =>
    refine (runs_run fuel' levels log hr).keeps
      (I := fun m' => m.output.toList <+: m'.output.toList) (fun hv hm => ?_) (List.prefix_refl _)
    exact hm.trans hv.output
  | succ fuel ih =>
    obtain ⟨fuel', rfl⟩ : ∃ n, fuel' = n + 1 := ⟨fuel' - 1, by omega⟩
    obtain ⟨hn, he⟩ | ⟨i, rest, hn, ⟨m', events, ending, hv, he⟩ | ⟨m', events, entered, hv, he⟩⟩ :=
      run_succ fuel levels log hr
    · have heq : m.run (fuel + 1) levels log = m.run (fuel' + 1) levels log := by
        rw [he, run_finish fuel' log hr hn]
      exact heq ▸ List.prefix_refl _
    · have heq : m.run (fuel + 1) levels log = m.run (fuel' + 1) levels log := by
        rw [he, run_stop fuel' log hr hn hv]
      exact heq ▸ List.prefix_refl _
    · rw [he, run_move fuel' log hr hn hv]
      exact ih _ _ (hv.inRange hr) (by omega)

end

/-! ## Programs under two limits -/

/-- A program that does not finish is halted, where a limit stops every run. -/
theorem halted_of_ne_finished {m : Machine} {p : Program} (hr : m.InRange)
    (hroom : m.config.maxSteps < Word.max) (hne : (m.execute p).ending ≠ .finished) :
    ∃ error, (m.execute p).ending = .halted error := by
  cases hend : (m.execute p).ending with
  | finished => exact absurd hend hne
  | halted error => exact ⟨error, rfl⟩
  | crashed fault => exact absurd hend (execute_ne_crashed hr hroom p fault)

section
variable {m : Machine} {lower upper : Int} {p : Program} (hr : m.InRange)
  (hl : (m.limited lower).WithinLimit) (hle : lower ≤ upper) (hroom : upper < Word.max)
include hr hl hle hroom

/-- A program that finishes under the lower limit does the same under the higher one. -/
theorem execute_raised (hf : ((m.limited lower).execute p).ending = .finished) :
    (m.limited upper).execute p =
      ⟨((m.limited lower).execute p).machine.limited upper, ((m.limited lower).execute p).log,
        .finished⟩ := by
  have hruns := runs_execute (hr.limited lower) p
  have hsteps := (hruns.steps_of_finished hl hf).2
  exact (hruns.limited hl hf (Int.le_trans hsteps hle)).execute_eq (hr.limited upper) hroom nofun

theorem finished_limited_iff :
    ((m.limited lower).execute p).ending = .finished ↔
      ((m.limited upper).execute p).ending = .finished ∧
        ((m.limited upper).execute p).machine.steps ≤ lower := by
  have hruns := runs_execute (hr.limited lower) p
  have hruns' := runs_execute (hr.limited upper) p
  constructor
  · intro hf
    rw [execute_raised hr hl hle hroom hf]
    exact ⟨rfl, (hruns.steps_of_finished hl hf).2⟩
  · rintro ⟨hf, hsteps⟩
    have hl' : (m.limited upper).WithinLimit := ⟨hl.word, Int.le_trans hl.le hle, hroom⟩
    have hlowered := hruns'.limited hl' hf hsteps
    exact congrArg Execution.ending (hlowered.execute_eq (hr.limited lower) hl.room nofun)

/-- A lower limit prints no more, and nothing else. -/
theorem output_limited :
    ((m.limited lower).execute p).machine.output.toList <+:
      ((m.limited upper).execute p).machine.output.toList := by
  by_cases hf : ((m.limited lower).execute p).ending = .finished
  · rw [execute_raised hr hl hle hroom hf]
    exact List.prefix_refl _
  · obtain ⟨error, herror⟩ := halted_of_ne_finished (hr.limited lower) hl.room hf
    have htape : ((m.limited lower).execute p).machine.tape =
        ((m.limited upper).run (lower - m.steps).toNat [⟨p, []⟩] #[]).machine.tape :=
      ((runs_execute (hr.limited lower) p).halted_limited (hr.limited lower) hl hle herror).1
    have houtput : ((m.limited lower).execute p).machine.output = _ := congrArg Tape.output htape
    rw [houtput]
    -- the budget of the higher limit has room for the visits that the lower one allows
    have hbudget : (lower - m.steps).toNat ≤ (m.limited upper).budget := by
      have hlower : m.steps ≤ lower := hl.le
      have hpos : m.steps ≤ upper ∧ upper < Word.max := ⟨by omega, hroom⟩
      have heq : (m.limited upper).budget = (upper - m.steps).toNat + 1 := if_pos hpos
      omega
    exact output_run_mono _ _ (hr.limited upper) hbudget

end

/-- **The limit only cuts a run short.** A program finishes under the lower of two limits exactly if
it finishes under the higher one without passing the lower, and then only the limit differs
afterwards. If it is halted under the lower limit, the tape is that of the run under the higher
limit after as many visits as the lower one allows, and it is also the tape before the visit at
which the program was halted. In either case nothing else has been printed. -/
theorem execute_limited {m : Machine} {lower upper : Int} (hr : m.InRange)
    (hl : (m.limited lower).WithinLimit) (hle : lower ≤ upper) (hroom : upper < Word.max)
    (p : Program) {e e' : Execution} (he : (m.limited lower).execute p = e)
    (he' : (m.limited upper).execute p = e') :
    (e.ending = .finished ↔ e'.ending = .finished ∧ e'.machine.steps ≤ lower) ∧
    (e.ending = .finished → e.machine.limited upper = e'.machine) ∧
    (e.ending ≠ .finished →
      e.machine.tape =
        ((m.limited upper).run (lower - m.steps).toNat [⟨p, []⟩] #[]).machine.tape ∧
      ∃ visits ≤ (lower - m.steps).toNat,
        (m.limited lower).run (visits + 1) [⟨p, []⟩] #[] = e ∧
        ((m.limited upper).run visits [⟨p, []⟩] #[]).ending = .crashed .endless ∧
        e.machine.tape = ((m.limited upper).run visits [⟨p, []⟩] #[]).machine.tape) ∧
    e.machine.output.toList <+: e'.machine.output.toList := by
  subst he he'
  refine ⟨finished_limited_iff hr hl hle hroom, fun hf => ?_, fun hne => ?_,
    output_limited hr hl hle hroom⟩
  · rw [execute_raised hr hl hle hroom hf]
  · obtain ⟨error, herror⟩ := halted_of_ne_finished (hr.limited lower) hl.room hne
    exact (runs_execute (hr.limited lower) p).halted_limited (hr.limited lower) hl hle herror

/-- A loop that the lower limit cuts in its first pass, and an empty one that neither limit lets
run: there the counters differ and the tapes do not. -/
theorem execute_limited_loops :
    InRange ⟨#[2], 0, #[], 2, ⟨1, 2, 0, false⟩⟩ ∧
    WithinLimit (limited ⟨#[2], 0, #[], 2, ⟨1, 2, 0, false⟩⟩ 5) ∧ (9 : Int) < Word.max ∧
    (execute (limited ⟨#[2], 0, #[], 2, ⟨1, 2, 0, false⟩⟩ 5)
        [.simple .print, .loop [.simple .dec, .simple .print]]).machine.tape =
      ⟨#[1], 0, #[2]⟩ ∧
    (run 3 [⟨[.simple .print, .loop [.simple .dec, .simple .print]], []⟩]
        (limited ⟨#[2], 0, #[], 2, ⟨1, 2, 0, false⟩⟩ 9) #[]).machine.tape = ⟨#[1], 0, #[2]⟩ ∧
    (run 3 [⟨[.simple .print, .loop []], []⟩]
        (limited ⟨#[2], 0, #[], 2, ⟨1, 2, 0, false⟩⟩ 9) #[]).machine.tape = ⟨#[2], 0, #[2]⟩ := by
  have hr : InRange ⟨#[2], 0, #[], 2, ⟨1, 2, 0, false⟩⟩ := by decide
  have hl : WithinLimit (limited ⟨#[2], 0, #[], 2, ⟨1, 2, 0, false⟩⟩ 5) := by decide
  have hle : (5 : Int) ≤ 9 := by decide
  have hpass := execute_limited hr hl hle (by decide)
    [.simple .print, .loop [.simple .dec, .simple .print]] rfl rfl
  have hempty := execute_limited hr hl hle (by decide)
    [.simple .print, .loop []] rfl rfl
  refine ⟨hr, hl, by decide, by decide, ?_, ?_⟩
  · exact (hpass.2.2.1 (by decide)).1.symm
  · exact (hempty.2.2.1 (by decide)).1.symm

end TapeAsm.Machine
