import TapeAsm.Proofs.Machine.Run
import TapeAsm.Proofs.Program.Spelling

/-!
# Walking the token list

A flat machine runs a token list without building a program: a counter points at a token, and the
loop brackets jump to each other (`Flat.step`). `Flat.ends_iff_execute`: on every token list that
parses, it ends exactly as executing the program does.

The levels of a program under way and the token counter are related by `Flat.Walks`: the counter
stands before the tokens of what is left of the innermost level, behind which comes the end of its
loop, and behind that the next level. Finding the next instruction moves the counter over loop ends
only (`Walks.next`), and a visit is one move of the flat machine (`Ahead.stopped`, `Ahead.moved`).
-/

set_option autoImplicit false

namespace TapeAsm.Flat

open Machine Program

/-! ## The flat machine -/

/-- The number of tokens before the bracket that closes the innermost of `depth + 1` open ones. -/
def span (opening closing : Text) : (depth : Nat) → List Text → Nat
  | _, [] => 0
  | depth, token :: rest =>
    if token = opening then span opening closing (depth + 1) rest + 1
    else if token = closing then
      match depth with
      | 0 => 0
      | depth + 1 => span opening closing depth rest + 1
    else span opening closing depth rest + 1

/-- The position of the loop end that matches the loop start at a position. -/
def loopEnd (tokens : List Text) (i : Nat) : Nat :=
  i + 1 + span Keyword.loopStart.text Keyword.loopEnd.text 0 (tokens.drop (i + 1))

/-- The position of the first body token of the loop whose end is at a position. -/
def loopBody (tokens : List Text) (i : Nat) : Nat :=
  i - span Keyword.loopEnd.text Keyword.loopStart.text 0 (tokens.take i).reverse

/-- A machine at a token. -/
structure State where
  position : Nat
  machine : Machine

/-- What comes of one move. -/
inductive Move where
  | next (s : State)
  | done (m : Machine) (error : Option StepLimit)
  /-- There is a token outside the vocabulary. -/
  | stuck

/-- Counts a step and goes on, unless the step is past the limit. -/
def count (m : Machine) (op : Op) (go : Machine → Move) : Move :=
  let m := { m with steps := m.steps + 1 }
  if m.config.maxSteps < m.steps then .done m (some ⟨m.steps, m.config.maxSteps, op⟩) else go m

/-- Passes over a loop, halts in one that has no body, or begins its body. -/
def beginLoop (tokens : List Text) (i : Nat) (m : Machine) : Move :=
  let limit := m.config.maxSteps
  if m.value = 0 then .next ⟨loopEnd tokens i + 1, m⟩
  else if loopEnd tokens i = i + 1 then
    .done { m with steps := limit + 1 } (some ⟨limit + 1, limit, .loop⟩)
  else .next ⟨i + 1, m⟩

/-- **One move of the flat machine.** -/
def step (tokens : List Text) : State → Move
  | ⟨i, m⟩ =>
    match tokens[i]? with
    | none => .done m none
    | some token =>
      match Keyword.ofText? token with
      | none => .stuck
      | some .loopStart => count m .loop (beginLoop tokens i)
      | some .loopEnd => .next ⟨if m.value = 0 then i + 1 else loopBody tokens i, m⟩
      | some k =>
        match k.op? with
        | none => .stuck
        | some op => count m op fun m => .next ⟨i + 1, m.act op⟩

/-- `Ends tokens s m error`: moving on from `s`, the flat machine stops as `m`, having succeeded or
failed. -/
inductive Ends (tokens : List Text) : State → Machine → Option StepLimit → Prop
  | done {s : State} {m : Machine} {error : Option StepLimit} :
      step tokens s = .done m error → Ends tokens s m error
  | next {s s' : State} {m : Machine} {error : Option StepLimit} :
      step tokens s = .next s' → Ends tokens s' m error → Ends tokens s m error

/-- The flat machine is deterministic. -/
theorem Ends.unique {tokens : List Text} {s : State} {m m' : Machine}
    {error error' : Option StepLimit} (h : Ends tokens s m error) (h' : Ends tokens s m' error') :
    m = m' ∧ error = error' := by
  induction h with
  | done hs =>
    cases h' with
    | done hs' => rw [hs] at hs'; cases hs'; exact ⟨rfl, rfl⟩
    | next hs' _ => rw [hs] at hs'; cases hs'
  | next hs _ ih =>
    cases h' with
    | done hs' => rw [hs] at hs'; cases hs'
    | next hs' h' => rw [hs] at hs'; cases hs'; exact ih h'

/-! ## Matching brackets -/

/-- Scanning the tokens for a bracket passes over them without finding it. -/
def Neutral (opening closing : Text) (tokens : List Text) : Prop :=
  ∀ depth rest, span opening closing depth (tokens ++ rest) =
    tokens.length + span opening closing depth rest

theorem Neutral.append {opening closing : Text} {a b : List Text} (ha : Neutral opening closing a)
    (hb : Neutral opening closing b) : Neutral opening closing (a ++ b) := by
  intro depth rest
  rw [List.append_assoc, ha, hb, List.length_append, Nat.add_assoc]

theorem neutral_other {opening closing token : Text} (ho : token ≠ opening) (hc : token ≠ closing) :
    Neutral opening closing [token] := by
  intro depth rest
  simp [span, ho, hc, Nat.add_comm]

theorem Neutral.brackets {opening closing : Text} {tokens : List Text} (hne : closing ≠ opening)
    (h : Neutral opening closing tokens) :
    Neutral opening closing (opening :: (tokens ++ [closing])) := by
  intro depth rest
  have : span opening closing (depth + 1) (tokens ++ (closing :: rest)) =
      tokens.length + (span opening closing depth rest + 1) := by
    rw [h]
    simp [span, hne]
  simp [span, this]
  omega

/-- The tokens of a program hold no unmatched bracket, from either end. -/
theorem neutral_of_spells {tokens : List Text} {p : Program} (h : Spells tokens p) :
    Neutral Keyword.loopStart.text Keyword.loopEnd.text tokens ∧
      Neutral Keyword.loopEnd.text Keyword.loopStart.text tokens.reverse := by
  induction h with
  | nil => exact ⟨fun _ _ => by simp, fun _ _ => by simp⟩
  | @simple k op tokens p hk _ ih =>
    have hs : k.text ≠ Keyword.loopStart.text := Keyword.text_ne_of_op? hk rfl
    have he : k.text ≠ Keyword.loopEnd.text := Keyword.text_ne_of_op? hk rfl
    refine ⟨(neutral_other hs he).append ih.1, ?_⟩
    rw [List.reverse_cons]
    exact ih.2.append (neutral_other he hs)
  | @loop inner tokens body p _ _ ihb ihp =>
    constructor
    · have := (ihb.1.brackets (by decide)).append ihp.1
      simpa using this
    · have := ihp.2.append (ihb.2.brackets (by decide))
      simpa using this

theorem loopEnd_eq {tokens before inner after : List Text} {body : Program}
    (ht : tokens = before ++ Keyword.loopStart.text :: (inner ++ Keyword.loopEnd.text :: after))
    (hb : Spells inner body) : loopEnd tokens before.length = before.length + 1 + inner.length := by
  have hd : tokens.drop (before.length + 1) = inner ++ Keyword.loopEnd.text :: after := by
    rw [ht, ← List.drop_drop, List.drop_left]
    rfl
  have hne : Keyword.loopEnd.text ≠ Keyword.loopStart.text := by decide
  rw [loopEnd, hd, (neutral_of_spells hb).1]
  simp [span, hne]

theorem loopBody_eq {tokens before inner after : List Text} {body : Program}
    (ht : tokens = before ++ Keyword.loopStart.text :: (inner ++ Keyword.loopEnd.text :: after))
    (hb : Spells inner body) :
    loopBody tokens (before.length + 1 + inner.length) = before.length + 1 := by
  have hl : before.length + 1 + inner.length =
      (before ++ Keyword.loopStart.text :: inner).length := by simp; omega
  have ha : tokens = (before ++ Keyword.loopStart.text :: inner) ++
      Keyword.loopEnd.text :: after := by simp [ht]
  have hd : (tokens.take (before.length + 1 + inner.length)).reverse =
      inner.reverse ++ Keyword.loopStart.text :: before.reverse := by
    rw [hl, ha, List.take_left]
    simp
  have hne : Keyword.loopStart.text ≠ Keyword.loopEnd.text := by decide
  rw [loopBody, hd, (neutral_of_spells hb).2]
  simp [span, hne]

/-! ## Single moves -/

section
variable {tokens before after : List Text} (m : Machine)

theorem step_end : step tokens ⟨tokens.length, m⟩ = .done m none := by
  simp [step]

theorem step_simple {k : Keyword} {op : Op} (hk : k.op? = some op)
    (ht : tokens = before ++ k.text :: after) :
    step tokens ⟨before.length, m⟩ =
      count m op fun m => .next ⟨before.length + 1, m.act op⟩ := by
  cases k <;> cases hk <;> simp [step, ht, Keyword.op?]

theorem step_loopStart (ht : tokens = before ++ Keyword.loopStart.text :: after) :
    step tokens ⟨before.length, m⟩ = count m .loop (beginLoop tokens before.length) := by
  simp [step, ht]

theorem step_loopEnd (ht : tokens = before ++ Keyword.loopEnd.text :: after) :
    step tokens ⟨before.length, m⟩ =
      .next ⟨if m.value = 0 then before.length + 1 else loopBody tokens before.length, m⟩ := by
  simp [step, ht]

end

/-- Counting a step of a machine within its limit. -/
theorem count_eq {m : Machine} (h : m.WithinLimit) (op : Op) (go : Machine → Move) :
    count m op go =
      if m.config.maxSteps < m.tick.steps then
        .done m.tick (some ⟨m.tick.steps, m.config.maxSteps, op⟩)
      else go m.tick := by
  have : m.tick = { m with steps := m.steps + 1 } := by rw [← h.tick]; rfl
  rw [this]
  rfl

/-! ## Levels and positions -/

/-- `Walks tokens i levels`: at position `i`, the tokens from there on spell what is left to do. -/
inductive Walks (tokens : List Text) : Nat → List Level → Prop
  | top {before here : List Text} {rest : Program} :
      tokens = before ++ here → Spells here rest → Walks tokens before.length [⟨rest, []⟩]
  | inside {start inner before here after : List Text} {rest body : Program}
      {outer : List Level} :
      body ≠ [] → Spells inner body → Spells here rest →
      tokens = start ++ Keyword.loopStart.text :: (inner ++ Keyword.loopEnd.text :: after) →
      tokens = before ++ (here ++ Keyword.loopEnd.text :: after) →
      Walks tokens (start.length + 1 + inner.length + 1) outer →
      Walks tokens before.length (⟨rest, body⟩ :: outer)

/-- `Ahead tokens i instr rest`: the tokens of `instr` are next, and behind them what is left. -/
def Ahead (tokens : List Text) (i : Nat) (instr : Instr) (rest : List Level) : Prop :=
  ∃ before first after, tokens = before ++ (first ++ after) ∧ before.length = i ∧
    Spells first [instr] ∧ Walks tokens (i + first.length) rest

/-- What is left of a level follows its first instruction. -/
theorem Walks.uncons {tokens : List Text} {i : Nat} {instr : Instr} {rest body : Program}
    {outer : List Level} (h : Walks tokens i (⟨instr :: rest, body⟩ :: outer)) :
    Ahead tokens i instr (⟨rest, body⟩ :: outer) := by
  cases h with
  | @top before _ _ ht hs =>
    obtain ⟨first, later, rfl, hf, hl⟩ := hs.uncons
    refine ⟨before, first, later, ht, rfl, hf, ?_⟩
    rw [← List.length_append]
    exact .top (by simp [ht]) hl
  | @inside start inner before _ after _ _ _ hne hb hs hst ht ho =>
    obtain ⟨first, later, rfl, hf, hl⟩ := hs.uncons
    refine ⟨before, first, later ++ Keyword.loopEnd.text :: after, by simp [ht], rfl, hf, ?_⟩
    rw [← List.length_append]
    exact .inside hne hb hl hst (by simp [ht]) ho

/-- The program's own level runs out at the end of the tokens. -/
theorem Walks.top_out {tokens : List Text} {i : Nat} {outer : List Level}
    (h : Walks tokens i (⟨[], []⟩ :: outer)) : outer = [] ∧ i = tokens.length := by
  cases h with
  | top ht hs =>
    rw [hs.eq_nil, List.append_nil] at ht
    exact ⟨rfl, by rw [ht]⟩
  | inside hne _ _ _ _ _ => exact absurd rfl hne

/-- A loop runs out at its end, from where it starts over or is left. -/
theorem Walks.loop_out {tokens : List Text} {i : Nat} {body : Program} {outer : List Level}
    (h : Walks tokens i (⟨[], body⟩ :: outer)) (hb : body ≠ []) (m : Machine) :
    ∃ j, step tokens ⟨i, m⟩ = .next ⟨j, m⟩ ∧
      if m.value = 0 then Walks tokens j outer else Walks tokens j (⟨body, body⟩ :: outer) := by
  cases h with
  | top _ _ => exact absurd rfl hb
  | @inside start inner before _ after _ _ _ _ hi hs hst ht ho =>
    rw [hs.eq_nil, List.nil_append] at ht
    have hat : before = start ++ Keyword.loopStart.text :: inner := by
      have : before ++ Keyword.loopEnd.text :: after =
          (start ++ Keyword.loopStart.text :: inner) ++ Keyword.loopEnd.text :: after := by
        rw [← ht, hst]
        simp
      exact List.append_cancel_right this
    have hlen : before.length = start.length + 1 + inner.length := by simp [hat]; omega
    refine ⟨_, step_loopEnd m ht, ?_⟩
    split
    · rw [hlen]
      exact ho
    · have hin : start.length + 1 = (start ++ [Keyword.loopStart.text]).length := by simp
      rw [hlen, loopBody_eq hst hi, hin]
      exact .inside hb hi hi hst (by simp [hst]) ho

/-- Where nothing is left to visit, the flat machine ends with success. -/
theorem Walks.done {tokens : List Text} {i : Nat} {levels : List Level} {m : Machine}
    (h : Walks tokens i levels) (hn : Level.Next m.value levels none) :
    Ends tokens ⟨i, m⟩ m none := by
  generalize hnext : none = next at hn
  induction hn generalizing i with
  | done => cases h
  | here => cases hnext
  | again _ => cases hnext
  | @leave body outer next hv _ ih =>
    by_cases hb : body = []
    · subst hb
      obtain ⟨-, rfl⟩ := h.top_out
      exact .done (step_end m)
    · obtain ⟨j, hs, hj⟩ := h.loop_out hb m
      rw [if_pos (hv.resolve_left hb)] at hj
      exact .next hs (ih hj hnext)

/-- Towards the next instruction the flat machine passes only loop ends. -/
theorem Walks.next {tokens : List Text} {i : Nat} {levels rest : List Level} {m : Machine}
    {instr : Instr} (h : Walks tokens i levels)
    (hn : Level.Next m.value levels (some (instr, rest))) :
    ∃ j, Ahead tokens j instr rest ∧
      ∀ m' error, Ends tokens ⟨j, m⟩ m' error → Ends tokens ⟨i, m⟩ m' error := by
  generalize hnext : some (instr, rest) = next at hn
  induction hn generalizing i with
  | done => cases hnext
  | here =>
    cases hnext
    exact ⟨i, h.uncons, fun _ _ he => he⟩
  | again hv =>
    cases hnext
    obtain ⟨j, hs, hj⟩ := h.loop_out (by simp) m
    rw [if_neg hv] at hj
    exact ⟨j, hj.uncons, fun _ _ he => .next hs he⟩
  | @leave body outer next hv hn ih =>
    by_cases hb : body = []
    · subst hb
      obtain ⟨rfl, -⟩ := h.top_out
      cases hn
      cases hnext
    · obtain ⟨j, hs, hj⟩ := h.loop_out hb m
      rw [if_pos (hv.resolve_left hb)] at hj
      obtain ⟨k, hk, he⟩ := ih hj hnext
      exact ⟨k, hk, fun _ _ h => .next hs (he _ _ h)⟩

/-! ## Visits as moves -/

section
variable {tokens : List Text} {i : Nat} {instr : Instr} {rest : List Level} {m m' : Machine}
  {events : List Event}

/-- A visit that stops the run stops the flat machine. -/
theorem Ahead.stopped {ending : Ending} (h : Ahead tokens i instr rest) (hl : m.WithinLimit)
    (hv : Visits m instr (.stopped m' events ending)) :
    ∃ error, ending = .halted error ∧ step tokens ⟨i, m⟩ = .done m' (some error) := by
  obtain ⟨before, first, after, ht, rfl, hs, -⟩ := h
  obtain ⟨k, op, hk, rfl, rfl⟩ | ⟨inner, body, hb, rfl, rfl⟩ := hs.single
  · rw [step_simple m hk ht, count_eq hl]
    cases hv with
    | limit hlim => exact ⟨_, rfl, if_pos hlim⟩
    | spin _ hop _ _ =>
      cases hop
      cases k <;> cases hk
  · have hst : tokens = before ++
        Keyword.loopStart.text :: (inner ++ Keyword.loopEnd.text :: after) := by simp [ht]
    rw [step_loopStart m hst, count_eq hl]
    cases hv with
    | limit hlim => exact ⟨_, rfl, if_pos hlim⟩
    | spin hlim _ hne hnil =>
      -- no body, so the end of the loop is the next token
      cases hnil
      have hend := loopEnd_eq hst hb
      rw [hb.eq_nil, List.length_nil, Nat.add_zero] at hend
      refine ⟨_, rfl, ?_⟩
      rw [if_neg hlim, beginLoop, tick_value, if_neg hne, if_pos hend, hl.succ]
      simp [spent, Machine.tick, hl.succ]

/-- A visit that goes on is one move to where what is left begins. -/
theorem Ahead.moved {entered : List Level} (h : Ahead tokens i instr rest) (hl : m.WithinLimit)
    (hv : Visits m instr (.moved m' events entered)) :
    ∃ j, step tokens ⟨i, m⟩ = .next ⟨j, m'⟩ ∧ Walks tokens j (entered ++ rest) := by
  obtain ⟨before, first, after, ht, rfl, hs, hw⟩ := h
  obtain ⟨k, op, hk, rfl, rfl⟩ | ⟨inner, body, hb, rfl, rfl⟩ := hs.single
  · rw [step_simple m hk ht, count_eq hl]
    cases hv with
    | act hlim _ => exact ⟨_, if_neg hlim, hw⟩
    | enter _ hop _ _ =>
      cases hop
      cases k <;> cases hk
  · have hst : tokens = before ++
        Keyword.loopStart.text :: (inner ++ Keyword.loopEnd.text :: after) := by simp [ht]
    have hend := loopEnd_eq hst hb
    have hrest : Walks tokens (before.length + 1 + inner.length + 1) rest := by
      have : before.length + 1 + inner.length + 1 = before.length +
          (Keyword.loopStart.text :: (inner ++ [Keyword.loopEnd.text])).length := by simp; omega
      rw [this]
      exact hw
    rw [step_loopStart m hst, count_eq hl]
    cases hv with
    | act hlim hz =>
      refine ⟨before.length + 1 + inner.length + 1, ?_, hrest⟩
      rw [if_neg hlim, beginLoop, tick_value, if_pos (hz rfl), hend]
      rfl
    | enter hlim _ hne hbody =>
      have hin : inner ≠ [] := fun hc => hbody (hc ▸ hb).nil_eq
      refine ⟨before.length + 1, ?_, ?_⟩
      · rw [if_neg hlim, beginLoop, tick_value, if_neg hne, if_neg]
        rw [hend]
        have := List.length_pos_iff.2 hin
        omega
      · have : before.length + 1 = (before ++ [Keyword.loopStart.text]).length := by simp
        rw [this]
        exact .inside hbody hb hb hst (by simp [hst]) hrest

end

/-! ## Runs as walks -/

/-- How a run ends that did not crash. -/
def ending : Option StepLimit → Ending
  | none => .finished
  | some error => .halted error

/-- **Every run is a walk**: it ends as the flat machine does from the same place. -/
theorem ends_of_runs {tokens : List Text} {i : Nat} {levels : List Level} {m : Machine}
    {log : Array Event} {e : Execution} (h : Runs levels m log e) (hw : Walks tokens i levels)
    (hl : m.WithinLimit) (hne : e.ending ≠ .crashed .endless) :
    ∃ error, e.ending = ending error ∧ Ends tokens ⟨i, m⟩ e.machine error := by
  induction h generalizing i with
  | finish hn => exact ⟨none, rfl, hw.done hn⟩
  | stop hn hv =>
    obtain ⟨j, ha, hj⟩ := hw.next hn
    obtain ⟨error, rfl, hs⟩ := ha.stopped hl hv
    exact ⟨some error, rfl, hj _ _ (.done hs)⟩
  | move hn hv _ ih =>
    obtain ⟨j, ha, hj⟩ := hw.next hn
    obtain ⟨k, hs, hk⟩ := ha.moved hl hv
    obtain ⟨error, he, hend⟩ := ih hk (hl.moved hv).1 hne
    exact ⟨error, he, hj _ _ (.next hs hend)⟩
  | cut => exact absurd rfl hne

theorem ending_inj {error error' : Option StepLimit} (h : ending error = ending error') :
    error = error' := by
  cases error <;> cases error' <;> simp_all [ending]

/-- **Executing a program is walking its tokens.** On a token list that parses, from any machine
with the pointer on the tape and the counter within the limit, execution ends in success or in an
error, and the flat machine ends exactly so: on the same machine, with the same success or error. -/
theorem ends_iff_execute {tokens : List Text} {p : Program} {m : Machine}
    (hp : Program.parse tokens = .ok p) (hr : m.InRange) (hl : m.WithinLimit) :
    ∃ error, (m.execute p).ending = ending error ∧
      ∀ m' error', Ends tokens ⟨0, m⟩ m' error' ↔
        m' = (m.execute p).machine ∧ error' = error := by
  have hw : Walks tokens ([] : List Text).length [⟨p, []⟩] :=
    .top rfl (Program.parse_eq_ok_iff.1 hp)
  obtain ⟨error, he, hend⟩ :=
    ends_of_runs (runs_execute hr p) hw hl (execute_ne_endless hr hl.room p)
  refine ⟨error, he, fun m' error' => ⟨fun h => h.unique hend, ?_⟩⟩
  rintro ⟨rfl, rfl⟩
  exact hend

/-- The limit strikes inside a nested loop that the pointer entered on another cell. -/
theorem ends_iff_execute_nested :
    Program.parse [Keyword.loopStart.text, Keyword.print.text, Keyword.right.text,
        Keyword.loopStart.text, Keyword.dec.text, Keyword.loopEnd.text, Keyword.loopEnd.text] =
      .ok [.loop [.simple .print, .simple .right, .loop [.simple .dec]]] ∧
    Machine.InRange ⟨#[1, 2, 0], 0, #[], 0, ⟨3, 255, 5, true⟩⟩ ∧
    Machine.WithinLimit ⟨#[1, 2, 0], 0, #[], 0, ⟨3, 255, 5, true⟩⟩ ∧
    Ends [Keyword.loopStart.text, Keyword.print.text, Keyword.right.text,
        Keyword.loopStart.text, Keyword.dec.text, Keyword.loopEnd.text, Keyword.loopEnd.text]
      ⟨0, ⟨#[1, 2, 0], 0, #[], 0, ⟨3, 255, 5, true⟩⟩⟩
      ⟨#[1, 1, 0], 1, #[1], 6, ⟨3, 255, 5, true⟩⟩ (some ⟨6, 5, .dec⟩) := by
  have hp : Program.parse [Keyword.loopStart.text, Keyword.print.text, Keyword.right.text,
      Keyword.loopStart.text, Keyword.dec.text, Keyword.loopEnd.text, Keyword.loopEnd.text] =
    .ok [.loop [.simple .print, .simple .right, .loop [.simple .dec]]] := rfl
  have hr : Machine.InRange ⟨#[1, 2, 0], 0, #[], 0, ⟨3, 255, 5, true⟩⟩ := by decide
  have hl : Machine.WithinLimit ⟨#[1, 2, 0], 0, #[], 0, ⟨3, 255, 5, true⟩⟩ := by decide
  obtain ⟨error, he, hends⟩ := ends_iff_execute hp hr hl
  have hdec : error = some ⟨6, 5, .dec⟩ := ending_inj (he.symm.trans (by decide))
  exact ⟨hp, hr, hl, (hends _ _).2 ⟨by decide, hdec.symm⟩⟩

end TapeAsm.Flat
