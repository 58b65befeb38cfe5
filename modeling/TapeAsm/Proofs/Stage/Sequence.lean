import TapeAsm.Stage

/-!
# Stages in sequence

A sequence runs one stage after the other, although it never does so in one go: each round runs its
first stage once and puts what takes the place of that stage in front of the others.

* `drive_eq` opens one round; `exists_driveFor_eq` says that rounds run out.
* `drive_sequence_cons`: driving a sequence drives its first stage to the end and then, unless that
  stops, the others. Hence `drive_sequence` (the stages in turn) and, as a sequence may be cut
  anywhere (`drive_sequence_append`), `drive_flattenAll` (sequences within sequences are one).
* `recording` takes down every action with the state that it finds, without any other effect
  (`drive_recording`), so the laws hold of the actions run as well as of the state.
-/

set_option autoImplicit false

namespace TapeAsm.Stage

variable {σ ε : Type}

/-! ## Rounds -/

theorem drive_eq (stage : Stage σ ε) (s : σ) :
    stage.drive s =
      if stage.isAbsent then (s, none)
      else
        match step stage s with
        | (s', .error stop) => (s', some stop)
        | (s', .ok next) => next.drive s' := by
  rw [drive]
  split
  · rfl
  · split <;> simp_all

theorem drive_absent (s : σ) : (absent : Stage σ ε).drive s = (s, none) := by
  rw [drive_eq]
  rfl

theorem eq_absent {stage : Stage σ ε} (h : stage.isAbsent = true) : stage = absent := by
  cases stage with
  | absent => rfl
  | _ => cases h

/-- Runs a stage and what takes its place for at most `rounds` rounds; none if that is not
enough. -/
def driveFor : (rounds : Nat) → Stage σ ε → σ → Option (σ × Option (Stop ε))
  | 0, stage, s => if stage.isAbsent then some (s, none) else none
  | rounds + 1, stage, s =>
    if stage.isAbsent then some (s, none)
    else
      match step stage s with
      | (s', .error stop) => some (s', some stop)
      | (s', .ok next) => driveFor rounds next s'

/-- **Rounds run out**: from some number of rounds on, all that is to do has been done. -/
theorem exists_driveFor_eq (stage : Stage σ ε) (s : σ) :
    ∃ least, ∀ rounds, least ≤ rounds → driveFor rounds stage s = some (stage.drive s) := by
  induction stage using WellFounded.induction wellFounded generalizing s with
  | _ stage ih =>
    cases ha : stage.isAbsent with
    | true =>
      refine ⟨0, fun rounds _ => ?_⟩
      rw [drive_eq, if_pos ha]
      cases rounds <;> rw [driveFor, if_pos ha]
    | false =>
      cases hs : step stage s with
      | mk s' result =>
        cases result with
        | error stop =>
          refine ⟨1, fun rounds hr => ?_⟩
          obtain ⟨rounds, rfl⟩ : ∃ n, rounds = n + 1 := ⟨rounds - 1, by omega⟩
          simp [driveFor, drive_eq stage, ha, hs]
        | ok next =>
          obtain ⟨least, hl⟩ := ih next ⟨s, by rw [hs]⟩ s'
          refine ⟨least + 1, fun rounds hr => ?_⟩
          obtain ⟨rounds, rfl⟩ : ∃ n, rounds = n + 1 := ⟨rounds - 1, by omega⟩
          simp [driveFor, drive_eq stage, ha, hs, hl rounds (by omega)]

/-! ## Sequences -/

theorem drive_sequence_nil (s : σ) : (sequence ([] : List (Stage σ ε))).drive s = (s, none) := by
  rw [drive_eq]
  exact drive_absent s

/-- **Driving a sequence** drives its first stage to the end and then, unless that stops, the
others. -/
theorem drive_sequence_cons {stage : Stage σ ε} (rest : List (Stage σ ε)) (s : σ)
    (h : stage.isAbsent = false) :
    (sequence (stage :: rest)).drive s =
      match stage.drive s with
      | (s', some stop) => (s', some stop)
      | (s', none) => (sequence rest).drive s' := by
  -- by induction on what the first stage gives way to
  induction stage using WellFounded.induction wellFounded generalizing s with
  | _ stage ih =>
    rw [drive_eq (sequence _), drive_eq stage, h]
    simp only [isAbsent, step, stepSequence]
    cases hs : step stage s with
    | mk s' result =>
      cases result with
      | error stop => rfl
      | ok next =>
        cases hn : next.isAbsent with
        | true =>
          simp only [followedBy, hn, ↓reduceIte]
          rw [drive_eq next, if_pos hn]
          rfl
        | false =>
          simp only [followedBy, hn, Bool.false_eq_true, ↓reduceIte]
          exact ih next ⟨s, by rw [hs]⟩ s' hn

/-- A stage that is not there is a fault when its turn comes. -/
theorem drive_sequence_absent (rest : List (Stage σ ε)) (s : σ) :
    (sequence (absent :: rest)).drive s = (s, some (.crashed .absent)) := by
  rw [drive_eq]
  rfl

/-- Drives stages one after the other, up to the first that stops. -/
def driveAll : List (Stage σ ε) → σ → σ × Option (Stop ε)
  | [], s => (s, none)
  | stage :: rest, s =>
    match stage.drive s with
    | (s', some stop) => (s', some stop)
    | (s', none) => driveAll rest s'

theorem drive_sequence {stages : List (Stage σ ε)} (h : ∀ p ∈ stages, p.isAbsent = false) (s : σ) :
    (sequence stages).drive s = driveAll stages s := by
  induction stages generalizing s with
  | nil => exact drive_sequence_nil s
  | cons stage rest ih =>
    obtain ⟨hstage, hrest⟩ := List.forall_mem_cons.1 h
    rw [drive_sequence_cons rest s hstage, driveAll]
    rcases stage.drive s with ⟨s', _ | stop⟩
    · exact ih hrest s'
    · rfl

/-- **A sequence may be cut anywhere.** -/
theorem drive_sequence_append (a b : List (Stage σ ε)) (s : σ) :
    (sequence (a ++ b)).drive s =
      match (sequence a).drive s with
      | (s', some stop) => (s', some stop)
      | (s', none) => (sequence b).drive s' := by
  induction a generalizing s with
  | nil => rw [List.nil_append, drive_sequence_nil]
  | cons stage rest ih =>
    rw [List.cons_append]
    cases ha : stage.isAbsent with
    | true => rw [eq_absent ha, drive_sequence_absent, drive_sequence_absent]
    | false =>
      rw [drive_sequence_cons _ s ha, drive_sequence_cons _ s ha]
      rcases stage.drive s with ⟨s', _ | stop⟩
      · exact ih s'
      · rfl

/-! ## Sequences within sequences -/

mutual

/-- The stages that a stage consists of, with no sequence among them. -/
def flatten : Stage σ ε → List (Stage σ ε)
  | absent => [absent]
  | action name effect next => [action name effect next]
  | sequence stages => flattenAll stages

/-- The stages that several stages consist of, in order. -/
def flattenAll : List (Stage σ ε) → List (Stage σ ε)
  | [] => []
  | stage :: rest => flatten stage ++ flattenAll rest

end

/-- What follows the first stage of a sequence matters only by what driving it does. -/
theorem drive_sequence_congr (stage : Stage σ ε) {a b : List (Stage σ ε)}
    (h : ∀ s, (sequence a).drive s = (sequence b).drive s) (s : σ) :
    (sequence (stage :: a)).drive s = (sequence (stage :: b)).drive s := by
  have ha := drive_sequence_append [stage] a s
  have hb := drive_sequence_append [stage] b s
  simp only [List.singleton_append, h] at ha hb
  rw [ha, hb]

mutual

/-- The stages that a stage consists of do what it does, whatever follows. -/
theorem drive_flatten_append (rest : List (Stage σ ε)) (s : σ) :
    ∀ stage : Stage σ ε,
      (sequence (flatten stage ++ rest)).drive s = (sequence (stage :: rest)).drive s
  | absent => rfl
  | action _ _ _ => rfl
  | sequence stages => by
    rw [flatten, drive_sequence_append, drive_flattenAll, drive_sequence_cons rest s rfl]

/-- **Sequences within sequences are one sequence**, at any depth. -/
theorem drive_flattenAll (s : σ) :
    ∀ stages : List (Stage σ ε),
      (sequence (flattenAll stages)).drive s = (sequence stages).drive s
  | [] => rfl
  | stage :: rest => by
    rw [flattenAll, drive_flatten_append]
    exact drive_sequence_congr stage (fun s => drive_flattenAll s rest) s

end

/-! ## Actions -/

/-- An action that was run: its name and the state that it found. -/
abbrev Done (σ : Type) := Text × σ

mutual

/-- The stage with a record of its actions in the state. -/
def recording : Stage σ ε → Stage (σ × List (Done σ)) ε
  | absent => .absent
  | action name effect next =>
    .action name
      (fun (s, done) =>
        let (s', stop) := effect s
        ((s', done ++ [(name, s)]), stop))
      fun (s, _) => recording (next s)
  | sequence stages => .sequence (recordingAll stages)

/-- Several stages with a record of their actions. -/
def recordingAll : List (Stage σ ε) → List (Stage (σ × List (Done σ)) ε)
  | [] => []
  | stage :: rest => recording stage :: recordingAll rest

end

/-- The actions that driving a stage runs, in order. -/
def actions (stage : Stage σ ε) (s : σ) : List (Done σ) := (stage.recording.drive (s, [])).1.2

theorem isAbsent_recording (stage : Stage σ ε) : stage.recording.isAbsent = stage.isAbsent := by
  cases stage <;> rfl

theorem followedBy_recording (rest : List (Stage σ ε)) (next : Stage σ ε) :
    followedBy (recordingAll rest) next.recording = (followedBy rest next).recording := by
  unfold followedBy
  rw [isAbsent_recording]
  split <;> rfl

mutual

/-- A round is the same with a record, and adds to it at most the action that it runs. -/
theorem step_recording (s : σ) :
    ∀ stage : Stage σ ε, ∃ done : List (Done σ), ∀ before,
      step stage.recording (s, before) =
        (((step stage s).1, before ++ done), (step stage s).2.map recording)
  | absent => ⟨[], fun before => by simp [recording, step, Except.map]⟩
  | action name effect next => by
    refine ⟨[(name, s)], fun before => ?_⟩
    simp only [recording, step]
    rcases effect s with ⟨s', _ | stop⟩ <;> rfl
  | sequence stages => stepSequence_recording s stages

theorem stepSequence_recording (s : σ) :
    ∀ stages : List (Stage σ ε), ∃ done : List (Done σ), ∀ before,
      stepSequence (recordingAll stages) (s, before) =
        (((stepSequence stages s).1, before ++ done), (stepSequence stages s).2.map recording)
  | [] => ⟨[], fun before => by simp [recordingAll, stepSequence, Except.map, recording]⟩
  | stage :: rest => by
    obtain ⟨done, hd⟩ := step_recording s stage
    refine ⟨done, fun before => ?_⟩
    simp only [recordingAll, stepSequence, hd]
    rcases step stage s with ⟨s', stop | next⟩
    · rfl
    · simp [Except.map, followedBy_recording]

end

/-- **Driving is the same with a record of the actions**, which only grows. -/
theorem exists_drive_recording (stage : Stage σ ε) (s : σ) :
    ∃ done : List (Done σ), ∀ before,
      stage.recording.drive (s, before) =
        (((stage.drive s).1, before ++ done), (stage.drive s).2) := by
  induction stage using WellFounded.induction wellFounded generalizing s with
  | _ stage ih =>
    cases ha : stage.isAbsent with
    | true =>
      refine ⟨[], fun before => ?_⟩
      rw [eq_absent ha, recording, drive_absent, drive_absent, List.append_nil]
    | false =>
      obtain ⟨done, hd⟩ := step_recording s stage
      have hr : stage.recording.isAbsent = false := (isAbsent_recording stage).trans ha
      cases hs : step stage s with
      | mk s' result =>
        simp only [hs] at hd
        cases result with
        | error stop =>
          refine ⟨done, fun before => ?_⟩
          simp [drive_eq stage.recording, drive_eq stage, hr, ha, hd, hs, Except.map]
        | ok next =>
          obtain ⟨later, hl⟩ := ih next ⟨s, by rw [hs]⟩ s'
          refine ⟨done ++ later, fun before => ?_⟩
          simp [drive_eq stage.recording, drive_eq stage, hr, ha, hd, hs, Except.map, hl]

theorem drive_recording (stage : Stage σ ε) (s : σ) (before : List (Done σ)) :
    stage.recording.drive (s, before) =
      (((stage.drive s).1, before ++ stage.actions s), (stage.drive s).2) := by
  obtain ⟨done, hd⟩ := exists_drive_recording stage s
  rw [actions, hd, hd]
  rfl

/-- The actions of stages one after the other, up to the first that stops. -/
def actionsAll : List (Stage σ ε) → σ → List (Done σ)
  | [], _ => []
  | stage :: rest, s =>
    stage.actions s ++
      match stage.drive s with
      | (_, some _) => []
      | (s', none) => actionsAll rest s'

theorem driveAll_recordingAll (stages : List (Stage σ ε)) (s : σ) (before : List (Done σ)) :
    driveAll (recordingAll stages) (s, before) =
      (((driveAll stages s).1, before ++ actionsAll stages s), (driveAll stages s).2) := by
  induction stages generalizing s before with
  | nil => simp [recordingAll, driveAll, actionsAll]
  | cons stage rest ih =>
    simp only [recordingAll, driveAll, actionsAll, drive_recording]
    rcases stage.drive s with ⟨s', _ | stop⟩
    · simp [ih]
    · simp

theorem recordingAll_append (a b : List (Stage σ ε)) :
    recordingAll (a ++ b) = recordingAll a ++ recordingAll b := by
  induction a with
  | nil => rfl
  | cons stage a ih => rw [List.cons_append, recordingAll, recordingAll, ih, List.cons_append]

mutual

theorem recordingAll_flatten :
    ∀ stage : Stage σ ε, recordingAll (flatten stage) = flatten stage.recording
  | absent => rfl
  | action _ _ _ => rfl
  | sequence stages => recordingAll_flattenAll stages

theorem recordingAll_flattenAll :
    ∀ stages : List (Stage σ ε), recordingAll (flattenAll stages) = flattenAll (recordingAll stages)
  | [] => rfl
  | stage :: rest => by
    rw [flattenAll, recordingAll_append, recordingAll_flatten, recordingAll_flattenAll,
      recordingAll, flattenAll]

end

theorem recording_present {stages : List (Stage σ ε)} (h : ∀ p ∈ stages, p.isAbsent = false) :
    ∀ p ∈ recordingAll stages, p.isAbsent = false := by
  induction stages with
  | nil => exact nofun
  | cons stage rest ih =>
    obtain ⟨hstage, hrest⟩ := List.forall_mem_cons.1 h
    exact List.forall_mem_cons.2 ⟨(isAbsent_recording stage).trans hstage, ih hrest⟩

/-- **A sequence drives its stages in turn.** It comes to an end; it leaves the state, and stops, as
the stages do that are driven one after the other up to the first that stops, with the same actions
in the same order; and it does not matter how its stages are put together in sequences. -/
theorem sequence_in_turn (stages : List (Stage σ ε)) (s : σ) :
    (∃ least, ∀ rounds, least ≤ rounds →
      driveFor rounds (sequence stages) s = some ((sequence stages).drive s)) ∧
    ((∀ p ∈ stages, p.isAbsent = false) →
      (sequence stages).drive s = driveAll stages s ∧
        (sequence stages).actions s = actionsAll stages s) ∧
    (sequence (flattenAll stages)).drive s = (sequence stages).drive s ∧
      (sequence (flattenAll stages)).actions s = (sequence stages).actions s := by
  refine ⟨exists_driveFor_eq _ s, fun h => ⟨drive_sequence h s, ?_⟩, drive_flattenAll s stages, ?_⟩
  · rw [actions, recording, drive_sequence (recording_present h), driveAll_recordingAll,
      List.nil_append]
  · rw [actions, recording, recordingAll_flattenAll, drive_flattenAll]
    rfl

/-- A stage that notes a word in the state and gives way to another. -/
def noting (word : Text) (next : Stage (List Text) Text) : Stage (List Text) Text :=
  .action word (fun s => (s ++ [word], none)) fun _ => next

/-- A stage that notes a word in the state and fails with it. -/
def failing (word : Text) : Stage (List Text) Text :=
  .action word (fun s => (s ++ [word], some (.failed word))) fun _ => .absent

/-- Stages that give way to sequences, an empty one among them, and a failure before the last. -/
def notes : List (Stage (List Text) Text) :=
  [noting "a" .absent,
   noting "b" (.sequence [noting "c" (.sequence []), .sequence [noting "d" .absent]]),
   failing "e", noting "f" .absent]

theorem sequence_in_turn_notes :
    (∀ p ∈ notes, p.isAbsent = false) ∧
      (sequence notes).drive [] =
        ((["a", "b", "c", "d", "e"] : List Text), some (.failed (Text.ofString "e"))) := by
  have hp : ∀ p ∈ notes, p.isAbsent = false := by
    simp [notes, noting, failing, isAbsent]
  refine ⟨hp, ((sequence_in_turn notes []).2.1 hp).1.trans ?_⟩
  simp [notes, driveAll, drive_eq, noting, failing, step, stepSequence, followedBy, isAbsent]

end TapeAsm.Stage
