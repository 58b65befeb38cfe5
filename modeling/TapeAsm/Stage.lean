import TapeAsm.Fault

/-!
# Stages

A stage is one part of a sequential computation over a state. Running it once changes the state and
gives the stage that takes its place; a sequence runs its first stage and keeps the others waiting.
`Stage.drive` runs a stage and what takes its place until nothing is left or something fails. It
always ends: a stage only ever gives way to stages that it already contains (`Stage.wellFounded`).
-/

set_option autoImplicit false

namespace TapeAsm

/-- Why a stage stops the computation. -/
inductive Stop (ε : Type) where
  | failed (error : ε)
  | crashed (fault : Fault)
  deriving DecidableEq, Repr

/-- A part of a sequential computation over a state `σ` that can fail with an error `ε`. -/
inductive Stage (σ ε : Type) where
  /-- No stage: nothing is left to do. Running it all the same is a fault. -/
  | absent
  /-- A named action. It changes the state and may stop the computation; the stage that takes its
  place depends on the state it found. -/
  | action (name : Text) (effect : σ → σ × Option (Stop ε)) (next : σ → Stage σ ε)
  /-- Stages to run in order. -/
  | sequence (stages : List (Stage σ ε))
  deriving Inhabited

namespace Stage

variable {σ ε : Type}

/-- Is there nothing left to do? -/
def isAbsent : Stage σ ε → Bool
  | absent => true
  | _ => false

/-- What is left of a sequence whose first stage gave way to `next`. -/
def followedBy (rest : List (Stage σ ε)) (next : Stage σ ε) : Stage σ ε :=
  if next.isAbsent then sequence rest else sequence (next :: rest)

mutual

/-- Runs a stage once. -/
def step : Stage σ ε → σ → σ × Except (Stop ε) (Stage σ ε)
  | absent, s => (s, .error (.crashed .absent))
  | action _ effect next, s =>
    match effect s with
    | (s', some stop) => (s', .error stop)
    | (s', none) => (s', .ok (next s))
  | sequence stages, s => stepSequence stages s

/-- Runs the first stage of a sequence once. -/
def stepSequence : List (Stage σ ε) → σ → σ × Except (Stop ε) (Stage σ ε)
  | [], s => (s, .ok absent)
  | stage :: rest, s =>
    match step stage s with
    | (s', .error stop) => (s', .error stop)
    | (s', .ok next) => (s', .ok (followedBy rest next))

end

/-- Running `stage` once gives `next`, in some state. -/
def GivesWay (next stage : Stage σ ε) : Prop := ∃ s, (step stage s).2 = .ok next

theorem acc_absent : Acc GivesWay (absent : Stage σ ε) :=
  ⟨_, fun _ ⟨_, h⟩ => by simp [step] at h⟩

theorem acc_sequence_nil : Acc GivesWay (sequence [] : Stage σ ε) := by
  refine ⟨_, fun next ⟨s, h⟩ => ?_⟩
  simp only [step, stepSequence, Except.ok.injEq] at h
  exact h ▸ acc_absent

theorem acc_sequence_cons {stage : Stage σ ε} {rest : List (Stage σ ε)}
    (hs : Acc GivesWay stage) (hr : Acc GivesWay (sequence rest)) :
    Acc GivesWay (sequence (stage :: rest)) := by
  induction hs with
  | intro stage _ ih =>
    refine ⟨_, fun next ⟨s, h⟩ => ?_⟩
    simp only [step, stepSequence] at h
    split at h
    · simp at h
    · rename_i s' after heq
      simp only [Except.ok.injEq] at h
      subst h
      unfold followedBy
      split
      · exact hr
      · exact ih after ⟨s, by rw [heq]⟩

/-- No stage gives way for ever. -/
theorem wellFounded : WellFounded (GivesWay : Stage σ ε → Stage σ ε → Prop) := by
  refine ⟨fun stage => ?_⟩
  refine @Stage.rec σ ε (fun stage => Acc GivesWay stage)
    (fun stages => Acc GivesWay (sequence stages))
    acc_absent (fun name effect next ih => ⟨_, fun after ⟨s, h⟩ => ?_⟩) (fun _ h => h)
    acc_sequence_nil (fun _ _ => acc_sequence_cons) stage
  simp only [step] at h
  split at h
  · simp at h
  · simp only [Except.ok.injEq] at h
    exact h ▸ ih s

instance : WellFoundedRelation (Stage σ ε) := ⟨GivesWay, wellFounded⟩

/-- Runs a stage and what takes its place until nothing is left or something stops. -/
def drive (stage : Stage σ ε) (s : σ) : σ × Option (Stop ε) :=
  if stage.isAbsent then (s, none)
  else
    match _h : step stage s with
    | (s', .error stop) => (s', some stop)
    | (s', .ok next) => drive next s'
termination_by stage
decreasing_by exact ⟨s, by simp [_h]⟩

/-- The stages that took the place of a stage, one after the other, and how it ended. -/
def stages (stage : Stage σ ε) (s : σ) : List (Stage σ ε) × σ × Option (Stop ε) :=
  if stage.isAbsent then ([], s, none)
  else
    match _h : step stage s with
    | (s', .error stop) => ([], s', some stop)
    | (s', .ok next) =>
      let (later, last) := stages next s'
      (next :: later, last)
termination_by stage
decreasing_by exact ⟨s, by simp [_h]⟩

end Stage

end TapeAsm
