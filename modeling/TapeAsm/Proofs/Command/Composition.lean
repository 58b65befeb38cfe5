import TapeAsm.Command.Execute

/-!
# Command lines one after the other

Where no parameter is optional, the arguments of a command are read off the words behind its name
and nothing else: words further on never change what is read (`Command.readArgs_append`), unless
reading stopped for want of a word. So a command line that finishes ends where a command ends, and
`Registry.executeAfter_append` cuts a command line at any such place.

`Registry.commandLine_append` is the law for whole command lines, together with the calls they make.
These are taken down by the commands themselves (`Registry.recording`): execution is the same with
a record of the calls in the state (`executeAfter_recording`), and the record only grows.
-/

set_option autoImplicit false

namespace TapeAsm

/-! ## Reading arguments -/

namespace Command

/-- May the parameter be left out? -/
def Kind.isOptional : Kind → Bool
  | optional _ => true
  | _ => false

theorem Kind.whenMissing_eq {kind : Kind} (h : kind.isOptional = false) :
    kind.whenMissing = .error .missing := by
  cases kind with
  | optional kind => cases h
  | _ => rfl

variable {kinds : List Kind} {words : List Text}

/-- Mandatory parameters take a word each. -/
theorem length_le_of_readArgs {args : List Arg} (hk : ∀ kind ∈ kinds, kind.isOptional = false)
    (h : readArgs kinds words = .ok args) : kinds.length ≤ words.length := by
  induction kinds generalizing words args with
  | nil => exact Nat.zero_le _
  | cons kind kinds ih =>
    obtain ⟨hkind, hkinds⟩ := List.forall_mem_cons.1 hk
    cases words with
    | nil =>
      rw [readArgs, Kind.whenMissing_eq hkind] at h
      cases h
    | cons word words =>
      rw [readArgs] at h
      cases hc : kind.convert word with
      | error e => rw [hc] at h; cases h
      | ok value =>
        cases hr : readArgs kinds words with
        | error e => rw [hc, hr] at h; cases h
        | ok values =>
          have := ih hkinds hr
          simp only [List.length_cons]
          omega

/-- **Words behind the arguments do not matter**, unless reading stopped for want of a word. -/
theorem readArgs_append (hk : ∀ kind ∈ kinds, kind.isOptional = false)
    (h : readArgs kinds words ≠ .error .missing) (more : List Text) :
    readArgs kinds (words ++ more) = readArgs kinds words := by
  induction kinds generalizing words with
  | nil => rfl
  | cons kind kinds ih =>
    obtain ⟨hkind, hkinds⟩ := List.forall_mem_cons.1 hk
    cases words with
    | nil =>
      rw [readArgs, Kind.whenMissing_eq hkind] at h
      exact absurd rfl h
    | cons word words =>
      rw [List.cons_append, readArgs, readArgs]
      rw [readArgs] at h
      cases hc : kind.convert word with
      | error e => rfl
      | ok value =>
        have hne : readArgs kinds words ≠ .error .missing := by
          intro he
          rw [hc, he] at h
          exact h rfl
        rw [ih hkinds hne]

/-- Did the command line end for want of an argument? -/
def Outcome.wantsMore : Outcome → Bool
  | .failed (.argument _ .missing) => true
  | _ => false

theorem Outcome.wantsMore_failed {e : Error} (h : ∀ name, e ≠ .argument name .missing) :
    (failed e).wantsMore = false := by
  cases e with
  | argument name error =>
    cases error with
    | missing => exact absurd rfl (h name)
    | _ => rfl
  | _ => rfl

end Command

/-! ## Execution -/

namespace Registry

variable {σ : Type}

/-- No command of the registry has a parameter that may be left out. -/
def Mandatory (r : Registry σ) : Prop :=
  ∀ c ∈ r.commands, ∀ kind ∈ c.params, kind.isOptional = false

instance (r : Registry σ) : Decidable r.Mandatory :=
  inferInstanceAs (Decidable (∀ c ∈ r.commands, ∀ kind ∈ c.params, kind.isOptional = false))

theorem mem_of_command? {r : Registry σ} {name : Text} {c : Command σ}
    (h : r.command? name = some c) : c ∈ r.commands := by
  obtain ⟨id, -, hc⟩ := Option.bind_eq_some_iff.1 h
  exact Array.mem_of_getElem? hc

/-- A command line and then, if it finishes, another. -/
def andThen (r : Registry σ) (b : List Text) : σ × Command.Outcome → σ × Command.Outcome
  | (s, .finished) => r.execute b s
  | ended => ended

/-- **A command line can be cut** anywhere, unless its first part ends for want of an argument. -/
theorem executeAfter_append {r : Registry σ} (hr : r.Mandatory) (a b : List Text) {skip : Nat}
    (hskip : skip ≤ a.length) {s : σ} (h : (r.executeAfter skip a s).2.wantsMore = false) :
    r.executeAfter skip (a ++ b) s = r.andThen b (r.executeAfter skip a s) := by
  -- by induction on the first part, behind the arguments of the command that has run
  induction a generalizing skip s with
  | nil =>
    obtain rfl : skip = 0 := by simpa using hskip
    rfl
  | cons word rest ih =>
    cases skip with
    | succ skip => exact ih (by simpa using hskip) h
    | zero =>
      rw [executeAfter] at h
      rw [List.cons_append, executeAfter, executeAfter]
      cases hc : r.command? word.trim with
      | none => rfl
      | some c =>
        have hk := hr c (mem_of_command? hc)
        simp only [hc] at h ⊢
        cases ha : Command.readArgs c.params rest with
        | error e =>
          have hne : e ≠ .missing := by
            rintro rfl
            rw [ha] at h
            cases h
          rw [Command.readArgs_append hk (by simpa [ha] using hne), ha]
          rfl
        | ok args =>
          simp only [ha] at h
          rw [Command.readArgs_append hk (by simp [ha]), ha]
          dsimp only
          rcases hh : c.handler args s with ⟨s', _ | text | _⟩
          · rw [hh] at h
            exact ih (Command.length_le_of_readArgs hk ha) h
          · rfl
          · rfl

/-! ## Calls -/

/-- A call: the position of the command and the values of its parameters. -/
abbrev Called := Nat × List Command.Arg

/-- The command at a position, with a record of its calls in the state. -/
def recordingAt (id : Nat) (c : Command σ) : Command (σ × List Called) where
  params := c.params
  handler := fun args (s, calls) =>
    let (s', reply) := c.handler args s
    ((s', calls ++ [(id, args)]), reply)
  description := c.description
  aliases := c.aliases

/-- The registry whose commands record that they are called. -/
def recording (r : Registry σ) : Registry (σ × List Called) where
  commands := r.commands.mapIdx recordingAt
  bindings := r.bindings
  names := r.names

/-- The calls that a command line makes, in order. -/
def calls (r : Registry σ) (args : List Text) (s : σ) : List Called :=
  (r.recording.execute args (s, [])).1.2

theorem command?_recording (r : Registry σ) (name : Text) :
    (∃ id c, r.command? name = some c ∧ r.recording.command? name = some (recordingAt id c)) ∨
      (r.command? name = none ∧ r.recording.command? name = none) := by
  have hf : r.recording.find? name = r.find? name := rfl
  unfold command?
  rw [hf]
  cases r.find? name with
  | none => exact .inr ⟨rfl, rfl⟩
  | some id =>
    have hm : r.recording.commands[id]? = (r.commands[id]?).map (recordingAt id) := by
      simp [recording]
    cases hc : r.commands[id]? with
    | none => exact .inr ⟨hc, by simpa [hc] using hm⟩
    | some c => exact .inl ⟨id, c, hc, by simpa [hc] using hm⟩

theorem mandatory_recording {r : Registry σ} (hr : r.Mandatory) : r.recording.Mandatory := by
  intro c hc
  obtain ⟨id, hlt, rfl⟩ := Array.exists_of_mem_mapIdx hc
  exact hr _ (Array.getElem_mem hlt)

/-- **Execution is the same with a record of the calls**, which only grows. -/
theorem executeAfter_recording (r : Registry σ) (skip : Nat) (args : List Text) (s : σ) :
    ∃ made : List Called, ∀ before : List Called,
      r.recording.executeAfter skip args (s, before) =
        (((r.executeAfter skip args s).1, before ++ made), (r.executeAfter skip args s).2) := by
  induction args generalizing skip s with
  | nil => exact ⟨[], fun before => by simp [executeAfter]⟩
  | cons word rest ih =>
    cases skip with
    | succ skip => exact ih skip s
    | zero =>
      obtain ⟨id, c, hc, hrec⟩ | ⟨hc, hrec⟩ := r.command?_recording word.trim
      · cases ha : Command.readArgs c.params rest with
        | error e => exact ⟨[], fun before => by simp [executeAfter, hc, hrec, recordingAt, ha]⟩
        | ok args =>
          rcases hh : c.handler args s with ⟨s', _ | text | _⟩
          · obtain ⟨made, hm⟩ := ih c.params.length s'
            refine ⟨(id, args) :: made, fun before => ?_⟩
            simp [executeAfter, hc, hrec, recordingAt, ha, hh, hm]
          · exact ⟨[(id, args)], fun before => by
              simp [executeAfter, hc, hrec, recordingAt, ha, hh]⟩
          · exact ⟨[(id, args)], fun before => by
              simp [executeAfter, hc, hrec, recordingAt, ha, hh]⟩
      · exact ⟨[], fun before => by simp [executeAfter, hc, hrec]⟩

theorem execute_recording (r : Registry σ) (args : List Text) (s : σ) (before : List Called) :
    r.recording.execute args (s, before) =
      (((r.execute args s).1, before ++ r.calls args s), (r.execute args s).2) := by
  obtain ⟨made, hm⟩ := r.executeAfter_recording 0 args s
  unfold calls execute
  rw [hm, hm]
  rfl

/-- A command line cut in two, with the calls of both parts. -/
theorem execute_cut {r : Registry σ} (hr : r.Mandatory) (a b : List Text) {s : σ}
    (h : (r.execute a s).2.wantsMore = false) :
    r.execute (a ++ b) s = r.andThen b (r.execute a s) ∧
      r.calls (a ++ b) s =
        match r.execute a s with
        | (s', .finished) => r.calls a s ++ r.calls b s'
        | _ => r.calls a s := by
  refine ⟨executeAfter_append hr a b (Nat.zero_le _) h, ?_⟩
  have hrec := r.execute_recording a s []
  have h' : (r.recording.execute a (s, [])).2.wantsMore = false := by
    rw [hrec]
    exact h
  have hcut := executeAfter_append (mandatory_recording hr) a b (Nat.zero_le _) h'
  rw [← execute, ← execute, hrec] at hcut
  rw [calls, hcut]
  rcases r.execute a s with ⟨s', _ | e | _⟩
  · rw [andThen, execute_recording]
    rfl
  · rfl
  · rfl

/-- **Command lines compose**, where no parameter is optional. One that finishes can be followed by
any other. One that ends for another reason than a missing argument ends in the same way whatever
follows it. -/
theorem commandLine_append {r : Registry σ} (hr : r.Mandatory) (a b : List Text) (s : σ) :
    (∀ s', r.execute a s = (s', .finished) →
      r.execute (a ++ b) s = r.execute b s' ∧
        r.calls (a ++ b) s = r.calls a s ++ r.calls b s') ∧
    (∀ s' e, r.execute a s = (s', .failed e) → (∀ name, e ≠ .argument name .missing) →
      r.execute (a ++ b) s = (s', .failed e) ∧ r.calls (a ++ b) s = r.calls a s) ∧
    ∀ s', r.execute a s = (s', .usage) →
      r.execute (a ++ b) s = (s', .usage) ∧ r.calls (a ++ b) s = r.calls a s := by
  refine ⟨fun s' h => ?_, fun s' e h hne => ?_, fun s' h => ?_⟩
  · obtain ⟨he, hc⟩ := execute_cut hr a b (s := s) (by rw [h]; rfl)
    rw [h] at he hc
    exact ⟨he, hc⟩
  · obtain ⟨he, hc⟩ := execute_cut hr a b (s := s) (by
      rw [h]
      exact Command.Outcome.wantsMore_failed hne)
    rw [h] at he hc
    exact ⟨he, hc⟩
  · obtain ⟨he, hc⟩ := execute_cut hr a b (s := s) (by rw [h]; rfl)
    rw [h] at he hc
    exact ⟨he, hc⟩

/-- Commands that keep a total: one adds a number to it, one takes a text and refuses. -/
def totals : Registry Int :=
  let add : Command Int :=
    { params := [.int .bits8]
      handler := fun args s =>
        match args with
        | [.int n] => (s + n, .done)
        | _ => (s, .done) }
  let refuse : Command Int :=
    { params := [.text], handler := fun _ s => (s, .failed "refused") }
  (empty.defineAll [("add", add), ("refuse", refuse)]).1

/-- A line that adds twice, followed by one that is refused, and a line with a number too great. -/
theorem commandLine_append_totals :
    totals.Mandatory ∧
    totals.execute ["add", "5", "add", "-7"] 1 = (-1, .finished) ∧
    totals.execute ["add", "5", "add", "-7", "refuse", "add", "add", "9"] 1 =
      (-1, .failed (.failed "refused")) ∧
    (totals.calls ["add", "5", "add", "-7", "refuse", "add", "add", "9"] 1).map (·.1) =
      [0, 0, 1] ∧
    totals.execute ["add", "5", "add", "300"] 1 =
      (6, .failed (.argument "add" (.notInt "300" .range))) ∧
    totals.execute ["add", "5", "add", "300", "1"] 1 =
      (6, .failed (.argument "add" (.notInt "300" .range))) := by
  have hm : totals.Mandatory := by decide
  have hf : totals.execute ["add", "5", "add", "-7"] 1 = (-1, .finished) := by decide +kernel
  have he : totals.execute ["add", "5", "add", "300"] 1 =
      (6, .failed (.argument "add" (.notInt "300" .range))) := by decide +kernel
  have hrefused : totals.execute ["refuse", "add", "add", "9"] (-1) =
      (-1, .failed (.failed "refused")) := by decide +kernel
  obtain ⟨hrun, hcalls⟩ := (commandLine_append hm ["add", "5", "add", "-7"]
    ["refuse", "add", "add", "9"] 1).1 _ hf
  have hmade : (totals.calls ["add", "5", "add", "-7"] 1 ++
      totals.calls ["refuse", "add", "add", "9"] (-1)).map (·.1) = [0, 0, 1] := by
    decide +kernel
  refine ⟨hm, hf, hrun.trans hrefused, ?_, he, ?_⟩
  · rw [← hmade, ← hcalls]
    rfl
  · exact ((commandLine_append hm _ ["1"] 1).2.1 _ _ he (by simp)).1

end Registry

end TapeAsm
