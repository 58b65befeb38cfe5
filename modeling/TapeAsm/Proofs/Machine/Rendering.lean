import TapeAsm.Proofs.Machine.Calls
import TapeAsm.Proofs.Text.Utf8

/-!
# Rendered output

What a run prints can be read off its history, the operations that it performs and the machine that
each of them finds (`Machine.history`): one word for each PRINT, the low half of the current cell,
behind the earlier output (`Machine.output_run`). Nothing else prints, and no word is taken back.

Rendering turns each of these words into one character, which the encoding does not lose
(`Text.chars_ofChars`). So the codes of the rendered text are the printed words, except where a word
is not the code of a character (`Machine.codes_renderCodes`). Cells that stay below the surrogates
are printed as they are (`Word.shown_low`).
-/

set_option autoImplicit false

namespace TapeAsm

/-! ## Codes and characters -/

namespace Word

/-- The code that is shown for a printed word: the word itself if it is the code of a character,
and that of the replacement character otherwise. -/
def shown (word : Int) : Int :=
  if 0 ≤ word ∧ word ≤ 0xD7FF ∨ 0xE000 ≤ word ∧ word ≤ 0x10FFFF then word else 0xFFFD

theorem low_eq (x : Int) : low x = (Int32.ofInt x).toInt := Int32.toInt_ofInt.symm

theorem shown_low {x : Int} (h₁ : 0 ≤ x) (h₂ : x ≤ 0xD7FF) : shown (low x) = x := by
  have hp : ((Nat.pow 2 32 : Nat) : Int) = 4294967296 := rfl
  have hlow : low x = x := Int.bmod_eq_of_le (by omega) (by omega)
  rw [hlow, shown, if_pos (.inl ⟨h₁, h₂⟩)]

end Word

/-- The codes of the characters of a text. -/
def Text.codes (t : Text) : List Int := t.chars.map fun c => (c.toNat : Int)

namespace Machine

theorem toNat_charOfCode (code : Int) : ((charOfCode code).toNat : Int) = Word.shown code := by
  unfold charOfCode Word.shown
  by_cases h : 0 ≤ code ∧ code.toNat.isValidChar
  · have hvalid := h.2
    unfold Nat.isValidChar at hvalid
    rw [if_pos h, Text.toNat_ofNat h.2, if_pos (by omega)]
    omega
  · have hinvalid := h
    unfold Nat.isValidChar at hinvalid
    rw [if_neg h, if_neg (by omega)]
    rfl

theorem codes_renderCodes (codes : List Int) :
    (renderCodes codes).codes = codes.map Word.shown := by
  rw [Text.codes, renderCodes, Text.chars_ofChars, List.map_map]
  exact List.map_congr_left fun code _ => toNat_charOfCode code

/-! ## Histories -/

/-- The operations that a run performs, each with the machine that it finds. -/
def history : (fuel : Nat) → List Level → Machine → List (Op × Machine)
  | 0, _, _ => []
  | fuel + 1, levels, m =>
    match Level.next? m.cell levels with
    | .ok (some (instr, levels)) =>
      match m.visit instr with
      | .moved m' _ entered => (instr.op, m) :: history fuel (entered ++ levels) m'
      | .stopped _ _ _ => []
    | _ => []

/-- The values under the pointer wherever a history prints. -/
def printedIn (entries : List (Op × Machine)) : List Int :=
  entries.filterMap fun (op, m) => if op = .print then some m.value else none

/-- **The values that a program prints** on the machine, in order. -/
def printed (m : Machine) (program : Program) : List Int :=
  printedIn (m.history m.budget [⟨program, []⟩])

theorem printedIn_cons (entry : Op × Machine) (entries : List (Op × Machine)) :
    printedIn (entry :: entries) = printedIn [entry] ++ printedIn entries := by
  unfold printedIn
  rw [← List.filterMap_append, List.singleton_append]

/-- An operation prints the low half of the current cell if it is to print, and else nothing. -/
theorem act_prints (m : Machine) (op : Op) :
    (m.act op).output.toList = m.output.toList ++ (printedIn [(op, m)]).map Word.low := by
  cases op with
  | print => simp [act, printedIn]
  | inc => simp only [act, setCell]; split <;> simp [printedIn]
  | dec => simp only [act, setCell]; split <;> simp [printedIn]
  | left => simp only [act]; split <;> simp [printedIn]
  | right => simp only [act]; split <;> simp [printedIn]
  | loop => simp [act, printedIn]
  | unknown _ _ => simp [act, printedIn]

theorem Visits.prints {m m' : Machine} {i : Instr} {events : List Event} {entered : List Level}
    (h : Visits m i (.moved m' events entered)) :
    m'.output.toList = m.output.toList ++ (printedIn [(i.op, m)]).map Word.low := by
  cases h with
  | act _ _ => exact act_prints m.tick i.op
  | enter _ hop _ _ =>
    have hnone : printedIn [(i.op, m)] = [] := by simp [printedIn, hop]
    rw [hnone]
    exact (List.append_nil _).symm

theorem Visits.bounds {m : Machine} {i : Instr} {v : Visit} (hv : Visits m i v) (hr : m.InRange)
    (hmax : m.config.maxValue ≤ Word.max) (h : ∀ x ∈ m.memory, 0 ≤ x ∧ x ≤ m.config.maxValue) :
    ∀ x ∈ v.machine.memory, 0 ≤ x ∧ x ≤ m.config.maxValue := by
  cases hv with
  | limit _ => exact h
  | act _ _ => exact bounds_act (tick_inRange hr) hmax h i.op
  | enter _ _ _ _ => exact h
  | spin _ _ _ _ => exact h

section
variable {m : Machine}

/-- The first visit of a run and of its history: it ends both and leaves the tape alone, or both go
on with the machine it moves to. -/
theorem history_succ (fuel : Nat) (levels : List Level) (log : Array Event) (h : m.InRange) :
    (m.history (fuel + 1) levels = [] ∧ (m.run (fuel + 1) levels log).machine.tape = m.tape) ∨
    ∃ i rest m' events entered, Visits m i (.moved m' events entered) ∧
      m.history (fuel + 1) levels = (i.op, m) :: m'.history fuel (entered ++ rest) ∧
      m.run (fuel + 1) levels log = m'.run fuel (entered ++ rest) (log ++ events) := by
  obtain ⟨next, hn, -⟩ := Level.exists_next m.value levels
  match next with
  | none =>
    left
    simp only [history, run, cell_eq h, hn, and_self]
  | some (i, rest) =>
    have hv := visits_visit h i
    cases hvi : m.visit i with
    | stopped m' events ending =>
      rw [hvi] at hv
      left
      simp only [history, run, cell_eq h, hn, hvi, true_and]
      exact hv.stopped_tape
    | moved m' events entered =>
      rw [hvi] at hv
      right
      refine ⟨i, rest, m', events, entered, hv, ?_, ?_⟩
      · simp only [history, cell_eq h, hn, hvi]
      · simp only [run, cell_eq h, hn, hvi]

/-- **A run prints what its history prints**, behind the earlier output. -/
theorem output_run (fuel : Nat) (levels : List Level) (log : Array Event) (h : m.InRange) :
    (m.run fuel levels log).machine.output.toList =
      m.output.toList ++ (printedIn (m.history fuel levels)).map Word.low := by
  induction fuel generalizing levels m log with
  | zero => simp [run, history, printedIn]
  | succ fuel ih =>
    obtain ⟨hhistory, htape⟩ | ⟨i, rest, m', events, entered, hv, hhistory, hrun⟩ :=
      history_succ fuel levels log h
    · have houtput : (m.run (fuel + 1) levels log).machine.output = m.output :=
        congrArg Tape.output htape
      simp [hhistory, houtput, printedIn]
    · have hin : m'.InRange := hv.inRange h
      rw [hrun, hhistory, ih _ _ hin, hv.prints, List.append_assoc, ← List.map_append,
        ← printedIn_cons]

/-- **What every visit keeps, every machine of a history has.** -/
theorem history_keeps {I : Machine → Prop} (fuel : Nat) (levels : List Level)
    (hI : ∀ {m : Machine} {i : Instr} {v : Visit}, Visits m i v → m.InRange → I m → I v.machine)
    (h : m.InRange) (hm : I m) : ∀ entry ∈ m.history fuel levels, entry.2.InRange ∧ I entry.2 := by
  induction fuel generalizing levels m with
  | zero => simp [history]
  | succ fuel ih =>
    obtain ⟨hhistory, -⟩ | ⟨i, rest, m', events, entered, hv, hhistory, -⟩ :=
      history_succ fuel levels #[] h
    · simp [hhistory]
    · rw [hhistory, List.forall_mem_cons]
      exact ⟨⟨h, hm⟩, ih _ (hv.inRange h) (hI hv h hm)⟩

theorem mem_printedIn {entries : List (Op × Machine)} {x : Int} (hx : x ∈ printedIn entries) :
    ∃ entry ∈ entries, entry.2.value = x := by
  obtain ⟨⟨op, m'⟩, hentry, hvalue⟩ := List.mem_filterMap.1 hx
  simp only [Option.ite_none_right_eq_some] at hvalue
  exact ⟨(op, m'), hentry, Option.some.inj hvalue.2⟩

/-- Cells within their bounds are printed within them. -/
theorem printed_bounds (h : m.InRange) (hmax : m.config.maxValue ≤ Word.max)
    (hcells : ∀ x ∈ m.memory, 0 ≤ x ∧ x ≤ m.config.maxValue) (p : Program) :
    ∀ x ∈ m.printed p, 0 ≤ x ∧ x ≤ m.config.maxValue := by
  intro x hx
  obtain ⟨⟨op, m'⟩, hentry, rfl⟩ := mem_printedIn hx
  -- the bounds are those of the first machine, so its configuration belongs to the invariant
  have hkeeps := history_keeps (I := fun m' => m'.config = m.config ∧
      ∀ x ∈ m'.memory, 0 ≤ x ∧ x ≤ m.config.maxValue) m.budget [⟨p, []⟩]
    (fun hv hr hm => ?_) h ⟨rfl, hcells⟩ _ hentry
  · exact hkeeps.2.2 _ (value_mem hkeeps.1)
  · obtain ⟨hconfig, hbounds⟩ := hm
    refine ⟨hv.config.trans hconfig, ?_⟩
    rw [← hconfig] at hmax hbounds ⊢
    exact hv.bounds hr hmax hbounds

/-- **Rendered output is faithful.** After a program the rendered text is UTF-8. The codes of its
characters are the earlier output followed by the printed values as signed 32-bit words, in order,
one for each, with U+FFFD in the place of those that are not codes of characters. If the cells and
the greatest value are below the surrogates, the printed values themselves are read from it. -/
theorem render_execute (h : m.InRange) (p : Program) :
    (m.execute p).machine.render.isUtf8 = true ∧
    (m.execute p).machine.render.codes =
      (m.output.toList ++ (m.printed p).map fun x => (Int32.ofInt x).toInt).map Word.shown ∧
    (m.config.maxValue ≤ 0xD7FF → (∀ x ∈ m.memory, 0 ≤ x ∧ x ≤ m.config.maxValue) →
      (m.execute p).machine.render.codes = m.render.codes ++ m.printed p) := by
  have hcodes : (m.execute p).machine.render.codes =
      (m.output.toList ++ (m.printed p).map Word.low).map Word.shown := by
    rw [render, codes_renderCodes, execute, output_run _ _ _ h]
    rfl
  refine ⟨Text.isUtf8_ofChars _, ?_, fun hmax hcells => ?_⟩
  · rw [hcodes, funext Word.low_eq]
  · have hprinted := printed_bounds h (by rw [Word.max_eq]; omega) hcells p
    have hsame : (m.printed p).map (Word.shown ∘ Word.low) = m.printed p := by
      rw [List.map_congr_left fun x hx => ?_, List.map_id]
      have hx := hprinted x hx
      exact Word.shown_low hx.1 (by omega)
    rw [hcodes, List.map_append, List.map_map, hsame, render, codes_renderCodes]

end

/-- Behind an output with a word beyond all characters, a negative cell and a surrogate are replaced
and a cell beyond 32 bits is cut. A loop that counts down is read as its count. -/
theorem render_execute_replaced :
    InRange ⟨#[-1, 0xD800, 0x10001F600], 0, #[104, 0x110000], 0, ⟨3, 255, 9, false⟩⟩ ∧
    (execute ⟨#[-1, 0xD800, 0x10001F600], 0, #[104, 0x110000], 0, ⟨3, 255, 9, false⟩⟩
      [.simple .print, .simple .right, .simple .print, .simple .right,
        .simple .print]).machine.render.codes = [104, 0xFFFD, 0xFFFD, 0xFFFD, 0x1F600] ∧
    InRange ⟨#[3], 0, #[0x2191], 0, ⟨1, 0xD7FF, 9, false⟩⟩ ∧
    (execute ⟨#[3], 0, #[0x2191], 0, ⟨1, 0xD7FF, 9, false⟩⟩
      [.loop [.simple .print, .simple .dec]]).machine.render.codes = [0x2191] ++ [3, 2, 1] := by
  have hwide :
      InRange ⟨#[-1, 0xD800, 0x10001F600], 0, #[104, 0x110000], 0, ⟨3, 255, 9, false⟩⟩ := by decide
  have hsmall : InRange ⟨#[3], 0, #[0x2191], 0, ⟨1, 0xD7FF, 9, false⟩⟩ := by decide
  refine ⟨hwide, ?_, hsmall, ?_⟩
  · rw [(render_execute hwide _).2.1]
    decide
  · rw [(render_execute hsmall _).2.2 (by decide) (by decide), render, codes_renderCodes]
    decide

end Machine

end TapeAsm
