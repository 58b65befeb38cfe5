import TapeAsm.Failure
import TapeAsm.Proofs.Program.Balance

/-!
# Where parsing fails

A token list that does not parse has one fault, and the error says which and where. Two kinds of
token cannot stand where they stand whatever follows (`Misplaced`): one outside the vocabulary, and
a loop end with no loop left to close. The first of these is reported. Without any, some loop is
never closed (`Unclosed`), and the last such loop is reported: with the loops that are open kept on
a stack, it is the one on top.

`Program.Opened tokens starts` says what the stack stands for: having read `tokens`, the loops that
start at the positions `starts` are open, the innermost first. Every token keeps it
(`Opened.append`, `Opened.start`, `Opened.stop`), so an error is one of three (`Program.Faulty`,
`Program.faulty_of_parseFrom`), and what is claimed about positions is read off these three.
-/

set_option autoImplicit false

namespace TapeAsm

/-- The token at a position is outside the vocabulary, or a loop end with no loop to close. -/
def Misplaced (tokens : List Text) (i : Nat) : Prop :=
  ∃ token, tokens[i]? = some token ∧
    (isKeyword token = false ∨ token = Keyword.loopEnd.text ∧
      (tokens.take i).count Keyword.loopStart.text ≤ (tokens.take i).count Keyword.loopEnd.text)

/-- Behind a position comes a loop end, with balanced loops in between. -/
def Closed (tokens : List Text) (i : Nat) : Prop :=
  ∃ inner after, Balanced inner ∧ tokens.drop (i + 1) = inner ++ Keyword.loopEnd.text :: after

/-- At a position is a loop start without a matching loop end. -/
structure Unclosed (tokens : List Text) (i : Nat) : Prop where
  start : tokens[i]? = some Keyword.loopStart.text
  not_closed : ¬ Closed tokens i

theorem Misplaced.lt_length {tokens : List Text} {i : Nat} (h : Misplaced tokens i) :
    i < tokens.length := by
  obtain ⟨token, hget, -⟩ := h
  exact (List.getElem?_eq_some_iff.1 hget).1

theorem closed_cons {token : Text} {tokens : List Text} {i : Nat} :
    Closed (token :: tokens) (i + 1) ↔ Closed tokens i := by
  simp only [Closed, List.drop_succ_cons]

theorem closed_append_left {before tokens : List Text} {i : Nat} :
    Closed (before ++ tokens) (before.length + i) ↔ Closed tokens i := by
  have hdrop : (before ++ tokens).drop (before.length + i + 1) = tokens.drop (i + 1) := by
    rw [Nat.add_assoc, List.drop_length_add_append]
  rw [Closed, Closed, hdrop]

theorem Closed.append {tokens after : List Text} {i : Nat} (h : Closed tokens i) :
    Closed (tokens ++ after) i := by
  obtain ⟨inner, rest, hb, hd⟩ := h
  refine ⟨inner, rest ++ after, hb, ?_⟩
  have hle : i + 1 ≤ tokens.length := by
    have := congrArg List.length hd
    simp at this
    omega
  rw [List.drop_append_of_le_length hle, hd]
  simp

namespace Program

/-! ## Derivations are balanced -/

theorem Spells.valid {tokens : List Text} {p : Program} (h : Spells tokens p) :
    Token.valid tokens = true := (parse_ok_iff.1 ⟨p, parse_eq_ok_iff.2 h⟩).1

theorem Spells.balanced {tokens : List Text} {p : Program} (h : Spells tokens p) :
    Balanced tokens := (parse_ok_iff.1 ⟨p, parse_eq_ok_iff.2 h⟩).2

/-- Every loop of a derivation is closed within it. -/
theorem Spells.closed {tokens : List Text} {p : Program} (h : Spells tokens p) {i : Nat}
    (hi : tokens[i]? = some Keyword.loopStart.text) : Closed tokens i := by
  induction h generalizing i with
  | nil => cases hi
  | @simple k op tokens p hk _ ih =>
    cases i with
    | zero =>
      have heq : k.text = Keyword.loopStart.text := by simpa using hi
      exact absurd heq (Keyword.text_ne_of_op? hk rfl)
    | succ i => exact closed_cons.2 (ih (by simpa using hi))
  | @loop inner tokens body p hbody _ ihb ihp =>
    cases i with
    | zero => exact ⟨inner, tokens, hbody.balanced, rfl⟩
    | succ i =>
      rw [List.getElem?_cons_succ] at hi
      rw [closed_cons]
      rcases Nat.lt_or_ge i inner.length with hlt | hge
      · rw [List.getElem?_append_left hlt] at hi
        exact (ihb hi).append
      · -- past the body comes its loop end, which is no start, and then the other instructions
        obtain ⟨j, rfl⟩ := Nat.exists_eq_add_of_le hge
        rw [List.getElem?_append_right (Nat.le_add_right _ _), Nat.add_sub_cancel_left] at hi
        rw [closed_append_left]
        cases j with
        | zero => exact absurd (Option.some.inj hi) (by decide)
        | succ j => exact closed_cons.2 (ihp (by simpa using hi))

/-- A loop with nothing but a derivation behind its start is the last one that is not closed. -/
theorem Spells.last_unclosed {inner : List Text} {p : Program} (hp : Spells inner p)
    (before : List Text) :
    Unclosed (before ++ Keyword.loopStart.text :: inner) before.length ∧
      ∀ i, Unclosed (before ++ Keyword.loopStart.text :: inner) i → i ≤ before.length := by
  constructor
  · refine ⟨by simp, ?_⟩
    rintro ⟨inside, after, hb, hd⟩
    have hinner : inner = inside ++ Keyword.loopEnd.text :: after := by simpa using hd
    -- the end that closes the loop would have no start within
    have hle := hp.balanced.prefixes (inside ++ [Keyword.loopEnd.text]) (by simp [hinner])
    have hne : Keyword.loopEnd.text ≠ Keyword.loopStart.text := by decide
    have htotals := hb.totals
    simp only [List.count_append, List.count_singleton_self, List.count_cons_of_ne hne,
      List.count_nil] at hle
    omega
  · intro i hi
    apply Nat.le_of_not_lt
    intro hlt
    obtain ⟨j, rfl⟩ := Nat.exists_eq_add_of_lt hlt
    rw [Nat.add_assoc] at hi
    have hstart : inner[j]? = some Keyword.loopStart.text := by
      have := hi.start
      rw [List.getElem?_append_right (Nat.le_add_right _ _), Nat.add_sub_cancel_left] at this
      simpa using this
    exact hi.not_closed (closed_append_left.2 (closed_cons.2 (hp.closed hstart)))

/-! ## Open loops -/

/-- **Having read `tokens`, the loops that start at the positions `starts` are open**, the innermost
first. -/
inductive Opened : List Text → List Nat → Prop
  | none {tokens : List Text} {p : Program} : Spells tokens p → Opened tokens []
  | inside {before inner : List Text} {starts : List Nat} {p : Program} :
      Opened before starts → Spells inner p →
      Opened (before ++ Keyword.loopStart.text :: inner) (before.length :: starts)

namespace Opened

variable {tokens : List Text} {starts : List Nat}

theorem append {more : List Text} {q : Program} (h : Opened tokens starts) (hq : Spells more q) :
    Opened (tokens ++ more) starts := by
  cases h with
  | none hp => exact .none (hp.append hq)
  | inside hb hp =>
    rw [List.append_assoc, List.cons_append]
    exact .inside hb (hp.append hq)

theorem start (h : Opened tokens starts) :
    Opened (tokens ++ [Keyword.loopStart.text]) (tokens.length :: starts) := .inside h .nil

theorem stop {i : Nat} (h : Opened tokens (i :: starts)) :
    Opened (tokens ++ [Keyword.loopEnd.text]) starts := by
  cases h with
  | inside hb hp =>
    have := hb.append (.loop hp .nil)
    simpa using this

theorem valid (h : Opened tokens starts) : Token.valid tokens = true := by
  induction h with
  | none hp => exact hp.valid
  | inside _ hp ih =>
    have hin := hp.valid
    simp only [Token.valid, List.all_append, List.all_cons, Bool.and_eq_true] at *
    exact ⟨ih, Keyword.isKeyword_text _, hin⟩

/-- There are as many more starts than ends as loops are open. -/
theorem count (h : Opened tokens starts) :
    tokens.count Keyword.loopStart.text =
      tokens.count Keyword.loopEnd.text + starts.length := by
  have hne : Keyword.loopStart.text ≠ Keyword.loopEnd.text := by decide
  induction h with
  | none hp => simpa using hp.balanced.totals.symm
  | inside _ hp ih =>
    have := hp.balanced.totals
    simp only [List.count_append, List.count_cons_self, List.count_cons_of_ne hne,
      List.length_cons]
    omega

theorem count_take (h : Opened tokens starts) (k : Nat) :
    (tokens.take k).count Keyword.loopEnd.text ≤
      (tokens.take k).count Keyword.loopStart.text := by
  have hne : Keyword.loopStart.text ≠ Keyword.loopEnd.text := by decide
  induction h with
  | none hp => exact hp.balanced.prefixes _ <| List.take_prefix k _
  | @inside before inner _ _ _ hp ih =>
    rw [List.take_append, List.count_append, List.count_append]
    cases k - before.length with
    | zero => simpa using ih
    | succ j =>
      have := hp.balanced.prefixes _ <| List.take_prefix j inner
      rw [List.take_succ_cons, List.count_cons_self, List.count_cons_of_ne hne]
      omega

/-- Nothing that was read without an error is misplaced, whatever follows. -/
theorem not_misplaced (h : Opened tokens starts) {rest : List Text} {i : Nat}
    (hi : i < tokens.length) : ¬ Misplaced (tokens ++ rest) i := by
  rintro ⟨token, hget, hbad⟩
  rw [List.getElem?_append_left hi] at hget
  rw [List.take_append_of_le_length (Nat.le_of_lt hi)] at hbad
  rcases hbad with hkey | ⟨rfl, hcount⟩
  · have := List.all_eq_true.1 h.valid token (List.mem_of_getElem? hget)
    rw [hkey] at this
    cases this
  · -- up to the loop end there would be more ends than starts
    have htake := h.count_take (i + 1)
    have hne : Keyword.loopEnd.text ≠ Keyword.loopStart.text := by decide
    rw [List.take_add_one, hget] at htake
    simp only [Option.toList, List.count_append, List.count_singleton_self,
      List.count_cons_of_ne hne, List.count_nil] at htake
    omega

end Opened

/-! ## Errors -/

/-- **The three ways to fail**, each with what was read before. -/
inductive Faulty : List Text → ParseError → Prop
  | unrecognized {before after : List Text} {starts : List Nat} {token : Text} :
      Opened before starts → isKeyword token = false →
      Faulty (before ++ token :: after) ⟨.unrecognized, before.length, token⟩
  | unmatched {before after : List Text} :
      Opened before [] →
      Faulty (before ++ Keyword.loopEnd.text :: after)
        ⟨.unmatched, before.length, Keyword.loopEnd.text⟩
  | unclosed {before inner : List Text} {starts : List Nat} {p : Program} :
      Opened before starts → Spells inner p →
      Faulty (before ++ Keyword.loopStart.text :: inner)
        ⟨.unclosed, before.length, Keyword.loopStart.text⟩

theorem faulty_of_parseFrom {before rest : List Text} {level : Program} {outer : List OpenLoop}
    {e : ParseError} (h : parseFrom before.length level outer rest = .error e)
    (ho : Opened before (outer.map OpenLoop.start)) : Faulty (before ++ rest) e := by
  induction rest generalizing before level outer with
  | nil =>
    generalize hstarts : outer.map OpenLoop.start = starts at ho
    cases ho with
    | none _ =>
      rw [List.map_eq_nil_iff.1 hstarts] at h
      cases h
    | inside hb hp =>
      obtain ⟨loop, outer, rfl, hloop, -⟩ := List.map_eq_cons_iff.1 hstarts
      cases h
      rw [hloop, List.append_nil]
      exact .unclosed hb hp
  | cons token rest ih =>
    -- a token that is read is moved to those before, and keeps what is known of the open loops
    have hread {level' : Program} {outer' : List OpenLoop}
        (h : parseFrom (before.length + 1) level' outer' rest = .error e)
        (ho : Opened (before ++ [token]) (outer'.map OpenLoop.start)) :
        Faulty (before ++ token :: rest) e := by
      have hnext : parseFrom (before ++ [token]).length level' outer' rest = .error e := by
        rwa [List.length_append]
      have hfaulty := ih hnext ho
      rwa [List.append_assoc] at hfaulty
    obtain ⟨k, op, hk, rfl⟩ | rfl | rfl | hn := token_cases token
    · rw [parseFrom_simple _ _ _ _ hk] at h
      exact hread h (ho.append (.simple hk .nil))
    · rw [parseFrom_start] at h
      exact hread h ho.start
    · cases outer with
      | nil =>
        rw [parseFrom_unmatched] at h
        cases h
        exact .unmatched ho
      | cons loop outer =>
        rw [parseFrom_end] at h
        exact hread h ho.stop
    · rw [parseFrom_unrecognized _ _ _ _ hn] at h
      cases h
      exact .unrecognized ho (by simp [isKeyword, hn])

theorem faulty_of_parse {tokens : List Text} {e : ParseError} (h : parse tokens = .error e) :
    Faulty tokens e := @faulty_of_parseFrom [] tokens [] [] e h (.none .nil)

namespace Faulty

variable {tokens : List Text} {e : ParseError}

theorem token_eq (h : Faulty tokens e) : tokens[e.index]? = some e.token := by
  cases h <;> simp

theorem misplaced (h : Faulty tokens e) (hf : e.fault ≠ .unclosed) :
    Misplaced tokens e.index ∧ ∀ i, Misplaced tokens i → e.index ≤ i := by
  have hfirst {before : List Text} {starts : List Nat} (ho : Opened before starts)
      (rest : List Text) : ∀ i, Misplaced (before ++ rest) i → before.length ≤ i :=
    fun i hi => Nat.le_of_not_lt fun hlt => ho.not_misplaced hlt hi
  cases h with
  | unrecognized ho hk => exact ⟨⟨_, by simp, .inl hk⟩, hfirst ho _⟩
  | unmatched ho =>
    have hcount := ho.count
    refine ⟨⟨_, by simp, .inr ⟨rfl, ?_⟩⟩, hfirst ho _⟩
    simpa using Nat.le_of_eq hcount
  | unclosed _ _ => exact absurd rfl hf

theorem not_misplaced (h : Faulty tokens e) (hf : e.fault = .unclosed) (i : Nat) :
    ¬ Misplaced tokens i := by
  cases h with
  | unclosed ho hp =>
    intro hi
    have hlt := hi.lt_length
    rw [← List.append_nil (_ ++ _)] at hi
    exact (Opened.inside ho hp).not_misplaced hlt hi
  | _ => cases hf

end Faulty

/-- Where only keywords come before it, a token outside the vocabulary is the first one listed. -/
theorem head?_unrecognized {before after : List Text} {token : Text}
    (hv : Token.valid before = true) (hk : isKeyword token = false) :
    (Token.unrecognized (before ++ token :: after)).head? = some before.length := by
  have hnone : Token.unrecognized before = [] := by
    rw [Token.unrecognized, List.filterMap_eq_nil_iff]
    rintro ⟨t, i⟩ hmem
    have := List.all_eq_true.1 hv t (List.fst_mem_of_mem_zipIdx hmem)
    simp [this]
  unfold Token.unrecognized at hnone ⊢
  rw [List.zipIdx_append, List.filterMap_append, hnone]
  simp [hk]

theorem carries_ofFault_iff (e : ParseError) (fault : ParseFault) :
    (Failure.structural (.ofParseError e)).carries (.ofFault fault) = true ↔ fault = e.fault := by
  obtain ⟨found, index, token⟩ := e
  cases fault <;> cases found <;> simp [Failure.carries, Structural.ofParseError, Mark.ofFault]

/-- **A parse error points at the right token.** Nothing else is returned, the failure is marked as
structural and as exactly one of the three faults, and the token reported is the one at the position
reported. If a token is misplaced, the position is that of the first such token: one outside the
vocabulary, then also the first in the list of those, or a loop end. Otherwise it is the position of
the last loop start without a matching end. -/
theorem parse_fault {tokens : List Text} {e : ParseError} (h : parse tokens = .error e) :
    (∀ p, parse tokens ≠ .ok p) ∧
    (Failure.structural (.ofParseError e)).carries .structural = true ∧
    (∀ fault, (Failure.structural (.ofParseError e)).carries (.ofFault fault) = true ↔
      fault = e.fault) ∧
    tokens[e.index]? = some e.token ∧
    ((∃ i, Misplaced tokens i) →
      (Misplaced tokens e.index ∧ ∀ i, Misplaced tokens i → e.index ≤ i) ∧
      (e.fault = .unrecognized ∧ isKeyword e.token = false ∧
          (Token.unrecognized tokens).head? = some e.index ∨
        e.fault = .unmatched ∧ e.token = Keyword.loopEnd.text)) ∧
    ((¬ ∃ i, Misplaced tokens i) →
      e.fault = .unclosed ∧ Unclosed tokens e.index ∧
        ∀ i, Unclosed tokens i → i ≤ e.index) := by
  have hfaulty := faulty_of_parse h
  refine ⟨?_, rfl, carries_ofFault_iff e, hfaulty.token_eq, ?_, ?_⟩
  · intro p hp
    rw [h] at hp
    cases hp
  · rintro ⟨i, hi⟩
    have hf : e.fault ≠ .unclosed := fun hf => hfaulty.not_misplaced hf i hi
    refine ⟨hfaulty.misplaced hf, ?_⟩
    cases hfaulty with
    | unrecognized ho hk => exact .inl ⟨rfl, hk, head?_unrecognized ho.valid hk⟩
    | unmatched _ => exact .inr ⟨rfl, rfl⟩
    | unclosed _ _ => exact absurd rfl hf
  · intro hno
    have hf : e.fault = .unclosed := by
      apply Decidable.byContradiction
      intro hf
      exact hno ⟨_, (hfaulty.misplaced hf).1⟩
    cases hfaulty with
    | unclosed _ hp => exact ⟨rfl, hp.last_unclosed _⟩
    | _ => cases hf

/-- A list for each fault; in the last one, the loop that starts last is closed. -/
theorem parse_fault_instances :
    (parse [Keyword.loopStart.text, "inc", Keyword.loopEnd.text, Keyword.loopEnd.text] =
        .error ⟨.unrecognized, 1, "inc"⟩ ∧
      (Token.unrecognized
        [Keyword.loopStart.text, "inc", Keyword.loopEnd.text, Keyword.loopEnd.text]).head? =
          some 1) ∧
    (parse [Keyword.loopStart.text, Keyword.loopEnd.text, Keyword.loopEnd.text, "inc"] =
        .error ⟨.unmatched, 2, Keyword.loopEnd.text⟩ ∧
      ∀ i, Misplaced [Keyword.loopStart.text, Keyword.loopEnd.text, Keyword.loopEnd.text, "inc"] i →
        2 ≤ i) ∧
    (parse [Keyword.loopStart.text, Keyword.loopStart.text, Keyword.loopStart.text,
        Keyword.loopEnd.text] = .error ⟨.unclosed, 1, Keyword.loopStart.text⟩ ∧
      ¬ Unclosed [Keyword.loopStart.text, Keyword.loopStart.text, Keyword.loopStart.text,
        Keyword.loopEnd.text] 2) := by
  have hunrecognized : parse [Keyword.loopStart.text, "inc", Keyword.loopEnd.text,
      Keyword.loopEnd.text] = .error ⟨.unrecognized, 1, "inc"⟩ := rfl
  have hunmatched : parse [Keyword.loopStart.text, Keyword.loopEnd.text, Keyword.loopEnd.text,
      "inc"] = .error ⟨.unmatched, 2, Keyword.loopEnd.text⟩ := rfl
  have hunclosed : parse [Keyword.loopStart.text, Keyword.loopStart.text, Keyword.loopStart.text,
      Keyword.loopEnd.text] = .error ⟨.unclosed, 1, Keyword.loopStart.text⟩ := rfl
  obtain ⟨-, -, -, -, hfirst, -⟩ := parse_fault hunrecognized
  obtain ⟨-, -, -, -, hsecond, -⟩ := parse_fault hunmatched
  obtain ⟨-, -, -, -, hmisplaced, hlast⟩ := parse_fault hunclosed
  refine ⟨⟨hunrecognized, ?_⟩, ⟨hunmatched, ?_⟩, ⟨hunclosed, ?_⟩⟩
  · obtain ⟨-, ⟨-, -, hhead⟩ | ⟨hf, -⟩⟩ := hfirst ⟨1, "inc", rfl, .inl (by decide)⟩
    · exact hhead
    · cases hf
  · exact (hsecond ⟨2, _, rfl, .inr ⟨rfl, by decide⟩⟩).1.2
  · -- nothing is misplaced, or the fault would be another one
    have hno : ¬ ∃ i, Misplaced [Keyword.loopStart.text, Keyword.loopStart.text,
        Keyword.loopStart.text, Keyword.loopEnd.text] i := by
      intro hi
      obtain ⟨-, ⟨hf, -⟩ | ⟨hf, -⟩⟩ := hmisplaced hi
      · cases hf
      · cases hf
    intro hunclosed
    exact absurd ((hlast hno).2.2 2 hunclosed) (by decide)

end Program

end TapeAsm
