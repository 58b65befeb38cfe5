import TapeAsm.Machine.Interpret
import TapeAsm.Proofs.Program.Balance
import TapeAsm.Proofs.Stage.Sequence

/-!
# How an interpretation goes

The stages of an interpretation run one after the other (`Stage.drive_sequence_cons`), so its result
can be written down case by case: `Machine.interpret_lexical` where a token is outside the
vocabulary, `Machine.interpret_structural` where the tokens do not parse, and
`Machine.interpret_executed` where the program is executed. The first two leave the machine as it
was and log nothing.
-/

set_option autoImplicit false

namespace TapeAsm

/-! ## Stages of an interpretation -/

namespace Session

/-- An action at the head of a sequence. -/
theorem drive_once (name : Text) (effect : Session → Session × Option (Stop Failure))
    (rest : List Step) (s : Session) :
    (Stage.sequence (once name effect :: rest)).drive s =
      match effect s with
      | (s', some stop) => (s', some stop)
      | (s', none) => (Stage.sequence rest).drive s' := by
  have h : (once name effect).drive s = effect s := by
    rw [Stage.drive_eq]
    simp only [once, Stage.isAbsent, Stage.step]
    cases hs : effect s with
    | mk s' stop =>
      cases stop with
      | none => exact Stage.drive_absent s'
      | some stop => rfl
  rw [Stage.drive_sequence_cons _ _ rfl, h]
  rcases effect s with ⟨s', _ | stop⟩ <;> rfl

/-- The tokens that an invalid source is reported with are those outside the vocabulary. -/
theorem filterMap_unrecognized (before tokens : List Token) :
    (((tokens.map (·.text)).zipIdx before.length).filterMap fun (t, i) =>
        if isKeyword t then none else some i).filterMap ((before ++ tokens)[·]?) =
      tokens.filter fun t => !isKeyword t.text := by
  induction tokens generalizing before with
  | nil => rfl
  | cons token rest ih =>
    have hrest := ih (before ++ [token])
    rw [List.append_assoc, List.length_append] at hrest
    cases hk : isKeyword token.text with
    | true => simpa [hk] using hrest
    | false => simpa [hk] using hrest

theorem invalidTokens_eq (s : Session) :
    s.invalidTokens = s.run.tokens.filter fun t => !isKeyword t.text :=
  filterMap_unrecognized [] s.run.tokens

end Session

/-! ## The three cases -/

namespace Machine

variable (m : Machine) (source : Text)

/-- What stops an interpretation that reached execution. -/
def stopOf : Ending → Option (Stop Failure)
  | .finished => none
  | .halted error => some (.failed (.stepLimit error))
  | .crashed fault => some (.crashed fault)

theorem interpret_lexical (h : Token.valid (Token.texts source) = false) :
    m.interpret source =
      (⟨m, ⟨source, Token.scan source, false, []⟩, #[]⟩,
        some (.failed (.lexical ⟨(Token.scan source).filter fun t => !isKeyword t.text⟩))) := by
  have hv : Token.valid ((Token.scan source).map (·.text)) = false := h
  rw [interpret, Session.pipeline, Session.scan, Session.drive_once, Session.check]
  simp only [Session.drive_once, Session.texts, Session.invalidTokens_eq, Run.start, hv]
  rfl

theorem interpret_structural {e : ParseError} (h : Token.valid (Token.texts source) = true)
    (hp : Program.parse (Token.texts source) = .error e) :
    m.interpret source =
      (⟨m, ⟨source, Token.scan source, true, []⟩, #[]⟩,
        some (.failed (.structural (.ofParseError e)))) := by
  have hv : Token.valid ((Token.scan source).map (·.text)) = true := h
  have hp : Program.parse ((Token.scan source).map (·.text)) = .error e := hp
  rw [interpret, Session.pipeline, Session.scan, Session.drive_once, Session.check]
  simp only [Session.drive_once, Session.texts, Run.start, hv, ↓reduceIte, Session.parse, hp]

theorem interpret_executed {p : Program} (h : Token.valid (Token.texts source) = true)
    (hp : Program.parse (Token.texts source) = .ok p) :
    m.interpret source =
      (⟨(m.execute p).machine, ⟨source, Token.scan source, true, p⟩,
          #[.execute p.count p.depth m.config.maxSteps] ++ (m.execute p).log⟩,
        stopOf (m.execute p).ending) := by
  have hv : Token.valid ((Token.scan source).map (·.text)) = true := h
  have hp : Program.parse ((Token.scan source).map (·.text)) = .ok p := hp
  rw [interpret, Session.pipeline, Session.scan, Session.drive_once, Session.check]
  simp only [Session.drive_once, Session.texts, Run.start, hv, ↓reduceIte, Session.parse, hp,
    Session.execute]
  cases (m.execute p).ending with
  | finished => exact Stage.drive_sequence_nil _
  | halted error => rfl
  | crashed fault => rfl

variable {m source}

/-- Of the machine and what stops it, the interpretation of a source that parses has those of the
execution. -/
theorem interpret_of_parse {p : Program} (h : Program.parse (Token.texts source) = .ok p) :
    (m.interpret source).1.machine = (m.execute p).machine ∧
      (m.interpret source).2 = stopOf (m.execute p).ending := by
  rw [m.interpret_executed source (Program.parse_ok_iff.1 ⟨p, h⟩).1 h]
  exact ⟨rfl, rfl⟩

end Machine

end TapeAsm
