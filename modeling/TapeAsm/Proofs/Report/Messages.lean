import TapeAsm.Proofs.Report.Consistency
import TapeAsm.Proofs.Report.Reading
import TapeAsm.Proofs.Text.Quoting

/-!
# What messages tell

A failed interpretation has one of three kinds of cause (`Machine.cause_of_interpret`), and the
message of each is made of fixed words, numbers and quoted texts. All of these are presentable, so
the message is, whatever bytes the source holds.

The list of invalid tokens can be told from its message. An entry of the list says where it ends:
the number of its line stops at a colon, which no number has, and the quoted text at its closing
quote (`Text.unquote_quote`). Texts that are written so (`Text.SelfDelimiting`) can be put together
in a list and still be told apart (`Text.SelfDelimiting.join_inj`), also where a token looks like a
piece of the list.
-/

set_option autoImplicit false

namespace TapeAsm

namespace Text

/-! ## Lists of texts -/

/-- **Values are written with their end**: whatever follows, the value and what follows can be told
apart. -/
def SelfDelimiting {α : Type} (write : α → Text) : Prop :=
  ∀ ⦃a b : α⦄ ⦃u v : Text⦄, write a ++ u = write b ++ v → a = b ∧ u = v

theorem join_cons (sep part : Text) (parts : List Text) :
    join sep (part :: parts) = part ++ parts.flatMap (sep ++ ·) := by
  induction parts generalizing part with
  | nil => simp [join]
  | cons next parts ih =>
    have hnext := ih next
    unfold join at hnext ⊢
    rw [List.intersperse_cons_cons, List.flatten_cons, List.flatten_cons, hnext]
    simp

section
variable {α : Type} {write : α → Text}

theorem SelfDelimiting.flatMap_inj (h : SelfDelimiting write) (hne : ∀ a, write a ≠ []) (sep : Text)
    {as bs : List α}
    (heq : (as.map write).flatMap (sep ++ ·) = (bs.map write).flatMap (sep ++ ·)) : as = bs := by
  induction as generalizing bs with
  | nil =>
    cases bs with
    | nil => rfl
    | cons b bs => simp [hne] at heq
  | cons a as ih =>
    cases bs with
    | nil => simp [hne] at heq
    | cons b bs =>
      simp only [List.map_cons, List.flatMap_cons, List.append_assoc] at heq
      obtain ⟨rfl, hrest⟩ := h (List.append_cancel_left heq)
      rw [ih hrest]

/-- **A list can be told from its joined text** if its values are written with their ends. -/
theorem SelfDelimiting.join_inj (h : SelfDelimiting write) (hne : ∀ a, write a ≠ []) {sep : Text}
    {as bs : List α} (heq : join sep (as.map write) = join sep (bs.map write)) : as = bs := by
  have hnil : join sep [] = [] := rfl
  cases as with
  | nil =>
    cases bs with
    | nil => rfl
    | cons b bs => simp [hnil, join_cons, hne] at heq
  | cons a as =>
    cases bs with
    | nil => simp [hnil, join_cons, hne] at heq
    | cons b bs =>
      rw [List.map_cons, List.map_cons, join_cons, join_cons] at heq
      obtain ⟨rfl, hrest⟩ := h heq
      rw [h.flatMap_inj hne sep hrest]

end

theorem Presentable.join {sep : Text} {parts : List Text} (hsep : sep.Presentable)
    (h : ∀ part ∈ parts, Presentable part) : Presentable (join sep parts) :=
  join_keeps presentable_nil (fun _ _ ht hu => ht.append hu) hsep h

/-! ## Numbers and quoted texts -/

theorem mem_digits {n : Int} {c : Char} (h : c ∈ Report.digits n) :
    c = '-' ∨ 48 ≤ c.toNat ∧ c.toNat ≤ 57 := by
  cases n with
  | ofNat n => exact .inr (Report.isDigit_of_mem h)
  | negSucc n =>
    rcases List.mem_cons.1 h with rfl | h
    · exact .inl rfl
    · exact .inr (Report.isDigit_of_mem h)

theorem ofInt_eq_map (n : Int) : ofInt n = (Report.digits n).map ascii := by
  cases n with
  | ofNat n => rfl
  | negSucc n => rfl

theorem presentable_ofInt (n : Int) : (ofInt n).Presentable := by
  rw [ofInt_eq_map]
  refine presentable_map_ascii fun c hc => ?_
  rcases mem_digits hc with rfl | hc
  · decide
  · omega

theorem append_cons_inj {b : UInt8} {t u x y : Text} (ht : b ∉ t) (hu : b ∉ u)
    (h : t ++ b :: x = u ++ b :: y) : t = u ∧ x = y := by
  induction t generalizing u with
  | nil =>
    cases u with
    | nil => exact ⟨rfl, (List.cons.inj h).2⟩
    | cons c u => exact absurd (List.cons.inj h).1 (List.ne_of_not_mem_cons hu)
  | cons c t ih =>
    cases u with
    | nil => exact absurd (List.cons.inj h).1.symm (List.ne_of_not_mem_cons ht)
    | cons d u =>
      obtain ⟨rfl, hrest⟩ := List.cons.inj h
      obtain ⟨rfl, hxy⟩ :=
        ih (List.not_mem_of_not_mem_cons ht) (List.not_mem_of_not_mem_cons hu) hrest
      exact ⟨rfl, hxy⟩

theorem colon_not_mem_ofInt (n : Int) : ascii ':' ∉ ofInt n := by
  intro h
  rw [ofInt_eq_map] at h
  obtain ⟨c, hc, heq⟩ := List.mem_map.1 h
  rcases mem_digits hc with rfl | hc
  · exact absurd heq (by decide)
  · have hcode := congrArg UInt8.toNat heq
    have hcolon : (ascii ':').toNat = 58 := by decide
    simp only [ascii, Nat.toUInt8_eq, UInt8.toNat_ofNat'] at hcode hcolon
    omega

theorem ofInt_inj {n k : Int} (h : ofInt n = ofInt k) : n = k := by
  rw [Report.ofInt_eq, Report.ofInt_eq] at h
  have hdigits := congrArg chars h
  rw [chars_ofChars, chars_ofChars] at hdigits
  rw [← Report.number_digits n, hdigits, Report.number_digits]

theorem selfDelimiting_quote : SelfDelimiting quote := by
  intro t t' u v h
  have hread := unquote_quote t u
  rw [h, unquote_quote] at hread
  exact ⟨(Prod.mk.inj hread).1.symm, (Prod.mk.inj hread).2.symm⟩

end Text

open Text

/-! ## The messages of the three kinds -/

theorem Mark.presentable_text (m : Mark) : m.text.Presentable := by
  cases m <;> exact presentable_ofString (by decide)

theorem Op.presentable_name (op : Op) : op.name.Presentable := by
  cases op with
  | unknown code outside =>
    exact ((presentable_ofString (by decide)).append (presentable_ofInt code.toNat)).append
      (presentable_ofString (by decide))
  | _ => exact presentable_ofString (by decide)

/-- The entry of an invalid token in a message. -/
def Lexical.entry (token : Token) : Text :=
  "line " ++ Text.ofInt token.line ++ ": " ++ token.text.quote

theorem Lexical.presentable_entry (token : Token) : (entry token).Presentable :=
  (((presentable_ofString (by decide)).append (presentable_ofInt _)).append
    (presentable_ofString (by decide))).append (presentable_quote _)

theorem Lexical.presentable_message (e : Lexical) : e.message.Presentable := by
  refine (Mark.lexical.presentable_text.append (presentable_ofString (by decide))).append
    (Presentable.join (presentable_ofString (by decide)) fun part hpart => ?_)
  obtain ⟨token, -, rfl⟩ := List.mem_map.1 hpart
  exact presentable_entry token

theorem Structural.presentable_message (e : Structural) : e.message.Presentable := by
  have hcolon : Presentable (ofString ": ") := presentable_ofString (by decide)
  have hcause := ((Mark.structural.presentable_text.append hcolon).append
    e.cause.presentable_text).append hcolon
  exact ((hcause.append (presentable_quote _)).append (presentable_ofString (by decide))).append
    (presentable_ofInt _)

theorem StepLimit.presentable_message (e : StepLimit) : e.message.Presentable :=
  (((Mark.stepLimit.presentable_text.append (presentable_ofString (by decide))).append
    (presentable_ofInt _)).append (presentable_ofString (by decide))).append e.op.presentable_name

theorem Lexical.selfDelimiting_entry : SelfDelimiting entry := by
  intro token token' u v h
  simp only [entry, List.append_assoc] at h
  -- the number of the line goes to the first colon, and the text to its closing quote
  obtain ⟨hline, hrest⟩ := append_cons_inj (colon_not_mem_ofInt _) (colon_not_mem_ofInt _)
    (List.append_cancel_left h)
  obtain ⟨htext, huv⟩ := selfDelimiting_quote (List.cons.inj hrest).2
  cases token
  cases token'
  cases ofInt_inj hline
  cases htext
  exact ⟨rfl, huv⟩

/-- **The invalid tokens can be told from their message.** -/
theorem Lexical.message_inj {e e' : Lexical} (h : e.message = e'.message) : e = e' := by
  have htokens : e.tokens = e'.tokens :=
    selfDelimiting_entry.join_inj (fun token => by simp [entry, ofString])
      (List.append_cancel_left h)
  cases e
  cases e'
  cases htokens
  rfl

/-! ## Failed interpretations -/

/-- A failed interpretation has one of three causes. -/
theorem Machine.cause_of_interpret {m : Machine} {source : Text} {failure : Failure}
    (h : (m.interpret source).2 = some (.failed failure)) :
    (∃ e, failure = .lexical e) ∨ (∃ e, failure = .structural e) ∨ ∃ e, failure = .stepLimit e := by
  cases hv : Token.valid (Token.texts source) with
  | false =>
    rw [m.interpret_lexical source hv] at h
    cases h
    exact .inl ⟨_, rfl⟩
  | true =>
    cases hp : Program.parse (Token.texts source) with
    | error e =>
      rw [m.interpret_structural source hv hp] at h
      cases h
      exact .inr (.inl ⟨_, rfl⟩)
    | ok p =>
      rw [m.interpret_executed source hv hp] at h
      cases hend : (m.execute p).ending with
      | finished =>
        rw [hend] at h
        cases h
      | halted e =>
        rw [hend] at h
        cases h
        exact .inr (.inr ⟨_, rfl⟩)
      | crashed fault =>
        rw [hend] at h
        cases h

namespace Failure

theorem presentable_message {m : Machine} {source : Text} {failure : Failure}
    (h : (m.interpret source).2 = some (.failed failure)) (contexts : List Text) :
    (failure.within contexts).message.Presentable := by
  obtain ⟨e, rfl⟩ | ⟨e, rfl⟩ | ⟨e, rfl⟩ := Machine.cause_of_interpret h
  · rw [message_lexical]
    exact e.presentable_message
  · rw [message_structural]
    exact e.presentable_message
  · rw [message_stepLimit]
    exact e.presentable_message

/-- **Messages are safe to show and tell invalid tokens apart.** Whatever the source of a failed
interpretation and the contexts around its failure, the message is UTF-8 and made of printable
characters, so it has no line break, control or format character. Two lists of invalid tokens that
differ, in a line or in a byte of a text, have different messages. -/
theorem messages_safe :
    (∀ (m : Machine) (source : Text) (failure : Failure) (contexts : List Text),
      (m.interpret source).2 = some (.failed failure) →
        (failure.within contexts).message.isUtf8 = true ∧
        ∀ c ∈ (failure.within contexts).message.chars, isPrintable c = true ∧ isHidden c = false) ∧
    ∀ (e e' : Lexical) (contexts contexts' : List Text), e.tokens ≠ e'.tokens →
      ((lexical e).within contexts).message ≠ ((lexical e').within contexts').message := by
  constructor
  · intro m source failure contexts h
    have hmessage := presentable_message h contexts
    refine ⟨hmessage.utf8, fun c hc => ?_⟩
    have hprintable := hmessage.printable c hc
    exact ⟨hprintable, isHidden_of_isPrintable hprintable⟩
  · intro e e' contexts contexts' hne h
    rw [message_lexical, message_lexical] at h
    exact hne (congrArg Lexical.tokens (Lexical.message_inj h))

/-- An escape character, a quote and a stray byte in the source; and a token that looks like the
end of one entry and the beginning of the next. -/
theorem messages_safe_hostile :
    (let failure := lexical ⟨[⟨[0x1B, 0x22, 0xFF], 1⟩]⟩;
      ((Machine.new .zero).interpret [0x1B, 0x22, 0xFF]).2 = some (.failed failure) ∧
        (failure.within ["stack:\n\t1"]).message.isUtf8 = true ∧
        ∀ c ∈ (failure.within ["stack:\n\t1"]).message.chars,
          isPrintable c = true ∧ isHidden c = false) ∧
    ((lexical ⟨[⟨"a\", line 2: \"b", 1⟩]⟩).within []).message ≠
      ((lexical ⟨[⟨"a", 1⟩, ⟨"b", 2⟩]⟩).within []).message := by
  have hfailed : ((Machine.new .zero).interpret [0x1B, 0x22, 0xFF]).2 =
      some (.failed (lexical ⟨[⟨[0x1B, 0x22, 0xFF], 1⟩]⟩)) := by
    rw [Machine.interpret_lexical _ _ (by decide)]
    congr 3
  exact ⟨⟨hfailed, messages_safe.1 _ _ _ _ hfailed⟩, messages_safe.2 _ _ _ _ (by decide)⟩

end Failure

end TapeAsm
