import TapeAsm.Program.Layout
import TapeAsm.Proofs.Program.Lines
import TapeAsm.Proofs.Program.Tree

/-!
# Programs printed and read again

The text of a program has one line for each of its lexemes (`Program.lexemes`), so scanning it gives
their texts (`Program.texts_format`). Where every reachable operation has a meaning, these are a
derivation of the program without the bodies that nothing looks at (`Program.strip`), which is
what parsing gives (`Program.parse_texts_format`). Otherwise parsing stops at the first lexeme
without a meaning: the loops of a text are balanced whatever the tree (`Program.balanced_lexemes`).

In the other direction a derivation determines its tokens (`Program.Spells.tokens_eq`).
-/

set_option autoImplicit false

namespace TapeAsm

/-! ## Lexemes -/

/-- A line of program text, without its indentation. -/
inductive Lexeme where
  | op (op : Op) (plain : op ≠ .loop)
  | loopStart
  | loopEnd
  deriving DecidableEq

namespace Lexeme

/-- The spelling of a lexeme. -/
@[simp] def text : Lexeme → Text
  | op o _ => o.name
  | loopStart => Keyword.loopStart.text
  | loopEnd => Keyword.loopEnd.text

/-- Does the lexeme stand for something that has a meaning? -/
@[simp] def known : Lexeme → Bool
  | op o _ => o.known
  | loopStart => true
  | loopEnd => true

end Lexeme

mutual

/-- The lexemes of an instruction, in the order of the text. -/
def Instr.lexemes : Instr → List Lexeme
  | .node op body =>
    if h : op = .loop then .loopStart :: (Program.lexemes body ++ [.loopEnd]) else [.op op h]

/-- The lexemes of a program, in the order of the text. -/
def Program.lexemes : Program → List Lexeme
  | [] => []
  | instr :: rest => instr.lexemes ++ Program.lexemes rest

end

mutual

/-- The instruction without the bodies of operations that are no loops. -/
def Instr.strip : Instr → Instr
  | .node .loop body => .loop (Program.strip body)
  | .node op _ => .simple op

/-- The program without the bodies of operations that are no loops. -/
def Program.strip : Program → Program
  | [] => []
  | instr :: rest => instr.strip :: Program.strip rest

end

/-! ## Names of operations -/

theorem Keyword.wordlike_text (k : Keyword) : k.text.Wordlike := by
  cases k <;> exact ⟨List.all_eq_true.1 rfl, rfl⟩

namespace Op

/-- An operation with a meaning, loops apart, is the one that its name stands for. -/
theorem exists_keyword {op : Op} (hk : op.known = true) (hne : op ≠ .loop) :
    ∃ k : Keyword, k.op? = some op ∧ k.text = op.name := by
  cases op with
  | inc => exact ⟨.inc, rfl, rfl⟩
  | dec => exact ⟨.dec, rfl, rfl⟩
  | left => exact ⟨.left, rfl, rfl⟩
  | right => exact ⟨.right, rfl, rfl⟩
  | print => exact ⟨.print, rfl, rfl⟩
  | loop => exact absurd rfl hne
  | unknown code outside => cases hk

theorem name_of_op? {op : Op} {k : Keyword} (hk : k.op? = some op) :
    op ≠ .loop ∧ op.name = k.text := by
  cases k <;> cases hk <;> exact ⟨nofun, rfl⟩

/-- The name of an operation without a meaning begins as no keyword does. -/
theorem name_unknown {op : Op} (h : op.known = false) :
    ∃ code : UInt8, op.name = 0x4F :: 0x70 :: 0x28 :: (Text.ofNat code.toNat ++ [0x29]) := by
  cases op with
  | unknown code outside => exact ⟨code, rfl⟩
  | _ => cases h

theorem wordlike_name {op : Op} (hne : op ≠ .loop) : op.name.Wordlike := by
  cases hk : op.known with
  | true =>
    obtain ⟨k, -, ht⟩ := exists_keyword hk hne
    exact ht ▸ k.wordlike_text
  | false =>
    obtain ⟨code, hn⟩ := name_unknown hk
    rw [hn]
    refine ⟨fun b hb => ?_, rfl⟩
    simp only [List.mem_cons, List.mem_append, List.not_mem_nil, or_false] at hb
    rcases hb with rfl | rfl | rfl | hb | rfl
    · rfl
    · rfl
    · rfl
    · exact Text.isVisible_of_mem_ofNat hb
    · rfl

theorem ofText?_name {op : Op} (h : op.known = false) : Keyword.ofText? op.name = none := by
  obtain ⟨code, hn⟩ := name_unknown h
  have hhead : ∀ k : Keyword, k.text.head? ≠ some 0x4F := by
    intro k
    cases k <;> decide
  refine Option.eq_none_iff_forall_ne_some.2 fun k hk => hhead k ?_
  rw [← Keyword.eq_text_of_ofText? hk, hn]
  rfl

/-- The name of an operation is no bracket. -/
theorem name_ne_text {op : Op} (hne : op ≠ .loop) {k : Keyword} (hk : k.op? = none) :
    op.name ≠ k.text := by
  cases hop : op.known with
  | true =>
    obtain ⟨k', hk', ht⟩ := exists_keyword hop hne
    rw [← ht]
    exact Keyword.text_ne_of_op? hk' hk
  | false =>
    intro he
    have hnone := ofText?_name hop
    rw [he, Keyword.ofText?_text] at hnone
    cases hnone

end Op

/-- The lexemes with a meaning are the keywords. -/
theorem Lexeme.isKeyword_text (x : Lexeme) : isKeyword x.text = x.known := by
  cases x with
  | op op plain =>
    cases hk : op.known with
    | true =>
      obtain ⟨k, -, ht⟩ := Op.exists_keyword hk plain
      rw [text, ← ht, Keyword.isKeyword_text, known, hk]
    | false => simp [isKeyword, hk, Op.ofText?_name hk]
  | loopStart => exact Keyword.isKeyword_text .loopStart
  | loopEnd => exact Keyword.isKeyword_text .loopEnd

namespace Program

/-! ## One level of a tree -/

section
variable {op : Op} (h : op ≠ .loop) (body rest : Program)
include h

theorem lexemes_plain : lexemes (.node op body :: rest) = .op op h :: rest.lexemes := by
  simp [lexemes, Instr.lexemes, h]

theorem strip_plain : strip (.node op body :: rest) = .simple op :: rest.strip := by
  cases op with
  | loop => exact absurd rfl h
  | _ => rfl

theorem layout_plain (depth : Nat) :
    layout depth (.node op body :: rest) = layoutLine depth op.name ++ rest.layout depth := by
  cases op with
  | loop => exact absurd rfl h
  | _ => rfl

theorem depth_plain : depth (.node op body :: rest) = rest.depth := by
  cases op with
  | loop => exact absurd rfl h
  | _ => exact Nat.zero_max _

theorem count_plain : count (.node op body :: rest) = 1 + rest.count := by
  cases op with
  | loop => exact absurd rfl h
  | _ => rfl

end

section
variable (body rest : Program)

theorem lexemes_loop :
    lexemes (.loop body :: rest) = .loopStart :: (body.lexemes ++ .loopEnd :: rest.lexemes) := by
  simp [lexemes, Instr.lexemes, Instr.loop]

theorem strip_loop : strip (.loop body :: rest) = .loop body.strip :: rest.strip := rfl

theorem layout_loop (depth : Nat) :
    layout depth (.loop body :: rest) =
      layoutLine depth Keyword.loopStart.text ++ (body.layout (depth + 1) ++
        (layoutLine depth Keyword.loopEnd.text ++ rest.layout depth)) := by
  simp [layout, Instr.layout, Instr.loop]

theorem depth_loop : depth (.loop body :: rest) = max (1 + body.depth) rest.depth := rfl

theorem count_loop : count (.loop body :: rest) = 1 + body.count + rest.count := rfl

end

/-! ## What stripping keeps -/

theorem depth_strip (p : Program) : p.strip.depth = p.depth := by
  induction p using induct with
  | nil => rfl
  | plain op body rest h ih => rw [strip_plain h, Instr.simple, depth_plain h, depth_plain h, ih]
  | loop body rest ihb ihr => rw [strip_loop, depth_loop, depth_loop, ihb, ihr]

theorem count_strip (p : Program) : p.strip.count = p.count := by
  induction p using induct with
  | nil => rfl
  | plain op body rest h ih => rw [strip_plain h, Instr.simple, count_plain h, count_plain h, ih]
  | loop body rest ihb ihr => rw [strip_loop, count_loop, count_loop, ihb, ihr]

theorem layout_strip (p : Program) (depth : Nat) : p.strip.layout depth = p.layout depth := by
  induction p using induct generalizing depth with
  | nil => rfl
  | plain op body rest h ih => rw [strip_plain h, Instr.simple, layout_plain h, layout_plain h, ih]
  | loop body rest ihb ihr => rw [strip_loop, layout_loop, layout_loop, ihb, ihr]

/-! ## From text to lexemes -/

theorem texts_layoutLine (depth : Nat) {w : Text} (h : w.Wordlike) (rest : Text) :
    Token.texts (layoutLine depth w ++ rest) = w :: Token.texts rest := by
  rw [layoutLine, Token.texts_append, Token.texts_line _ h]
  rfl

theorem texts_layout (p : Program) (depth : Nat) (rest : Text) :
    Token.texts (p.layout depth ++ rest) = p.lexemes.map Lexeme.text ++ Token.texts rest := by
  induction p using induct generalizing depth rest with
  | nil => rfl
  | plain op body tail h ih =>
    rw [layout_plain h, lexemes_plain h, List.append_assoc,
      texts_layoutLine depth (Op.wordlike_name h), ih]
    rfl
  | loop body tail ihb iht =>
    rw [layout_loop, lexemes_loop, List.append_assoc,
      texts_layoutLine depth (Keyword.wordlike_text _), List.append_assoc, ihb, List.append_assoc,
      texts_layoutLine depth (Keyword.wordlike_text _), iht]
    simp [Lexeme.text]

/-- **The tokens of a program's text** are the texts of its lexemes. -/
theorem texts_format (p : Program) : Token.texts p.format = p.lexemes.map Lexeme.text := by
  have h := texts_layout p 0 []
  rwa [List.append_nil, show Token.texts [] = [] from rfl, List.append_nil] at h

/-! ## From lexemes to programs -/

/-- The lexemes without a meaning are the operations without one that loops lead to. -/
theorem known_lexemes_iff (p : Program) :
    (∀ x ∈ p.lexemes, x.known = true) ↔ ∀ i, p.Reaches i → i.op.known = true := by
  induction p using induct with
  | nil => exact ⟨fun _ i hi => absurd hi not_holds_nil, fun _ x hx => by cases hx⟩
  | plain op body rest h ih =>
    simp only [lexemes_plain h, holds_cons_iff, List.forall_mem_cons, ih]
    constructor
    · rintro ⟨hop, hrest⟩ i (rfl | ⟨hloop, -⟩ | hi)
      · exact hop
      · exact absurd hloop h
      · exact hrest i hi
    · intro hall
      exact ⟨hall _ (.inl rfl), fun i hi => hall i (.inr (.inr hi))⟩
  | loop body rest ihb ihr =>
    simp only [lexemes_loop, holds_cons_iff, List.forall_mem_cons, List.forall_mem_append, ihb, ihr]
    constructor
    · rintro ⟨-, hbody, -, hrest⟩ i (rfl | ⟨-, hi⟩ | hi)
      · rfl
      · exact hbody i hi
      · exact hrest i hi
    · intro hall
      exact ⟨rfl, fun i hi => hall i (.inr (.inl ⟨rfl, hi⟩)), rfl,
        fun i hi => hall i (.inr (.inr hi))⟩

/-- Lexemes with a meaning are a derivation of the stripped program. -/
theorem spells_lexemes {p : Program} (h : ∀ x ∈ p.lexemes, x.known = true) :
    Spells (p.lexemes.map Lexeme.text) p.strip := by
  induction p using induct with
  | nil => exact .nil
  | plain op body rest hne ih =>
    simp only [lexemes_plain hne, List.forall_mem_cons] at h
    obtain ⟨k, hk, ht⟩ := Op.exists_keyword h.1 hne
    rw [lexemes_plain hne, strip_plain hne, List.map_cons, Lexeme.text, ← ht]
    exact .simple hk (ih h.2)
  | loop body rest ihb ihr =>
    simp only [lexemes_loop, List.forall_mem_cons, List.forall_mem_append] at h
    rw [lexemes_loop, strip_loop, List.map_cons, List.map_append, List.map_cons]
    exact .loop (ihb h.2.1) (ihr h.2.2.2)

/-- A derivation determines its tokens. -/
theorem Spells.tokens_eq {tokens : List Text} {p : Program} (h : Spells tokens p) :
    tokens = p.lexemes.map Lexeme.text := by
  induction h with
  | nil => rfl
  | @simple k op tokens p hk _ ih =>
    obtain ⟨hne, hname⟩ := Op.name_of_op? hk
    rw [Instr.simple, lexemes_plain hne, List.map_cons, ← ih, Lexeme.text, hname]
  | loop _ _ ihb ihp =>
    rw [lexemes_loop, List.map_cons, List.map_append, List.map_cons, ← ihb, ← ihp]
    rfl

theorem closes_lexemes (p : Program) (depth : Nat) (rest : List Text) :
    Closes depth (p.lexemes.map Lexeme.text ++ rest) ↔ Closes depth rest := by
  induction p using induct generalizing depth rest with
  | nil => rfl
  | plain op body tail h ih =>
    rw [lexemes_plain h, List.map_cons, List.cons_append, Lexeme.text,
      closes_other (Op.name_ne_text h rfl) (Op.name_ne_text h rfl), ih]
  | loop body tail ihb iht =>
    rw [lexemes_loop, List.map_cons, List.cons_append, List.map_append, List.map_cons,
      List.append_assoc]
    simp only [Lexeme.text, closes_start, ihb, List.cons_append, closes_end, iht]

/-- The loops of a program's text are balanced, whatever its operations. -/
theorem balanced_lexemes (p : Program) : Balanced (p.lexemes.map Lexeme.text) := by
  have h := (closes_lexemes p 0 []).2 (closes_nil_iff.2 rfl)
  rwa [List.append_nil, closes_zero_iff] at h

/-! ## Reading a program's text -/

theorem parse_texts_format {p : Program} (h : ∀ i, p.Reaches i → i.op.known = true) :
    parse (Token.texts p.format) = .ok p.strip := by
  rw [texts_format, parse_eq_ok_iff]
  exact spells_lexemes ((known_lexemes_iff p).2 h)

/-- Reading stops at the first operation without a meaning. -/
theorem parse_texts_format_unknown {p : Program}
    (h : ¬ ∀ i, p.Reaches i → i.op.known = true) :
    ∃ before op plain after, p.lexemes = before ++ .op op plain :: after ∧ op.known = false ∧
      (∀ x ∈ before, x.known = true) ∧
      parse (Token.texts p.format) = .error ⟨.unrecognized, before.length, op.name⟩ := by
  rw [← known_lexemes_iff] at h
  cases hf : p.lexemes.find? (!·.known) with
  | none =>
    have hall := List.find?_eq_none.1 hf
    exact absurd (fun x hx => by simpa using hall x hx) h
  | some x =>
    obtain ⟨hx, before, after, hl, hb⟩ := List.find?_eq_some_iff_append.1 hf
    have hbefore : ∀ x ∈ before, x.known = true := fun x hx => by simpa using hb x hx
    cases x with
    | loopStart => cases hx
    | loopEnd => cases hx
    | op op plain =>
      have hop : op.known = false := by simpa using hx
      have hvalid : Token.valid (before.map Lexeme.text) = true := by
        simp only [Token.valid, List.all_eq_true, List.forall_mem_map, Lexeme.isKeyword_text]
        exact hbefore
      refine ⟨before, op, plain, after, hl, hop, hbefore, ?_⟩
      have ht : p.lexemes.map Lexeme.text =
          before.map Lexeme.text ++ op.name :: after.map Lexeme.text := by simp [hl]
      have hbalanced := balanced_lexemes p
      rw [ht] at hbalanced
      rw [texts_format, ht, parse_first_unrecognized hvalid (Op.ofText?_name hop) hbalanced,
        List.length_map]

end Program

end TapeAsm
