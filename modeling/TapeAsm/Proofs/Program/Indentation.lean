import TapeAsm.Proofs.Program.Measures

/-!
# The indentation of program text

The layout of a program descends into its loops and counts its depth on the way. The same text comes
out of one pass over the tokens (`Program.tokens`) that knows no tree: `indentation before token` is
the number of loops that the tokens before a line leave open, one less on the line of a loop end.

* `Program.layout_eq`: at a depth that the tokens before it account for, a program is laid out as
  the pass lays out its tokens. A loop opens one more for its body and closes it again
  (`Program.balanced_tokens`), so what follows it is back where the loop was.
* `Program.exists_matching`: every loop end has a loop start before it with balanced tokens in
  between, and `Matching.indentation_eq` gives both lines the same indentation.

`Program.format_indented` puts these together for the text of every program.
-/

set_option autoImplicit false

namespace TapeAsm

open Text

/-- The tokens of a program, in the order of the text. -/
def Program.tokens (p : Program) : List Text := p.lexemes.map Lexeme.text

/-- The number of loops around a token, which stands behind the tokens `before`. -/
def indentation (before : List Text) (token : Text) : Int :=
  surplus before - if token = Keyword.loopEnd.text then 1 else 0

/-- The line of a token behind others. -/
def lineBehind (before : List Text) (token : Text) : Text :=
  spaces (2 * indentation before token).toNat ++ token ++ newline

/-- The lines of tokens behind others, from left to right. -/
def linesBehind (before : List Text) : List Text → Text
  | [] => []
  | token :: rest => lineBehind before token ++ linesBehind (before ++ [token]) rest

/-- `Matching before upTo`: the loop start behind `before` is the one that a loop end behind `upTo`
belongs to. -/
def Matching (before upTo : List Text) : Prop :=
  ∃ inner, Balanced inner ∧ upTo = before ++ Keyword.loopStart.text :: inner

/-! ## The pass over the tokens -/

section
variable {before : List Text} {token : Text} {depth : Nat}

theorem lineBehind_eq (h : indentation before token = depth) :
    lineBehind before token = layoutLine depth token := by
  have hspaces : (2 * indentation before token).toNat = 2 * depth := by omega
  rw [lineBehind, hspaces, layoutLine]

theorem indentation_of_ne (h : token ≠ Keyword.loopEnd.text) :
    indentation before token = surplus before := by
  simp [indentation, h]

theorem indentation_end (before : List Text) :
    indentation before Keyword.loopEnd.text = surplus before - 1 := by
  simp [indentation]

theorem linesBehind_append (before a b : List Text) :
    linesBehind before (a ++ b) = linesBehind before a ++ linesBehind (before ++ a) b := by
  induction a generalizing before with
  | nil => simp [linesBehind]
  | cons token a ih => simp [linesBehind, ih]

theorem linesBehind_eq_mapIdx (before tokens : List Text) :
    linesBehind before tokens =
      (tokens.mapIdx fun i token => lineBehind (before ++ tokens.take i) token).flatten := by
  induction tokens generalizing before with
  | nil => rfl
  | cons token tokens ih => simp [linesBehind, List.mapIdx_cons, ih]

theorem Matching.prepend {before upTo : List Text} (h : Matching before upTo) (a : List Text) :
    Matching (a ++ before) (a ++ upTo) := by
  obtain ⟨inner, hb, rfl⟩ := h
  exact ⟨inner, hb, by simp⟩

theorem Matching.indentation_eq {before upTo : List Text} (h : Matching before upTo) :
    indentation upTo Keyword.loopEnd.text = indentation before Keyword.loopStart.text := by
  obtain ⟨inner, hb, rfl⟩ := h
  have hne : Keyword.loopStart.text ≠ Keyword.loopEnd.text := by decide
  rw [indentation_end, indentation_of_ne hne, surplus_append, ← List.singleton_append,
    surplus_append, surplus_start, hb.surplus_eq]
  omega

end

namespace Program

/-! ## Layout by depth and by balance -/

theorem tokens_plain {op : Op} (h : op ≠ .loop) (body rest : Program) :
    tokens (.node op body :: rest) = op.name :: rest.tokens := by
  simp [tokens, lexemes_plain h]

theorem tokens_loop (body rest : Program) :
    tokens (.loop body :: rest) =
      Keyword.loopStart.text :: (body.tokens ++ Keyword.loopEnd.text :: rest.tokens) := by
  simp [tokens, lexemes_loop]

theorem balanced_tokens (p : Program) : Balanced p.tokens := balanced_lexemes p

theorem layout_eq (p : Program) {depth : Nat} {before : List Text}
    (hd : surplus before = depth) : p.layout depth = linesBehind before p.tokens := by
  induction p using induct generalizing depth before with
  | nil => rfl
  | plain op body rest h ih =>
    have hline : indentation before op.name = depth := by
      rw [indentation_of_ne (Op.name_ne_text h rfl), hd]
    have hrest : surplus (before ++ [op.name]) = depth := by
      rw [surplus_append, surplus_other (Op.name_ne_text h rfl) (Op.name_ne_text h rfl)]
      omega
    rw [layout_plain h, tokens_plain h, linesBehind, lineBehind_eq hline, ih hrest]
  | loop body rest ihb ihr =>
    -- the depth along the loop: before it, in its body, at its end, and behind it
    have hstart : indentation before Keyword.loopStart.text = depth := by
      rw [indentation_of_ne (by decide), hd]
    have hbody : surplus (before ++ [Keyword.loopStart.text]) = (depth + 1 : Nat) := by
      rw [surplus_append, surplus_start]
      omega
    have hinner : surplus (before ++ [Keyword.loopStart.text] ++ body.tokens) =
        (depth + 1 : Nat) := by
      rw [surplus_append, hbody, body.balanced_tokens.surplus_eq]
      omega
    have hend : indentation (before ++ [Keyword.loopStart.text] ++ body.tokens)
        Keyword.loopEnd.text = depth := by
      rw [indentation_end, hinner]
      omega
    have hrest : surplus (before ++ [Keyword.loopStart.text] ++ body.tokens ++
        [Keyword.loopEnd.text]) = depth := by
      rw [surplus_append, hinner, surplus_end]
      omega
    rw [layout_loop, tokens_loop, linesBehind, linesBehind_append, linesBehind,
      lineBehind_eq hstart, lineBehind_eq hend, ihb hbody, ihr hrest]

theorem format_eq (p : Program) : p.format = linesBehind [] p.tokens := p.layout_eq rfl

theorem indentation_nonneg {p : Program} {before after : List Text} {token : Text}
    (h : p.tokens = before ++ token :: after) : 0 ≤ indentation before token := by
  by_cases he : token = Keyword.loopEnd.text
  · -- the loop end is the last token of a prefix too
    have hp : before ++ [token] <+: p.tokens := ⟨after, by simp [h]⟩
    have hnonneg := p.balanced_tokens.surplus_nonneg hp
    rw [he, surplus_append, surplus_end] at hnonneg
    rw [he, indentation_end]
    omega
  · rw [indentation_of_ne he]
    exact p.balanced_tokens.surplus_nonneg ⟨token :: after, h.symm⟩

/-! ## Matching lines -/

theorem exists_matching {p : Program} {upTo after : List Text}
    (h : p.tokens = upTo ++ Keyword.loopEnd.text :: after) : ∃ before, Matching before upTo := by
  induction p using induct generalizing upTo after with
  | nil => simp [tokens, lexemes] at h
  | plain op body rest hne ih =>
    rw [tokens_plain hne] at h
    cases upTo with
    | nil => exact absurd (List.cons.inj h).1 (Op.name_ne_text hne rfl)
    | cons token upTo =>
      obtain ⟨rfl, hrest⟩ := List.cons.inj h
      obtain ⟨before, hm⟩ := ih hrest
      exact ⟨_, hm.prepend [op.name]⟩
  | loop body rest ihb ihr =>
    rw [tokens_loop] at h
    cases upTo with
    | nil => exact absurd (List.cons.inj h).1 (by decide)
    | cons token upTo =>
      obtain ⟨rfl, htail⟩ := List.cons.inj h
      -- the loop end is the one of this loop, or it is behind it or in its body
      have hself : upTo = body.tokens →
          ∃ before, Matching before (Keyword.loopStart.text :: upTo) :=
        fun hu => ⟨[], upTo, hu ▸ body.balanced_tokens, rfl⟩
      rcases List.append_eq_append_iff.1 htail with ⟨c, hu, hc⟩ | ⟨c, hu, hc⟩
      · cases c with
        | nil => exact hself (by simpa using hu)
        | cons token c =>
          obtain ⟨rfl, hrest⟩ := List.cons.inj hc
          obtain ⟨before, hm⟩ := ihr hrest
          have hm' := hm.prepend (Keyword.loopStart.text :: body.tokens ++ [Keyword.loopEnd.text])
          exact ⟨_, by simpa [hu] using hm'⟩
      · cases c with
        | nil => exact hself (by simpa using hu.symm)
        | cons token c =>
          obtain ⟨rfl, -⟩ := List.cons.inj hc
          obtain ⟨before, hm⟩ := ihb hu
          exact ⟨_, hm.prepend [Keyword.loopStart.text]⟩

/-- **The layout is the one pass over the tokens.** The text of a program is the lines of its
tokens, each behind those before it: twice as many spaces as loops are around the token, the token,
and a line feed. A loop end has a matching loop start, and both are indented alike. -/
theorem format_indented (p : Program) :
    p.format = (p.tokens.mapIdx fun i token => lineBehind (p.tokens.take i) token).flatten ∧
    (∀ before token after, p.tokens = before ++ token :: after → 0 ≤ indentation before token) ∧
    ∀ upTo after, p.tokens = upTo ++ Keyword.loopEnd.text :: after →
      (∃ before, Matching before upTo) ∧
      ∀ before, Matching before upTo →
        indentation upTo Keyword.loopEnd.text = indentation before Keyword.loopStart.text := by
  refine ⟨?_, fun before token after => indentation_nonneg, fun upTo after h => ?_⟩
  · have hlines := linesBehind_eq_mapIdx [] p.tokens
    simp only [List.nil_append] at hlines
    rw [format_eq, hlines]
  · exact ⟨exists_matching h, fun before hm => hm.indentation_eq⟩

/-- A loop in a loop, behind an operation without a meaning whose body is not laid out. -/
theorem format_indented_nested :
    format [.node (.ofCode 7) [.simple .inc], .loop [.loop [.simple .dec]]] =
      "Op(7)" ++ newline ++ "LOOP_START" ++ newline ++ ("  LOOP_START" ++ newline) ++
        ("    DEC" ++ newline) ++ ("  LOOP_END" ++ newline) ++ ("LOOP_END" ++ newline) ∧
    indentation ["Op(7)", "LOOP_START", "LOOP_START", "DEC"] "LOOP_END" =
      indentation ["Op(7)", "LOOP_START"] "LOOP_START" := by
  obtain ⟨hformat, -, hmatching⟩ :=
    format_indented [.node (.ofCode 7) [.simple .inc], .loop [.loop [.simple .dec]]]
  refine ⟨hformat.trans (by decide +kernel), ?_⟩
  refine (hmatching _ ["LOOP_END"] (by decide +kernel)).2 _ ⟨["DEC"], ?_, rfl⟩
  exact balanced_tokens [.simple .dec]

end Program

end TapeAsm
