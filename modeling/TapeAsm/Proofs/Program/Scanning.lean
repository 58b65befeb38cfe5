import TapeAsm.Proofs.Program.Lines
import TapeAsm.Proofs.Text.Trim

/-!
# Scanning is exact

A text has one reading as lines (`Text.HasLines`): line ends are a carriage return and a line feed
together, a carriage return with no line feed behind it, and a line feed with no carriage return
before it. `Text.hasLines_iff`: cutting a text at its line ends gives these lines, although it first
makes all line ends alike.

`Token.Listed` lists the tokens of lines with their numbers: what trimming leaves of a line
(`Text.Trimmed`), unless that is nothing or a comment. `Token.scan_exact`: this is the list that
scanning gives. The numbers apart, the list survives every other way to lay out the lines: line ends
spelled otherwise, even where two of them become one, and more blank lines, comments and white space
(`Token.Padded`).
-/

set_option autoImplicit false

namespace TapeAsm

/-- A way to end a line. -/
inductive LineEnd where
  | lineFeed
  | carriageReturn
  | both
  deriving DecidableEq, Repr

/-- The bytes of a line end. -/
def LineEnd.text : LineEnd → Text
  | lineFeed => [0x0A]
  | carriageReturn => [0x0D]
  | both => [0x0D, 0x0A]

namespace Text

/-! ## Lines -/

/-- No line end is in the text, nor a part of one. -/
def Unbroken (line : Text) : Prop := 0x0D ∉ line ∧ 0x0A ∉ line

instance (line : Text) : Decidable (Unbroken line) :=
  inferInstanceAs (Decidable (0x0D ∉ line ∧ 0x0A ∉ line))

/-- **The text has these lines**, and between two of them a line end that fits what comes next. -/
inductive Joined (fits : LineEnd → Text → Prop) : List Text → Text → Prop
  | last {line : Text} : Unbroken line → Joined fits [line] line
  | line {line rest : Text} {lines : List Text} {e : LineEnd} :
      Unbroken line → fits e rest → Joined fits lines rest →
      Joined fits (line :: lines) (line ++ e.text ++ rest)

/-- The line end is not the first half of one. -/
def Whole (e : LineEnd) (rest : Text) : Prop := e = .carriageReturn → rest.head? ≠ some 0x0A

/-- **The lines of a text**: every line end is as long as it can be. -/
abbrev HasLines (t : Text) (lines : List Text) : Prop := Joined Whole lines t

/-- The text is these lines with any line ends, also such that run together. -/
abbrev Respells (t : Text) (lines : List Text) : Prop := Joined (fun _ _ => True) lines t

theorem whole_of_ne {e : LineEnd} (he : e ≠ .carriageReturn) (rest : Text) : Whole e rest :=
  fun h => absurd h he

theorem unifyLineEnds_cons {b : UInt8} (hb : b ≠ 0x0D) (t : Text) :
    unifyLineEnds (b :: t) = b :: unifyLineEnds t := by
  rw [unifyLineEnds.eq_3 _ _ fun _ h _ => hb h, if_neg hb]

theorem unifyLineEnds_return {t : Text} (h : t.head? ≠ some 0x0A) :
    unifyLineEnds (0x0D :: t) = 0x0A :: unifyLineEnds t := by
  have hsingle : ∀ rest, (0x0D : UInt8) = 0x0D → t = 0x0A :: rest → False := by
    rintro rest - rfl
    exact h rfl
  rw [unifyLineEnds.eq_3 _ _ hsingle, if_pos rfl]

theorem lines_line {line rest : Text} {e : LineEnd} (hl : Unbroken line) (he : Whole e rest) :
    lines (line ++ e.text ++ rest) = line :: rest.lines := by
  have hunify : unifyLineEnds (line ++ e.text ++ rest) = line ++ 0x0A :: unifyLineEnds rest := by
    obtain ⟨hr, -⟩ := hl
    induction line with
    | nil =>
      cases e with
      | lineFeed => exact unifyLineEnds_cons (by decide) rest
      | carriageReturn => exact unifyLineEnds_return (he rfl)
      | both => rfl
    | cons b line ih =>
      simp only [List.mem_cons, not_or] at hr
      rw [List.cons_append, List.cons_append, unifyLineEnds_cons (Ne.symm hr.1), ih hr.2]
      rfl
  rw [lines, hunify, splitOn_append, splitOn_of_not_mem hl.2]
  rfl

theorem lines_of_unbroken {line : Text} (h : Unbroken line) : line.lines = [line] := by
  rw [lines, unifyLineEnds_of_not_mem h.1, splitOn_of_not_mem h.2]

theorem HasLines.lines_eq {t : Text} {lines : List Text} (h : HasLines t lines) :
    t.lines = lines := by
  induction h with
  | last hl => exact lines_of_unbroken hl
  | line hl he _ ih => rw [lines_line hl he, ih]

theorem HasLines.cons {t line : Text} {lines : List Text} {b : UInt8}
    (h : HasLines t (line :: lines)) (hr : b ≠ 0x0D) (hf : b ≠ 0x0A) :
    HasLines (b :: t) ((b :: line) :: lines) := by
  have hunbroken {line : Text} (hl : Unbroken line) : Unbroken (b :: line) := by
    simp only [Unbroken, List.mem_cons, not_or]
    exact ⟨⟨Ne.symm hr, hl.1⟩, Ne.symm hf, hl.2⟩
  cases h with
  | last hl => exact .last (hunbroken hl)
  | line hl he hrest =>
    rw [← List.cons_append, ← List.cons_append]
    exact .line (hunbroken hl) he hrest

theorem exists_hasLines (t : Text) : ∃ line lines, HasLines t (line :: lines) := by
  fun_induction unifyLineEnds t with
  | case1 => exact ⟨[], [], .last (by decide)⟩
  | case2 rest ih =>
    obtain ⟨line, lines, h⟩ := ih
    exact ⟨[], _, .line (e := .both) (by decide) (whole_of_ne (by decide) _) h⟩
  | case3 b rest hsingle ih =>
    obtain ⟨line, lines, h⟩ := ih
    by_cases hr : b = 0x0D
    · have hwhole : Whole .carriageReturn rest := by
        intro _ hhead
        obtain ⟨rest, rfl⟩ := List.head?_eq_some_iff.1 hhead
        exact hsingle rest hr rfl
      subst hr
      exact ⟨[], _, .line (e := .carriageReturn) (by decide) hwhole h⟩
    · by_cases hf : b = 0x0A
      · subst hf
        exact ⟨[], _, .line (e := .lineFeed) (by decide) (whole_of_ne (by decide) _) h⟩
      · exact ⟨_, _, h.cons hr hf⟩

/-- **Cutting a text at its line ends gives its lines.** -/
theorem hasLines_iff {t : Text} {lines : List Text} : HasLines t lines ↔ t.lines = lines := by
  constructor
  · exact HasLines.lines_eq
  · rintro rfl
    obtain ⟨line, lines, h⟩ := exists_hasLines t
    rw [h.lines_eq]
    exact h

end Text

namespace Token

open Text

/-! ## Tokens of lines -/

/-- **The tokens of lines**, with the numbers of the lines counted from `n`. -/
inductive Listed : Nat → List Text → List Token → Prop
  | nil {n : Nat} : Listed n [] []
  | skip {n : Nat} {line t : Text} {lines : List Text} {tokens : List Token} :
      Trimmed line t → t = [] ∨ commentMark <+: t → Listed (n + 1) lines tokens →
      Listed n (line :: lines) tokens
  | token {n : Nat} {line t : Text} {lines : List Text} {tokens : List Token} :
      Trimmed line t → t ≠ [] → ¬ commentMark <+: t → Listed (n + 1) lines tokens →
      Listed n (line :: lines) (⟨t, n⟩ :: tokens)

/-- **More around the same tokens**: white space around the lines, blank lines and comments. -/
inductive Padded : List Text → List Text → Prop
  | nil : Padded [] []
  | line {before after line : Text} {lines lines' : List Text} :
      AllBlank before → AllBlank after → Padded lines lines' →
      Padded (line :: lines) ((before ++ line ++ after) :: lines')
  | blank {line : Text} {lines lines' : List Text} :
      AllBlank line → Padded lines lines' → Padded lines (line :: lines')
  | comment {line t : Text} {lines lines' : List Text} :
      Trimmed line t → commentMark <+: t → Padded lines lines' → Padded lines (line :: lines')

theorem isToken_eq_false_iff {t : Text} : isToken t = false ↔ t = [] ∨ commentMark <+: t := by
  simp only [isToken, Bool.and_eq_false_iff, Bool.not_eq_false', List.isEmpty_iff,
    List.isPrefixOf_iff_prefix]

theorem isToken_iff {t : Text} : isToken t = true ↔ t ≠ [] ∧ ¬ commentMark <+: t := by
  rw [← Bool.not_eq_false, isToken_eq_false_iff, not_or]

/-- The tokens of lines counted from `n`. -/
def tokensFrom (n : Nat) (lines : List Text) : List Token :=
  (lines.zipIdx n).filterMap fun (line, number) =>
    if isToken line.trim then some ⟨line.trim, number⟩ else none

theorem tokensFrom_cons (n : Nat) (line : Text) (lines : List Text) :
    tokensFrom n (line :: lines) =
      if isToken line.trim then ⟨line.trim, n⟩ :: tokensFrom (n + 1) lines
      else tokensFrom (n + 1) lines := by
  by_cases h : isToken line.trim = true
  · simp only [tokensFrom, List.zipIdx_cons, List.filterMap_cons, if_pos h]
  · simp only [tokensFrom, List.zipIdx_cons, List.filterMap_cons, if_neg h]

theorem listed_iff {n : Nat} {lines : List Text} {tokens : List Token} :
    Listed n lines tokens ↔ tokensFrom n lines = tokens := by
  constructor
  · intro h
    induction h with
    | nil => rfl
    | skip ht hskip _ ih =>
      rw [tokensFrom_cons, trim_eq_iff.2 ht, isToken_eq_false_iff.2 hskip, ih]
      rfl
    | token ht hne hcomment _ ih =>
      rw [tokensFrom_cons, trim_eq_iff.2 ht, if_pos (isToken_iff.2 ⟨hne, hcomment⟩), ih]
  · rintro rfl
    induction lines generalizing n with
    | nil => exact .nil
    | cons line lines ih =>
      rw [tokensFrom_cons]
      split
      · rename_i h
        obtain ⟨hne, hcomment⟩ := isToken_iff.1 h
        exact .token (trimmed_trim line) hne hcomment ih
      · rename_i h
        exact .skip (trimmed_trim line) (isToken_eq_false_iff.1 (by simpa using h)) ih

/-! ## Tokens apart from their lines -/

theorem texts_of_hasLines {source : Text} {lines : List Text} (h : HasLines source lines) :
    texts source = lines.filterMap ofLine? := by rw [texts_eq, h.lines_eq]

theorem ofLine?_of_skip {line t : Text} (ht : Trimmed line t)
    (hskip : t = [] ∨ commentMark <+: t) : ofLine? line = none := by
  rw [ofLine?, trim_eq_iff.2 ht, isToken_eq_false_iff.2 hskip]
  rfl

/-- However the line ends are spelled, the tokens are those of the lines. -/
theorem texts_of_respells {source : Text} {lines : List Text} (h : Respells source lines) :
    texts source = lines.filterMap ofLine? := by
  induction h with
  | last hl => exact texts_of_hasLines (.last hl)
  | @line line rest lines e hl _ _ ih =>
    have hrest : HasLines rest rest.lines := hasLines_iff.2 rfl
    by_cases hwhole : Whole e rest
    · rw [texts_of_hasLines (.line hl hwhole hrest), List.filterMap_cons, List.filterMap_cons,
        ← ih, ← texts_of_hasLines hrest]
    · -- the line end runs together with the next one, and the empty line between them is lost
      obtain ⟨rfl, hhead⟩ : e = .carriageReturn ∧ rest.head? = some 0x0A := by
        simpa [Whole] using hwhole
      obtain ⟨after, rfl⟩ := List.head?_eq_some_iff.1 hhead
      have hafter : HasLines after (Text.lines after) := hasLines_iff.2 rfl
      have hfused : HasLines (line ++ LineEnd.carriageReturn.text ++ 0x0A :: after)
          (line :: Text.lines after) := by
        have := Joined.line (e := .both) hl (whole_of_ne (by decide) _) hafter
        simpa [LineEnd.text] using this
      have hempty : HasLines (0x0A :: after) ([] :: Text.lines after) :=
        .line (e := .lineFeed) (by decide) (whole_of_ne (by decide) _) hafter
      have hnone : ofLine? [] = none := rfl
      rw [texts_of_hasLines hfused, List.filterMap_cons, List.filterMap_cons, ← ih,
        texts_of_hasLines hempty, List.filterMap_cons, hnone]

theorem Padded.keep (line : Text) {lines lines' : List Text} (h : Padded lines lines') :
    Padded (line :: lines) (line :: lines') := by
  have := @Padded.line [] [] line _ _ .nil .nil h
  rwa [List.nil_append, List.append_nil] at this

theorem Padded.filterMap_eq {lines lines' : List Text} (h : Padded lines lines') :
    lines'.filterMap ofLine? = lines.filterMap ofLine? := by
  induction h with
  | nil => rfl
  | @line before after line lines lines' hb ha _ ih =>
    have hsame : ofLine? (before ++ line ++ after) = ofLine? line := by
      rw [ofLine?, ofLine?, trim_around hb ha]
    rw [List.filterMap_cons, List.filterMap_cons, hsame, ih]
  | blank hl _ ih =>
    rw [List.filterMap_cons, ofLine?_of_skip (trim_eq_iff.1 (trim_allBlank hl)) (.inl rfl), ih]
  | comment ht hc _ ih => rw [List.filterMap_cons, ofLine?_of_skip ht (.inr hc), ih]

/-- **Scanning is exact.** A source has one reading as lines, and its tokens are those of the lines,
each with the number of its line: what trimming leaves, unless that is nothing or a comment. The
texts of the tokens do not change with the spelling of the line ends, nor with blank lines, comments
and white space that are added. -/
theorem scan_exact (source : Text) :
    (∃ lines, HasLines source lines ∧ ∀ lines', HasLines source lines' → lines' = lines) ∧
    ∀ lines, HasLines source lines →
      (∀ tokens, Listed 1 lines tokens ↔ scan source = tokens) ∧
      ∀ source' lines', Padded lines lines' → Respells source' lines' →
        texts source' = texts source := by
  refine ⟨⟨source.lines, hasLines_iff.2 rfl, fun lines' h => h.lines_eq.symm⟩, ?_⟩
  intro lines h
  refine ⟨fun tokens => ?_, fun source' lines' hpad hsource' => ?_⟩
  · rw [listed_iff, ← h.lines_eq]
    rfl
  · rw [texts_of_respells hsource', hpad.filterMap_eq, texts_of_hasLines h]

/-- Three kinds of line ends in one source, and a second source where a carriage return and the line
feed behind it have become one line end. -/
theorem scan_exact_mixed :
    scan "\tINC \r\n\r// c\n\u3000DEC\r" = [⟨"INC", 1⟩, ⟨"DEC", 4⟩] ∧
    texts "// head\r\tINC \u00A0\r\n// c\n\u2003\r\n\u3000DEC\n" =
      texts "\tINC \r\n\r// c\n\u3000DEC\r" := by
  let lines : List Text := ["\tINC ", "", "// c", "\u3000DEC", ""]
  let lines' : List Text := ["// head", "\tINC \u00A0", "", "// c", "\u2003", "\u3000DEC", ""]
  have hlines : HasLines "\tINC \r\n\r// c\n\u3000DEC\r" lines := hasLines_iff.2 (by decide +kernel)
  have hlisted : Listed 1 lines [⟨"INC", 1⟩, ⟨"DEC", 4⟩] := listed_iff.2 (by decide +kernel)
  have hspace : AllBlank "\u00A0" := .single (by decide)
  have hpad : Padded lines lines' :=
    .comment (trim_eq_iff.1 rfl) (by decide +kernel) <|
    .line .nil hspace <|
    .keep "" <| .keep "// c" <|
    .blank (.single (by decide)) <|
    .keep "\u3000DEC" <| .keep "" .nil
  have hsource' : Respells "// head\r\tINC \u00A0\r\n// c\n\u2003\r\n\u3000DEC\n" lines' :=
    .line (e := .carriageReturn) (by decide) trivial <|
    .line (e := .carriageReturn) (by decide) trivial <|
    .line (e := .lineFeed) (by decide) trivial <|
    .line (e := .lineFeed) (by decide) trivial <|
    .line (e := .both) (by decide) trivial <|
    .line (e := .lineFeed) (by decide) trivial <|
    .last (by decide)
  obtain ⟨hscan, hsame⟩ := (scan_exact "\tINC \r\n\r// c\n\u3000DEC\r").2 lines hlines
  exact ⟨(hscan _).1 hlisted, hsame _ lines' hpad hsource'⟩

end Token

end TapeAsm
