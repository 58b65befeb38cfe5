import TapeAsm.Proofs.Yaml.Encoding

/-!
# Strings read again

A reader for each style of a string. A reader takes the characters of a document from the string on
and gives the string together with what is left of the document, so its law says what it reads
whatever stands behind the string: `readSingle_body`, `readDouble_body`, `readLiteral_block`,
`readLine_append`. Only a literal block needs to know what follows: it ends at a line that is not
indented (`EndsBlock`).

One thing is lost. The line feed at the beginning of a literal block ends the line of the block's
mark, so where the text behind it begins with a space, the block is that of the text without the
line feed (`lostBreak`). A string is read back as what is kept of it (`readString_writeString`), and
nothing else can be told from the document (`writeString_kept`).
-/

set_option autoImplicit false

namespace TapeAsm.Yaml

open Text

/-- One more character before those that are read. -/
def push (c : Char) (read : List Char × List Char) : List Char × List Char := (c :: read.1, read.2)

/-! ## Single quotes -/

/-- Reads to the closing quote, which is a quote with no other behind it: `quoted` tells whether a
quote comes before. Up to `indent` spaces are indentation. -/
def readSingle : (quoted : Bool) → (indent : Nat) → List Char → List Char × List Char
  | _, _, [] => ([], [])
  | true, _, c :: rest => if c = '\'' then push c (readSingle false 0 rest) else ([], c :: rest)
  | false, indent, c :: rest =>
    if indent ≠ 0 ∧ c = ' ' then readSingle false (indent - 1) rest
    else if isBreak c then push c (readSingle false 2 rest)
    else if c = '\'' then readSingle true 0 rest
    else push c (readSingle false 0 rest)

/-- The indentation at the beginning of a line, if it is one. -/
def indentation (afterBreak : Bool) : Nat := if afterBreak then 2 else 0

theorem hasPair_cons (p : Char → Char → Bool) (c : Char) (cs : List Char) :
    hasPair p (c :: cs) = (cs.head?.any (p c) || hasPair p cs) := by
  cases cs with
  | nil => rfl
  | cons d cs => rfl

theorem chars_onlyIf_indent (afterBreak : Bool) (t : Text) :
    (onlyIf afterBreak indent ++ t).chars =
      List.replicate (indentation afterBreak) ' ' ++ t.chars := by
  cases afterBreak with
  | false => rfl
  | true => exact chars_ofChars_append [' ', ' '] t

theorem readSingle_indentation (n : Nat) (cs : List Char) :
    readSingle false n (List.replicate n ' ' ++ cs) = readSingle false 0 cs := by
  induction n with
  | zero => rfl
  | succ n ih => simpa [List.replicate_succ, readSingle] using ih

section
variable {c : Char} {n : Nat}

theorem readSingle_break (h : isBreak c = true) (rest : List Char) :
    readSingle false n (c :: rest) = push c (readSingle false 2 rest) := by
  have hne : c ≠ ' ' := by rintro rfl; exact absurd h (by decide)
  simp [readSingle, h, hne]

theorem readSingle_char (hb : isBreak c = false) (hq : c ≠ '\'') (rest : List Char) :
    readSingle false 0 (c :: rest) = push c (readSingle false 0 rest) := by
  simp [readSingle, hb, hq]

theorem readSingle_quote (rest : List Char) :
    readSingle false n ('\'' :: '\'' :: rest) = push '\'' (readSingle false 0 rest) := by
  simp [readSingle, show isBreak '\'' = false by decide]

theorem readSingle_close {rest : List Char} (h : rest.head? ≠ some '\'') :
    readSingle false n ('\'' :: rest) = ([], rest) := by
  cases rest with
  | nil => simp [readSingle, show isBreak '\'' = false by decide]
  | cons d rest =>
    have hne : d ≠ '\'' := by simpa using h
    simp [readSingle, show isBreak '\'' = false by decide, hne]

end

theorem readSingle_body {afterBreak : Bool} {cs : List Char} {t : Text}
    (hpair : hasBreakSpace cs = false) (hhead : afterBreak = true → cs.head? ≠ some ' ')
    (ht : t.chars.head? ≠ some '\'') :
    readSingle false (indentation afterBreak) (singleQuotedBody afterBreak cs ++ ("'" ++ t)).chars =
      (cs, t.chars) := by
  induction cs generalizing afterBreak with
  | nil =>
    rw [singleQuotedBody, List.nil_append, chars_ofString_append]
    exact readSingle_close ht
  | cons c rest ih =>
    rw [hasBreakSpace, hasPair_cons, Bool.or_eq_false_iff] at hpair
    obtain ⟨hnext, hpair⟩ := hpair
    rw [singleQuotedBody]
    split
    · rename_i hc
      subst hc
      obtain rfl : afterBreak = false := by simpa using hhead
      rw [List.append_assoc, chars_ofChar_append]
      exact (readSingle_char (by decide) (by decide) _).trans
        (congrArg (push ' ') (@ih false hpair (by simp)))
    split
    · rename_i hb
      have hfirst : rest.head? ≠ some ' ' := by
        intro h
        simp [h, hb] at hnext
      rw [List.append_assoc, chars_ofChar_append, readSingle_break hb]
      exact congrArg (push c) (@ih true hpair fun _ => hfirst)
    · rename_i hb
      have hrest := @ih false hpair (by simp)
      rw [List.append_assoc, List.append_assoc, List.append_assoc, chars_onlyIf_indent,
        readSingle_indentation]
      by_cases hq : c = '\''
      · subst hq
        rw [onlyIf, if_pos (by simp), chars_ofString_append, chars_ofChar_append]
        exact (readSingle_quote _).trans (congrArg (push '\'') hrest)
      · rw [onlyIf, if_neg (by simpa using hq), List.nil_append, chars_ofChar_append,
          readSingle_char (by simpa using hb) hq]
        exact congrArg (push c) hrest

/-! ## Double quotes -/

/-- Reads to the closing quote; the next `skip` characters belong to an escape already read. -/
def readDouble : (skip : Nat) → List Char → List Char × List Char
  | _, [] => ([], [])
  | skip + 1, _ :: rest => readDouble skip rest
  | 0, c :: rest =>
    if c = '"' then ([], rest)
    else if c = '\\' then push (unescape rest).1 (readDouble (unescape rest).2 rest)
    else push c (readDouble 0 rest)

theorem readDouble_skip (skipped cs : List Char) :
    readDouble skipped.length (skipped ++ cs) = readDouble 0 cs := by
  induction skipped with
  | nil => rfl
  | cons c skipped ih => exact ih

theorem readDouble_body (cs : List Char) (t : Text) :
    readDouble 0 (doubleQuotedBody cs ++ ("\"" ++ t)).chars = (cs, t.chars) := by
  unfold doubleQuotedBody
  dsimp only
  generalize decide (cs.head? = some byteOrderMark) = marked
  induction cs with
  | nil =>
    rw [List.flatMap_nil, List.nil_append, chars_ofString_append]
    rfl
  | cons c rest ih =>
    rw [List.flatMap_cons, List.append_assoc]
    split
    · obtain ⟨marks, he, hread⟩ := unescape_escape c
      rw [he, chars_ofChars_append, List.cons_append, readDouble, if_neg (by decide), if_pos rfl,
        hread, readDouble_skip]
      exact congrArg (push c) ih
    · rename_i hc
      simp only [isEscaped, Bool.or_eq_true, decide_eq_true_eq, not_or] at hc
      rw [chars_ofChar_append, readDouble, if_neg hc.2.1.2, if_neg hc.2.2]
      exact congrArg (push c) ih

/-! ## Literal blocks -/

/-- Reads the lines of a block with their breaks; `indent` spaces are still to come before the text
of the line. A line that has them not ends the block. -/
def readBlock : (indent : Nat) → List Char → List Char × List Char
  | _, [] => ([], [])
  | indent, c :: rest =>
    if isBreak c then push c (readBlock 2 rest)
    else if indent = 0 then push c (readBlock 0 rest)
    else if c = ' ' then readBlock (indent - 1) rest
    else ([], c :: rest)

/-- Does a block end before these characters? -/
def EndsBlock (cs : List Char) : Prop := ∀ c ∈ cs.head?, isSpaceOrBreak c = false

theorem readBlock_break {c : Char} (h : isBreak c = true) (n : Nat) (rest : List Char) :
    readBlock n (c :: rest) = push c (readBlock 2 rest) := by
  rw [readBlock, if_pos h]

theorem readBlock_ends {cs : List Char} (h : EndsBlock cs) : readBlock 2 cs = ([], cs) := by
  cases cs with
  | nil => rfl
  | cons c rest =>
    have hc := h c rfl
    simp only [isSpaceOrBreak, Bool.or_eq_false_iff, decide_eq_false_iff_not] at hc
    simp [readBlock, hc]

theorem readBlock_indentation (n : Nat) (cs : List Char) :
    readBlock n (List.replicate n ' ' ++ cs) = readBlock 0 cs := by
  induction n with
  | zero => rfl
  | succ n ih => simpa [List.replicate_succ, readBlock, show isBreak ' ' = false by decide] using ih

/-- The lines of a block are read, and then whatever is behind them: at the beginning of a line if
the last character is a break. -/
theorem readBlock_body (afterBreak : Bool) (cs : List Char) (t : Text) :
    readBlock (indentation afterBreak) (literalBody afterBreak cs ++ t).chars =
      let atStart := (cs.getLast?.map isBreak).getD afterBreak
      let (more, left) := readBlock (indentation atStart) t.chars
      (cs ++ more, left) := by
  induction cs generalizing afterBreak with
  | nil => rfl
  | cons c rest ih =>
    have hlast (b : Bool) (hb : isBreak c = b) :
        ((c :: rest).getLast?.map isBreak).getD afterBreak =
          (rest.getLast?.map isBreak).getD b := by
      rw [List.getLast?_cons]
      cases rest.getLast? <;> simp [hb]
    rw [literalBody]
    split
    · rename_i hb
      rw [List.append_assoc, chars_ofChar_append, readBlock_break hb, hlast true hb]
      exact congrArg (push c) (ih true)
    · rename_i hb
      rw [List.append_assoc, List.append_assoc, chars_onlyIf_indent, readBlock_indentation,
        chars_ofChar_append, readBlock, if_neg hb, if_pos rfl, hlast false (by simpa using hb)]
      exact congrArg (push c) (ih false)

/-- What is behind a mark, and whether it is there. -/
def dropMark (mark : Char) : List Char → Bool × List Char
  | [] => (false, [])
  | c :: rest => if c = mark then (true, rest) else (false, c :: rest)

/-- Is there a line feed in front of a line that begins with a space and ends with a line feed? A
literal block of this text is that of the text without the first line feed. -/
def lostBreak : List Char → Bool
  | '\n' :: ' ' :: rest => rest.contains '\n'
  | _ => false

theorem lostBreak_eq_true {cs : List Char} (h : lostBreak cs = true) :
    ∃ rest, cs = '\n' :: ' ' :: rest ∧ '\n' ∈ rest := by
  unfold lostBreak at h
  split at h
  · rename_i rest
    exact ⟨rest, rfl, by simpa using h⟩
  · cases h

/-- Reads a literal block behind its mark. The lines are read from the end of the line of the mark
on, which is part of the text only where the text begins with a break. -/
def readLiteral (cs : List Char) : List Char × List Char :=
  let (hinted, cs) := dropMark '2' cs
  let (stripped, cs) := dropMark '-' cs
  let (_, cs) := dropMark '+' cs
  let (lines, rest) := readBlock 0 cs
  let text := if stripped then lines.dropLast else lines
  (if hinted && !lostBreak text then text else text.tail, rest)

/-- What a literal block tells about a text. -/
def keptLines (cs : List Char) : List Char := if lostBreak cs then cs.tail else cs

theorem chomping_cases (cs : List Char) :
    (cs.getLast?.any isBreak = false ∧ chomping cs = "-") ∨
    (cs.getLast?.any isBreak = true ∧ (chomping cs = "+" ∨ chomping cs = [])) := by
  unfold chomping
  rw [List.getLast?_eq_head?_reverse]
  split
  · rename_i h
    simp [h]
  · rename_i last before h
    rw [h]
    split
    · rename_i hb
      exact .inl ⟨by simpa using hb, rfl⟩
    · rename_i hb
      refine .inr ⟨by simpa using hb, ?_⟩
      split
      · exact .inl rfl
      · split
        · exact .inl rfl
        · exact .inr rfl

/-- The lines of a literal block, from the end of the line of its mark on. -/
def literalLines (cs : List Char) : Text :=
  onlyIf (!cs.head?.any isBreak) "\n" ++ literalBody true cs ++
    onlyIf (!cs.getLast?.any isBreak) "\n"

/-- The lines begin with a break, and reading them gives the text between two breaks, of which
either may be the text's own. -/
theorem readBlock_lines {c : Char} {cs : List Char} {t : Text} (ht : EndsBlock t.chars) :
    ∃ b rest, (literalLines (c :: cs) ++ t).chars = b :: rest ∧ isBreak b = true ∧
      readBlock 0 (b :: rest) = ((if isBreak c then c :: cs else '\n' :: c :: cs) ++
        (if (c :: cs).getLast?.any isBreak then [] else ['\n']), t.chars) := by
  have hfeed : isBreak '\n' = true := by decide
  have hbody : readBlock 2 (literalBody true (c :: cs) ++
      (onlyIf (!(c :: cs).getLast?.any isBreak) "\n" ++ t)).chars =
        (c :: cs ++ (if (c :: cs).getLast?.any isBreak then [] else ['\n']), t.chars) := by
    refine (readBlock_body true (c :: cs) _).trans ?_
    rw [List.getLast?_cons, Option.map_some, Option.getD_some, Option.any_some]
    cases isBreak (cs.getLast?.getD c) with
    | true => simp [onlyIf, indentation, readBlock_ends ht]
    | false =>
      rw [Bool.not_false, onlyIf, if_pos rfl, chars_ofString_append]
      simp [indentation, readBlock_break hfeed, readBlock_ends ht, push]
  rw [literalLines, List.append_assoc, List.append_assoc]
  by_cases hb : isBreak c = true
  · -- the break that ends the line of the mark is the first one of the text
    have hfirst : literalBody true (c :: cs) = ofChar c ++ literalBody true cs := by
      rw [literalBody, if_pos hb]
    rw [hfirst, List.append_assoc, chars_ofChar_append, readBlock_break hb] at hbody
    rw [hfirst, List.append_assoc, List.head?_cons, Option.any_some, hb]
    exact ⟨c, _, chars_ofChar_append _ _, hb, (readBlock_break hb 0 _).trans hbody⟩
  · rw [List.head?_cons, Option.any_some, if_neg hb, Bool.eq_false_iff.2 hb]
    exact ⟨'\n', _, chars_ofString_append "\n" _, hfeed,
      (readBlock_break hfeed 0 _).trans (congrArg (push '\n') hbody)⟩

theorem dropMark_self (mark : Char) (rest : List Char) :
    dropMark mark (mark :: rest) = (true, rest) := by
  rw [dropMark, if_pos rfl]

theorem dropMark_ne {mark c : Char} (h : c ≠ mark) (rest : List Char) :
    dropMark mark (c :: rest) = (false, c :: rest) := by
  rw [dropMark, if_neg h]

/-- The marks of a literal block in front of its lines. -/
theorem readLiteral_marks {cs : List Char} {lines : Text} {b : Char} {rest : List Char}
    (hinted : Bool) (hlines : lines.chars = b :: rest) (hb : isBreak b = true) :
    readLiteral (onlyIf hinted "2" ++ (chomping cs ++ lines)).chars =
      let (lines, left) := readBlock 0 (b :: rest)
      let text := if cs.getLast?.any isBreak then lines else lines.dropLast
      (if hinted && !lostBreak text then text else text.tail, left) := by
  have hne {c : Char} (hc : isBreak c = false) : b ≠ c := by
    rintro rfl
    rw [hb] at hc
    cases hc
  have hhint : dropMark '2' (onlyIf hinted "2" ++ (chomping cs ++ lines)).chars =
      (hinted, (chomping cs ++ lines).chars) := by
    cases hinted with
    | true => exact (congrArg _ (chars_ofString_append "2" _)).trans (dropMark_self _ _)
    | false =>
      change dropMark '2' (chomping cs ++ lines).chars = _
      rcases chomping_cases cs with ⟨-, h⟩ | ⟨-, h | h⟩
      · rw [h, chars_ofString_append]
        exact dropMark_ne (by decide) _
      · rw [h, chars_ofString_append]
        exact dropMark_ne (by decide) _
      · rw [h, List.nil_append, hlines]
        exact dropMark_ne (hne (by decide)) _
  have hplus : dropMark '+' (b :: rest) = (false, b :: rest) := dropMark_ne (hne (by decide)) _
  have hminus : dropMark '-' (b :: rest) = (false, b :: rest) := dropMark_ne (hne (by decide)) _
  unfold readLiteral
  rw [hhint]
  rcases chomping_cases cs with ⟨hl, h⟩ | ⟨hl, h | h⟩
  · have hmark : dropMark '-' (chomping cs ++ lines).chars = (true, b :: rest) := by
      rw [h, chars_ofString_append, hlines]
      exact dropMark_self _ _
    simp only [hmark, hplus, hl]
    rfl
  · have hmark : (dropMark '-' (chomping cs ++ lines).chars).1 = false ∧
        dropMark '+' (dropMark '-' (chomping cs ++ lines).chars).2 = (true, b :: rest) := by
      rw [h, chars_ofString_append, hlines]
      exact ⟨rfl, dropMark_self _ _⟩
    simp only [hmark, hl]
    rfl
  · have hmark : dropMark '-' (chomping cs ++ lines).chars = (false, b :: rest) := by
      rw [h, List.nil_append, hlines, hminus]
    simp only [hmark, hplus, hl]
    rfl

/-- The hint tells the two breaks apart that the lines can begin with, except where the text begins
with a space: then the lines are those of the text with a line feed before it. -/
theorem keptLines_hinted {c : Char} {cs text : List Char} (hfeed : '\n' ∈ c :: cs)
    (htext : (if isBreak c then c :: cs else '\n' :: c :: cs) = text) :
    (if isSpaceOrBreak c && !lostBreak text then text else text.tail) = keptLines (c :: cs) := by
  by_cases hbreak : isBreak c = true
  · rw [if_pos hbreak] at htext
    rw [← htext, show isSpaceOrBreak c = true by simp [isSpaceOrBreak, hbreak], keptLines]
    cases lostBreak (c :: cs) <;> rfl
  · rw [if_neg hbreak] at htext
    have hc : c ≠ '\n' := by
      rintro rfl
      exact hbreak (by decide)
    have hkept : keptLines (c :: cs) = c :: cs := by
      rw [keptLines, if_neg]
      intro h
      obtain ⟨rest, hrest, -⟩ := lostBreak_eq_true h
      exact hc (List.cons.inj hrest).1
    rw [← htext, hkept]
    by_cases hs : c = ' '
    · have hlost : lostBreak ('\n' :: c :: cs) = true := by
        subst hs
        simpa [lostBreak] using hfeed
      rw [hlost, Bool.not_true, Bool.and_false, if_neg (by decide), List.tail_cons]
    · have hhint : isSpaceOrBreak c = false := by simp [isSpaceOrBreak, hs, hbreak]
      rw [hhint, Bool.false_and, if_neg (by decide), List.tail_cons]

/-- **A literal block is read back**, but for a break that is lost. -/
theorem readLiteral_block {cs : List Char} {t : Text} (hfeed : '\n' ∈ cs) (ht : EndsBlock t.chars) :
    readLiteral (onlyIf (cs.head?.any isSpaceOrBreak) "2" ++
      (chomping cs ++ (literalLines cs ++ t))).chars = (keptLines cs, t.chars) := by
  cases cs with
  | nil => cases hfeed
  | cons c cs =>
    obtain ⟨b, rest, hchars, hb, hread⟩ := @readBlock_lines c cs t ht
    rw [readLiteral_marks _ hchars hb, hread]
    generalize htext : (if isBreak c then c :: cs else '\n' :: c :: cs) = text
    -- the mark `-` is there exactly where a line feed has been added to the last line
    have hcut (b : Bool) : (if b then text ++ (if b then [] else ['\n'])
        else (text ++ (if b then [] else ['\n'])).dropLast) = text := by
      cases b <;> simp
    dsimp only
    rw [hcut, List.head?_cons, Option.any_some, keptLines_hinted hfeed htext]

/-! ## Strings -/

/-- Reads to the end of the line. -/
def readLine (cs : List Char) : List Char × List Char :=
  (cs.takeWhile (· ≠ '\n'), (cs.dropWhile (· ≠ '\n')).tail)

theorem readLine_append {cs : List Char} (h : '\n' ∉ cs) (rest : List Char) :
    readLine (cs ++ '\n' :: rest) = (cs, rest) := by
  have hall : ∀ c ∈ cs, decide (c ≠ '\n') = true := by
    intro c hc
    simpa using fun heq : c = '\n' => h (heq ▸ hc)
  unfold readLine
  rw [List.takeWhile_append_of_pos hall, List.dropWhile_append_of_pos hall]
  simp

/-- Reads a string in any of the styles, to the end of its last line. -/
def readScalar : List Char → List Char × List Char
  | [] => ([], [])
  | c :: rest =>
    if c = '\'' then ((readSingle false 0 rest).1, (readSingle false 0 rest).2.tail)
    else if c = '"' then ((readDouble 0 rest).1, (readDouble 0 rest).2.tail)
    else if c = '|' then readLiteral rest
    else readLine (c :: rest)

theorem plain_begins {cs : List Char} (h : allowsPlain cs = true) (rest : List Char) :
    ∃ c more, cs ++ '\n' :: rest = c :: more ∧ indicators.contains c = false := by
  cases cs with
  | nil => exact ⟨'\n', rest, rfl, by decide⟩
  | cons c cs =>
    refine ⟨c, cs ++ '\n' :: rest, rfl, ?_⟩
    simp only [allowsPlain, beginsLikeIndicator, Bool.and_eq_true, Bool.not_eq_true',
      Bool.or_eq_false_iff] at h
    exact h.2.1.1.2.1.1.1

theorem ne_of_not_indicator {c d : Char} (h : indicators.contains c = false)
    (hd : indicators.contains d = true) : c ≠ d := by
  rintro rfl
  rw [h] at hd
  cases hd

theorem readScalar_plain {cs : List Char} (h : allowsPlain cs = true) (hfeed : '\n' ∉ cs)
    (t : Text) :
    readScalar (Style.plain.write cs ++ t).chars = (cs, t.chars) := by
  obtain ⟨c, more, hbegin, hc⟩ := plain_begins h t.chars
  have hread := readLine_append hfeed t.chars
  rw [Style.write, List.append_assoc, chars_ofChars_append, chars_ofString_append]
  change readScalar (cs ++ '\n' :: t.chars) = _
  rw [hbegin] at hread ⊢
  rw [readScalar, if_neg (ne_of_not_indicator hc (by decide)),
    if_neg (ne_of_not_indicator hc (by decide)), if_neg (ne_of_not_indicator hc (by decide)), hread]

theorem readScalar_singleQuoted {cs : List Char} (h : allowsSingleQuotes cs = true) (t : Text) :
    readScalar (Style.singleQuoted.write cs ++ t).chars = (cs, t.chars) := by
  have hopen : ∀ u : Text, ("'" ++ u : Text).chars = '\'' :: u.chars := chars_ofString_append "'"
  have hfeed := chars_feed_append t
  have hpair : hasBreakSpace cs = false := by
    simp only [allowsSingleQuotes, Bool.not_eq_true', Bool.or_eq_false_iff] at h
    exact h.1.1.1
  have hread : readSingle false 0 (singleQuotedBody false cs ++ ("'" ++ ("\n" ++ t))).chars =
      (cs, ("\n" ++ t : Text).chars) :=
    @readSingle_body false cs _ hpair (by simp) (by simp [hfeed])
  rw [Style.write, show ("'\n" : Text) = "'" ++ "\n" by decide, List.append_assoc,
    List.append_assoc, List.append_assoc, hopen, readScalar, if_pos rfl, hread, hfeed]
  rfl

theorem readScalar_doubleQuoted (cs : List Char) (t : Text) :
    readScalar (Style.doubleQuoted.write cs ++ t).chars = (cs, t.chars) := by
  have hopen : ∀ u : Text, ("\"" ++ u : Text).chars = '"' :: u.chars := chars_ofString_append "\""
  have hfeed := chars_feed_append t
  have hread := readDouble_body cs ("\n" ++ t)
  rw [Style.write, show ("\"\n" : Text) = "\"" ++ "\n" by decide, List.append_assoc,
    List.append_assoc, List.append_assoc, hopen, readScalar, if_neg (by decide), if_pos rfl, hread,
    hfeed]
  rfl

theorem readScalar_literal {cs : List Char} {t : Text} (hfeed : '\n' ∈ cs)
    (ht : EndsBlock t.chars) :
    readScalar (Style.literal.write cs ++ t).chars = (keptLines cs, t.chars) := by
  have hwrite : Style.literal.write cs ++ t = "|" ++ (onlyIf (cs.head?.any isSpaceOrBreak) "2" ++
      (chomping cs ++ (literalLines cs ++ t))) := by
    simp [Style.write, literalBlock, literalLines]
  rw [hwrite, chars_ofString_append]
  change readScalar ('|' :: _) = _
  rw [readScalar, if_neg (by decide), if_neg (by decide), if_pos rfl]
  exact readLiteral_block hfeed ht

/-- The characters of a string that its scalar tells. -/
def keptChars (cs : List Char) : List Char := if allowsLiteral cs then keptLines cs else cs

theorem keptChars_of_not_mem {cs : List Char} (h : '\n' ∉ cs) : keptChars cs = cs := by
  unfold keptChars keptLines
  split
  · split
    · rename_i hlost
      obtain ⟨rest, rfl, -⟩ := lostBreak_eq_true hlost
      simp at h
    · rfl
  · rfl

/-- **A scalar is read back**, but for a break that is lost. -/
theorem readScalar_choose (unquoted : Bool) (cs : List Char) {t : Text} (ht : EndsBlock t.chars) :
    readScalar ((Style.choose unquoted cs).write cs ++ t).chars = (keptChars cs, t.chars) := by
  unfold Style.choose
  by_cases hfeed : '\n' ∈ cs
  · rw [if_pos (by simpa using hfeed), keptChars]
    split
    · exact readScalar_literal hfeed ht
    · exact readScalar_doubleQuoted cs t
  · rw [if_neg (by simpa using hfeed), keptChars_of_not_mem hfeed]
    unfold Style.plainOrQuoted
    split
    · split
      · rename_i h
        exact readScalar_plain h hfeed t
      · split
        · rename_i h
          exact readScalar_singleQuoted h t
        · exact readScalar_doubleQuoted cs t
    · exact readScalar_doubleQuoted cs t

theorem allowsPlain_of_choose {unquoted : Bool} {cs : List Char}
    (h : Style.choose unquoted cs = .plain) : allowsPlain cs = true := by
  unfold Style.choose Style.plainOrQuoted at h
  split at h
  · split at h <;> cases h
  · split at h
    · split at h
      · assumption
      · split at h <;> cases h
    · cases h

/-- No scalar begins like a tag. -/
theorem choose_begins (unquoted : Bool) (cs : List Char) (t : Text) :
    ∃ c rest, ((Style.choose unquoted cs).write cs ++ t).chars = c :: rest ∧ c ≠ '!' := by
  have hmark {c : Char} {u v : Text} (hu : u = ofChar c ++ v) (hc : c ≠ '!') :
      ∃ c rest, (u ++ t).chars = c :: rest ∧ c ≠ '!' :=
    ⟨c, (v ++ t).chars, by rw [hu, List.append_assoc, chars_ofChar_append], hc⟩
  cases hs : Style.choose unquoted cs with
  | plain =>
    obtain ⟨c, more, hbegin, hc⟩ := plain_begins (allowsPlain_of_choose hs) t.chars
    refine ⟨c, more, ?_, ne_of_not_indicator hc (by decide)⟩
    rw [Style.write, List.append_assoc, chars_ofChars_append, chars_ofString_append, ← hbegin]
    rfl
  | singleQuoted => exact @hmark '\'' _ (Style.singleQuoted.write cs).tail rfl (by decide)
  | doubleQuoted => exact @hmark '"' _ (Style.doubleQuoted.write cs).tail rfl (by decide)
  | literal => exact @hmark '|' _ (literalBlock cs).tail rfl (by decide)

/-- Reads the value of an entry with a string: bytes in base 64 where the value has a tag. -/
def readString : List Char → Text × List Char
  | [] => ([], [])
  | c :: rest =>
    if c = '!' then
      let (cs, left) := readScalar (rest.drop 8)
      (unbase64 (ofChars (cs.filter (· ≠ '\n'))), left)
    else
      let (cs, left) := readScalar (c :: rest)
      (ofChars cs, left)

/-- Does the string, written and read again, lose the line feed that it begins with? -/
def losesBreak (t : Text) : Bool := t.isUtf8 && allowsLiteral t.chars && lostBreak t.chars

/-- What is left of a string that is written and read again. -/
def kept (t : Text) : Text := if losesBreak t then t.tail else t

theorem kept_eq {t : Text} (h : t.isUtf8 = true) : kept t = ofChars (keptChars t.chars) := by
  have ht := ofChars_chars h
  unfold kept losesBreak keptChars keptLines
  rw [h, Bool.true_and]
  cases allowsLiteral t.chars with
  | false => exact ht.symm
  | true =>
    cases hlost : lostBreak t.chars with
    | false => exact ht.symm
    | true =>
      obtain ⟨rest, hrest, -⟩ := lostBreak_eq_true hlost
      rw [hrest] at ht ⊢
      rw [← ht]
      rfl

theorem filter_keptChars (cs : List Char) :
    (keptChars cs).filter (· ≠ '\n') = cs.filter (· ≠ '\n') := by
  unfold keptChars keptLines
  split
  · split
    · rename_i hlost
      obtain ⟨rest, rfl, -⟩ := lostBreak_eq_true hlost
      rfl
    · rfl
  · rfl

/-- **A string is read back**, but for a break that is lost, whatever entry follows. -/
theorem readString_writeString (t : Text) {u : Text} (hu : EndsBlock u.chars) :
    readString (writeString t ++ u).chars = (kept t, u.chars) := by
  unfold writeString
  split
  · rename_i h
    obtain ⟨c, rest, hbegin, hc⟩ := choose_begins (isPlainString t) t.chars u
    have hread := readScalar_choose (isPlainString t) t.chars hu
    rw [hbegin] at hread ⊢
    rw [readString, if_neg hc, hread, kept_eq h]
  · rename_i h
    have htag (v : Text) :
        readString ("!!binary " ++ v : Text).chars =
          (unbase64 (ofChars ((readScalar v.chars).1.filter (· ≠ '\n'))),
            (readScalar v.chars).2) := by
      rw [chars_ofString_append]
      rfl
    have hread := readScalar_choose true (base64Lines t).chars hu
    have hkept : kept t = t := by simp [kept, losesBreak, h]
    dsimp only
    rw [List.append_assoc, htag, hread, hkept, filter_keptChars,
      ofChars_filter_chars fun b => mem_base64Lines, filter_base64Lines, unbase64_base64]

/-! ## What is lost -/

theorem chomping_cons (c : Char) {cs : List Char} (h : 2 ≤ cs.length) :
    chomping (c :: cs) = chomping cs := by
  obtain ⟨last, before, rest, hr⟩ : ∃ a b l, cs.reverse = a :: b :: l := by
    match hr : cs.reverse with
    | a :: b :: l => exact ⟨a, b, l, rfl⟩
    | [a] => rw [← List.length_reverse, hr] at h; simp at h
    | [] => rw [← List.length_reverse, hr] at h; simp at h
  unfold chomping
  rw [List.reverse_cons, hr]
  rfl

theorem literalBlock_lostBreak {rest : List Char} (h : rest ≠ []) :
    literalBlock ('\n' :: ' ' :: rest) = literalBlock (' ' :: rest) := by
  have hlength : 2 ≤ (' ' :: rest).length := by
    have := List.length_pos_iff.2 h
    simp
    omega
  have hfeed : isBreak '\n' = true := by decide
  have hspace : isBreak ' ' = false := by decide
  have hbody : literalBody true ('\n' :: ' ' :: rest) = "\n" ++ literalBody true (' ' :: rest) := by
    rw [literalBody, if_pos hfeed]
    rfl
  unfold literalBlock
  rw [chomping_cons '\n' hlength, hbody, List.getLast?_cons_cons]
  simp [isSpaceOrBreak, hfeed, hspace, onlyIf]

theorem allowsLiteral_lostBreak (rest : List Char) :
    allowsLiteral ('\n' :: ' ' :: rest) = allowsLiteral (' ' :: rest) := by
  have hplain : isSpecial '\n' = false := by decide
  unfold allowsLiteral hasSpaceBreak
  rw [hasPair_cons _ '\n', List.getLast?_cons_cons, List.any_cons, hplain]
  simp

theorem losesBreak_eq_true {t : Text} (h : losesBreak t = true) :
    ∃ rest, t = ofChars ('\n' :: ' ' :: rest) ∧ '\n' ∈ rest ∧
      allowsLiteral ('\n' :: ' ' :: rest) = true := by
  simp only [losesBreak, Bool.and_eq_true] at h
  obtain ⟨⟨hutf, hliteral⟩, hlost⟩ := h
  obtain ⟨rest, hchars, hfeed⟩ := lostBreak_eq_true hlost
  refine ⟨rest, ?_, hfeed, hchars ▸ hliteral⟩
  rw [← hchars, ofChars_chars hutf]

/-- **The line feed makes no difference** where it is lost. -/
theorem writeString_kept (t : Text) : writeString (kept t) = writeString t := by
  have hwrite : ∀ cs, '\n' ∈ cs → allowsLiteral cs = true →
      writeString (ofChars cs) = literalBlock cs := by
    intro cs hfeed hliteral
    rw [writeString, if_pos (isUtf8_ofChars cs), chars_ofChars, Style.choose,
      if_pos (by simpa using hfeed), if_pos hliteral]
    rfl
  unfold kept
  split
  · rename_i h
    obtain ⟨rest, rfl, hfeed, hliteral⟩ := losesBreak_eq_true h
    rw [hwrite _ (by simp) hliteral, literalBlock_lostBreak (List.ne_nil_of_mem hfeed)]
    exact hwrite (' ' :: rest) (by simp [hfeed]) (allowsLiteral_lostBreak rest ▸ hliteral)
  · rfl

theorem isEmpty_kept (t : Text) : (kept t).isEmpty = t.isEmpty := by
  unfold kept
  split
  · rename_i h
    obtain ⟨rest, rfl, -⟩ := losesBreak_eq_true h
    rfl
  · rfl

theorem kept_eq_self_iff (t : Text) : kept t = t ↔ losesBreak t = false := by
  unfold kept
  split
  · rename_i h
    obtain ⟨rest, rfl, -⟩ := losesBreak_eq_true h
    have hlength : (ofChars ('\n' :: ' ' :: rest)).tail.length <
        (ofChars ('\n' :: ' ' :: rest)).length := Nat.lt_succ_self _
    simp only [h, Bool.true_eq_false, iff_false]
    intro heq
    rw [heq] at hlength
    exact absurd hlength (Nat.lt_irrefl _)
  · rename_i h
    simpa using h

end TapeAsm.Yaml
