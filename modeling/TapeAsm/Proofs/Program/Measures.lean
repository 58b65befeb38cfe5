import TapeAsm.Proofs.Program.RoundTrip

/-!
# Measures of a program, read off its tokens

The depth and the count of a program are defined on its tree, and can be had from the tokens it was
parsed from without the tree. `surplus tokens` is the number of loops that are open behind tokens;
the depth is the greatest surplus of a prefix (`Peak`), and the count is the number of tokens that
are no loop ends.

A peak is put together part by part (`Peak.append`): the peaks behind a part are raised by its
surplus. A derivation has surplus zero, so the loops of one instruction do not raise those of the
next, and the loop around a body raises its peak by one (`Spells.peak`).
-/

set_option autoImplicit false

namespace TapeAsm

/-! ## Open loops along a token list -/

/-- How many more loops the tokens start than end. -/
def surplus (tokens : List Text) : Int :=
  tokens.count Keyword.loopStart.text - tokens.count Keyword.loopEnd.text

/-- **The greatest surplus** of a prefix. -/
structure Peak (tokens : List Text) (n : Int) : Prop where
  le : ∀ before, before <+: tokens → surplus before ≤ n
  attained : ∃ before, before <+: tokens ∧ surplus before = n

theorem surplus_append (a b : List Text) : surplus (a ++ b) = surplus a + surplus b := by
  simp only [surplus, List.count_append]
  omega

theorem surplus_other {token : Text} (hs : token ≠ Keyword.loopStart.text)
    (he : token ≠ Keyword.loopEnd.text) : surplus [token] = 0 := by
  simp [surplus, List.count_cons_of_ne hs, List.count_cons_of_ne he]

theorem surplus_simple {k : Keyword} {op : Op} (hk : k.op? = some op) : surplus [k.text] = 0 :=
  surplus_other (Keyword.text_ne_of_op? hk rfl) (Keyword.text_ne_of_op? hk rfl)

theorem Balanced.surplus_eq {tokens : List Text} (h : Balanced tokens) : surplus tokens = 0 := by
  have := h.totals
  unfold surplus
  omega

theorem Balanced.surplus_nonneg {tokens before : List Text} (h : Balanced tokens)
    (hp : before <+: tokens) : 0 ≤ surplus before := by
  have := h.prefixes before hp
  unfold surplus
  omega

theorem surplus_start : surplus [Keyword.loopStart.text] = 1 := by decide

theorem surplus_end : surplus [Keyword.loopEnd.text] = -1 := by decide

namespace Peak

theorem nil : Peak [] 0 := by
  refine ⟨fun before h => ?_, [], List.prefix_refl _, rfl⟩
  rw [List.prefix_nil.1 h]
  exact Int.le_refl 0

theorem single (token : Text) : Peak [token] (max 0 (surplus [token])) := by
  have hcases : ∀ before, before <+: [token] ↔ before = [] ∨ before = [token] := by
    intro before
    simp [List.prefix_cons_iff]
  have hnil : surplus [] = 0 := rfl
  refine ⟨fun before h => ?_, ?_⟩
  · rcases (hcases before).1 h with rfl | rfl <;> omega
  · by_cases hle : surplus [token] ≤ 0
    · exact ⟨[], (hcases _).2 (.inl rfl), by omega⟩
    · exact ⟨[token], (hcases _).2 (.inr rfl), by omega⟩

/-- **The peak of two parts**: the second starts from the surplus of the first. -/
theorem append {a b : List Text} {n k : Int} (ha : Peak a n) (hb : Peak b k) :
    Peak (a ++ b) (max n (surplus a + k)) := by
  refine ⟨fun before h => ?_, ?_⟩
  · rcases List.prefix_or_prefix_of_prefix h (List.prefix_append a b) with h' | ⟨c, rfl⟩
    · have := ha.le before h'
      omega
    · have := hb.le c ((List.prefix_append_right_inj a).1 h)
      rw [surplus_append]
      omega
  · obtain ⟨p, hp, hn⟩ := ha.attained
    obtain ⟨q, hq, hk⟩ := hb.attained
    by_cases hle : surplus a + k ≤ n
    · exact ⟨p, hp.trans (List.prefix_append a b), by omega⟩
    · refine ⟨a ++ q, (List.prefix_append_right_inj a).2 hq, ?_⟩
      rw [surplus_append]
      omega

end Peak

namespace Program

/-! ## The measures of a derivation -/

theorem Spells.surplus {tokens : List Text} {p : Program} (h : Spells tokens p) :
    surplus tokens = 0 := (parse_ok_iff.1 ⟨p, parse_eq_ok_iff.2 h⟩).2.surplus_eq

theorem Spells.peak {tokens : List Text} {p : Program} (h : Spells tokens p) :
    Peak tokens p.depth := by
  induction h with
  | nil => exact .nil
  | @simple k op tokens p hk _ ih =>
    obtain ⟨hne, -⟩ := Op.name_of_op? hk
    have hpeak := (Peak.single k.text).append ih
    rw [surplus_simple hk] at hpeak
    have hdepth : max (max 0 0) (0 + (p.depth : Int)) = p.depth := by omega
    rwa [hdepth, ← depth_plain hne [] p] at hpeak
  | @loop inner tokens body p hi hp ihb ihp =>
    have hpeak := (Peak.single Keyword.loopStart.text).append
      (ihb.append ((Peak.single Keyword.loopEnd.text).append ihp))
    rw [surplus_start, surplus_end, hi.surplus] at hpeak
    have hdepth : max (max 0 1) (1 + max (body.depth : Int)
        (0 + max (max 0 (-1)) (-1 + (p.depth : Int)))) = (max (1 + body.depth) p.depth : Nat) := by
      omega
    rwa [hdepth, ← depth_loop] at hpeak

theorem Spells.count {tokens : List Text} {p : Program} (h : Spells tokens p) :
    p.count + tokens.count Keyword.loopEnd.text = tokens.length := by
  induction h with
  | nil => rfl
  | @simple k op tokens p hk _ ih =>
    obtain ⟨hne, -⟩ := Op.name_of_op? hk
    rw [Instr.simple, count_plain hne, List.count_cons_of_ne (Keyword.text_ne_of_op? hk rfl),
      List.length_cons]
    omega
  | loop _ _ ihb ihp =>
    have hne : Keyword.loopStart.text ≠ Keyword.loopEnd.text := by decide
    rw [count_loop, List.count_cons_of_ne hne, List.count_append, List.count_cons_self,
      List.length_cons, List.length_append, List.length_cons]
    omega

/-- **Depth and count measure the token list.** The depth of a parsed program is the greatest number
of loops open at a point of the tokens, and its count the number of tokens that are no loop ends. -/
theorem measures_of_parse {tokens : List Text} {p : Program} (h : parse tokens = .ok p) :
    Peak tokens p.depth ∧
      (p.count : Int) = tokens.length - tokens.count Keyword.loopEnd.text := by
  have hs := parse_eq_ok_iff.1 h
  have := hs.count
  exact ⟨hs.peak, by omega⟩

/-- A loop with two loops in it, one of them empty. -/
theorem measures_of_parse_nested :
    parse [Keyword.loopStart.text, Keyword.loopStart.text, Keyword.loopEnd.text,
      Keyword.loopStart.text, Keyword.dec.text, Keyword.loopEnd.text, Keyword.loopEnd.text,
      Keyword.print.text] = .ok [.loop [.loop [], .loop [.simple .dec]], .simple .print] ∧
    Peak [Keyword.loopStart.text, Keyword.loopStart.text, Keyword.loopEnd.text,
      Keyword.loopStart.text, Keyword.dec.text, Keyword.loopEnd.text, Keyword.loopEnd.text,
      Keyword.print.text] 2 ∧
    (count [.loop [.loop [], .loop [.simple .dec]], .simple .print] : Int) = 8 - 3 := by
  have hp : parse [Keyword.loopStart.text, Keyword.loopStart.text, Keyword.loopEnd.text,
      Keyword.loopStart.text, Keyword.dec.text, Keyword.loopEnd.text, Keyword.loopEnd.text,
      Keyword.print.text] = .ok [.loop [.loop [], .loop [.simple .dec]], .simple .print] := rfl
  obtain ⟨hpeak, hcount⟩ := measures_of_parse hp
  exact ⟨hp, hpeak, hcount⟩

end Program

end TapeAsm
