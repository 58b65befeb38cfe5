import Mathlib.Algebra.Group.Int.Defs
import Mathlib.Algebra.Group.Nat.Defs
import Mathlib.Data.List.Forall2
import TapeAsm.Proofs.Command.Variables
import TapeAsm.Proofs.Program.Lines
import TapeAsm.Proofs.Text.Trim

/-!
# Numbers and truth values as arguments

What a text denotes as a number does not depend on a width (`Denotes`): digits in decimal, however
many, with a sign in front where numbers are signed. Reading gives up as soon as the digits go over
a limit, and for signed numbers the limit of the digits is not that of the number.
`readDigits_eq_ok_iff`, `readUint_eq_ok_iff` and `readInt_eq_ok_iff` say that nothing is lost and
nothing is let through on the way: what is read are exactly the texts that denote a number of the
kind.

`number_exact` is the same for a variable that a command line sets, and `denotes_ofInt` adds that
numbers are read as they are written.

Truth values are read from every text: `readBool_eq_true_iff` says which texts mean yes
(`MeansYes`), and `truth_exact` is the same for a variable.
-/

set_option autoImplicit false

namespace TapeAsm.Command

/-! ## What texts denote -/

/-- The value of digits behind others that have a value already. -/
def decimalFrom (value : Nat) (t : Text) : Nat :=
  t.foldl (fun n b => 10 * n + (b.toNat - 48)) value

/-- Digits, at least one. -/
structure Digits (t : Text) : Prop where
  nonempty : t ≠ []
  all : ∀ b ∈ t, Text.isDigit b = true

/-- **The number that a text denotes**: its digits in decimal. A sign may stand in front of signed
numbers. -/
inductive Denotes (signed : Bool) : Text → Int → Prop
  | plain {t : Text} : Digits t → Denotes signed t (decimalFrom 0 t)
  | plus {t : Text} : signed = true → Digits t →
      Denotes signed (Text.ascii '+' :: t) (decimalFrom 0 t)
  | minus {t : Text} : signed = true → Digits t →
      Denotes signed (Text.ascii '-' :: t) (-decimalFrom 0 t)

/-- A kind of numbers. -/
structure NumberKind where
  signed : Bool
  width : Width
  deriving DecidableEq, Repr

namespace NumberKind

/-- The kind of a parameter that takes such numbers. -/
def kind (k : NumberKind) : Kind := if k.signed then .int k.width else .uint k.width

/-- Is the number one of the kind? -/
def Holds (k : NumberKind) (v : Int) : Prop :=
  if k.signed then -2 ^ (k.width.bits - 1) ≤ v ∧ v < 2 ^ (k.width.bits - 1)
  else 0 ≤ v ∧ v < 2 ^ k.width.bits

end NumberKind

/-! ## Reading digits -/

theorem decimalFrom_cons (value : Nat) (b : UInt8) (t : Text) :
    decimalFrom value (b :: t) = decimalFrom (10 * value + (b.toNat - 48)) t := by
  simp only [decimalFrom, List.foldl_cons]

theorem le_decimalFrom (value : Nat) (t : Text) : value ≤ decimalFrom value t := by
  induction t generalizing value with
  | nil => exact Nat.le_refl value
  | cons b t ih =>
    have := ih (10 * value + (b.toNat - 48))
    rw [decimalFrom_cons]
    omega

/-- **Digits are read if their value is within the limit.** -/
theorem readDigits_eq_ok_iff {limit value : Nat} {t : Text} {n : Nat} (hv : value ≤ limit) :
    readDigits limit value t = .ok n ↔
      (∀ b ∈ t, Text.isDigit b = true) ∧ n = decimalFrom value t ∧ n ≤ limit := by
  induction t generalizing value with
  | nil =>
    simp only [readDigits, Except.ok.injEq, decimalFrom, List.foldl_nil]
    constructor
    · rintro rfl
      exact ⟨by simp, rfl, hv⟩
    · rintro ⟨-, rfl, -⟩
      rfl
  | cons b t ih =>
    rw [readDigits, decimalFrom_cons, List.forall_mem_cons, Nat.mul_comm value 10]
    by_cases hb : Text.isDigit b = true
    · rw [if_pos hb]
      by_cases hlimit : limit < 10 * value + (b.toNat - 48)
      · -- later digits do not bring the value back under the limit
        have hle := le_decimalFrom (10 * value + (b.toNat - 48)) t
        simp only [if_pos hlimit]
        constructor
        · intro h
          cases h
        · rintro ⟨-, rfl, hn⟩
          omega
      · simp only [if_neg hlimit]
        rw [ih (by omega)]
        simp [hb]
    · rw [if_neg hb]
      simp [hb]

theorem Width.pow_bits (width : Width) : 2 ^ width.bits = 2 * 2 ^ (width.bits - 1) := by
  cases width <;> rfl

/-- **An unsigned number is read if it fits the width.** -/
theorem readUint_eq_ok_iff {width : Width} {t : Text} {n : Nat} :
    readUint width t = .ok n ↔ Digits t ∧ n = decimalFrom 0 t ∧ n < 2 ^ width.bits := by
  have hpos : 0 < 2 ^ width.bits := Nat.two_pow_pos _
  cases t with
  | nil =>
    constructor
    · intro h
      cases h
    · rintro ⟨hd, -⟩
      exact absurd rfl hd.nonempty
  | cons b t =>
    rw [readUint, if_neg (by simp), readDigits_eq_ok_iff (Nat.zero_le _)]
    constructor
    · rintro ⟨hall, hn, hlimit⟩
      refine ⟨⟨by simp, hall⟩, hn, ?_⟩
      have : n ≤ 2 ^ width.bits - 1 := hlimit
      omega
    · rintro ⟨hd, hn, hlimit⟩
      refine ⟨hd.all, hn, ?_⟩
      change n ≤ 2 ^ width.bits - 1
      omega

theorem ite_eq_ok_iff {ε α : Type} {p : Prop} [Decidable p] {a b : α} {e : ε} :
    (if p then Except.ok a else Except.error e) = .ok b ↔ p ∧ a = b := by
  by_cases h : p <;> simp [h]

theorem readMagnitude_of_ok {width : Width} {t : Text} {n : Nat} (h : readUint width t = .ok n)
    (negative : Bool) :
    readMagnitude width negative t =
      if negative then if n ≤ 2 ^ (width.bits - 1) then .ok (-n) else .error .range
      else if n < 2 ^ (width.bits - 1) then .ok n else .error .range := by
  rw [readMagnitude, h]
  rfl

/-- The digits of a signed number may go up to the whole width, but the number has to fit. -/
theorem readMagnitude_eq_ok_iff {width : Width} {negative : Bool} {t : Text} {v : Int} :
    readMagnitude width negative t = .ok v ↔
      (Digits t ∧ v = if negative then -(decimalFrom 0 t : Int) else decimalFrom 0 t) ∧
        -2 ^ (width.bits - 1) ≤ v ∧ v < 2 ^ (width.bits - 1) := by
  have hpow := width.pow_bits
  have hpos : 0 < 2 ^ (width.bits - 1) := Nat.two_pow_pos _
  have hcast : ((2 ^ (width.bits - 1) : Nat) : Int) = 2 ^ (width.bits - 1) := by simp
  rw [← hcast]
  cases hr : readUint width t with
  | error fault =>
    rw [readMagnitude, hr]
    constructor
    · intro h
      cases h
    · rintro ⟨⟨hd, hv⟩, hle, hlt⟩
      -- a number that fits has digits that are read
      have hn : decimalFrom 0 t < 2 ^ width.bits := by cases negative <;> simp at hv <;> omega
      rw [readUint_eq_ok_iff.2 ⟨hd, rfl, hn⟩] at hr
      cases hr
  | ok n =>
    obtain ⟨hd, rfl, hn⟩ := readUint_eq_ok_iff.1 hr
    rw [readMagnitude_of_ok hr]
    cases negative with
    | true =>
      simp only [if_true, ite_eq_ok_iff]
      constructor
      · rintro ⟨hle, rfl⟩
        exact ⟨⟨hd, rfl⟩, by omega, by omega⟩
      · rintro ⟨⟨-, rfl⟩, hle, -⟩
        exact ⟨by omega, rfl⟩
    | false =>
      simp only [Bool.false_eq_true, if_false, ite_eq_ok_iff]
      constructor
      · rintro ⟨hlt, rfl⟩
        exact ⟨⟨hd, rfl⟩, by omega, by omega⟩
      · rintro ⟨⟨-, rfl⟩, -, hlt⟩
        exact ⟨by omega, rfl⟩

/-! ## Signs -/

section
variable {signed : Bool} {b : UInt8} {t : Text} {v : Int}

theorem not_digits_cons (hb : Text.isDigit b = false) : ¬Digits (b :: t) := by
  intro h
  have := h.all b List.mem_cons_self
  rw [hb] at this
  cases this

theorem denotes_minus_iff :
    Denotes signed (Text.ascii '-' :: t) v ↔
      signed = true ∧ Digits t ∧ v = -(decimalFrom 0 t : Int) := by
  constructor
  · intro h
    generalize hs : Text.ascii '-' :: t = s at h
    cases h with
    | plain hd => exact absurd (hs ▸ hd) (not_digits_cons (by decide))
    | plus hsigned hd => exact absurd (List.cons.inj hs).1 (by decide)
    | minus hsigned hd =>
      obtain rfl := (List.cons.inj hs).2
      exact ⟨hsigned, hd, rfl⟩
  · rintro ⟨hsigned, hd, rfl⟩
    exact .minus hsigned hd

theorem denotes_plus_iff :
    Denotes signed (Text.ascii '+' :: t) v ↔
      signed = true ∧ Digits t ∧ v = decimalFrom 0 t := by
  constructor
  · intro h
    generalize hs : Text.ascii '+' :: t = s at h
    cases h with
    | plain hd => exact absurd (hs ▸ hd) (not_digits_cons (by decide))
    | plus hsigned hd =>
      obtain rfl := (List.cons.inj hs).2
      exact ⟨hsigned, hd, rfl⟩
    | minus hsigned hd => exact absurd (List.cons.inj hs).1 (by decide)
  · rintro ⟨hsigned, hd, rfl⟩
    exact .plus hsigned hd

theorem denotes_unsigned_iff : Denotes false t v ↔ Digits t ∧ v = decimalFrom 0 t := by
  constructor
  · intro h
    cases h with
    | plain hd => exact ⟨hd, rfl⟩
    | plus hsigned hd => cases hsigned
    | minus hsigned hd => cases hsigned
  · rintro ⟨hd, rfl⟩
    exact .plain hd

theorem denotes_cons_iff (hminus : b ≠ Text.ascii '-') (hplus : b ≠ Text.ascii '+') :
    Denotes signed (b :: t) v ↔ Digits (b :: t) ∧ v = decimalFrom 0 (b :: t) := by
  constructor
  · intro h
    generalize hs : b :: t = s at h
    cases h with
    | plain hd => exact ⟨hd, rfl⟩
    | plus hsigned hd => exact absurd (List.cons.inj hs).1 hplus
    | minus hsigned hd => exact absurd (List.cons.inj hs).1 hminus
  · rintro ⟨hd, rfl⟩
    exact .plain hd

end

/-- **A signed number is read if it fits the width**, with or without a sign. -/
theorem readInt_eq_ok_iff {width : Width} {t : Text} {v : Int} :
    readInt width t = .ok v ↔
      Denotes true t v ∧ -2 ^ (width.bits - 1) ≤ v ∧ v < 2 ^ (width.bits - 1) := by
  cases t with
  | nil =>
    constructor
    · intro h
      cases h
    · rintro ⟨h, -⟩
      cases h with
      | plain hd => exact absurd rfl hd.nonempty
  | cons b t =>
    rw [readInt]
    by_cases hminus : b = Text.ascii '-'
    · rw [if_pos hminus, readMagnitude_eq_ok_iff, hminus, denotes_minus_iff]
      simp
    · rw [if_neg hminus]
      by_cases hplus : b = Text.ascii '+'
      · rw [if_pos hplus, readMagnitude_eq_ok_iff, hplus, denotes_plus_iff]
        simp
      · rw [if_neg hplus, readMagnitude_eq_ok_iff, denotes_cons_iff hminus hplus]
        simp

/-- **What is converted to a kind of numbers**: exactly the texts that denote a number of the
kind. -/
theorem NumberKind.convert_eq_ok_iff {k : NumberKind} {t : Text} {a : Arg} :
    k.kind.convert t = .ok a ↔ ∃ v, a = .int v ∧ Denotes k.signed t v ∧ k.Holds v := by
  obtain ⟨signed, width⟩ := k
  cases signed with
  | true =>
    have hread (v : Int) := @readInt_eq_ok_iff width t v
    simp only [kind, if_true, Kind.convert, Holds, ← hread]
    cases readInt width t <;> simp [eq_comm]
  | false =>
    simp only [kind, Bool.false_eq_true, if_false, Kind.convert, Holds, denotes_unsigned_iff]
    constructor
    · intro h
      cases hr : readUint width t with
      | error fault => rw [hr] at h; cases h
      | ok n =>
        obtain ⟨hd, rfl, hn⟩ := readUint_eq_ok_iff.1 hr
        rw [hr] at h
        cases h
        exact ⟨decimalFrom 0 t, rfl, ⟨hd, rfl⟩, by omega, by exact_mod_cast hn⟩
    · rintro ⟨v, rfl, ⟨hd, rfl⟩, -, hlt⟩
      rw [readUint_eq_ok_iff.2 ⟨hd, rfl, by exact_mod_cast hlt⟩]

/-! ## Numbers as they are written -/

theorem toNat_ascii_digit {c : Char} (h : c.isDigit = true) :
    Text.isDigit (Text.ascii c) = true ∧ (Text.ascii c).toNat = c.toNat := by
  have hc : 48 ≤ c.toNat ∧ c.toNat ≤ 57 := by
    simpa [Char.isDigit, UInt32.le_iff_toNat_le] using h
  have hcode : (Text.ascii c).toNat = c.toNat := by
    simp only [Text.ascii, Nat.toUInt8_eq, UInt8.toNat_ofNat']
    omega
  refine ⟨?_, hcode⟩
  have hzero : (Text.ascii '0').toNat = 48 := by decide
  have hnine : (Text.ascii '9').toNat = 57 := by decide
  simp only [Text.isDigit, Bool.and_eq_true, decide_eq_true_eq, UInt8.le_iff_toNat_le, hzero, hnine,
    hcode]
  exact hc

theorem decimalFrom_map_ascii {cs : List Char} (h : ∀ c ∈ cs, c.isDigit = true) (value : Nat) :
    decimalFrom value (cs.map Text.ascii) = Nat.ofDigitChars 10 cs value := by
  induction cs generalizing value with
  | nil => rfl
  | cons c cs ih =>
    obtain ⟨hc, hcs⟩ := List.forall_mem_cons.1 h
    have hzero : '0'.toNat = 48 := by decide
    rw [List.map_cons, decimalFrom_cons, ih hcs, (toNat_ascii_digit hc).2, Nat.ofDigitChars_cons,
      hzero]

theorem digits_ofNat (n : Nat) : Digits (Text.ofNat n) ∧ decimalFrom 0 (Text.ofNat n) = n := by
  have hdigit : ∀ c ∈ Nat.toDigits 10 n, c.isDigit = true := fun c hc =>
    Nat.isDigit_of_mem_toDigits (by decide) (by decide) hc
  refine ⟨⟨?_, fun b hb => ?_⟩, ?_⟩
  · simp [Text.ofNat, Nat.toDigits_ne_nil]
  · obtain ⟨c, hc, rfl⟩ := List.mem_map.1 hb
    exact (toNat_ascii_digit (hdigit c hc)).1
  · rw [Text.ofNat, decimalFrom_map_ascii hdigit, Nat.ofDigitChars_ten_toDigits]

/-- **A number is written as a text that denotes it.** -/
theorem denotes_ofInt {k : NumberKind} {v : Int} (h : k.Holds v) :
    Denotes k.signed (Text.ofInt v) v := by
  cases v with
  | ofNat n =>
    obtain ⟨hd, hn⟩ := digits_ofNat n
    have hplain : Denotes k.signed (Text.ofNat n) (decimalFrom 0 (Text.ofNat n)) := .plain hd
    rw [hn] at hplain
    exact hplain
  | negSucc n =>
    obtain ⟨signed, width⟩ := k
    cases signed with
    | false =>
      have hnonneg : 0 ≤ Int.negSucc n := h.1
      omega
    | true =>
      obtain ⟨hd, hn⟩ := digits_ofNat (n + 1)
      have hminus : Denotes true (Text.ascii '-' :: Text.ofNat (n + 1))
          (-decimalFrom 0 (Text.ofNat (n + 1))) := .minus rfl hd
      rw [hn] at hminus
      exact hminus

/-! ## Truth values -/

/-- The bytes are one byte of a word, or its capital. -/
def Spells (word t : Text) : Prop :=
  List.Forall₂ (fun b c => c = b ∨ Text.ascii 'a' ≤ b ∧ b ≤ Text.ascii 'z' ∧ c + 32 = b) word t

/-- **The texts that mean yes**: six words, their letters small or capital, with white space around
them or not. -/
inductive MeansYes : Text → Prop
  | intro {before word t after : Text} : Text.AllBlank before →
      word ∈ (["true", "t", "yes", "y", "on", "1"] : List Text) → Spells word t →
      Text.AllBlank after → MeansYes (before ++ t ++ after)

theorem lowerByte_eq_iff {b c : UInt8} (hb : b < Text.ascii 'A' ∨ Text.ascii 'Z' < b) :
    Text.lowerByte c = b ↔
      c = b ∨ Text.ascii 'a' ≤ b ∧ b ≤ Text.ascii 'z' ∧ c + 32 = b := by
  have ha : (Text.ascii 'a').toNat = 97 := by decide
  have hz : (Text.ascii 'z').toNat = 122 := by decide
  have hA : (Text.ascii 'A').toNat = 65 := by decide
  have hZ : (Text.ascii 'Z').toNat = 90 := by decide
  have hshift : (32 : UInt8).toNat = 32 := by decide
  have hbound := b.toNat_lt
  have hbound' := c.toNat_lt
  simp only [Text.lowerByte, Bool.and_eq_true, decide_eq_true_eq, UInt8.le_iff_toNat_le,
    UInt8.lt_iff_toNat_lt, ha, hz, hA, hZ, ← UInt8.toNat_inj, UInt8.toNat_add, hshift] at hb ⊢
  split
  · rw [UInt8.toNat_add, hshift]
    omega
  · omega

theorem map_lowerByte_eq_iff {word t : Text}
    (h : ∀ b ∈ word, b < Text.ascii 'A' ∨ Text.ascii 'Z' < b) :
    t.map Text.lowerByte = word ↔ Spells word t := by
  unfold Spells
  induction word generalizing t with
  | nil => simp
  | cons b word ih =>
    obtain ⟨hb, hword⟩ := List.forall_mem_cons.1 h
    cases t with
    | nil => simp
    | cons c t =>
      rw [List.map_cons, List.cons.injEq, List.forall₂_cons, lowerByte_eq_iff hb, ih hword]

theorem isVisible_of_lowerByte {c : UInt8} (h : Text.isVisible (Text.lowerByte c) = true) :
    Text.isVisible c = true := by
  unfold Text.lowerByte at h
  split at h
  · rename_i hcapital
    rw [Bool.and_eq_true, decide_eq_true_eq, decide_eq_true_eq] at hcapital
    rw [Text.isVisible, Bool.and_eq_true, decide_eq_true_eq, decide_eq_true_eq]
    exact ⟨UInt8.le_trans (by decide) hcapital.1, UInt8.le_trans hcapital.2 (by decide)⟩
  · exact h

theorem trueWords_bytes : ∀ word ∈ trueWords, ∀ b ∈ word,
    Text.isVisible b = true ∧ (b < Text.ascii 'A' ∨ Text.ascii 'Z' < b) := by
  decide +kernel

/-- **A text is read as true if it means yes**, and as false otherwise. -/
theorem readBool_eq_true_iff {t : Text} : readBool t = true ↔ MeansYes t := by
  have hlower {word t : Text} (hword : word ∈ trueWords) :=
    @map_lowerByte_eq_iff word t fun b hb => (trueWords_bytes word hword b hb).2
  rw [readBool, List.contains_iff_mem]
  constructor
  · intro h
    obtain ⟨before, after, hbefore, hafter, hline⟩ := (Text.trimmed_trim t).around
    rw [hline]
    exact .intro hbefore h ((hlower h).1 rfl) hafter
  · intro h
    cases h with
    | @intro before word t after hbefore hword hspells hafter =>
      have hmap := (hlower hword).2 hspells
      -- no byte of the word is white space, so trimming leaves it alone
      have hvisible : ∀ c ∈ t, Text.isVisible c = true := by
        intro c hc
        have hmem : Text.lowerByte c ∈ word := hmap ▸ List.mem_map_of_mem hc
        exact isVisible_of_lowerByte (trueWords_bytes word hword _ hmem).1
      have htrim : Text.trim t = t := Text.trim_spaces_append 0 hvisible
      rw [Text.trim_around hbefore hafter, htrim, hmap]
      exact hword

/-! ## Variables -/

/-- The command that a variable's name stands for, however the registry came about. -/
theorem command?_defineVariable {σ : Type} {r r' : Registry σ} {name : Text} {kind : Kind}
    {assign : Arg → σ → σ} (h : r.defineVariable name kind assign = (r', none)) :
    r'.command? name =
      some { params := [kind]
             handler := fun args s => (assign (args.headD (.zero kind)) s, .done) } := by
  rw [Registry.defineVariable] at h
  have hnone : (r.defineAll (Registry.variableCommands name kind assign)).2 = none := by rw [h]
  have hcommand := Registry.command?_defineAll_of_mem hnone List.mem_cons_self List.mem_cons_self
  rw [h] at hcommand
  exact hcommand

/-- **A variable takes exactly the numbers of its kind.** The variable stands among others that a
command line may set, and is called by a word that is its name but for white space around it. A text
that denotes a number of the kind sets it to that number and touches nothing else; any other text is
an error and leaves all as it was. Every number of the kind is set by the text that it is written
as. -/
theorem number_exact {σ : Type} {r r' : Registry (σ × Arg)} {name word : Text} {k : NumberKind}
    (hdefined : r.defineVariable name k.kind (fun a s => (s.1, a)) = (r', none))
    (hword : word.trim = name)
    (others : σ) (old : Arg) :
    (∀ t v, Denotes k.signed t v → k.Holds v →
      r'.execute [word, t] (others, old) = ((others, .int v), .finished)) ∧
    (∀ t, (¬∃ v, Denotes k.signed t v ∧ k.Holds v) →
      ∃ e, r'.execute [word, t] (others, old) = ((others, old), .failed e)) ∧
    ∀ v, k.Holds v →
      r'.execute [word, Text.ofInt v] (others, old) = ((others, .int v), .finished) := by
  have hc := command?_defineVariable hdefined
  rw [← hword] at hc
  have hset : ∀ t v, Denotes k.signed t v → k.Holds v →
      r'.execute [word, t] (others, old) = ((others, .int v), .finished) := by
    intro t v hd hv
    have ha := NumberKind.convert_eq_ok_iff.2 ⟨v, rfl, hd, hv⟩
    exact execute_command hc (readArgs_single ha []) rfl
  refine ⟨hset, fun t hnot => ?_, fun v hv => hset _ v (denotes_ofInt hv) hv⟩
  cases ha : k.kind.convert t with
  | ok a =>
    obtain ⟨v, -, hd, hv⟩ := NumberKind.convert_eq_ok_iff.1 ha
    exact absurd ⟨v, hd, hv⟩ hnot
  | error e => exact ⟨_, execute_refused (others, old) hc (readArgs_unfit ha [])⟩

/-- A registry with one variable. -/
def oneNumber (k : NumberKind) : Registry (Unit × Arg) :=
  (Registry.empty.defineVariable "-n" k.kind fun a s => (s.1, a)).1

/-- The least number of 8 bits behind a zero, and one that is too great; the greatest unsigned
number of 64 bits, and a sign that is not allowed. -/
theorem number_exact_at_bounds :
    Text.trim "-n" = "-n" ∧
    (oneNumber ⟨true, .bits8⟩).execute ["-n", "-0128"] ((), .int 3) =
      (((), .int (-128)), .finished) ∧
    (∃ e, (oneNumber ⟨true, .bits8⟩).execute ["-n", "128"] ((), .int 3) =
      (((), .int 3), .failed e)) ∧
    (oneNumber ⟨false, .bits64⟩).execute ["-n", Text.ofInt 18446744073709551615] ((), .int 3) =
      (((), .int 18446744073709551615), .finished) ∧
    ∃ e, (oneNumber ⟨false, .bits64⟩).execute ["-n", "+1"] ((), .int 3) =
      (((), .int 3), .failed e) := by
  have hword : Text.trim "-n" = "-n" := by decide +kernel
  have hdefined (k : NumberKind) : Registry.empty.defineVariable "-n" k.kind
      (fun a (s : Unit × Arg) => (s.1, a)) = (oneNumber k, none) := rfl
  have hleast : Denotes true "-0128" (-128) := .minus rfl ⟨by decide, by decide +kernel⟩
  have hgreat : ¬∃ v, Denotes true "128" v ∧ NumberKind.Holds ⟨true, .bits8⟩ v := by
    rintro ⟨v, hd, hv⟩
    cases NumberKind.convert_eq_ok_iff.2 ⟨v, rfl, hd, hv⟩
  have hsign : ¬∃ v, Denotes false "+1" v ∧ NumberKind.Holds ⟨false, .bits64⟩ v := by
    rintro ⟨v, hd, -⟩
    cases (denotes_plus_iff.1 hd).1
  obtain ⟨hset, hkeep, -⟩ := number_exact (hdefined ⟨true, .bits8⟩) hword () (.int 3)
  obtain ⟨-, hkeep', hwritten⟩ := number_exact (hdefined ⟨false, .bits64⟩) hword () (.int 3)
  refine ⟨hword, hset _ _ hleast ?_, hkeep _ hgreat, hwritten _ ?_, hkeep' _ hsign⟩
  · exact ⟨by decide, by decide⟩
  · exact ⟨by decide, by decide⟩

/-- **A truth value that is set is true if its text means yes**, and false otherwise; nothing else
is touched, and no text is an error. -/
theorem truth_exact {σ : Type} {r r' : Registry (σ × Arg)} {name word : Text}
    (hdefined : r.defineVariable name .bool (fun a s => (s.1, a)) = (r', none))
    (hword : word.trim = name) (others : σ) (old : Arg) (t : Text) :
    ∃ b, r'.execute [word, t] (others, old) = ((others, .bool b), .finished) ∧
      (b = true ↔ MeansYes t) := by
  have hc := command?_defineVariable hdefined
  rw [← hword] at hc
  exact ⟨readBool t, execute_command hc (readArgs_single (rfl : Kind.bool.convert t = _) []) rfl,
    readBool_eq_true_iff⟩

end TapeAsm.Command
