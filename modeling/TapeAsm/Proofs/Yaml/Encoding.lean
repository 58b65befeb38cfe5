import Mathlib.Algebra.Group.Nat.Defs
import TapeAsm.Proofs.Text.Utf8
import TapeAsm.Yaml.Scalar

/-!
# Encoded bytes and characters read again

Where the characters of a string cannot stand for themselves, base 64 stands for its bytes and an
escape for a character. Each encoding is read back: `unbase64_base64`, which holds of an encoding
cut in lines once the line feeds are gone (`filter_base64Lines`), and `unescape_escape`, where the
escape tells how many characters it takes, so whatever follows it does not matter.
-/

set_option autoImplicit false

namespace TapeAsm

namespace Text

theorem chars_ofString_append (s : String) (t : Text) :
    (ofString s ++ t).chars = s.toList ++ t.chars := chars_ofChars_append s.toList t

theorem chars_feed_append (t : Text) : ("\n" ++ t : Text).chars = '\n' :: t.chars :=
  chars_ofString_append "\n" t

theorem chars_ofChar_append (c : Char) (t : Text) : (ofChar c ++ t).chars = c :: t.chars := by
  have h := chars_ofChars_append [c] t
  rwa [ofChars, List.flatMap_singleton] at h

/-- An ASCII text without its line feeds, by way of its characters. -/
theorem ofChars_filter_chars {t : Text} (h : ∀ b ∈ t, b < 0x80) :
    ofChars (t.chars.filter (· ≠ '\n')) = t.filter (· ≠ ascii '\n') := by
  induction t with
  | nil => rfl
  | cons b t ih =>
    obtain ⟨hb, ht⟩ := List.forall_mem_cons.1 h
    have hlt : b.toNat < 0x80 := by simpa [UInt8.lt_iff_toNat_lt] using hb
    have hc : (Char.ofNat b.toNat).toNat = b.toNat := toNat_ofNat (.inl (by omega))
    have hone : ofChar (Char.ofNat b.toNat) = [b] := by
      rw [ofChar_one (by omega), hc]
      simp
    have hfeed : Char.ofNat b.toNat = '\n' ↔ b = ascii '\n' := by
      rw [← Char.toNat_inj, hc, ← UInt8.toNat_inj]
      rfl
    have hchars : chars (b :: t) = Char.ofNat b.toNat :: chars t := by
      rw [← chars_ofChar_append, hone]
      rfl
    rw [hchars]
    by_cases hn : b = ascii '\n'
    · rw [List.filter_cons_of_neg (by simp [hfeed.2 hn]), List.filter_cons_of_neg (by simp [hn])]
      exact ih ht
    · rw [List.filter_cons_of_pos (by simp [hfeed, hn]), List.filter_cons_of_pos (by simp [hn]),
        ← ih ht, ofChars, List.flatMap_cons, hone]
      rfl

end Text

namespace Yaml

open Text

/-! ## Base 64 -/

/-- The six-bit value of a character; padding counts as zero. -/
def base64Value (b : UInt8) : Nat :=
  if b = ascii '=' then 0
  else if b = ascii '+' then 62
  else if b = ascii '/' then 63
  else if b ≤ ascii '9' then b.toNat + 4
  else if b ≤ ascii 'Z' then b.toNat - 65
  else b.toNat - 71

/-- The bytes of a 24-bit group. -/
def groupBytes (n : Nat) : Text :=
  [UInt8.ofNat (n / 65536), UInt8.ofNat (n / 256 % 256), UInt8.ofNat (n % 256)]

/-- The bytes of a group of four characters, of which the last ones may be padding. -/
def ungroup (a b c d : UInt8) : Text :=
  let n := base64Value a * 262144 + base64Value b * 4096 + base64Value c * 64 + base64Value d
  (groupBytes n).take (if c = ascii '=' then 1 else if d = ascii '=' then 2 else 3)

/-- The bytes that a text in base 64 stands for. -/
def unbase64 : Text → Text
  | a :: b :: c :: d :: rest => ungroup a b c d ++ unbase64 rest
  | _ => []

theorem base64Value_base64Char : ∀ n < 64, base64Value (base64Char n) = n := by decide +kernel

theorem base64Char_plain :
    ∀ n < 64, base64Char n < 0x80 ∧ base64Char n ≠ ascii '=' ∧ base64Char n ≠ ascii '\n' := by
  decide +kernel

theorem base64Value_padding : base64Value (ascii '=') = 0 := if_pos rfl

theorem groupBytes_eq {a b c : UInt8} {n : Nat}
    (hn : n = a.toNat * 65536 + b.toNat * 256 + c.toNat) : groupBytes n = [a, b, c] := by
  have ha := a.toNat_lt
  have hb := b.toNat_lt
  have hc := c.toNat_lt
  unfold groupBytes
  simp only [List.cons.injEq, and_true, ← UInt8.toNat_inj, UInt8.toNat_ofNat']
  omega

theorem ungroup_eq {a b c d : UInt8} {n : Nat}
    (hn : base64Value a * 262144 + base64Value b * 4096 + base64Value c * 64 + base64Value d = n) :
    ungroup a b c d =
      (groupBytes n).take (if c = ascii '=' then 1 else if d = ascii '=' then 2 else 3) := by
  subst hn
  rfl

theorem sextets {n : Nat} (h : n < 16777216) :
    n / 262144 % 64 * 262144 + n / 4096 % 64 * 4096 + n / 64 % 64 * 64 + n % 64 = n := by
  omega

theorem unbase64_base64 (t : Text) : unbase64 (base64 t) = t := by
  have hlt (n : Nat) : n % 64 < 64 := Nat.mod_lt n (by decide)
  have hvalue (n : Nat) : base64Value (base64Char (n % 64)) = n % 64 :=
    base64Value_base64Char _ (hlt n)
  have hplain (n : Nat) : base64Char (n % 64) ≠ ascii '=' := (base64Char_plain _ (hlt n)).2.1
  fun_induction base64 t with
  | case1 a b c rest ih =>
    have ha := a.toNat_lt
    have hb := b.toNat_lt
    have hc := c.toNat_lt
    generalize hn : a.toNat * 65536 + b.toNat * 256 + c.toNat = n
    have hsum := sextets (n := n) (by omega)
    have hgroup : base64Group n [0, 1, 2, 3] = [base64Char (n / 262144 % 64),
        base64Char (n / 4096 % 64), base64Char (n / 64 % 64), base64Char (n % 64)] := by
      simp [base64Group]
    rw [hgroup, List.cons_append, List.cons_append, List.cons_append, List.cons_append,
      List.nil_append, unbase64, ungroup_eq (n := n) (by rw [hvalue, hvalue, hvalue, hvalue, hsum]),
      groupBytes_eq hn.symm, if_neg (hplain _), if_neg (hplain _), ih]
    rfl
  | case2 a b =>
    have ha := a.toNat_lt
    have hb := b.toNat_lt
    generalize hn : a.toNat * 65536 + b.toNat * 256 = n
    have hsum := sextets (n := n) (by omega)
    rw [show n % 64 = 0 by omega] at hsum
    have hgroup : base64Group n [0, 1, 2] ++ ("=" : Text) = [base64Char (n / 262144 % 64),
        base64Char (n / 4096 % 64), base64Char (n / 64 % 64), ascii '='] := by
      rw [show ("=" : Text) = [ascii '='] by decide]
      simp [base64Group]
    have hbytes : groupBytes n = [a, b, 0] :=
      groupBytes_eq (by rw [UInt8.toNat_zero, Nat.add_zero, hn])
    rw [hgroup, unbase64,
      ungroup_eq (n := n) (by rw [hvalue, hvalue, hvalue, base64Value_padding, hsum]), hbytes,
      if_neg (hplain _), if_pos rfl]
    rfl
  | case3 a =>
    have ha := a.toNat_lt
    generalize hn : a.toNat * 65536 = n
    have hsum := sextets (n := n) (by omega)
    rw [show n % 64 = 0 by omega, show n / 64 % 64 = 0 by omega] at hsum
    have hgroup : base64Group n [0, 1] ++ ("==" : Text) = [base64Char (n / 262144 % 64),
        base64Char (n / 4096 % 64), ascii '=', ascii '='] := by
      rw [show ("==" : Text) = [ascii '=', ascii '='] by decide]
      simp [base64Group]
    have hbytes : groupBytes n = [a, 0, 0] :=
      groupBytes_eq (by rw [UInt8.toNat_zero, Nat.zero_mul, Nat.add_zero, hn])
    rw [hgroup, unbase64,
      ungroup_eq (n := n) (by rw [hvalue, hvalue, base64Value_padding, hsum]), hbytes, if_pos rfl]
    rfl
  | case4 => rfl

theorem mem_base64Group {b : UInt8} {n : Nat} {positions : List Nat}
    (h : b ∈ base64Group n positions) : b < 0x80 ∧ b ≠ ascii '\n' := by
  obtain ⟨i, -, rfl⟩ := List.mem_map.1 h
  obtain ⟨hlt, -, hne⟩ := base64Char_plain _ (Nat.mod_lt (n / Nat.pow 64 (3 - i)) (by decide))
  exact ⟨hlt, hne⟩

theorem mem_base64 {b : UInt8} {t : Text} (h : b ∈ base64 t) : b < 0x80 ∧ b ≠ ascii '\n' := by
  fun_induction base64 t with
  | case1 a b c rest ih =>
    rcases List.mem_append.1 h with h | h
    · exact mem_base64Group h
    · exact ih h
  | case2 a b =>
    rcases List.mem_append.1 h with h | h
    · exact mem_base64Group h
    · obtain rfl := List.mem_singleton.1 h
      decide
  | case3 a =>
    rcases List.mem_append.1 h with h | h
    · exact mem_base64Group h
    · rw [show ("==" : Text) = [ascii '=', ascii '='] by decide] at h
      obtain rfl : b = ascii '=' := by simpa using h
      decide
  | case4 => cases h

theorem mem_cutLines {length fuel : Nat} {b : UInt8} {t : Text} (h : b ∈ cutLines length fuel t) :
    b ∈ t ∨ b = ascii '\n' := by
  induction fuel generalizing t with
  | zero => cases h
  | succ fuel ih =>
    rw [cutLines] at h
    split at h
    · cases h
    · rcases List.mem_append.1 h with h | h
      · rcases List.mem_append.1 h with h | h
        · exact .inl (List.mem_of_mem_take h)
        · exact .inr (List.mem_singleton.1 h)
      · exact (ih h).imp List.mem_of_mem_drop id

theorem filter_cutLines {length fuel : Nat} {t : Text} (hpos : 0 < length) (hf : t.length ≤ fuel)
    (h : ∀ b ∈ t, b ≠ ascii '\n') : (cutLines length fuel t).filter (· ≠ ascii '\n') = t := by
  induction fuel generalizing t with
  | zero =>
    rw [List.eq_nil_of_length_eq_zero (by omega : t.length = 0)]
    rfl
  | succ fuel ih =>
    rw [cutLines]
    split
    · rename_i he
      rw [List.isEmpty_iff.1 he]
      rfl
    · have hrest := ih (t := t.drop length) (by simp; omega) fun b hb =>
        h b (List.mem_of_mem_drop hb)
      have htake : (t.take length).filter (· ≠ ascii '\n') = t.take length :=
        List.filter_eq_self.2 fun b hb => by simpa using h b (List.mem_of_mem_take hb)
      have hfeed : List.filter (· ≠ ascii '\n') ("\n" : Text) = [] := rfl
      rw [List.filter_append, List.filter_append, htake, hfeed, hrest, List.append_nil,
        List.take_append_drop]

theorem mem_base64Lines {b : UInt8} {t : Text} (h : b ∈ base64Lines t) : b < 0x80 := by
  unfold base64Lines at h
  dsimp only at h
  split at h
  · exact (mem_base64 h).1
  · rcases mem_cutLines h with h | rfl
    · exact (mem_base64 h).1
    · decide

theorem filter_base64Lines (t : Text) : (base64Lines t).filter (· ≠ ascii '\n') = base64 t := by
  unfold base64Lines
  dsimp only
  split
  · exact List.filter_eq_self.2 fun b hb => by simpa using (mem_base64 hb).2
  · exact filter_cutLines (by decide) (Nat.le_refl _) fun b hb => (mem_base64 hb).2

/-! ## Escapes -/

/-- The upper-case hexadecimal digits, in the order of their values. -/
def hexDigits : List Char := "0123456789ABCDEF".toList

/-- The number that hexadecimal digits stand for. -/
def hexValue (digits : List Char) : Nat := digits.foldl (fun n c => n * 16 + hexDigits.idxOf c) 0

/-- The low hexadecimal digits of a number. -/
def hexChars : (width n : Nat) → List Char
  | 0, _ => []
  | width + 1, n => hexChars width (n / 16) ++ [hexDigits.getD (n % 16) '0']

theorem upperAscii_hexDigit :
    ∀ n < 16, upperAscii [hexDigit n] = ofChar (hexDigits.getD n '0') := by decide

theorem idxOf_hexDigits : ∀ n < 16, hexDigits.idxOf (hexDigits.getD n '0') = n := by decide

theorem upperAscii_hex (width n : Nat) : (hex width n).upperAscii = ofChars (hexChars width n) := by
  induction width generalizing n with
  | zero => rfl
  | succ width ih =>
    have hlast := upperAscii_hexDigit _ (Nat.mod_lt n (by decide : 0 < 16))
    have happ : (hex width (n / 16) ++ [hexDigit (n % 16)]).upperAscii =
        (hex width (n / 16)).upperAscii ++ upperAscii [hexDigit (n % 16)] := List.map_append
    rw [hex, happ, ih, hlast, hexChars]
    simp [ofChars]

theorem length_hexChars (width n : Nat) : (hexChars width n).length = width := by
  induction width generalizing n with
  | zero => rfl
  | succ width ih => simp [hexChars, ih]

theorem hexValue_hexChars (width n : Nat) : hexValue (hexChars width n) = n % 16 ^ width := by
  induction width generalizing n with
  | zero => simp [hexChars, hexValue, Nat.mod_one]
  | succ width ih =>
    have hlast := idxOf_hexDigits _ (Nat.mod_lt n (by decide : 0 < 16))
    have happ : hexValue (hexChars (width + 1) n) = hexValue (hexChars width (n / 16)) * 16 +
        hexDigits.idxOf (hexDigits.getD (n % 16) '0') := by
      simp [hexChars, hexValue]
    rw [happ, ih, hlast, Nat.pow_succ, Nat.mul_comm (16 ^ width), Nat.mod_mul]
    omega

/-- The character that a one-letter escape stands for. -/
def letterMeaning : Char → Char
  | '0' => '\x00'
  | 'a' => '\x07'
  | 'b' => '\x08'
  | 't' => '\t'
  | 'n' => '\n'
  | 'v' => '\x0B'
  | 'f' => '\x0C'
  | 'r' => '\r'
  | 'e' => '\x1B'
  | 'N' => '\u0085'
  | '_' => '\u00A0'
  | 'L' => '\u2028'
  | 'P' => '\u2029'
  | c => c

/-- The number of hexadecimal digits that follow a letter in an escape. -/
def escapeWidth : Char → Nat
  | 'x' => 2
  | 'u' => 4
  | 'U' => 8
  | _ => 0

/-- The character that an escape stands for, and how many characters behind the backslash belong to
the escape. -/
def unescape : List Char → Char × Nat
  | [] => (replacement, 0)
  | mark :: rest =>
    match escapeWidth mark with
    | 0 => (letterMeaning mark, 1)
    | width => (Char.ofNat (hexValue (rest.take width)), width + 1)

theorem letterMeaning_escapeLetter? {c letter : Char} (h : escapeLetter? c = some letter) :
    escapeWidth letter = 0 ∧ letterMeaning letter = c := by
  unfold escapeLetter? at h
  split at h <;> cases h
  all_goals
    rename_i hc
    rw [← Char.ofNat_toNat c, hc]
    decide

theorem unescape_hex {mark : Char} {width : Nat} {c : Char} (hw : escapeWidth mark = width + 1)
    (hc : c.toNat < 16 ^ (width + 1)) (rest : List Char) :
    unescape (mark :: hexChars (width + 1) c.toNat ++ rest) = (c, width + 2) := by
  have htake : (hexChars (width + 1) c.toNat ++ rest).take (width + 1) =
      hexChars (width + 1) c.toNat := List.take_left' (length_hexChars _ _)
  simp only [List.cons_append, unescape, hw, htake, hexValue_hexChars, Nat.mod_eq_of_lt hc,
    Char.ofNat_toNat]

/-- **An escape is read back**, whatever follows it. -/
theorem unescape_escape (c : Char) : ∃ marks : List Char, escape c = ofChars ('\\' :: marks) ∧
    ∀ rest, unescape (marks ++ rest) = (c, marks.length) := by
  have hstart (marks : List Char) : ofChars ('\\' :: marks) = "\\" ++ ofChars marks := rfl
  have hhex (mark : Char) (width n : Nat) : ofChars ('\\' :: mark :: hexChars width n) =
      ofChars ['\\', mark] ++ ofChars (hexChars width n) := by simp [ofChars]
  unfold escape
  split
  · rename_i letter hl
    obtain ⟨hw, hm⟩ := letterMeaning_escapeLetter? hl
    refine ⟨[letter], by rw [hstart, ofChars, List.flatMap_singleton], fun rest => ?_⟩
    simp only [List.cons_append, List.nil_append, unescape, hw, hm, List.length_singleton]
  · have hlt := toNat_lt c
    split
    · refine ⟨'x' :: hexChars 2 c.toNat, by rw [upperAscii_hex, hhex]; rfl, fun rest => ?_⟩
      rw [unescape_hex rfl (by omega), List.length_cons, length_hexChars]
    · split
      · refine ⟨'u' :: hexChars 4 c.toNat, by rw [upperAscii_hex, hhex]; rfl, fun rest => ?_⟩
        rw [unescape_hex rfl (by omega), List.length_cons, length_hexChars]
      · refine ⟨'U' :: hexChars 8 c.toNat, by rw [upperAscii_hex, hhex]; rfl, fun rest => ?_⟩
        rw [unescape_hex rfl (by omega), List.length_cons, length_hexChars]

end Yaml

end TapeAsm
