import TapeAsm.Text.Glyph

/-!
# Texts and characters

Reading the glyphs of a text undoes the encoding of characters: a text that begins with an encoded
character has that character as its first glyph (`glyphs_ofChar_append`), so characters can be read
off the front of a text whatever follows them (`chars_ofChars_append`). In the other direction, a
text that is UTF-8 is the encoding of its characters (`ofChars_chars`), and every text is what its
glyphs stand for (`flatMap_glyphs`).

Both rest on the four lengths of an encoding, written out in `ofChar_one` to `ofChar_four`.
-/

set_option autoImplicit false

namespace TapeAsm.Text

/-! ## Encodings by their length -/

section
variable {c : Char}

theorem ofChar_one (h : c.toNat < 0x80) : ofChar c = [UInt8.ofNat c.toNat] := by
  have h : c.val.toNat < 0x80 := h
  simp only [ofChar, String.utf8EncodeChar]
  rw [if_pos (by omega)]
  rfl

theorem ofChar_two (h₁ : 0x80 ≤ c.toNat) (h₂ : c.toNat < 0x800) :
    ofChar c = [UInt8.ofNat (c.toNat / 64 + 0xC0), UInt8.ofNat (c.toNat % 64 + 0x80)] := by
  have hv : c.toNat = c.val.toNat := rfl
  rw [hv] at h₁ h₂ ⊢
  simp only [ofChar, String.utf8EncodeChar]
  rw [if_neg (by omega), if_pos (by omega), show c.val.toNat / 64 % 32 = c.val.toNat / 64 by omega]

theorem ofChar_three (h₁ : 0x800 ≤ c.toNat) (h₂ : c.toNat < 0x10000) :
    ofChar c = [UInt8.ofNat (c.toNat / 4096 + 0xE0), UInt8.ofNat (c.toNat / 64 % 64 + 0x80),
      UInt8.ofNat (c.toNat % 64 + 0x80)] := by
  have hv : c.toNat = c.val.toNat := rfl
  rw [hv] at h₁ h₂ ⊢
  simp only [ofChar, String.utf8EncodeChar]
  rw [if_neg (by omega), if_neg (by omega), if_pos (by omega),
    show c.val.toNat / 4096 % 16 = c.val.toNat / 4096 by omega]

theorem toNat_lt (c : Char) : c.toNat < 0x110000 := by
  have hc := c.valid
  simp only [UInt32.isValidChar, Nat.isValidChar] at hc
  have hv : c.toNat = c.val.toNat := rfl
  omega

theorem ofChar_four (h : 0x10000 ≤ c.toNat) :
    ofChar c = [UInt8.ofNat (c.toNat / 262144 + 0xF0), UInt8.ofNat (c.toNat / 4096 % 64 + 0x80),
      UInt8.ofNat (c.toNat / 64 % 64 + 0x80), UInt8.ofNat (c.toNat % 64 + 0x80)] := by
  have hlt := toNat_lt c
  have hv : c.toNat = c.val.toNat := rfl
  rw [hv] at h hlt ⊢
  simp only [ofChar, String.utf8EncodeChar]
  rw [if_neg (by omega), if_neg (by omega), if_neg (by omega),
    show c.val.toNat / 262144 % 8 = c.val.toNat / 262144 by omega]

end

theorem ofChar_ascii {c : Char} (h : c.toNat < 0x80) : ofChar c = [ascii c] := ofChar_one h

theorem map_ascii {cs : List Char} (h : ∀ c ∈ cs, c.toNat < 0x80) :
    cs.map ascii = ofChars cs := by
  induction cs with
  | nil => rfl
  | cons c cs ih =>
    obtain ⟨hc, hcs⟩ := List.forall_mem_cons.1 h
    rw [List.map_cons, ih hcs, ← List.singleton_append, ← ofChar_ascii hc]
    rfl

/-- **The bytes of an encoding**: the code itself if it is ASCII, else bytes above ASCII. -/
theorem toNat_of_mem_ofChar {c : Char} {b : UInt8} (hb : b ∈ ofChar c) :
    c.toNat < 0x80 ∧ b.toNat = c.toNat ∨
      0x80 ≤ c.toNat ∧ 0x80 ≤ b.toNat ∧ b.toNat < 0xF8 := by
  have hlt := toNat_lt c
  by_cases h₁ : c.toNat < 0x80
  · rw [ofChar_one h₁, List.mem_singleton] at hb
    subst hb
    simp
    omega
  by_cases h₂ : c.toNat < 0x800
  · rw [ofChar_two (by omega) h₂] at hb
    simp only [List.mem_cons, List.not_mem_nil, or_false] at hb
    rcases hb with rfl | rfl <;> simp <;> omega
  by_cases h₃ : c.toNat < 0x10000
  · rw [ofChar_three (by omega) h₃] at hb
    simp only [List.mem_cons, List.not_mem_nil, or_false] at hb
    rcases hb with rfl | rfl | rfl <;> simp <;> omega
  · rw [ofChar_four (by omega)] at hb
    simp only [List.mem_cons, List.not_mem_nil, or_false] at hb
    rcases hb with rfl | rfl | rfl | rfl <;> simp <;> omega

theorem length_ofChar (c : Char) : (ofChar c).length = c.utf8Size := String.length_utf8EncodeChar c

/-! ## From characters to texts and back -/

/-- A code within the range of a size of encoding is that of a character with this code. -/
theorem charFrom?_toNat {least : Nat} {c : Char} (h : least ≤ c.toNat) :
    charFrom? least c.toNat = some c := by
  have hv : c.toNat.isValidChar := c.valid
  rw [charFrom?, if_pos ⟨h, hv⟩, Char.ofNat_toNat]

theorem continuation?_cons {count acc n : Nat} (hn : n < 64) (t : Text) :
    continuation? (count + 1) acc (UInt8.ofNat (n + 0x80) :: t) =
      continuation? count (acc * 64 + n) t := by
  have hb : (UInt8.ofNat (n + 0x80)).toNat = n + 0x80 := by simp; omega
  rw [continuation?, if_pos (by simp [UInt8.le_iff_toNat_le, UInt8.lt_iff_toNat_lt]; omega), hb,
    show (n + 0x80) % 64 = n by omega]

/-- **The first character** of a text that begins with an encoded one. -/
theorem firstChar?_ofChar (c : Char) (t : Text) : firstChar? (ofChar c ++ t) = some c := by
  have hlt := toNat_lt c
  by_cases h₁ : c.toNat < 0x80
  · have hb : (UInt8.ofNat c.toNat).toNat = c.toNat := by simp; omega
    rw [ofChar_one h₁]
    simp only [List.cons_append, List.nil_append, firstChar?, UInt8.lt_iff_toNat_lt, hb,
      UInt8.reduceToNat]
    rw [if_pos h₁, Char.ofNat_toNat]
  by_cases h₂ : c.toNat < 0x800
  · have hb : (UInt8.ofNat (c.toNat / 64 + 0xC0)).toNat = c.toNat / 64 + 0xC0 := by simp; omega
    have hcode : (c.toNat / 64 + 0xC0) % 32 * 64 + c.toNat % 64 = c.toNat := by omega
    rw [ofChar_two (by omega) h₂]
    simp only [List.cons_append, List.nil_append, firstChar?, UInt8.lt_iff_toNat_lt, hb,
      UInt8.reduceToNat]
    rw [if_neg (by omega), if_neg (by omega), if_pos (by omega),
      continuation?_cons (Nat.mod_lt _ (by decide)), hcode]
    exact charFrom?_toNat (by omega)
  by_cases h₃ : c.toNat < 0x10000
  · have hb : (UInt8.ofNat (c.toNat / 4096 + 0xE0)).toNat = c.toNat / 4096 + 0xE0 := by simp; omega
    have hcode : ((c.toNat / 4096 + 0xE0) % 16 * 64 + c.toNat / 64 % 64) * 64 + c.toNat % 64 =
        c.toNat := by omega
    rw [ofChar_three (by omega) h₃]
    simp only [List.cons_append, List.nil_append, firstChar?, UInt8.lt_iff_toNat_lt, hb,
      UInt8.reduceToNat]
    rw [if_neg (by omega), if_neg (by omega), if_neg (by omega), if_pos (by omega),
      continuation?_cons (Nat.mod_lt _ (by decide)), continuation?_cons (Nat.mod_lt _ (by decide)),
      hcode]
    exact charFrom?_toNat (by omega)
  · have hb : (UInt8.ofNat (c.toNat / 262144 + 0xF0)).toNat = c.toNat / 262144 + 0xF0 := by
      simp; omega
    have hcode : (((c.toNat / 262144 + 0xF0) % 8 * 64 + c.toNat / 4096 % 64) * 64 +
        c.toNat / 64 % 64) * 64 + c.toNat % 64 = c.toNat := by omega
    rw [ofChar_four (by omega)]
    simp only [List.cons_append, List.nil_append, firstChar?, UInt8.lt_iff_toNat_lt, hb,
      UInt8.reduceToNat]
    rw [if_neg (by omega), if_neg (by omega), if_neg (by omega), if_neg (by omega),
      if_pos (by omega), continuation?_cons (Nat.mod_lt _ (by decide)),
      continuation?_cons (Nat.mod_lt _ (by decide)), continuation?_cons (Nat.mod_lt _ (by decide)),
      hcode]
    exact charFrom?_toNat (by omega)

theorem glyphsAfter_append (a t : Text) : glyphsAfter a.length (a ++ t) = glyphsAfter 0 t := by
  induction a with
  | nil => rfl
  | cons b a ih => exact ih

theorem glyphs_ofChar_append (c : Char) (t : Text) :
    (ofChar c ++ t).glyphs = .char c :: t.glyphs := by
  have hlen := length_ofChar c
  have hfirst := firstChar?_ofChar c t
  cases hc : ofChar c with
  | nil =>
    rw [hc] at hlen
    exact absurd hlen.symm (Nat.ne_of_gt c.utf8Size_pos)
  | cons b rest =>
    rw [hc] at hlen hfirst
    rw [List.cons_append] at hfirst
    have hsize : c.utf8Size - 1 = rest.length := by simp at hlen; omega
    rw [glyphs, List.cons_append, glyphsAfter, hfirst]
    dsimp only
    rw [hsize, glyphsAfter_append]
    rfl

/-- **Characters are read off the front of a text** as they were written. -/
theorem chars_ofChars_append (cs : List Char) (t : Text) :
    (ofChars cs ++ t).chars = cs ++ t.chars := by
  induction cs with
  | nil => rfl
  | cons c cs ih =>
    have hcons : ofChars (c :: cs) ++ t = ofChar c ++ (ofChars cs ++ t) := by simp [ofChars]
    rw [hcons, chars, glyphs_ofChar_append, List.map_cons, ← chars, ih]
    rfl

theorem chars_ofChars (cs : List Char) : (ofChars cs).chars = cs := by
  have h := chars_ofChars_append cs []
  rwa [List.append_nil, show chars [] = [] from rfl, List.append_nil] at h

theorem isUtf8_ofChars (cs : List Char) : (ofChars cs).isUtf8 = true := by
  induction cs with
  | nil => rfl
  | cons c cs ih =>
    have hcons : ofChars (c :: cs) = ofChar c ++ ofChars cs := rfl
    rw [hcons, isUtf8, glyphs_ofChar_append, List.all_cons, ← isUtf8, ih]
    rfl

/-! ## From texts to characters and back -/

theorem toNat_ofNat {n : Nat} (h : n.isValidChar) : (Char.ofNat n).toNat = n := by
  rw [Char.ofNat, dif_pos h]
  rfl

theorem toNat_of_charFrom? {least code : Nat} {c : Char} (h : charFrom? least code = some c) :
    least ≤ code ∧ c.toNat = code := by
  unfold charFrom? at h
  split at h
  · rename_i hv
    cases h
    exact ⟨hv.1, toNat_ofNat hv.2⟩
  · cases h

/-- A continuation byte and its share of a code. -/
theorem of_continuation? {count acc code : Nat} {t : Text}
    (h : continuation? (count + 1) acc t = some code) :
    ∃ n rest, n < 64 ∧ t = UInt8.ofNat (n + 0x80) :: rest ∧
      continuation? count (acc * 64 + n) rest = some code := by
  cases t with
  | nil => cases h
  | cons b rest =>
    rw [continuation?] at h
    split at h
    · rename_i hb
      simp only [UInt8.le_iff_toNat_le, UInt8.lt_iff_toNat_lt, UInt8.reduceToNat] at hb
      refine ⟨b.toNat % 64, rest, Nat.mod_lt _ (by decide), ?_, h⟩
      congr 1
      rw [← UInt8.toNat_inj]
      simp
      omega
    · cases h

/-- A text that has a first character begins with its encoding. -/
theorem eq_ofChar_append {t : Text} {c : Char} (h : firstChar? t = some c) :
    ∃ rest, t = ofChar c ++ rest := by
  cases t with
  | nil => cases h
  | cons b t =>
    have hb : b = UInt8.ofNat b.toNat := by simp
    simp only [firstChar?, UInt8.lt_iff_toNat_lt, UInt8.reduceToNat] at h
    split at h
    · rename_i h₁
      cases h
      have hc : (Char.ofNat b.toNat).toNat = b.toNat := toNat_ofNat (.inl (by omega))
      exact ⟨t, by rw [ofChar_one (by omega), hc, ← hb]; rfl⟩
    split at h
    · cases h
    split at h
    · obtain ⟨code, hcode, hchar⟩ := Option.bind_eq_some_iff.1 h
      obtain ⟨n, rest, hn, rfl, hdone⟩ := of_continuation? hcode
      cases hdone
      obtain ⟨hle, hc⟩ := toNat_of_charFrom? hchar
      refine ⟨rest, ?_⟩
      rw [ofChar_two (by omega) (by omega), show c.toNat / 64 + 0xC0 = b.toNat by omega,
        show c.toNat % 64 = n by omega, ← hb]
      rfl
    split at h
    · obtain ⟨code, hcode, hchar⟩ := Option.bind_eq_some_iff.1 h
      obtain ⟨n₁, rest₁, hn₁, rfl, hcode₁⟩ := of_continuation? hcode
      obtain ⟨n, rest, hn, rfl, hdone⟩ := of_continuation? hcode₁
      cases hdone
      obtain ⟨hle, hc⟩ := toNat_of_charFrom? hchar
      refine ⟨rest, ?_⟩
      rw [ofChar_three (by omega) (by omega), show c.toNat / 4096 + 0xE0 = b.toNat by omega,
        show c.toNat / 64 % 64 = n₁ by omega, show c.toNat % 64 = n by omega, ← hb]
      rfl
    split at h
    · obtain ⟨code, hcode, hchar⟩ := Option.bind_eq_some_iff.1 h
      obtain ⟨n₂, rest₂, hn₂, rfl, hcode₂⟩ := of_continuation? hcode
      obtain ⟨n₁, rest₁, hn₁, rfl, hcode₁⟩ := of_continuation? hcode₂
      obtain ⟨n, rest, hn, rfl, hdone⟩ := of_continuation? hcode₁
      cases hdone
      obtain ⟨hle, hc⟩ := toNat_of_charFrom? hchar
      refine ⟨rest, ?_⟩
      rw [ofChar_four (by omega), show c.toNat / 262144 + 0xF0 = b.toNat by omega,
        show c.toNat / 4096 % 64 = n₂ by omega, show c.toNat / 64 % 64 = n₁ by omega,
        show c.toNat % 64 = n by omega, ← hb]
      rfl
    · cases h

/-- A text that is UTF-8 is empty or begins with a character. -/
theorem isUtf8_cases {t : Text} (h : t.isUtf8 = true) :
    t = [] ∨ ∃ c rest, t = ofChar c ++ rest ∧ rest.isUtf8 = true := by
  cases t with
  | nil => exact .inl rfl
  | cons b t =>
    right
    cases hf : firstChar? (b :: t) with
    | none =>
      rw [isUtf8, glyphs, glyphsAfter, hf] at h
      simp at h
    | some c =>
      obtain ⟨rest, hr⟩ := eq_ofChar_append hf
      rw [hr, isUtf8, glyphs_ofChar_append, List.all_cons, ← isUtf8] at h
      exact ⟨c, rest, hr, by simpa using h⟩

/-- **A text that is UTF-8** is the encoding of its characters. -/
theorem ofChars_chars {t : Text} (h : t.isUtf8 = true) : ofChars t.chars = t := by
  induction hn : t.length using Nat.strongRecOn generalizing t with
  | _ n ih =>
    obtain rfl | ⟨c, rest, rfl, hrest⟩ := isUtf8_cases h
    · rfl
    · have hpos := c.utf8Size_pos
      have hlen := length_ofChar c
      have hsize : rest.length < n := by simp at hn; omega
      rw [chars, glyphs_ofChar_append, List.map_cons, ← chars]
      exact congrArg (ofChar c ++ ·) (ih _ hsize hrest rfl)

theorem chars_append {t : Text} (h : t.isUtf8 = true) (u : Text) :
    (t ++ u).chars = t.chars ++ u.chars := by
  have hchars := chars_ofChars_append t.chars u
  rwa [ofChars_chars h] at hchars

theorem isUtf8_append {t u : Text} (ht : t.isUtf8 = true) (hu : u.isUtf8 = true) :
    (t ++ u).isUtf8 = true := by
  have h := isUtf8_ofChars (t.chars ++ u.chars)
  rwa [ofChars, List.flatMap_append, ← ofChars, ← ofChars, ofChars_chars ht, ofChars_chars hu] at h

/-- **The glyphs of a text** are all of it, whether it is UTF-8 or not. -/
theorem flatMap_glyphs (t : Text) : t.glyphs.flatMap Glyph.text = t := by
  induction hn : t.length using Nat.strongRecOn generalizing t with
  | _ n ih =>
    cases t with
    | nil => rfl
    | cons b t =>
      cases hf : firstChar? (b :: t) with
      | none =>
        have hglyphs : glyphs (b :: t) = .stray b :: glyphs t := by
          rw [glyphs, glyphsAfter, hf]
          rfl
        rw [hglyphs, List.flatMap_cons, ih _ (by simp at hn; omega) t rfl]
        rfl
      | some c =>
        obtain ⟨rest, hr⟩ := eq_ofChar_append hf
        have hpos := c.utf8Size_pos
        have hlen := length_ofChar c
        rw [hr] at hn ⊢
        rw [glyphs_ofChar_append, List.flatMap_cons, ih _ (by simp at hn; omega) rest rfl]
        rfl

end TapeAsm.Text
