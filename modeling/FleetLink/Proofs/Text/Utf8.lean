import FleetLink.Text.Utf8

/-!
# Reading back what was written in UTF-8

Reading is lossy in general: bytes that are no UTF-8 become replacement characters.  **Nothing is
lost of what was written**, so a text that travels as bytes arrives as it was, wherever the bytes
were cut on the way.

The reader knows ranges where the writer knows sizes.  For a lead byte with two or three bytes to
follow, the range of the first of these depends on the lead byte; that a character is no surrogate,
not overlong and not past the last code point puts the byte into it.

## Main Statements

* `take_continuation` — a continuation byte that fits is read
* `decodeChars_encodeChar` — a written character is read back, whatever follows
* `decodeLossy_encode` — a written text is read back
-/

namespace FleetLink.Text

theorem toNat_ofNat_of_lt {n : Nat} (h : n < 256) : (UInt8.ofNat n).toNat = n :=
  UInt8.toNat_ofNat_of_lt' h

namespace Lead

/-- A continuation byte that fits gives six bits. -/
theorem take_continuation {owed least greatest bits n : Nat} {rest : List UInt8}
    (hleast : least ≤ n % 64 + 128) (hgreatest : n % 64 + 128 ≤ greatest) :
    take (owed + 1) least greatest bits (UInt8.ofNat (n % 0x40 + 0x80) :: rest) =
      take owed 0x80 0xBF (bits * 64 + n % 64) rest := by
  have hbyte : (UInt8.ofNat (n % 0x40 + 0x80)).toNat = n % 64 + 128 :=
    toNat_ofNat_of_lt (by omega)
  rw [take, hbyte, if_pos ⟨hleast, hgreatest⟩, Nat.add_sub_cancel]

/-- A later continuation byte always fits. -/
theorem take_later {owed bits n : Nat} {rest : List UInt8} :
    take (owed + 1) 0x80 0xBF bits (UInt8.ofNat (n % 0x40 + 0x80) :: rest) =
      take owed 0x80 0xBF (bits * 64 + n % 64) rest :=
  take_continuation (by omega) (by omega)

section

variable {v least greatest : Nat} {rest : List UInt8}

theorem follow_two :
    (⟨1, 0x80, 0xBF, v / 64⟩ : Lead).follow (UInt8.ofNat (v % 0x40 + 0x80) :: rest) =
      (some v, rest) := by
  have hbits : v / 64 * 64 + v % 64 = v := Nat.div_add_mod' v 64
  show take (0 + 1) _ _ _ _ = _
  rw [take_later, hbits]
  rfl

theorem follow_three (hleast : least ≤ v / 64 % 64 + 128)
    (hgreatest : v / 64 % 64 + 128 ≤ greatest) :
    (⟨2, least, greatest, v / 4096⟩ : Lead).follow (UInt8.ofNat (v / 64 % 0x40 + 0x80) ::
      UInt8.ofNat (v % 0x40 + 0x80) :: rest) = (some v, rest) := by
  have hbits : (v / 4096 * 64 + v / 64 % 64) * 64 + v % 64 = v := by omega
  show take (1 + 1) _ _ _ _ = _
  rw [take_continuation hleast hgreatest, take_later, hbits]
  rfl

theorem follow_four (hleast : least ≤ v / 4096 % 64 + 128)
    (hgreatest : v / 4096 % 64 + 128 ≤ greatest) :
    (⟨3, least, greatest, v / 262144⟩ : Lead).follow (UInt8.ofNat (v / 4096 % 0x40 + 0x80) ::
      UInt8.ofNat (v / 64 % 0x40 + 0x80) :: UInt8.ofNat (v % 0x40 + 0x80) :: rest) =
      (some v, rest) := by
  have hbits : ((v / 262144 * 64 + v / 4096 % 64) * 64 + v / 64 % 64) * 64 + v % 64 = v := by omega
  show take (2 + 1) _ _ _ _ = _
  rw [take_continuation hleast hgreatest, take_later, take_later, hbits]
  rfl

end

theorem ofByte?_one {v : Nat} (h : v ≤ 0x7F) : ofByte? (UInt8.ofNat v) = some ⟨0, 0, 0, v⟩ := by
  have hbyte : (UInt8.ofNat v).toNat = v := toNat_ofNat_of_lt (by omega)
  simp only [ofByte?, hbyte]
  rw [if_pos h]

theorem ofByte?_two {v : Nat} (hlow : 0x7F < v) (hhigh : v ≤ 0x7FF) :
    ofByte? (UInt8.ofNat (v / 64 % 0x20 + 0xC0)) = some ⟨1, 0x80, 0xBF, v / 64⟩ := by
  have hbyte : (UInt8.ofNat (v / 64 % 0x20 + 0xC0)).toNat = v / 64 + 0xC0 := by
    rw [toNat_ofNat_of_lt (by omega)]
    omega
  simp only [ofByte?, hbyte]
  rw [if_neg (by omega), if_pos (by omega), Nat.add_sub_cancel]

/-- The first of two bytes to follow: not overlong, and no surrogate. -/
theorem ofByte?_three {v : Nat} (hlow : 0x7FF < v) (hhigh : v ≤ 0xFFFF)
    (hvalid : v < 0xD800 ∨ 0xDFFF < v) :
    ∃ least greatest, ofByte? (UInt8.ofNat (v / 4096 % 0x10 + 0xE0)) =
        some ⟨2, least, greatest, v / 4096⟩ ∧
      least ≤ v / 64 % 64 + 128 ∧ v / 64 % 64 + 128 ≤ greatest := by
  have hbyte : (UInt8.ofNat (v / 4096 % 0x10 + 0xE0)).toNat = v / 4096 + 0xE0 := by
    rw [toNat_ofNat_of_lt (by omega)]
    omega
  simp only [ofByte?, hbyte]
  rw [if_neg (by omega), if_neg (by omega)]
  -- The least lead byte excludes overlong forms, and 0xED the surrogates.
  by_cases hfirst : v / 4096 = 0
  · refine ⟨0xA0, 0xBF, ?_, by omega, by omega⟩
    rw [if_pos (by omega), hfirst]
  · by_cases hsurrogate : v / 4096 = 0xD
    · refine ⟨0x80, 0x9F, ?_, by omega, by omega⟩
      rw [if_neg (by omega), if_pos (by omega), hsurrogate]
    · refine ⟨0x80, 0xBF, ?_, by omega, by omega⟩
      rw [if_neg (by omega), if_neg (by omega), if_pos (by omega), Nat.add_sub_cancel]

/-- The first of three bytes to follow: not overlong, and not past the last code point. -/
theorem ofByte?_four {v : Nat} (hlow : 0xFFFF < v) (hhigh : v < 0x110000) :
    ∃ least greatest, ofByte? (UInt8.ofNat (v / 262144 % 0x08 + 0xF0)) =
        some ⟨3, least, greatest, v / 262144⟩ ∧
      least ≤ v / 4096 % 64 + 128 ∧ v / 4096 % 64 + 128 ≤ greatest := by
  have hbyte : (UInt8.ofNat (v / 262144 % 0x08 + 0xF0)).toNat = v / 262144 + 0xF0 := by
    rw [toNat_ofNat_of_lt (by omega)]
    omega
  simp only [ofByte?, hbyte]
  rw [if_neg (by omega), if_neg (by omega), if_neg (by omega), if_neg (by omega), if_neg (by omega)]
  -- The least lead byte excludes overlong forms, and the greatest what is past the last code point.
  by_cases hfirst : v / 262144 = 0
  · refine ⟨0x90, 0xBF, ?_, by omega, by omega⟩
    rw [if_pos (by omega), hfirst]
  · by_cases hlast : v / 262144 = 4
    · refine ⟨0x80, 0x8F, ?_, by omega, by omega⟩
      rw [if_neg (by omega), if_neg (by omega), if_pos (by omega), hlast]
    · refine ⟨0x80, 0xBF, ?_, by omega, by omega⟩
      rw [if_neg (by omega), if_pos (by omega), Nat.add_sub_cancel]

end Lead

/-- A lead byte whose followers spell a character is read as the character. -/
theorem decodeChars_cons {byte : UInt8} {rest after : List UInt8} {lead : Lead} {c : Char}
    (hlead : Lead.ofByte? byte = some lead) (hfollow : lead.follow rest = (some c.toNat, after)) :
    decodeChars (byte :: rest) = c :: decodeChars after := by
  rw [decodeChars, hlead]
  simp only [hfollow, Option.elim_some, Char.ofNat_toNat]

/-- **A written character is read back**, whatever follows it. -/
theorem decodeChars_encodeChar (c : Char) (rest : List UInt8) :
    decodeChars (String.utf8EncodeChar c ++ rest) = c :: decodeChars rest := by
  have hvalid : c.toNat < 0xD800 ∨ 0xDFFF < c.toNat ∧ c.toNat < 0x110000 := c.valid
  -- The writer goes by the size of the code point, so the cases are its sizes.
  show decodeChars ((if c.toNat ≤ 0x7F then _ else if c.toNat ≤ 0x7FF then _ else
    if c.toNat ≤ 0xFFFF then _ else _) ++ rest) = _
  by_cases hone : c.toNat ≤ 0x7F
  · rw [if_pos hone]
    exact decodeChars_cons (Lead.ofByte?_one hone) rfl
  · rw [if_neg hone]
    by_cases htwo : c.toNat ≤ 0x7FF
    · rw [if_pos htwo]
      exact decodeChars_cons (Lead.ofByte?_two (v := c.toNat) (by omega) htwo) Lead.follow_two
    · rw [if_neg htwo]
      by_cases hthree : c.toNat ≤ 0xFFFF
      · rw [if_pos hthree]
        obtain ⟨least, greatest, hlead, hleast, hgreatest⟩ :=
          Lead.ofByte?_three (v := c.toNat) (by omega) hthree (by omega)
        exact decodeChars_cons hlead (Lead.follow_three hleast hgreatest)
      · rw [if_neg hthree]
        obtain ⟨least, greatest, hlead, hleast, hgreatest⟩ :=
          Lead.ofByte?_four (v := c.toNat) (by omega) (by omega)
        exact decodeChars_cons hlead (Lead.follow_four hleast hgreatest)

/-- **A written text is read back.** -/
theorem decodeLossy_encode (text : String) : decodeLossy (encode text) = text := by
  have hchars : ∀ cs : List Char, decodeChars (cs.flatMap String.utf8EncodeChar) = cs := by
    intro cs
    induction cs with
    | nil => exact decodeChars_nil
    | cons c cs ih => rw [List.flatMap_cons, decodeChars_encodeChar, ih]
  rw [decodeLossy, encode, hchars, String.ofList_toList]

end FleetLink.Text
