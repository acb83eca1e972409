import FleetLink.Proofs.Text.Utf8
import FleetLink.Text.Base64

/-!
# Bytes and their letters

Base64 is read strictly, so **bytes and the texts that read are the same thing twice**: bytes that
are written read as themselves, and a text that reads is what is written for its bytes.  A body can
therefore pass through a program that decodes and encodes it without a letter being changed.

**Groups are looked at one at a time.**  Three bytes and four letters are two ways to split a number
of twenty-four bits.  A short group has fewer bits than letters have room for; that the reader wants
the unused ones to be zero is what makes the text unique.

## Main Statements

* `letter_value?`, `value?_letter` — a letter and its value
* `decode_encode` — what was written reads as the bytes
* `encode_of_decode` — what reads is what is written
-/

namespace FleetLink.Text.Base64

/-! ## Letters -/

theorem value?_letter {v : Nat} (h : v < 64) : value? (letter v) = some v := by
  have hall : ∀ v : Fin 64, value? (letter v) = some v.val := by decide
  exact hall ⟨v, h⟩

/-- The letter of a value is the letter it is the value of. -/
theorem letter_value? {c : Char} {v : Nat} (h : value? c = some v) : v < 64 ∧ letter v = c := by
  have hchar : ∀ n, n = c.toNat → Char.ofNat n = c := by
    rintro n rfl
    exact Char.ofNat_toNat c
  unfold value? at h
  simp only [Char.reduceToNat] at h
  unfold letter
  simp only [Char.reduceToNat]
  split at h
  · obtain rfl := Option.some.inj h
    refine ⟨by omega, ?_⟩
    rw [if_pos (by omega)]
    exact hchar _ (by omega)
  · split at h
    · obtain rfl := Option.some.inj h
      refine ⟨by omega, ?_⟩
      rw [if_neg (by omega), if_pos (by omega)]
      exact hchar _ (by omega)
    · split at h
      · obtain rfl := Option.some.inj h
        refine ⟨by omega, ?_⟩
        rw [if_neg (by omega), if_neg (by omega), if_pos (by omega)]
        exact hchar _ (by omega)
      · split at h
        · obtain rfl := Option.some.inj h
          exact ⟨by decide, by simp_all⟩
        · split at h
          · obtain rfl := Option.some.inj h
            exact ⟨by decide, by simp_all⟩
          · cases h

/-- Padding is no letter. -/
theorem ne_pad_of_value? {c : Char} {v : Nat} (h : value? c = some v) : c ≠ '=' := by
  rintro rfl
  have hpad : value? '=' = none := by decide
  rw [hpad] at h
  cases h

/-! ## Groups -/

section

variable {a b c d : Char} {x y z w : Nat} {rest : List Char}

theorem decodeChars_one (ha : value? a = some x) (hb : value? b = some y) :
    decodeChars [a, b, '=', '='] =
      if (x * 64 + y) % 16 = 0 then some [UInt8.ofNat ((x * 64 + y) / 16)] else none := by
  rw [decodeChars, ha, hb]
  rfl

theorem decodeChars_two (ha : value? a = some x) (hb : value? b = some y)
    (hc : value? c = some z) :
    decodeChars [a, b, c, '='] =
      if ((x * 64 + y) * 64 + z) % 4 = 0 then
        some [UInt8.ofNat (((x * 64 + y) * 64 + z) / 1024),
          UInt8.ofNat (((x * 64 + y) * 64 + z) / 4 % 256)]
      else none := by
  rw [decodeChars, ha, hb, hc]
  · rfl
  · exact ne_pad_of_value? hc

theorem decodeChars_three (ha : value? a = some x) (hb : value? b = some y)
    (hc : value? c = some z) (hd : value? d = some w) :
    decodeChars (a :: b :: c :: d :: rest) = (decodeChars rest).map fun bytes =>
      UInt8.ofNat ((((x * 64 + y) * 64 + z) * 64 + w) / 65536) ::
        UInt8.ofNat ((((x * 64 + y) * 64 + z) * 64 + w) / 256 % 256) ::
        UInt8.ofNat ((((x * 64 + y) * 64 + z) * 64 + w) % 256) :: bytes := by
  rw [decodeChars, ha, hb, hc, hd]
  · cases decodeChars rest <;> rfl
  · exact fun _ heq => absurd heq (ne_pad_of_value? hd)
  · exact fun heq => absurd heq (ne_pad_of_value? hd)

end

/-- **What was written reads as the bytes.** -/
theorem decodeChars_encodeChars (bytes : List UInt8) :
    decodeChars (encodeChars bytes) = some bytes := by
  induction bytes using encodeChars.induct with
  | case1 => rfl
  | case2 a =>
      have hbyte := a.toNat_lt
      have hsplit : a.toNat * 16 / 64 * 64 + a.toNat * 16 % 64 = a.toNat * 16 :=
        Nat.div_add_mod' _ _
      dsimp only [encodeChars]
      rw [decodeChars_one (value?_letter (by omega)) (value?_letter (by omega)), hsplit,
        if_pos (by omega), Nat.mul_div_cancel _ (by decide), UInt8.ofNat_toNat]
  | case3 a b =>
      have ha := a.toNat_lt
      have hb := b.toNat_lt
      dsimp only [encodeChars]
      generalize hn : (a.toNat * 256 + b.toNat) * 4 = n
      have hsplit : (n / 4096 * 64 + n / 64 % 64) * 64 + n % 64 = n := by omega
      have hfirst : n / 1024 = a.toNat := by omega
      have hsecond : n / 4 % 256 = b.toNat := by omega
      rw [decodeChars_two (value?_letter (by omega)) (value?_letter (by omega))
        (value?_letter (by omega)), hsplit, if_pos (by omega), hfirst, hsecond,
        UInt8.ofNat_toNat, UInt8.ofNat_toNat]
  | case4 a b c rest ih =>
      have ha := a.toNat_lt
      have hb := b.toNat_lt
      have hc := c.toNat_lt
      dsimp only [encodeChars]
      generalize hn : (a.toNat * 256 + b.toNat) * 256 + c.toNat = n
      have hsplit : ((n / 262144 * 64 + n / 4096 % 64) * 64 + n / 64 % 64) * 64 + n % 64 = n := by
        omega
      have hfirst : n / 65536 = a.toNat := by omega
      have hsecond : n / 256 % 256 = b.toNat := by omega
      have hthird : n % 256 = c.toNat := by omega
      rw [decodeChars_three (value?_letter (by omega)) (value?_letter (by omega))
        (value?_letter (by omega)) (value?_letter (by omega)), hsplit, ih, hfirst, hsecond, hthird,
        UInt8.ofNat_toNat, UInt8.ofNat_toNat, UInt8.ofNat_toNat]
      rfl

/-- **What reads is what is written.** -/
theorem encodeChars_of_decodeChars {cs : List Char} {bytes : List UInt8}
    (h : decodeChars cs = some bytes) : encodeChars bytes = cs := by
  induction cs using decodeChars.induct generalizing bytes with
  | case1 =>
      cases h
      rfl
  | case2 a b =>
      rw [decodeChars] at h
      simp only [Option.bind_eq_bind, Option.bind_eq_some_iff] at h
      obtain ⟨x, ha, y, hb, h⟩ := h
      obtain ⟨hx, rfl⟩ := letter_value? ha
      obtain ⟨hy, rfl⟩ := letter_value? hb
      split at h
      next hzero =>
        obtain rfl := Option.some.inj h
        -- The unused bits are zero, so they come back when the byte is split again.
        have hbits : (x * 64 + y) / 16 * 16 = x * 64 + y := by omega
        have hfirst : (x * 64 + y) / 64 = x := by omega
        have hsecond : (x * 64 + y) % 64 = y := by omega
        dsimp only [encodeChars]
        rw [toNat_ofNat_of_lt (by omega), hbits, hfirst, hsecond]
      next => cases h
  | case3 a b c hc =>
      rw [decodeChars] at h
      · simp only [Option.bind_eq_bind, Option.bind_eq_some_iff] at h
        obtain ⟨x, ha, y, hb, z, hc, h⟩ := h
        obtain ⟨hx, rfl⟩ := letter_value? ha
        obtain ⟨hy, rfl⟩ := letter_value? hb
        obtain ⟨hz, rfl⟩ := letter_value? hc
        generalize hn : (x * 64 + y) * 64 + z = n at h
        split at h
        next hzero =>
          obtain rfl := Option.some.inj h
          have hbits : (n / 1024 * 256 + n / 4 % 256) * 4 = n := by omega
          have hfirst : n / 4096 = x := by omega
          have hsecond : n / 64 % 64 = y := by omega
          have hthird : n % 64 = z := by omega
          dsimp only [encodeChars]
          rw [toNat_ofNat_of_lt (by omega), toNat_ofNat_of_lt (by omega), hbits, hfirst, hsecond,
            hthird]
        next => cases h
      · exact hc
  | case4 a b c d rest hone htwo ih =>
      rw [decodeChars] at h
      · simp only [Option.bind_eq_bind, Option.bind_eq_some_iff] at h
        obtain ⟨x, ha, y, hb, z, hc, w, hd, bytes, hrest, h⟩ := h
        obtain ⟨hx, rfl⟩ := letter_value? ha
        obtain ⟨hy, rfl⟩ := letter_value? hb
        obtain ⟨hz, rfl⟩ := letter_value? hc
        obtain ⟨hw, rfl⟩ := letter_value? hd
        generalize hn : ((x * 64 + y) * 64 + z) * 64 + w = n at h
        obtain rfl := Option.some.inj h
        have hbits : (n / 65536 * 256 + n / 256 % 256) * 256 + n % 256 = n := by omega
        have hfirst : n / 262144 = x := by omega
        have hsecond : n / 4096 % 64 = y := by omega
        have hthird : n / 64 % 64 = z := by omega
        have hfourth : n % 64 = w := by omega
        dsimp only [encodeChars]
        rw [toNat_ofNat_of_lt (by omega), toNat_ofNat_of_lt (by omega),
          toNat_ofNat_of_lt (by omega), hbits, hfirst, hsecond, hthird, hfourth, ih hrest]
      · exact hone
      · exact htwo
  | case5 cs hnil hone htwo hthree =>
      rw [decodeChars] at h
      · cases h
      · exact hnil
      · exact hone
      · exact htwo
      · exact hthree

theorem decode_encode (bytes : List UInt8) : decode (encode bytes) = some bytes := by
  rw [decode, encode, String.toList_ofList]
  exact decodeChars_encodeChars bytes

theorem encode_of_decode {s : String} {bytes : List UInt8} (h : decode s = some bytes) :
    encode bytes = s := by
  rw [encode, encodeChars_of_decodeChars h, String.ofList_toList]

end FleetLink.Text.Base64
