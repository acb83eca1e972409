import Mathlib.Algebra.Order.Field.Basic
import Mathlib.Data.Rat.Cast.Order
import Mathlib.Tactic.FieldSimp
import Mathlib.Tactic.Linarith
import Mathlib.Tactic.Positivity
import Mathlib.Tactic.Ring
import FleetLink.Binary64

/-!
# Rounding to a binary64 number

Everything that becomes a number is an exact fraction first and is rounded once.  This module says
how far that goes astray: **a fraction in the normal range is met to one part in `2 ^ 53`**, and the
number it becomes is finite and has the sign it was given.

The bound is a chain of three facts.  A quotient is rounded to an integer at most half away
(`abs_roundDiv_sub_le`).  The exponent of the last bit is chosen so that this integer has
fifty-three bits (`lastBitExponent_spec`), or just became one more, a power of two.  And either way
the bits that are put together say integer times power of two again (`magnitude_signed`).

## Main Definitions

* `Binary64.magnitude` — the exact magnitude of a finite number, as a rational

## Main Statements

* `abs_roundDiv_sub_le` — a rounded quotient is at most half away
* `Binary64.lastBitExponent_spec` — a fraction has fifty-three bits above its last bit
* `Binary64.magnitude_signed` — what the bits of a number say
* `Binary64.abs_magnitude_ofRatio_sub_le` — the error of rounding a fraction
* `Binary64.ofRatio_moderate`, `Binary64.ofRatio_zero` — fractions of moderate size, and zero
-/

namespace FleetLink

/-! ## Quotients -/

/-- A rounded quotient is at most half away from the quotient. -/
theorem roundDiv_bounds (num : ℕ) {den : ℕ} (hden : 0 < den) (tie : Tie) :
    2 * num ≤ 2 * (den * roundDiv num den tie) + den ∧
      2 * (den * roundDiv num den tie) ≤ 2 * num + den := by
  have hsplit : den * (num / den) + num % den = num := Nat.div_add_mod num den
  have hlt : num % den < den := Nat.mod_lt num hden
  have hsucc : den * (num / den + 1) = den * (num / den) + den := Nat.mul_succ den _
  unfold roundDiv
  dsimp only
  split
  · omega
  · split
    · omega
    · cases tie with
      | up => dsimp only; omega
      | toEven => dsimp only; split <;> omega

/-- A rounded quotient is the integer below or the one above. -/
theorem roundDiv_floor (num den : ℕ) (tie : Tie) :
    num / den ≤ roundDiv num den tie ∧ roundDiv num den tie ≤ num / den + 1 := by
  unfold roundDiv
  dsimp only
  split
  · omega
  · split
    · omega
    · cases tie with
      | up => dsimp only; omega
      | toEven => dsimp only; split <;> omega

/-- A quotient between two integers is rounded to one between them. -/
theorem le_roundDiv {num den low : ℕ} (hden : 0 < den) (hlow : (low : ℚ) ≤ num / den) (tie : Tie) :
    low ≤ roundDiv num den tie := by
  rw [le_div_iff₀ (by exact_mod_cast hden)] at hlow
  have hfloor : low ≤ num / den := (Nat.le_div_iff_mul_le hden).mpr (by exact_mod_cast hlow)
  exact hfloor.trans (roundDiv_floor num den tie).1

theorem roundDiv_le {num den high : ℕ} (hden : 0 < den) (hhigh : (num : ℚ) / den < high)
    (tie : Tie) : roundDiv num den tie ≤ high := by
  rw [div_lt_iff₀ (by exact_mod_cast hden)] at hhigh
  have hfloor : num / den < high := (Nat.div_lt_iff_lt_mul hden).mpr (by exact_mod_cast hhigh)
  exact (roundDiv_floor num den tie).2.trans hfloor

theorem abs_roundDiv_sub_le (num : ℕ) {den : ℕ} (hden : 0 < den) (tie : Tie) :
    |(roundDiv num den tie : ℚ) - num / den| ≤ 1 / 2 := by
  obtain ⟨hlow, hhigh⟩ := roundDiv_bounds num hden tie
  have hpos : (0 : ℚ) < den := by exact_mod_cast hden
  have hlow' : 2 * (num : ℚ) ≤ 2 * (den * roundDiv num den tie) + den := by exact_mod_cast hlow
  have hhigh' : 2 * (den * (roundDiv num den tie : ℚ)) ≤ 2 * num + den := by exact_mod_cast hhigh
  have hnum : (num : ℚ) / den * den = num := div_mul_cancel₀ _ hpos.ne'
  rw [abs_le]
  constructor
  · by_contra hlt
    nlinarith
  · by_contra hlt
    nlinarith

namespace Binary64

/-! ## Powers of two -/

/-- A power of two as a fraction of two powers, one of which is one. -/
theorem two_zpow_eq (e : ℤ) :
    (2 : ℚ) ^ e = ((Nat.pow 2 e.toNat : ℕ) : ℚ) / (Nat.pow 2 (-e).toNat : ℕ) := by
  obtain ⟨n, rfl | rfl⟩ := e.eq_nat_or_neg
  · simp
  · simp

theorem two_zpow_pos (e : ℤ) : (0 : ℚ) < 2 ^ e := zpow_pos (by norm_num) e

theorem two_zpow_add (a b : ℤ) : (2 : ℚ) ^ (a + b) = 2 ^ a * 2 ^ b := zpow_add₀ (by norm_num) a b

/-- A fraction is compared to a power of two by multiplying out. -/
theorem two_zpow_le_iff (e : ℤ) (num : ℕ) {den : ℕ} (hden : 0 < den) :
    den * Nat.pow 2 e.toNat ≤ num * Nat.pow 2 (-e).toNat ↔ (2 : ℚ) ^ e ≤ num / den := by
  have hpos : (0 : ℚ) < den := by exact_mod_cast hden
  have hpow : (0 : ℚ) < (Nat.pow 2 (-e).toNat : ℕ) := by
    exact_mod_cast Nat.pow_pos (n := (-e).toNat) Nat.two_pos
  rw [two_zpow_eq, div_le_div_iff₀ hpow hpos, ← Nat.cast_mul, ← Nat.cast_mul, Nat.cast_le,
    Nat.mul_comm den]

/-- A natural number between the powers of two around it. -/
theorem two_zpow_log2 {n : ℕ} (hn : 0 < n) :
    (2 : ℚ) ^ (n.log2 : ℤ) ≤ n ∧ (n : ℚ) < 2 ^ ((n.log2 : ℤ) + 1) := by
  constructor
  · rw [zpow_natCast]
    exact_mod_cast Nat.log2_self_le hn.ne'
  · rw [← Nat.cast_succ, zpow_natCast]
    exact_mod_cast Nat.lt_log2_self

/-! ## The last bit -/

/-- **A fraction in the normal range has fifty-three bits** down to its last one. -/
theorem lastBitExponent_spec {num den : ℕ} (hnum : 0 < num) (hden : 0 < den)
    (hnormal : (2 : ℚ) ^ (-1022 : ℤ) ≤ num / den) :
    (2 : ℚ) ^ (lastBitExponent num den + 52) ≤ num / den ∧
      (num : ℚ) / den < 2 ^ (lastBitExponent num den + 53) := by
  obtain ⟨hnumLow, hnumHigh⟩ := two_zpow_log2 hnum
  obtain ⟨hdenLow, hdenHigh⟩ := two_zpow_log2 hden
  have hpos : (0 : ℚ) < den := by exact_mod_cast hden
  have hnumPos : (0 : ℚ) < num := by exact_mod_cast hnum
  -- The difference of the logarithms is the exponent of the leading bit or one more.
  have habove : (num : ℚ) / den < 2 ^ ((num.log2 : ℤ) - den.log2 + 1) := by
    rw [div_lt_iff₀ hpos]
    calc (num : ℚ) < 2 ^ ((num.log2 : ℤ) + 1) := hnumHigh
      _ = 2 ^ ((num.log2 : ℤ) - den.log2 + 1) * 2 ^ (den.log2 : ℤ) := by
          rw [← two_zpow_add]
          congr 1
          ring
      _ ≤ 2 ^ ((num.log2 : ℤ) - den.log2 + 1) * den :=
          mul_le_mul_of_nonneg_left hdenLow (two_zpow_pos _).le
  have hbelow : (2 : ℚ) ^ ((num.log2 : ℤ) - den.log2 - 1) ≤ num / den := by
    rw [le_div_iff₀ hpos]
    calc (2 : ℚ) ^ ((num.log2 : ℤ) - den.log2 - 1) * den
        ≤ 2 ^ ((num.log2 : ℤ) - den.log2 - 1) * 2 ^ ((den.log2 : ℤ) + 1) :=
          mul_le_mul_of_nonneg_left hdenHigh.le (two_zpow_pos _).le
      _ = 2 ^ (num.log2 : ℤ) := by
          rw [← two_zpow_add]
          congr 1
          ring
      _ ≤ num := hnumLow
  unfold lastBitExponent
  dsimp only
  generalize hguess : (num.log2 : ℤ) - den.log2 = guess at habove hbelow ⊢
  -- The leading bit cannot be below the normal range.
  have hleading : ∀ leading : ℤ, (num : ℚ) / den < 2 ^ (leading + 1) →
      max (leading - 52) (-1074) = leading - 52 := by
    intro leading hlt
    have hexp : (2 : ℚ) ^ (-1022 : ℤ) < 2 ^ (leading + 1) := hnormal.trans_lt hlt
    have : (-1022 : ℤ) < leading + 1 := (zpow_lt_zpow_iff_right₀ (by norm_num)).mp hexp
    omega
  by_cases hreached : den * Nat.pow 2 guess.toNat ≤ num * Nat.pow 2 (-guess).toNat
  · rw [if_pos hreached, hleading guess habove]
    rw [two_zpow_le_iff guess num hden] at hreached
    exact ⟨by simpa using hreached, by simpa [sub_add] using habove⟩
  · rw [if_neg hreached]
    rw [two_zpow_le_iff guess num hden, not_le] at hreached
    rw [hleading (guess - 1) (by simpa using hreached)]
    have hlast : guess - 1 - 52 + 53 = guess := by ring
    exact ⟨by simpa using hbelow, by rwa [hlast]⟩

/-! ## The bits of a number -/

/-- The exact magnitude of a finite number. -/
def magnitude (x : Binary64) : ℚ := x.ratio.1 / x.ratio.2

theorem magnitude_eq (x : Binary64) : x.magnitude = x.significand * 2 ^ x.exponent := by
  rw [two_zpow_eq, magnitude, ratio, Nat.cast_mul, mul_div_assoc]

section

variable {sign : Bool} {bits : ℕ}

theorem toNat_signed (hbits : bits < Nat.pow 2 63) :
    (signed sign bits).bits.toNat = bits + if sign then Nat.pow 2 63 else 0 := by
  unfold signed
  rw [UInt64.toNat_ofNat']
  refine Nat.mod_eq_of_lt ?_
  simp only [Nat.pow_eq, Nat.reducePow] at hbits ⊢
  split <;> omega

theorem negative_signed (hbits : bits < Nat.pow 2 63) : (signed sign bits).negative = sign := by
  rw [negative, toNat_signed hbits]
  cases sign
  · simpa using hbits
  · simp

/-- The sign is above the other bits. -/
theorem exponentField_signed (hbits : bits < Nat.pow 2 63) :
    (signed sign bits).exponentField = bits / Nat.pow 2 52 := by
  rw [exponentField, toNat_signed hbits]
  simp only [Nat.pow_eq, Nat.reducePow] at hbits ⊢
  split <;> omega

theorem fractionField_signed (hbits : bits < Nat.pow 2 63) :
    (signed sign bits).fractionField = bits % Nat.pow 2 52 := by
  rw [fractionField, toNat_signed hbits]
  simp only [Nat.pow_eq, Nat.reducePow] at hbits ⊢
  split <;> omega

end

/-- The magnitude of a number in the normal range. -/
theorem magnitude_of_fields {x : Binary64} {e : ℕ} (he : x.exponentField = e + 1) :
    x.magnitude = ((Nat.pow 2 52 + x.fractionField : ℕ) : ℚ) * 2 ^ ((e : ℤ) - 1074) := by
  have hexponent : x.exponent = (e : ℤ) - 1074 := by
    rw [exponent, he]
    omega
  have hsignificand : x.significand = Nat.pow 2 52 + x.fractionField := by
    rw [significand, he, if_neg (Nat.succ_ne_zero e)]
  rw [magnitude_eq, hexponent, hsignificand]

/-- **What the bits say.**  An integer of fifty-three bits above the field of the exponent is that
integer times the power of two; so is the one behind the last of them, which carries into the
field. -/
theorem magnitude_signed (sign : Bool) {e m : ℕ} (he : e ≤ 2044) (hlow : Nat.pow 2 52 ≤ m)
    (hhigh : m ≤ Nat.pow 2 53) :
    (signed sign (e * Nat.pow 2 52 + m)).isFinite = true ∧
      (signed sign (e * Nat.pow 2 52 + m)).negative = sign ∧
      (signed sign (e * Nat.pow 2 52 + m)).magnitude = m * 2 ^ ((e : ℤ) - 1074) := by
  have hbits : e * Nat.pow 2 52 + m < Nat.pow 2 63 := by
    simp only [Nat.pow_eq, Nat.reducePow] at *
    omega
  have hexponent : (signed sign (e * Nat.pow 2 52 + m)).exponentField = _ :=
    exponentField_signed hbits
  have hfraction : (signed sign (e * Nat.pow 2 52 + m)).fractionField = _ :=
    fractionField_signed hbits
  refine ⟨?_, negative_signed hbits, ?_⟩
  · rw [isFinite, hexponent, decide_eq_true_eq]
    simp only [Nat.pow_eq, Nat.reducePow] at *
    omega
  · rcases Nat.lt_or_eq_of_le hhigh with hlt | hcarry
    · have hfield : (e * Nat.pow 2 52 + m) / Nat.pow 2 52 = e + 1 := by
        simp only [Nat.pow_eq, Nat.reducePow] at *
        omega
      have hrest : Nat.pow 2 52 + (e * Nat.pow 2 52 + m) % Nat.pow 2 52 = m := by
        simp only [Nat.pow_eq, Nat.reducePow] at *
        omega
      rw [magnitude_of_fields (hexponent.trans hfield), hfraction, hrest]
    · have hfield : (e * Nat.pow 2 52 + m) / Nat.pow 2 52 = e + 1 + 1 := by
        simp only [Nat.pow_eq, Nat.reducePow] at *
        omega
      have hrest : Nat.pow 2 52 + (e * Nat.pow 2 52 + m) % Nat.pow 2 52 = Nat.pow 2 52 := by
        simp only [Nat.pow_eq, Nat.reducePow] at *
        omega
      have hshift : (((e + 1 : ℕ) : ℤ) - 1074) = (e : ℤ) - 1074 + 1 := by
        push_cast
        ring
      rw [magnitude_of_fields (hexponent.trans hfield), hfraction, hrest, hcarry, hshift,
        two_zpow_add]
      simp only [Nat.pow_eq, Nat.reducePow]
      push_cast
      ring

/-! ## Rounding a fraction -/

/-- The bits of a fraction in the normal range are an integer of fifty-three bits, or the one behind
the last of them, that is at most half a last bit away, above the field of its exponent. -/
theorem exists_magnitudeBits_eq {num den : ℕ} (hden : 0 < den)
    (hnormal : (2 : ℚ) ^ (-1022 : ℤ) ≤ num / den) (hbound : (num : ℚ) / den < 2 ^ (1023 : ℤ)) :
    ∃ e m : ℕ, magnitudeBits num den = e * Nat.pow 2 52 + m ∧ e ≤ 2044 ∧
      Nat.pow 2 52 ≤ m ∧ m ≤ Nat.pow 2 53 ∧
      |(m : ℚ) - num / den / 2 ^ ((e : ℤ) - 1074)| ≤ 1 / 2 ∧
      (2 : ℚ) ^ ((e : ℤ) - 1074 + 52) ≤ num / den := by
  have hnum : 0 < num := by
    rw [Nat.pos_iff_ne_zero]
    rintro rfl
    have hx : (2 : ℚ) ^ (-1022 : ℤ) ≤ 0 := by simpa using hnormal
    exact (two_zpow_pos _).not_ge hx
  obtain ⟨hlow, hhigh⟩ := lastBitExponent_spec hnum hden hnormal
  generalize hq : lastBitExponent num den = q at hlow hhigh
  -- The exponent is in the range of its field.
  have hqLow : (-1022 : ℤ) < q + 53 :=
    (zpow_lt_zpow_iff_right₀ (by norm_num : (1 : ℚ) < 2)).mp (hnormal.trans_lt hhigh)
  have hqHigh : q + 52 < (1023 : ℤ) :=
    (zpow_lt_zpow_iff_right₀ (by norm_num : (1 : ℚ) < 2)).mp (hlow.trans_lt hbound)
  obtain ⟨e, he⟩ : ∃ e : ℕ, (e : ℤ) - 1074 = q := ⟨(q + 1074).toNat, by omega⟩
  -- Counted in last bits, the fraction is a quotient with fifty-three bits before the point.
  obtain ⟨scaled, hscaled⟩ : ∃ n, num * Nat.pow 2 (-q).toNat = n := ⟨_, rfl⟩
  obtain ⟨unit, hunit⟩ : ∃ n, den * Nat.pow 2 q.toNat = n := ⟨_, rfl⟩
  have hunitPos : 0 < unit := hunit ▸ Nat.mul_pos hden (Nat.pow_pos Nat.two_pos)
  have hquotient : (scaled : ℚ) / unit = num / den / 2 ^ q := by
    rw [two_zpow_eq, ← hscaled, ← hunit]
    push_cast
    field_simp
  have hmLow : Nat.pow 2 52 ≤ roundDiv scaled unit .toEven := by
    refine le_roundDiv hunitPos ?_ .toEven
    have hcast : ((Nat.pow 2 52 : ℕ) : ℚ) * 2 ^ q = 2 ^ (q + 52) := by
      rw [two_zpow_add, mul_comm]
      norm_num
    rw [hquotient, le_div_iff₀ (two_zpow_pos q), hcast]
    exact hlow
  have hmHigh : roundDiv scaled unit .toEven ≤ Nat.pow 2 53 := by
    refine roundDiv_le hunitPos ?_ .toEven
    have hcast : ((Nat.pow 2 53 : ℕ) : ℚ) * 2 ^ q = 2 ^ (q + 53) := by
      rw [two_zpow_add, mul_comm]
      norm_num
    rw [hquotient, div_lt_iff₀ (two_zpow_pos q), hcast]
    exact hhigh
  have heHigh : e ≤ 2044 := by omega
  refine ⟨e, roundDiv scaled unit .toEven, ?_, heHigh, hmLow, hmHigh, ?_, ?_⟩
  · have hinfinity : e * Nat.pow 2 52 + roundDiv scaled unit .toEven ≤ 0x7FF * Nat.pow 2 52 := by
      simp only [Nat.pow_eq, Nat.reducePow] at *
      omega
    have hfield : (q + 1074).toNat = e := by omega
    unfold magnitudeBits
    rw [if_neg hnum.ne']
    simp only [hq, hscaled, hunit, hfield]
    exact Nat.min_eq_left hinfinity
  · rw [he, ← hquotient]
    exact abs_roundDiv_sub_le scaled hunitPos .toEven
  · rw [he]
    exact hlow

/-- **A fraction in the normal range is met to one part in `2 ^ 53`.** -/
theorem abs_magnitude_ofRatio_sub_le (sign : Bool) {num den : ℕ} (hden : 0 < den)
    (hnormal : (2 : ℚ) ^ (-1022 : ℤ) ≤ num / den) (hbound : (num : ℚ) / den < 2 ^ (1023 : ℤ)) :
    (ofRatio sign num den).isFinite = true ∧ (ofRatio sign num den).negative = sign ∧
      |(ofRatio sign num den).magnitude - num / den| ≤ (num : ℚ) / den / 2 ^ 53 := by
  obtain ⟨e, m, hbits, he, hmLow, hmHigh, hclose, hlow⟩ :=
    exists_magnitudeBits_eq hden hnormal hbound
  obtain ⟨hfinite, hsign, hmagnitude⟩ := magnitude_signed sign he hmLow hmHigh
  rw [ofRatio, hbits]
  refine ⟨hfinite, hsign, ?_⟩
  rw [hmagnitude]
  generalize (e : ℤ) - 1074 = q at hclose hlow
  have hfactor : (m : ℚ) * 2 ^ q - num / den = (m - num / den / 2 ^ q) * 2 ^ q := by
    rw [sub_mul, div_mul_cancel₀ _ (two_zpow_pos q).ne']
  rw [hfactor, abs_mul, abs_of_pos (two_zpow_pos q)]
  calc |(m : ℚ) - num / den / 2 ^ q| * 2 ^ q ≤ 1 / 2 * 2 ^ q :=
        mul_le_mul_of_nonneg_right hclose (two_zpow_pos q).le
    _ = 2 ^ (q + 52) / 2 ^ 53 := by
        rw [two_zpow_add]
        norm_num
        ring
    _ ≤ num / den / 2 ^ 53 := div_le_div_of_nonneg_right hlow (by positivity)

/-- A fraction of moderate size is in the normal range. -/
theorem ofRatio_moderate {num den : ℕ} (hden : 0 < den) (hlow : (1 : ℚ) / 2 ^ 64 ≤ num / den)
    (hhigh : (num : ℚ) / den ≤ 2 ^ 64) :
    (ofRatio false num den).isFinite = true ∧
      (ofRatio false num den).negative = false ∧
      |(ofRatio false num den).magnitude - num / den| ≤ (num : ℚ) / den / 2 ^ 53 := by
  have hleast : (2 : ℚ) ^ (-1022 : ℤ) ≤ 2 ^ (-64 : ℤ) :=
    zpow_le_zpow_right₀ (by norm_num) (by norm_num)
  have hmost : (2 : ℚ) ^ (64 : ℤ) < 2 ^ (1023 : ℤ) :=
    zpow_lt_zpow_right₀ (by norm_num) (by norm_num)
  refine abs_magnitude_ofRatio_sub_le false hden ?_ ?_
  · refine hleast.trans (le_of_eq_of_le ?_ hlow)
    norm_num
  · refine lt_of_le_of_lt (hhigh.trans_eq ?_) hmost
    norm_num

/-- Zero stays zero. -/
theorem ofRatio_zero (sign : Bool) (den : ℕ) :
    (ofRatio sign 0 den).isFinite = true ∧ (ofRatio sign 0 den).negative = sign ∧
      (ofRatio sign 0 den).magnitude = 0 := by
  have hzero : ofRatio sign 0 den = signed sign 0 := rfl
  have hbits : 0 < Nat.pow 2 63 := Nat.pow_pos Nat.two_pos
  have hexponent : (signed sign 0).exponentField = 0 := by
    rw [exponentField_signed hbits, Nat.zero_div]
  have hfraction : (signed sign 0).fractionField = 0 := by
    rw [fractionField_signed hbits, Nat.zero_mod]
  rw [hzero]
  refine ⟨by simp [isFinite, hexponent], negative_signed hbits, ?_⟩
  rw [magnitude_eq, significand, if_pos hexponent, hfraction, Nat.cast_zero, zero_mul]

end Binary64

end FleetLink
