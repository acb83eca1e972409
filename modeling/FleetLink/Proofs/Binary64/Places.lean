import FleetLink.Binary64.Shortest
import FleetLink.Proofs.Binary64.Rounding
import FleetLink.Text.Digits

/-!
# Numbers as they are written

A number with a fixed count of places is written as digits, a point and that many digits, with a
minus in front if its sign bit is set.  This module says what such a text stands for (`Text.Writes`)
and proves that **it is at most half a unit of the last place away from the number**.  That holds
for every finite number: a subnormal one, one with hundreds of digits before the point, and one that
lies halfway between two texts.  A negative number may round to zero, and what is written then is
zero with a minus.

**A text stands for one rational.**  The point is found from the end, since the count of places is
known.

Neither layout has a blank in it, whatever the number is.

## Main Definitions

* `Text.Writes` — what a text with a fixed count of places stands for
* `Binary64.value` — the exact value of a finite number

## Main Statements

* `Text.Writes.unique` — one text, one rational
* `Binary64.exists_writes_fixed` — how far a written number is from the number
* `Binary64.space_not_mem_fixed`, `Binary64.space_not_mem_plain` — no blanks
-/

namespace FleetLink

namespace Text

/-- A text of digits, a point and digits to a fixed count of places, maybe with a minus in front,
and the rational that it stands for. -/
def Writes (places : ℕ) (text : List Char) (q : ℚ) : Prop :=
  ∃ (minus : Bool) (whole behind : List Char),
    whole ≠ [] ∧ (∀ c ∈ whole ++ behind, c.isDigit = true) ∧ behind.length = places ∧
      text = (if minus then ['-'] else []) ++ whole ++ '.' :: behind ∧
      q = (if minus then -1 else 1) * (decimalValue whole + decimalValue behind / 10 ^ places)

theorem minus_not_mem {cs : List Char} (hdigits : ∀ c ∈ cs, c.isDigit = true) : '-' ∉ cs :=
  fun hmem => absurd (hdigits '-' hmem) (by decide)

theorem space_not_mem_of_isDigit {cs : List Char} (hdigits : ∀ c ∈ cs, c.isDigit = true) :
    ' ' ∉ cs :=
  fun hmem => absurd (hdigits ' ' hmem) (by decide)

/-- **A text stands for one rational.** -/
theorem Writes.unique {places : ℕ} {text : List Char} {p q : ℚ} (hp : Writes places text p)
    (hq : Writes places text q) : p = q := by
  obtain ⟨minus, whole, behind, -, hdigits, hcount, rfl, rfl⟩ := hp
  obtain ⟨minus', whole', behind', -, hdigits', hcount', htext, rfl⟩ := hq
  obtain ⟨hfront, hbehind⟩ := List.append_inj' htext (by simp [hcount, hcount'])
  obtain rfl : behind = behind' := (List.cons.inj hbehind).2
  have hfirst := minus_not_mem fun c hc => hdigits c (List.mem_append_left _ hc)
  have hsecond := minus_not_mem fun c hc => hdigits' c (List.mem_append_left _ hc)
  cases minus <;> cases minus'
  · rw [show whole = whole' from hfront]
  · have hwhole : whole = '-' :: whole' := hfront
    exact absurd (hwhole ▸ List.mem_cons_self) hfirst
  · have hwhole : '-' :: whole = whole' := hfront
    exact absurd (hwhole ▸ List.mem_cons_self) hsecond
  · rw [show whole = whole' from (List.cons.inj hfront).2]

theorem Writes.space_not_mem {places : ℕ} {text : List Char} {q : ℚ} (h : Writes places text q) :
    ' ' ∉ text := by
  obtain ⟨minus, whole, behind, -, hdigits, -, rfl, -⟩ := h
  have hdigitsfree := space_not_mem_of_isDigit hdigits
  cases minus <;> simpa using hdigitsfree

end Text

namespace Binary64

/-- The exact value of a finite number. -/
def value (x : Binary64) : ℚ := (if x.negative then -1 else 1) * x.magnitude

/-! ## Digits behind the point -/

/-- Digits that are padded are as many as asked for, if there were not more. -/
theorem length_padZeros {length : ℕ} {ds : List Char} (hfits : ds.length ≤ length) :
    (padZeros length ds).length = length := by
  rw [padZeros, List.length_append, List.length_replicate]
  omega

theorem isDigit_of_mem_padZeros {length : ℕ} {ds : List Char}
    (hdigits : ∀ c ∈ ds, c.isDigit = true) :
    ∀ c ∈ padZeros length ds, c.isDigit = true := by
  intro c hc
  rcases List.mem_append.mp hc with hzero | hdigit
  · rw [List.eq_of_mem_replicate hzero]
    rfl
  · exact hdigits c hdigit

/-- Padding does not change what digits write. -/
theorem decimalValue_padZeros (length : ℕ) (ds : List Char) :
    Text.decimalValue (padZeros length ds) = Text.decimalValue ds :=
  Text.digitsValue_replicate_append 10 _ (by decide) ds

/-- **Units of the last place are written as their rational.** -/
theorem writes_fixedDigits {places : ℕ} (hplaces : 0 < places) (minus : Bool) (units : ℕ) :
    Text.Writes places ((if minus then ['-'] else []) ++ fixedDigits places units)
      ((if minus then -1 else 1) * (units / 10 ^ places)) := by
  have hrest : (Nat.toDigits 10 (units % Nat.pow 10 places)).length ≤ places :=
    (Nat.length_toDigits_le_iff (by decide) hplaces).mpr
      (Nat.mod_lt _ (Nat.pow_pos (by decide)))
  refine ⟨minus, Nat.toDigits 10 (units / Nat.pow 10 places),
    padZeros places (Nat.toDigits 10 (units % Nat.pow 10 places)), Nat.toDigits_ne_nil, ?_,
    length_padZeros hrest, ?_, ?_⟩
  · intro c hc
    rcases List.mem_append.mp hc with hwhole | hbehind
    · exact Text.isDigit_of_mem_toDigits hwhole
    · exact isDigit_of_mem_padZeros (fun _ => Text.isDigit_of_mem_toDigits) c hbehind
  · rw [fixedDigits, List.append_assoc]
  · have hparts :
        ((10 ^ places * (units / 10 ^ places) + units % 10 ^ places : ℕ) : ℚ) = units := by
      rw [Nat.div_add_mod]
    rw [decimalValue_padZeros, Text.decimalValue_toDigits, Text.decimalValue_toDigits]
    congr 1
    rw [← hparts]
    push_cast
    field_simp
    simp

/-! ## How far a written number is from the number -/

/-- The units of the last place are the magnitude up to half a unit. -/
theorem abs_unitsOfPlace_sub_le (places : ℕ) (x : Binary64) :
    |(unitsOfPlace places x : ℚ) / 10 ^ places - x.magnitude| ≤ 1 / 2 / 10 ^ places := by
  have hden : 0 < x.ratio.2 := Nat.pow_pos Nat.two_pos
  have hround := abs_roundDiv_sub_le (x.ratio.1 * Nat.pow 10 places) hden .toEven
  have hpow : (0 : ℚ) < 10 ^ places := by positivity
  have hscaled : (unitsOfPlace places x : ℚ) / 10 ^ places - x.magnitude =
      (unitsOfPlace places x - ((x.ratio.1 * Nat.pow 10 places : ℕ) : ℚ) / x.ratio.2) /
        10 ^ places := by
    rw [magnitude, Nat.pow_eq]
    push_cast
    field_simp
  rw [hscaled, abs_div, abs_of_pos hpow]
  exact div_le_div_of_nonneg_right hround hpow.le

/-- **A finite number is written up to half a unit of the last place.** -/
theorem exists_writes_fixed {places : ℕ} (hplaces : 0 < places) {x : Binary64}
    (hfinite : x.isFinite = true) :
    ∃ q, Text.Writes places (x.fixed places).toList q ∧ |q - x.value| ≤ 1 / 2 / 10 ^ places := by
  refine ⟨(if x.negative then -1 else 1) * ((unitsOfPlace places x : ℚ) / 10 ^ places), ?_, ?_⟩
  · rw [fixed, if_pos hfinite, String.toList_ofList, signText]
    exact writes_fixedDigits hplaces x.negative (unitsOfPlace places x)
  · rw [value, ← mul_sub, abs_mul]
    have hsign : |(if x.negative then -1 else 1 : ℚ)| = 1 := by cases x.negative <;> simp
    rw [hsign, one_mul]
    exact abs_unitsOfPlace_sub_le places x

/-! ## No blanks -/

theorem space_not_mem_nonFiniteText (x : Binary64) : ' ' ∉ x.nonFiniteText.toList := by
  unfold nonFiniteText
  split
  · decide
  · split <;> decide

theorem space_not_mem_fixed {places : ℕ} (hplaces : 0 < places) (x : Binary64) :
    ' ' ∉ (x.fixed places).toList := by
  by_cases hfinite : x.isFinite = true
  · obtain ⟨q, hwrites, -⟩ := exists_writes_fixed hplaces hfinite
    exact hwrites.space_not_mem
  · rw [fixed, if_neg hfinite]
    exact x.space_not_mem_nonFiniteText

/-- A decimal without an exponent consists of digits, before the point and behind it. -/
theorem isDigit_of_mem_pointParts (d : Decimal) :
    ∀ c ∈ (pointParts d).1 ++ (pointParts d).2, c.isDigit = true := by
  have hdigits : ∀ c ∈ Nat.toDigits 10 d.digits, c.isDigit = true :=
    fun _ => Text.isDigit_of_mem_toDigits
  intro c hc
  unfold pointParts at hc
  dsimp only at hc
  split at hc
  · simp only [List.mem_append, List.mem_replicate] at hc
    rcases hc with (hfront | ⟨-, rfl⟩) | hback
    · exact hdigits c (List.mem_of_mem_take hfront)
    · rfl
    · exact hdigits c (List.mem_of_mem_drop hback)
  · rcases List.mem_append.mp hc with hzero | hbehind
    · rw [List.mem_singleton.mp hzero]
      rfl
    · exact isDigit_of_mem_padZeros hdigits c hbehind

theorem space_not_mem_plain (x : Binary64) : ' ' ∉ x.plain.toList := by
  unfold plain
  split
  · have hdigits := Text.space_not_mem_of_isDigit (isDigit_of_mem_pointParts (x.shortest .up))
    obtain ⟨hwhole, hbehind⟩ := not_or.mp (List.mem_append.not.mp hdigits)
    have hsign : ' ' ∉ x.signText := by
      unfold signText
      split <;> decide
    dsimp only
    rw [String.toList_ofList]
    split <;> simp [hsign, hwhole, hbehind]
  · exact x.space_not_mem_nonFiniteText

end Binary64

end FleetLink
