import FleetLink.Proofs.Binary64.Rounding
import FleetLink.Proofs.Sensor.Footprint
import Mathlib.Data.List.Nodup

/-!
# Rates of the counter

A rate is an exact quotient of impulses and seconds, and the number written into its channel is
rounded twice: once for the span in seconds, and once for the quotient.  This module proves that the
number **is the exact quotient up to those two roundings**, and that a batch has a number for a tube
**exactly if the retained reading and the new one give it a rate**.

**A rate has a span.**  Readings with the same time, or in the wrong order, have no rate, and a
count that went back has none.  So what is divided by is never zero, and what is divided is
never negative.

## Main Definitions

* `Binary64.Approximates` — a number that is an exact quotient up to two roundings
* `HasRate` — the readings that have a rate, and which

## Main Statements

* `Rate.approximates_perSecond` — the number written is the exact rate up to two roundings
* `Algorithm.exists_rate_of_value?`, `Algorithm.exists_value?_of_rate` — what a batch has for the
  rate of a tube
-/

namespace FleetLink

/-! ## Numbers -/

/-- A number is an exact quotient up to two roundings: it is finite, it has no sign, and it is at
most one part in `2 ^ 51` away. -/
structure Binary64.Approximates (x : Binary64) (exact : ℚ) : Prop where
  finite : x.isFinite = true
  unsigned : x.negative = false
  close : |x.magnitude - exact| ≤ exact / 2 ^ 51

namespace Rate

/-- Impulses per second, before any rounding. -/
def exact (r : Rate) : ℚ := r.impulses * 1000 / r.millis

/-- A quotient by a number that is known to a small part is known to twice that part. -/
theorem abs_div_sub_div_le {count span rounded part : ℚ} (hcount : 0 ≤ count) (hspan : 0 < span)
    (hpart : part ≤ 1 / 2) (hclose : |rounded - span| ≤ span * part) :
    |count / rounded - count / span| ≤ count / span * (2 * part) := by
  have hhalf : span / 2 ≤ rounded := by
    have hpart' : span * part ≤ span * (1 / 2) := mul_le_mul_of_nonneg_left hpart hspan.le
    have hbelow := (abs_le.mp hclose).1
    linarith
  have hrounded : 0 < rounded := by linarith
  have hdiff : count / rounded - count / span = count / span * ((span - rounded) / rounded) := by
    field_simp
  rw [hdiff, abs_mul, abs_of_nonneg (div_nonneg hcount hspan.le), abs_div, abs_of_pos hrounded,
    abs_sub_comm]
  refine mul_le_mul_of_nonneg_left ?_ (div_nonneg hcount hspan.le)
  have hpart0 : 0 ≤ part := nonneg_of_mul_nonneg_right ((abs_nonneg _).trans hclose) hspan
  rw [div_le_iff₀ hrounded]
  calc |rounded - span| ≤ span * part := hclose
    _ = 2 * part * (span / 2) := by ring
    _ ≤ 2 * part * rounded := mul_le_mul_of_nonneg_left hhalf (by linarith)

variable (r : Rate)

/-- The span in seconds is at least a thousandth of a second, and at most some weeks. -/
theorem seconds_bounds (hmillis : r.millis < Nat.pow 2 32) :
    (1 : ℚ) / 1000 ≤ r.millis / 1000 ∧ (r.millis : ℚ) / 1000 ≤ 2 ^ 32 := by
  have hleast : (1 : ℚ) ≤ r.millis := by exact_mod_cast r.millis_pos
  have hmost : (r.millis : ℚ) < 2 ^ 32 := by exact_mod_cast hmillis
  constructor <;> linarith

/-- The rounded span. -/
theorem abs_seconds_sub_le (hmillis : r.millis < Nat.pow 2 32) :
    |r.seconds.magnitude - r.millis / 1000| ≤ (r.millis : ℚ) / 1000 / 2 ^ 53 := by
  obtain ⟨hlow, hhigh⟩ := r.seconds_bounds hmillis
  refine (Binary64.ofRatio_moderate (by norm_num) ?_ ?_).2.2
  · refine le_trans ?_ hlow
    norm_num
  · refine hhigh.trans ?_
    norm_num

/-- The rounded span is not far from the exact one, and so it can be divided by. -/
theorem magnitude_seconds_bounds (hmillis : r.millis < Nat.pow 2 32) :
    (1 : ℚ) / 2000 ≤ r.seconds.magnitude ∧ r.seconds.magnitude ≤ 2 ^ 33 := by
  obtain ⟨hlow, hhigh⟩ := r.seconds_bounds hmillis
  obtain ⟨hbelow, habove⟩ := abs_le.mp (r.abs_seconds_sub_le hmillis)
  constructor <;> linarith

/-- What is rounded to the number written: the impulses over the rounded span. -/
theorem perSecond_quotient :
    ((r.impulses * r.seconds.ratio.2 : ℕ) : ℚ) / r.seconds.ratio.1 =
      r.impulses / r.seconds.magnitude := by
  rw [Binary64.magnitude, Nat.cast_mul, div_div_eq_mul_div]

/-- The second rounding. -/
theorem perSecond_close (hpos : 0 < r.impulses) (himpulses : r.impulses < Nat.pow 2 32)
    (hmillis : r.millis < Nat.pow 2 32) :
    r.perSecond.isFinite = true ∧ r.perSecond.negative = false ∧
      |r.perSecond.magnitude - r.impulses / r.seconds.magnitude| ≤
        r.impulses / r.seconds.magnitude / 2 ^ 53 := by
  obtain ⟨hlow, hhigh⟩ := r.magnitude_seconds_bounds hmillis
  have hrounded : 0 < r.seconds.magnitude := by linarith
  have hleast : (1 : ℚ) ≤ r.impulses := by exact_mod_cast hpos
  have hmost : (r.impulses : ℚ) < 2 ^ 32 := by exact_mod_cast himpulses
  have hden : 0 < r.seconds.ratio.1 := by
    rw [Nat.pos_iff_ne_zero]
    intro hzero
    rw [Binary64.magnitude, hzero, Nat.cast_zero, zero_div] at hrounded
    exact hrounded.false
  rw [← perSecond_quotient]
  refine Binary64.ofRatio_moderate hden ?_ ?_
  · rw [perSecond_quotient, le_div_iff₀ hrounded]
    linarith
  · rw [perSecond_quotient, div_le_iff₀ hrounded]
    linarith

/-- **The number written for a rate** is the exact rate up to two roundings. -/
theorem approximates_perSecond (himpulses : r.impulses < Nat.pow 2 32)
    (hmillis : r.millis < Nat.pow 2 32) : r.perSecond.Approximates r.exact := by
  have hexact : r.exact = r.impulses / ((r.millis : ℚ) / 1000) := by
    rw [exact, div_div_eq_mul_div]
  rcases Nat.eq_zero_or_pos r.impulses with hzero | hpos
  · obtain ⟨hfinite, hunsigned, hmagnitude⟩ := Binary64.ofRatio_zero false r.seconds.ratio.1
    rw [hexact, hzero, perSecond, hzero, Nat.zero_mul]
    exact ⟨hfinite, hunsigned, by simp [hmagnitude]⟩
  · obtain ⟨hfinite, hunsigned, hsecond⟩ := r.perSecond_close hpos himpulses hmillis
    have hspan : (0 : ℚ) < r.millis / 1000 := by
      have hleast := (r.seconds_bounds hmillis).1
      linarith
    have hcount : (0 : ℚ) ≤ r.impulses := by positivity
    have hpart : (1 : ℚ) / 2 ^ 53 ≤ 1 / 2 := by norm_num
    -- The first rounding moves the quotient, the second one the number written.
    have hfirst := abs_div_sub_div_le hcount hspan hpart
      (by rw [mul_one_div]; exact r.abs_seconds_sub_le hmillis)
    have hnonneg : 0 ≤ r.exact := by
      rw [hexact]
      exact div_nonneg hcount hspan.le
    rw [← hexact] at hfirst
    refine ⟨hfinite, hunsigned, ?_⟩
    rw [abs_le] at hfirst hsecond ⊢
    constructor <;> linarith

/-- A hundred and fifty impulses in two seconds. -/
example : (⟨150, 2000, by decide⟩ : Rate).perSecond = .ofNat 75 := by decide +kernel

end Rate

/-! ## Readings -/

/-- The count of a tube in a reading. -/
def GeigerReading.count? (reading : GeigerReading) (tube : ℕ) : Option UInt32 :=
  reading.rawCounts.bind (·[tube]?)

/-- A tube has a rate from one reading to another: both have its count, time advanced between them,
and the count did not go back.  The rate is the impulses over the seconds, exactly. -/
def HasRate (previous current : GeigerReading) (tube : ℕ) (rate : ℚ) : Prop :=
  ∃ old new : UInt32, previous.count? tube = some old ∧ current.count? tube = some new ∧
    previous.itow < current.itow ∧ old ≤ new ∧
    rate = ((new.toNat : ℚ) - old.toNat) * 1000 / ((current.itow.toNat : ℚ) - previous.itow.toNat)

section

variable {previous current : GeigerReading} {tube : ℕ} {rate : ℚ}

/-- The span of a rate is not empty. -/
theorem HasRate.itow_lt (h : HasRate previous current tube rate) :
    previous.itow < current.itow := by
  obtain ⟨_, _, -, -, htime, -, -⟩ := h
  exact htime

theorem HasRate.nonneg (h : HasRate previous current tube rate) : 0 ≤ rate := by
  obtain ⟨old, new, -, -, htime, hcount, rfl⟩ := h
  have htime' : (previous.itow.toNat : ℚ) < current.itow.toNat := by
    exact_mod_cast UInt32.lt_iff_toNat_lt.mp htime
  have hcount' : (old.toNat : ℚ) ≤ new.toNat := by exact_mod_cast UInt32.le_iff_toNat_le.mp hcount
  exact div_nonneg (by linarith) (by linarith)

end

/-- What a sample keeps of a tube that has channels is what the reading has. -/
theorem GeigerReading.count?_eq_some_iff {reading : GeigerReading} {tube : ℕ}
    (htube : tube < SensorChannels.tubes) {count : UInt32} :
    reading.count? tube = some count ↔
      ∃ sample, reading.sample? = some sample ∧ sample.rawCounts[tube]? = some count := by
  unfold count? sample?
  cases reading.rawCounts with
  | none => simp
  | some counts => simp [htube]

theorem GeigerReading.itow_sample {reading : GeigerReading} {sample : GeigerSample}
    (h : reading.sample? = some sample) : sample.itow = reading.itow := by
  obtain ⟨_, -, rfl⟩ := Option.map_eq_some_iff.mp h
  rfl

namespace Rate

/-- The rate between two counts, as a quotient. -/
theorem between?_eq_some {fromTime toTime old new : UInt32} {r : Rate}
    (h : between? fromTime toTime old new = some r) :
    fromTime < toTime ∧ old ≤ new ∧ r.impulses < Nat.pow 2 32 ∧ r.millis < Nat.pow 2 32 ∧
      r.exact = ((new.toNat : ℚ) - old.toNat) * 1000 / ((toTime.toNat : ℚ) - fromTime.toNat) := by
  unfold between? at h
  split at h
  next hrate =>
    obtain ⟨htime, hcount⟩ := hrate
    have htime' := UInt32.lt_iff_toNat_lt.mp htime
    have hcount' := UInt32.le_iff_toNat_le.mp hcount
    obtain rfl := Option.some.inj h
    refine ⟨htime, hcount, ?_, ?_, ?_⟩
    · exact (Nat.sub_le _ _).trans_lt new.toNat_lt
    · exact (Nat.sub_le _ _).trans_lt toTime.toNat_lt
    · rw [exact, Nat.cast_sub hcount', Nat.cast_sub htime'.le]
  next => cases h

theorem between?_isSome {fromTime toTime old new : UInt32} (htime : fromTime < toTime)
    (hcount : old ≤ new) : ∃ r, between? fromTime toTime old new = some r := by
  unfold between?
  rw [dif_pos ⟨htime, hcount⟩]
  exact ⟨_, rfl⟩

theorem perTube_getElem? {previous current : GeigerSample} {tube : ℕ} {rate : Option Rate} :
    (perTube previous current)[tube]? = some rate ↔
      ∃ old new, previous.rawCounts[tube]? = some old ∧ current.rawCounts[tube]? = some new ∧
        between? previous.itow current.itow old new = rate := by
  unfold perTube
  rw [List.getElem?_map, Option.map_eq_some_iff]
  constructor
  · rintro ⟨⟨old, new⟩, hzip, rfl⟩
    obtain ⟨hold, hnew⟩ := List.getElem?_zip_eq_some.mp hzip
    exact ⟨old, new, hold, hnew, rfl⟩
  · rintro ⟨old, new, hold, hnew, rfl⟩
    exact ⟨(old, new), List.getElem?_zip_eq_some.mpr ⟨hold, hnew⟩, rfl⟩

end Rate

/-! ## Batches -/

namespace SensorChannels

/-- The channels of rates are no others of the counter, and one for each tube. -/
theorem rate_notMem (id : VehicleId) {tube : ℕ} (htube : tube < tubes) :
    rate id tube ∉ doseRate id :: (List.range tubes).map (rawCount id) ∧
      ∀ other < tubes, rate id tube = rate id other → tube = other := by
  have hnodup := nodup_paths id
  rw [paths_eq_append, ← List.cons_append] at hnodup
  obtain ⟨-, hrates, hdisjoint⟩ := List.nodup_append.mp hnodup.of_append_left
  constructor
  · intro hmem
    exact hdisjoint _ hmem _ (List.mem_map_of_mem (List.mem_range.mpr htube)) rfl
  · intro other hother heq
    exact List.inj_on_of_nodup_map hrates (List.mem_range.mpr htube) (List.mem_range.mpr hother) heq

end SensorChannels

namespace Algorithm

open SensorChannels

variable {id : VehicleId} {position : Position}

theorem mem_rateWrites_iff {rates : List (Option Rate)} {u : ChannelUpdate} :
    u ∈ rateWrites id position rates ↔
      ∃ tube < tubes, ∃ r, rates[tube]? = some (some r) ∧
        u = ⟨rate id tube, position, some r.perSecond⟩ := by
  unfold rateWrites
  rw [List.mem_filterMap]
  constructor
  · rintro ⟨⟨tube, found⟩, hmem, hu⟩
    obtain ⟨r, rfl, rfl⟩ := Option.map_eq_some_iff.mp hu
    obtain ⟨place, hplace⟩ := List.mem_iff_getElem?.mp hmem
    obtain ⟨hrange, hrates⟩ := List.getElem?_zip_eq_some.mp hplace
    obtain ⟨hlt, heq⟩ := List.getElem?_eq_some_iff.mp hrange
    rw [List.getElem_range] at heq
    subst heq
    exact ⟨place, by rwa [List.length_range] at hlt, r, hrates, rfl⟩
  · rintro ⟨tube, htube, r, hrates, rfl⟩
    refine ⟨(tube, some r), List.mem_iff_getElem?.mpr ⟨tube, ?_⟩, rfl⟩
    exact List.getElem?_zip_eq_some.mpr ⟨by rw [List.getElem?_range htube], hrates⟩

/-- What a batch has for the rate of a tube. -/
theorem value?_rate {retained : Option GeigerSample} {reading : GeigerReading} {tube : ℕ}
    (htube : tube < tubes) {m : Measurement} :
    (readingWrites id retained position reading).value? (rate id tube) = some m ↔
      ∃ previous current r, retained = some previous ∧ reading.sample? = some current ∧
        (Rate.perTube previous current)[tube]? = some (some r) ∧
        m = ⟨position, some r.perSecond⟩ := by
  have hnodup : ((readingWrites id retained position reading).map (·.channel)).Nodup :=
    nodup_channels_stage .geigerCounter ⟨.unknown, retained⟩ (.geiger reading)
  obtain ⟨hothers, hsame⟩ := rate_notMem id htube
  -- The dose rate and the counts are in other channels.
  have hcounts : ∀ counts, ⟨rate id tube, m⟩ ∉ countWrites id position counts := by
    intro counts hmem
    exact hothers (.tail _ ((sublist_countWrites counts).subset (List.mem_map_of_mem hmem)))
  have hdose : (⟨rate id tube, m⟩ : ChannelUpdate) ≠ ⟨doseRate id, position, reading.doseRate⟩ := by
    intro heq
    exact hothers (List.mem_cons.mpr (.inl (congrArg (·.channel) heq)))
  have hrates : ∀ rates, ⟨rate id tube, m⟩ ∈ rateWrites id position rates ↔
      ∃ r, rates[tube]? = some (some r) ∧ m = ⟨position, some r.perSecond⟩ := by
    intro rates
    rw [mem_rateWrites_iff]
    constructor
    · rintro ⟨other, hother, r, hr, heq⟩
      obtain ⟨hchannel, rfl⟩ := ChannelUpdate.mk.inj heq
      obtain rfl := hsame other hother hchannel
      exact ⟨r, hr, rfl⟩
    · rintro ⟨r, hr, rfl⟩
      exact ⟨tube, htube, r, hr, rfl⟩
  rw [Batch.value?_eq_some_iff_mem hnodup]
  unfold readingWrites
  simp only [List.mem_cons, List.mem_append, hdose, hcounts, hrates, false_or]
  cases retained with
  | none => simp
  | some previous =>
      cases reading.sample? with
      | none => simp
      | some current => simp

section

variable {latest : Option GeigerReading} {reading : GeigerReading} {tube : ℕ}

/-- **Only a rate is written,** and it is the one from the latest reading. -/
theorem exists_rate_of_value? (htube : tube < tubes) {m : Measurement}
    (h : (readingWrites id (latest.bind (·.sample?)) position reading).value? (rate id tube) =
      some m) :
    ∃ previous r x, latest = some previous ∧ HasRate previous reading tube r ∧
      m = ⟨position, some x⟩ ∧ x.Approximates r := by
  obtain ⟨older, newer, r, hretained, hnewer, hrate, rfl⟩ := (value?_rate htube).mp h
  obtain ⟨previous, hlatest, holder⟩ := Option.bind_eq_some_iff.mp hretained
  obtain ⟨old, new, hold, hnew, hbetween⟩ := Rate.perTube_getElem?.mp hrate
  obtain ⟨htime, hcount, himpulses, hmillis, hexact⟩ := Rate.between?_eq_some hbetween
  rw [GeigerReading.itow_sample holder, GeigerReading.itow_sample hnewer] at htime hexact
  refine ⟨previous, r.exact, r.perSecond, hlatest, ⟨old, new, ?_, ?_, htime, hcount, hexact⟩, rfl,
    r.approximates_perSecond himpulses hmillis⟩
  · exact (GeigerReading.count?_eq_some_iff htube).mpr ⟨older, holder, hold⟩
  · exact (GeigerReading.count?_eq_some_iff htube).mpr ⟨newer, hnewer, hnew⟩

/-- **Every rate is written.** -/
theorem exists_value?_of_rate (htube : tube < tubes) {previous : GeigerReading} {r : ℚ}
    (hlatest : latest = some previous) (h : HasRate previous reading tube r) :
    ∃ x, (readingWrites id (latest.bind (·.sample?)) position reading).value? (rate id tube) =
        some ⟨position, some x⟩ ∧ x.Approximates r := by
  obtain ⟨old, new, hold, hnew, htime, hcount, rfl⟩ := h
  obtain ⟨older, holder, hold⟩ := (GeigerReading.count?_eq_some_iff htube).mp hold
  obtain ⟨newer, hnewer, hnew⟩ := (GeigerReading.count?_eq_some_iff htube).mp hnew
  rw [← GeigerReading.itow_sample holder, ← GeigerReading.itow_sample hnewer] at htime ⊢
  obtain ⟨r, hbetween⟩ := Rate.between?_isSome htime hcount
  obtain ⟨-, -, himpulses, hmillis, hexact⟩ := Rate.between?_eq_some hbetween
  have hretained : latest.bind (·.sample?) = some older := by rw [hlatest]; exact holder
  refine ⟨r.perSecond, (value?_rate htube).mpr ?_, ?_⟩
  · exact ⟨older, newer, r, hretained, hnewer,
      Rate.perTube_getElem?.mpr ⟨old, new, hold, hnew, hbetween⟩, rfl⟩
  · rw [← hexact]
    exact r.approximates_perSecond himpulses hmillis

end

end Algorithm

end FleetLink
