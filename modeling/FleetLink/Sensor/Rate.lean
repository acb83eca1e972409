import FleetLink.Vehicle

/-!
# Count rates

How many impulses per second a tube saw between two readings.  The rate is kept as what it is, a
count over a span of time, and becomes a number only where it is written down.

**When there is no rate.**  If time did not advance between the readings, or the counter went
backwards because the device was restarted.  So the span of a rate is never empty.
-/

namespace FleetLink

/-- Impulses over a span of milliseconds. -/
structure Rate where
  impulses : Nat
  millis : Nat
  millis_pos : 0 < millis
  deriving DecidableEq

namespace Rate

/-- The rate between two counts of a tube. -/
def between? (fromTime toTime fromCount toCount : UInt32) : Option Rate :=
  if h : fromTime < toTime ∧ fromCount ≤ toCount then
    some {
      impulses := toCount.toNat - fromCount.toNat
      millis := toTime.toNat - fromTime.toNat
      millis_pos := Nat.sub_pos_of_lt (UInt32.lt_iff_toNat_lt.1 h.1) }
  else none

/-- The span in seconds, rounded to a float. -/
def seconds (r : Rate) : Binary64 := .ofRatio false r.millis 1000

/-- Impulses per second: the count divided by the rounded span, rounded again. -/
def perSecond (r : Rate) : Binary64 :=
  .ofRatio false (r.impulses * r.seconds.ratio.2) r.seconds.ratio.1

/-- The rates between two samples, for each tube that both have. -/
def perTube (previous current : GeigerSample) : List (Option Rate) :=
  (previous.rawCounts.zip current.rawCounts).map fun (old, new) =>
    between? previous.itow current.itow old new

end Rate

end FleetLink
