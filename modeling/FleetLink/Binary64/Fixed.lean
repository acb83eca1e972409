import FleetLink.Binary64

/-!
# A number with a fixed count of places

`fixed places x` writes the exact value of `x` rounded to that many decimal places, a half going to
the even neighbour.  There is no exponent however large the number is, and a negative number that
rounds to zero keeps its sign.
-/

namespace FleetLink.Binary64

/-- The texts of what has no digits. -/
def nonFiniteText (x : Binary64) : String :=
  if x.isNaN then "NaN" else if x.negative then "-inf" else "inf"

/-- The magnitude in units of the last place, rounded. -/
def unitsOfPlace (places : Nat) (x : Binary64) : Nat :=
  roundDiv (x.ratio.1 * Nat.pow 10 places) x.ratio.2 .toEven

/-- Digits with zeros in front, to at least the given length. -/
def padZeros (length : Nat) (ds : List Char) : List Char :=
  List.replicate (length - ds.length) '0' ++ ds

/-- Digits with a point before the last `places` of them, and a digit before the point. -/
def fixedDigits (places units : Nat) : List Char :=
  Nat.toDigits 10 (units / Nat.pow 10 places) ++
    '.' :: padZeros places (Nat.toDigits 10 (units % Nat.pow 10 places))

/-- The sign of a number, as it is written. -/
def signText (x : Binary64) : List Char :=
  if x.negative then ['-'] else []

/-- The text of a number with a fixed count of places. -/
def fixed (places : Nat) (x : Binary64) : String :=
  if x.isFinite then
    String.ofList (x.signText ++ fixedDigits places (unitsOfPlace places x))
  else x.nonFiniteText

example : fixed 7 (ofDecimal false 474733 (-4)) = "47.4733000" := by decide +kernel
example : fixed 7 (ofDecimal true 5 (-8)) = "-0.0000000" := by decide +kernel

end FleetLink.Binary64
