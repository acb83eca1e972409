import FleetLink.Binary64.Fixed

/-!
# The fewest digits that read back

A number stands for every real that rounds to it.  `shortest` picks the decimal with the fewest
digits among those reals, and of several such decimals the nearest to the number; two that are
equally near are told apart by a `Tie`.  Two layouts write the decimal down: without any exponent
(`plain`), and the one of data files (`compact`), which changes to an exponent for very large and
very small numbers and always shows that the number is not an integer.

**The search is the specification.**  On each decimal grid, coarsest first, only the two neighbours
of the number are tried: if any point of a grid reads back, one of these does.  All comparisons are
between naturals.

## Main Definitions

* `Decimal` — digits and a power of ten
* `ReadsBack` — the decimal lies among the reals that round to the number
* `shortest` — the chosen decimal
* `plain`, `compact` — the two layouts
-/

namespace FleetLink

/-- The value `digits * 10 ^ exponent`. -/
structure Decimal where
  digits : Nat
  exponent : Int
  deriving DecidableEq, Repr

namespace Decimal

/-- Compares the decimal with `n * 2 ^ e`, exactly. -/
def compareScaled (d : Decimal) (n : Nat) (e : Int) : Ordering :=
  compare (d.digits * Nat.pow 10 d.exponent.toNat * Nat.pow 2 (-e).toNat)
    (n * Nat.pow 2 e.toNat * Nat.pow 10 (-d.exponent).toNat)

/-- The same value with no zero at the end of the digits. -/
def strip (d : Decimal) : Decimal :=
  if h : 0 < d.digits ∧ d.digits % 10 = 0 then
    strip ⟨d.digits / 10, d.exponent + 1⟩
  else d
termination_by d.digits
decreasing_by exact Nat.div_lt_self h.1 (by decide)

end Decimal

namespace Binary64

/-- Below a power of two the next number is half as far away as above it. -/
def narrowBelow (x : Binary64) : Bool :=
  x.fractionField = 0 ∧ 1 < x.exponentField

/-- The decimal rounds to the magnitude of `x`: it lies between the halfway points to the two
neighbours, which count in when the significand is even. -/
def ReadsBack (x : Binary64) (d : Decimal) : Prop :=
  let low :=
    d.compareScaled (if x.narrowBelow then 4 * x.significand - 1 else 4 * x.significand - 2)
    (x.exponent - 2)
  let high := d.compareScaled (4 * x.significand + 2) (x.exponent - 2)
  let even := x.significand % 2 = 0
  (low = .gt ∨ even ∧ low = .eq) ∧ (high = .lt ∨ even ∧ high = .eq)

instance (x : Binary64) (d : Decimal) : Decidable (x.ReadsBack d) := by
  unfold ReadsBack; infer_instance

/-- The least power of ten above the magnitude, as its exponent. -/
def scale (x : Binary64) : Int :=
  let num := x.ratio.1
  let den := x.ratio.2
  if den ≤ num then digitCount (num / den) else 1 - (digitCount ((den - 1) / num) : Int)

/-- The decimal to take on the grid of multiples of `10 ^ grid`, if one of the two neighbours of
the magnitude there reads back. -/
def onGrid? (tie : Tie) (x : Binary64) (grid : Int) : Option Decimal :=
  let num := x.ratio.1 * Nat.pow 10 (-grid).toNat
  let den := x.ratio.2 * Nat.pow 10 grid.toNat
  let below : Decimal := ⟨num / den, grid⟩
  let above : Decimal := ⟨num / den + 1, grid⟩
  if x.ReadsBack below then
    if x.ReadsBack above then some ⟨roundDiv num den tie, grid⟩ else some below
  else if x.ReadsBack above then some above
  else none

/-- The magnitude itself as a decimal, with every digit it has. -/
def exactDecimal (x : Binary64) : Decimal :=
  ⟨x.significand * Nat.pow 2 x.exponent.toNat * Nat.pow 5 (-x.exponent).toNat, min x.exponent 0⟩

/-- The decimal with the fewest digits that reads back; zero is its own. -/
def shortest (tie : Tie) (x : Binary64) : Decimal :=
  if x.significand = 0 then ⟨0, 0⟩
  else
    let grids := (List.range 17).map fun n => x.scale - (n + 1 : Nat)
    ((grids.findSome? (x.onGrid? tie)).getD x.exactDecimal).strip

/-- A decimal without an exponent: the digits before the point and those behind it. -/
def pointParts (d : Decimal) : List Char × List Char :=
  let ds := Nat.toDigits 10 d.digits
  let behind := (-d.exponent).toNat
  if behind < ds.length then
    (ds.take (ds.length - behind) ++ List.replicate d.exponent.toNat '0',
      ds.drop (ds.length - behind))
  else (['0'], padZeros behind ds)

/-- The shortest text that reads back, without an exponent at any size; an integer has no point. -/
def plain (x : Binary64) : String :=
  if x.isFinite then
    let parts := pointParts (x.shortest .up)
    String.ofList (x.signText ++ parts.1 ++ if parts.2 = [] then [] else '.' :: parts.2)
  else x.nonFiniteText

/-- The first digit, the others behind a point, and the power of ten with its sign. -/
def exponentDigits (d : Decimal) : List Char :=
  let ds := Nat.toDigits 10 d.digits
  let tail := ds.drop 1
  let power := d.exponent + (ds.length - 1 : Nat)
  ds.take 1 ++ (if tail = [] then [] else '.' :: tail) ++
    'e' :: (if power < 0 then '-' else '+') :: Nat.toDigits 10 power.natAbs

/-- The text in a data file: an exponent from `1e16` up and below `1e-5`, and `.0` on an integer
that is written without one.  What is not finite has no such text. -/
def compact? (x : Binary64) : Option String :=
  if x.isFinite then
    let d := x.shortest .toEven
    let leading := d.exponent + digitCount d.digits
    if -5 < leading ∧ leading ≤ 16 then
      let parts := pointParts d
      some (String.ofList (x.signText ++ parts.1 ++ '.' :: if parts.2 = [] then ['0'] else parts.2))
    else some (String.ofList (x.signText ++ exponentDigits d))
  else none

example : plain (ofDecimal false 1 (-1)) = "0.1" := by decide +kernel
example : plain (ofDecimal false 1 22) = "10000000000000000000000" := by decide +kernel
example : plain (ofDecimal true 0 0) = "-0" := by decide +kernel
example : compact? (ofDecimal false 1 16) = some "1e+16" := by decide +kernel
example : compact? (ofDecimal false 25 (-7)) = some "2.5e-6" := by decide +kernel
example : compact? (ofDecimal false 120 0) = some "120.0" := by decide +kernel

end Binary64

end FleetLink
