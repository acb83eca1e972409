/-!
# Binary64 numbers

The floating point numbers of positions, readings and rates, as sixty-four bits.  Nothing here goes
through machine arithmetic: a number is decoded into an exact fraction, the exact answer is formed
on naturals, and the answer is rounded once.  So a rounding rule is a fact about two naturals.

**One rounding function.**  `roundDiv` rounds a quotient of naturals to an integer, and everything
that loses digits is an instance of it: a fraction to a number (`ofRatio`), a decimal to a number
(`ofDecimal`), and a number to a fixed count of places (`FleetLink.Binary64.fixed`).

## Main Definitions

* `Binary64` — the number, equal exactly when the bits are
* `significand`, `exponent`, `ratio` — the exact magnitude of a finite number
* `roundDiv` — a quotient rounded to nearest
* `ofRatio`, `ofDecimal`, `ofInt` — the nearest number to an exact one
-/

namespace FleetLink

/-- A binary64 number. -/
structure Binary64 where
  bits : UInt64
  deriving DecidableEq, Repr

/-- Where an exact half goes. -/
inductive Tie where
  | toEven
  | up
  deriving DecidableEq, Repr

/-- A quotient rounded to the nearest integer. -/
def roundDiv (num den : Nat) (tie : Tie) : Nat :=
  let twice := 2 * (num % den)
  if twice < den then num / den
  else if den < twice then num / den + 1
  else match tie with
    | .up => num / den + 1
    | .toEven => if num / den % 2 = 0 then num / den else num / den + 1

namespace Binary64

/-- The sign bit is set.  Negative zero has it too. -/
def negative (x : Binary64) : Bool :=
  Nat.pow 2 63 ≤ x.bits.toNat

/-- The eleven bits that scale the number. -/
def exponentField (x : Binary64) : Nat :=
  x.bits.toNat / Nat.pow 2 52 % Nat.pow 2 11

/-- The fifty-two bits behind the point. -/
def fractionField (x : Binary64) : Nat :=
  x.bits.toNat % Nat.pow 2 52

/-- Neither infinite nor a NaN. -/
def isFinite (x : Binary64) : Bool :=
  x.exponentField ≠ 0x7FF

/-- Not a number at all. -/
def isNaN (x : Binary64) : Bool :=
  x.exponentField = 0x7FF ∧ x.fractionField ≠ 0

/-- The integer that a finite number is a power of two times. -/
def significand (x : Binary64) : Nat :=
  if x.exponentField = 0 then x.fractionField else Nat.pow 2 52 + x.fractionField

/-- The power of two that scales the significand. -/
def exponent (x : Binary64) : Int :=
  (max x.exponentField 1 : Nat) - 1075

/-- The magnitude of a finite number as numerator and denominator. -/
def ratio (x : Binary64) : Nat × Nat :=
  (x.significand * Nat.pow 2 x.exponent.toNat, Nat.pow 2 (-x.exponent).toNat)

/-- The exponent of the last bit kept when the fraction `num / den` is rounded: fifty-two below its
leading bit, but never below the least there is. -/
def lastBitExponent (num den : Nat) : Int :=
  let guess : Int := (num.log2 : Int) - (den.log2 : Int)
  let reached := den * Nat.pow 2 guess.toNat ≤ num * Nat.pow 2 (-guess).toNat
  let leading := if reached then guess else guess - 1
  max (leading - 52) (-1074)

/-- The bits, less the sign, of the number nearest to a fraction; past the greatest finite number
these are the bits of infinity. -/
def magnitudeBits (num den : Nat) : Nat :=
  if num = 0 then 0
  else
    let q := lastBitExponent num den
    let m := roundDiv (num * Nat.pow 2 (-q).toNat) (den * Nat.pow 2 q.toNat) .toEven
    min ((q + 1074).toNat * Nat.pow 2 52 + m) (0x7FF * Nat.pow 2 52)

/-- A magnitude with a sign. -/
def signed (negative : Bool) (magnitude : Nat) : Binary64 :=
  ⟨UInt64.ofNat (magnitude + if negative then Nat.pow 2 63 else 0)⟩

/-- The number nearest to a fraction, ties to even. -/
def ofRatio (negative : Bool) (num den : Nat) : Binary64 :=
  signed negative (magnitudeBits num den)

/-- Positive zero. -/
def zero : Binary64 := ⟨0⟩

/-- One NaN stands for all. -/
def nan : Binary64 := signed false (0x7FF * Nat.pow 2 52 + Nat.pow 2 51)

/-- An infinity. -/
def infinity (negative : Bool) : Binary64 := signed negative (0x7FF * Nat.pow 2 52)

instance : Inhabited Binary64 := ⟨zero⟩

/-- The number nearest to an integer. -/
def ofInt (i : Int) : Binary64 :=
  ofRatio (i < 0) i.natAbs 1

/-- The number nearest to a natural number. -/
def ofNat (n : Nat) : Binary64 :=
  ofRatio false n 1

/-- How many decimal digits a natural number has; zero has one. -/
def digitCount (n : Nat) : Nat :=
  (Nat.toDigits 10 n).length

/-- The number nearest to `digits * 10 ^ exponent`.  Far outside the range the answer is known
without forming the power. -/
def ofDecimal (negative : Bool) (digits : Nat) (exponent : Int) : Binary64 :=
  let leading := exponent + digitCount digits
  if digits = 0 ∨ leading < -330 then signed negative 0
  else if 310 < leading then infinity negative
  else ofRatio negative (digits * Nat.pow 10 exponent.toNat) (Nat.pow 10 (-exponent).toNat)

@[simp] theorem mk_bits (x : Binary64) : ⟨x.bits⟩ = x := rfl

end Binary64

end FleetLink
