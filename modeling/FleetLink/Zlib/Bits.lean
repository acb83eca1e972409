/-!
# Bit streams

A compressed stream is read bit by bit, the low bit of every byte first.  A stream is the list of
the bits that are left, and a reader returns a suffix of it.
-/

namespace FleetLink.Zlib

/-- The bits that are left of a stream. -/
abbrev Bits := List Bool

namespace Bits

/-- The bits of a byte, low bit first. -/
def ofByte (b : UInt8) : Bits :=
  (List.range 8).map b.toNat.testBit

/-- The bits of bytes. -/
def ofBytes (bytes : List UInt8) : Bits :=
  bytes.flatMap ofByte

/-- The number that the next `n` bits write, low bit first. -/
def number? : (n : Nat) → (bits : Bits) → Option (Nat × { r : Bits // r.length ≤ bits.length })
  | 0, bits => some (0, ⟨bits, Nat.le_refl _⟩)
  | _ + 1, [] => none
  | n + 1, b :: rest =>
    (number? n rest).map fun (high, ⟨r, h⟩) =>
      (2 * high + b.toNat, ⟨r, Nat.le_succ_of_le h⟩)

/-- The stream from the next byte on.  Whole bytes were read in, so what is left of the current
byte is what the length has beyond a multiple of eight. -/
def byteAligned (bits : Bits) : { r : Bits // r.length ≤ bits.length } :=
  ⟨bits.drop (bits.length % 8), by simp⟩

@[simp] theorem number?_zero (bits : Bits) : number? 0 bits = some (0, ⟨bits, Nat.le_refl _⟩) := by
  cases bits <;> rfl

@[simp] theorem ofBytes_nil : ofBytes [] = [] := rfl

end Bits

end FleetLink.Zlib
