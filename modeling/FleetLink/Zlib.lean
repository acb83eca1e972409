import FleetLink.Zlib.Deflate

/-!
# Zlib streams

A zlib stream is deflated data between two bytes that say so and a checksum.  `inflate` runs
through the whole of it: `produced` is every byte that comes out before the stream ends or fails,
and `ended` tells which of the two it was.

**A limit is a cut of what is produced.**  `within limit` keeps a stream of at most `limit` bytes
that ended well, and calls a longer one too long without asking how it goes on: neither a fault nor
the checksum behind the limit is looked at.
-/

namespace FleetLink.Zlib

/-- The checksum of bytes: their sum from one, and the sum of these sums. -/
def checksum (bytes : List UInt8) : Nat :=
  let sums := bytes.foldl (fun (p : Nat × Nat) b =>
    let a := (p.1 + b.toNat) % 65521
    (a, (p.2 + a) % 65521)) (1, 0)
  sums.2 * 65536 + sums.1

/-- The two bytes in front: a deflated stream, a window that is not too large, no preset dictionary,
and together a multiple of thirty-one. -/
def isHeader (a b : UInt8) : Bool :=
  (a.toNat * 256 + b.toNat) % 31 = 0 && a.toNat % 16 = 8 && a.toNat / 16 ≤ 7 &&
    b.toNat / 32 % 2 = 0

/-- Four bytes, the high one first. -/
def bigEndian32? (bits : Bits) : Option Nat := do
  let (a, ⟨r₁, _⟩) ← bits.number? 8
  let (b, ⟨r₂, _⟩) ← r₁.number? 8
  let (c, ⟨r₃, _⟩) ← r₂.number? 8
  let (d, _) ← r₃.number? 8
  some (((a * 256 + b) * 256 + c) * 256 + d)

/-- What comes out of a stream. -/
structure Inflation where
  /-- Every byte up to the end or the failure. -/
  produced : List UInt8
  /-- The stream came to its end, and its checksum is right. -/
  ended : Bool
  deriving DecidableEq, Repr

/-- Runs through a stream.  What follows its checksum is not part of it. -/
def inflate (bytes : List UInt8) : Inflation :=
  match bytes with
  | a :: b :: deflated =>
    if isHeader a b then
      let bits := Bits.ofBytes deflated
      let p := blocks bits.length #[] bits (Nat.le_refl _)
      match p.rest with
      | none => ⟨p.out.toList, false⟩
      | some ⟨r, _⟩ => ⟨p.out.toList, bigEndian32? r.byteAligned.1 = some (checksum p.out.toList)⟩
    else ⟨[], false⟩
  | _ => ⟨[], false⟩

/-- A stream that was read up to a limit. -/
inductive Limited where
  | whole (bytes : List UInt8)
  | tooLong
  | broken
  deriving DecidableEq, Repr

/-- Cuts what a stream produces at a limit. -/
def Inflation.within (i : Inflation) (limit : Nat) : Limited :=
  if limit < i.produced.length then .tooLong
  else if i.ended then .whole i.produced
  else .broken

end FleetLink.Zlib
