import FleetLink.Zlib.Code

/-!
# Deflated data

A deflated stream is a row of blocks.  A block is a run of bytes as they are, or a row of symbols of
a code that is fixed or comes with the block.  A symbol is a byte, the end of the block, or a
length, which is followed by a distance: that many bytes are repeated from that far back.  A
distance may reach in front of the first byte, where there are zeros, and a code need not have a
word for the end of the block.

**What was produced counts even when the stream fails.**  Every step returns the bytes so far, and
in place of the rest of the stream none when it cannot go on.  So a reader that wants no more than
some number of bytes need not know what is wrong behind them.

## Main Definitions

* `Progress` — the bytes so far and the rest of the stream
* `symbolRun`, `storedRun`, `block` — one block
* `blocks` — all of them
-/

namespace FleetLink.Zlib

/-- The bytes so far, and the rest of a stream of at most `bound` bits unless the stream failed. -/
structure Progress (bound : Nat) where
  out : Array UInt8
  rest : Option { r : Bits // r.length ≤ bound }

namespace Progress

/-- The stream cannot go on. -/
def failed {bound : Nat} (out : Array UInt8) : Progress bound := ⟨out, none⟩

/-- The same progress under a wider bound. -/
def widen {a b : Nat} (h : a ≤ b) (p : Progress a) : Progress b :=
  ⟨p.out, p.rest.map fun ⟨r, hr⟩ => ⟨r, Nat.le_trans hr h⟩⟩

end Progress

/-! ### Lengths and distances -/

/-- The least value of a symbol and how many bits add to it. -/
structure Base where
  least : Nat
  extra : Nat
  deriving DecidableEq, Repr

/-- The lengths, from symbol 257 on. -/
def lengthBases : List Base :=
  [⟨3, 0⟩, ⟨4, 0⟩, ⟨5, 0⟩, ⟨6, 0⟩, ⟨7, 0⟩, ⟨8, 0⟩, ⟨9, 0⟩, ⟨10, 0⟩, ⟨11, 1⟩, ⟨13, 1⟩, ⟨15, 1⟩,
   ⟨17, 1⟩, ⟨19, 2⟩, ⟨23, 2⟩, ⟨27, 2⟩, ⟨31, 2⟩, ⟨35, 3⟩, ⟨43, 3⟩, ⟨51, 3⟩, ⟨59, 3⟩, ⟨67, 4⟩,
   ⟨83, 4⟩, ⟨99, 4⟩, ⟨115, 4⟩, ⟨131, 5⟩, ⟨163, 5⟩, ⟨195, 5⟩, ⟨227, 5⟩, ⟨258, 0⟩]

/-- The distances, from symbol 0 on. -/
def distanceBases : List Base :=
  [⟨1, 0⟩, ⟨2, 0⟩, ⟨3, 0⟩, ⟨4, 0⟩, ⟨5, 1⟩, ⟨7, 1⟩, ⟨9, 2⟩, ⟨13, 2⟩, ⟨17, 3⟩, ⟨25, 3⟩, ⟨33, 4⟩,
   ⟨49, 4⟩, ⟨65, 5⟩, ⟨97, 5⟩, ⟨129, 6⟩, ⟨193, 6⟩, ⟨257, 7⟩, ⟨385, 7⟩, ⟨513, 8⟩, ⟨769, 8⟩,
   ⟨1025, 9⟩, ⟨1537, 9⟩, ⟨2049, 10⟩, ⟨3073, 10⟩, ⟨4097, 11⟩, ⟨6145, 11⟩, ⟨8193, 12⟩,
   ⟨12289, 12⟩, ⟨16385, 13⟩, ⟨24577, 13⟩]

/-- The value of a symbol, with its extra bits. -/
def baseValue? (bases : List Base) (symbol : Nat) (bits : Bits) :
    Option (Nat × { r : Bits // r.length ≤ bits.length }) :=
  match bases[symbol]? with
  | none => none
  | some base => (bits.number? base.extra).map fun (n, r) => (base.least + n, r)

/-- A distance: its symbol and the extra bits. -/
def distance? (code : Code) (bits : Bits) :
    Option (Nat × { r : Bits // r.length ≤ bits.length }) :=
  match code.symbol? bits with
  | none => none
  | some (symbol, ⟨r, h⟩) =>
    (baseValue? distanceBases symbol r).map fun (d, ⟨r', h'⟩) => (d, ⟨r', by omega⟩)

/-- The byte that was produced so far back.  In front of the first byte there are zeros. -/
def byteBack (out : Array UInt8) (distance : Nat) : UInt8 :=
  if distance ≤ out.size then out[out.size - distance]?.getD 0 else 0

/-- Repeats `n` bytes from `distance` bytes back; what is repeated may itself be repeated. -/
def repeatBack (out : Array UInt8) (distance : Nat) : Nat → Array UInt8
  | 0 => out
  | n + 1 => repeatBack (out.push (byteBack out distance)) distance n

/-! ### Blocks -/

/-- The symbol that ends a block. -/
def endOfBlock : Nat := 256

/-- What a symbol asks for. -/
inductive Request where
  | byte (b : UInt8)
  | finish
  /-- A repetition, whose length is the symbol at this place of `lengthBases`. -/
  | repetition (place : Nat)
  deriving DecidableEq, Repr

/-- The meaning of a symbol. -/
def Request.ofSymbol (symbol : Nat) : Request :=
  if symbol < endOfBlock then .byte (UInt8.ofNat symbol)
  else if symbol = endOfBlock then .finish
  else .repetition (symbol - (endOfBlock + 1))

/-- How far back a repetition reaches and how long it is, as the rest of the stream tells. -/
def repetition? (distances : Code) (place : Nat) (bits : Bits) :
    Option ((Nat × Nat) × { r : Bits // r.length ≤ bits.length }) :=
  match baseValue? lengthBases place bits with
  | none => none
  | some (length, ⟨r, h⟩) =>
    (distance? distances r).map fun (distance, ⟨r', h'⟩) => ((distance, length), ⟨r', by omega⟩)

/-- Symbols up to the end of their block. -/
def symbolRun (symbols distances : Code) (bound : Nat) (out : Array UInt8) (bits : Bits)
    (h : bits.length ≤ bound) : Progress bound :=
  match symbols.symbol? bits with
  | none => .failed out
  | some (symbol, ⟨r, hr⟩) =>
    match Request.ofSymbol symbol with
    | .byte b => symbolRun symbols distances bound (out.push b) r (by omega)
    | .finish => ⟨out, some ⟨r, by omega⟩⟩
    | .repetition place =>
      match repetition? distances place r with
      | none => .failed out
      | some ((distance, length), ⟨r', hr'⟩) =>
        symbolRun symbols distances bound (repeatBack out distance length) r' (by omega)
termination_by bits.length

/-- Bytes as they are. -/
def byteRun (out : Array UInt8) : Nat → (bits : Bits) → Progress bits.length
  | 0, bits => ⟨out, some ⟨bits, Nat.le_refl _⟩⟩
  | n + 1, bits =>
    match bits.number? 8 with
    | none => .failed out
    | some (b, ⟨r, h⟩) => (byteRun (out.push (UInt8.ofNat b)) n r).widen h

/-- A run of bytes behind its length, which is written twice, the second time with every
bit turned. -/
def storedRun (out : Array UInt8) (bits : Bits) : Progress bits.length :=
  match bits.byteAligned with
  | ⟨r, h⟩ =>
    match r.number? 16 with
    | none => .failed out
    | some (length, ⟨r₁, h₁⟩) =>
      match r₁.number? 16 with
      | none => .failed out
      | some (check, ⟨r₂, h₂⟩) =>
        if length + check = 0xFFFF then (byteRun out length r₂).widen (by omega) else .failed out

/-- The word lengths of the fixed code for symbols. -/
def fixedSymbolLengths : List Nat :=
  List.replicate 144 8 ++ List.replicate 112 9 ++ List.replicate 24 7 ++ List.replicate 8 8

/-- The fixed code for symbols. -/
def fixedSymbols : Code := (Code.ofLengths? false fixedSymbolLengths).getD default

/-- The fixed code for distances: five bits each. -/
def fixedDistances : Code := (Code.ofLengths? false (List.replicate 32 5)).getD default

/-- The order in which the word lengths of the code for word lengths are given. -/
def lengthOrder : List Nat :=
  [16, 17, 18, 0, 8, 7, 9, 6, 10, 5, 11, 4, 12, 3, 13, 2, 14, 1, 15]

/-- `n` numbers of three bits each. -/
def triples? : Nat → (bits : Bits) → Option (List Nat × { r : Bits // r.length ≤ bits.length })
  | 0, bits => some ([], ⟨bits, Nat.le_refl _⟩)
  | n + 1, bits =>
    match bits.number? 3 with
    | none => none
    | some (v, ⟨r, h⟩) => (triples? n r).map fun (vs, ⟨r', h'⟩) => (v :: vs, ⟨r', by omega⟩)

/-- Word lengths, written by a code of their own: sixteen repeats the last one three to six times,
seventeen and eighteen are runs of zeros.  A run may not pass the end. -/
def wordLengths? (code : Code) (wanted : Nat) (taken : List Nat) (bits : Bits) :
    Option (List Nat × { r : Bits // r.length ≤ bits.length }) :=
  if wanted ≤ taken.length then
    if taken.length = wanted then some (taken.reverse, ⟨bits, Nat.le_refl _⟩) else none
  else
    match code.symbol? bits with
    | none => none
    | some (symbol, ⟨r, h⟩) =>
      if symbol < 16 then
        (wordLengths? code wanted (symbol :: taken) r).map fun (ls, ⟨r', h'⟩) =>
          (ls, ⟨r', by omega⟩)
      else
        let (length?, least, extra) : Option Nat × Nat × Nat :=
          if symbol = 16 then (taken.head?, 3, 2)
          else if symbol = 17 then (some 0, 3, 3)
          else (some 0, 11, 7)
        match length? with
        | none => none
        | some length =>
          match r.number? extra with
          | none => none
          | some (n, ⟨r₁, h₁⟩) =>
            (wordLengths? code wanted (List.replicate (least + n) length ++ taken) r₁).map
              fun (ls, ⟨r', h'⟩) => (ls, ⟨r', by omega⟩)
termination_by bits.length

/-- The codes at the front of a block that brings its own. -/
def blockCodes? (bits : Bits) : Option ((Code × Code) × { r : Bits // r.length ≤ bits.length }) :=
  match bits.number? 5 with
  | none => none
  | some (hlit, ⟨r₁, h₁⟩) =>
    match r₁.number? 5 with
    | none => none
    | some (hdist, ⟨r₂, h₂⟩) =>
      match r₂.number? 4 with
      | none => none
      | some (hclen, ⟨r₃, h₃⟩) =>
        if 286 < hlit + 257 ∨ 30 < hdist + 1 then none
        else
          match triples? (hclen + 4) r₃ with
          | none => none
          | some (given, ⟨r₄, h₄⟩) =>
            let lengths := (List.range 19).map fun s =>
              (((lengthOrder.zip given).find? (·.1 = s)).map (·.2)).getD 0
            match Code.ofLengths? false lengths with
            | none => none
            | some code =>
              match wordLengths? code (hlit + 257 + (hdist + 1)) [] r₄ with
              | none => none
              | some (all, ⟨r₅, h₅⟩) =>
                match Code.ofLengths? true (all.take (hlit + 257)),
                    Code.ofLengths? true (all.drop (hlit + 257)) with
                | some symbols, some distances => some ((symbols, distances), ⟨r₅, by omega⟩)
                | _, _ => none

/-- A block behind the bits that say whether it is the last and of which kind it is. -/
def block (kind : Nat) (out : Array UInt8) (bits : Bits) : Progress bits.length :=
  if kind = 0 then storedRun out bits
  else if kind = 1 then symbolRun fixedSymbols fixedDistances bits.length out bits (Nat.le_refl _)
  else if kind = 2 then
    match blockCodes? bits with
    | none => .failed out
    | some ((symbols, distances), ⟨r, h⟩) => symbolRun symbols distances bits.length out r h
  else .failed out

/-- The blocks of a stream, up to the last. -/
def blocks (bound : Nat) (out : Array UInt8) (bits : Bits) (h : bits.length ≤ bound) :
    Progress bound :=
  match bits with
  | last :: low :: high :: body =>
    match block (low.toNat + 2 * high.toNat) out body with
    | ⟨out, none⟩ => .failed out
    | ⟨out, some ⟨r, hr⟩⟩ =>
      if last then ⟨out, some ⟨r, by simp at h; omega⟩⟩
      else blocks bound out r (by simp at h; omega)
  | _ => .failed out
termination_by bits.length
decreasing_by simp; omega

end FleetLink.Zlib
