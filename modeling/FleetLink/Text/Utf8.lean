/-!
# UTF-8

Texts as bytes and bytes as texts.  `encode` writes a text in UTF-8.  `decodeLossy` reads any bytes
at all: where they are not UTF-8 it puts one replacement character for every longest stretch that
could still have begun a character, and reads on behind that stretch.

**A lead byte decides everything.**  It says how many bytes follow, which values the first of them
may take (this is what rules out overlong forms, surrogates and values past the last code point)
and which bits of the code point it carries itself.  Every later byte is a plain continuation.

## Main Definitions

* `encode` — a text as bytes
* `Lead.ofByte?` — what a byte announces when a character starts with it
* `Lead.follow` — the bytes after the lead, as far as they fit
* `decodeLossy` — bytes as text
-/

namespace FleetLink.Text

/-- The UTF-8 form of a text. -/
def encode (s : String) : List UInt8 :=
  s.toList.flatMap String.utf8EncodeChar

/-- What stands for bytes that are no character. -/
def replacement : Char := '\uFFFD'

/-- What the bytes read so far of a character announce. -/
structure Lead where
  /-- How many bytes are still to come. -/
  owed : Nat
  /-- The least value the next byte may have. -/
  least : Nat
  /-- The greatest value the next byte may have. -/
  greatest : Nat
  /-- The bits of the code point read so far. -/
  bits : Nat
  deriving DecidableEq, Repr

namespace Lead

/-- The character a byte starts, if it can start one. -/
def ofByte? (byte : UInt8) : Option Lead :=
  let b := byte.toNat
  if b ≤ 0x7F then some ⟨0, 0, 0, b⟩
  else if 0xC2 ≤ b ∧ b ≤ 0xDF then some ⟨1, 0x80, 0xBF, b - 0xC0⟩
  else if b = 0xE0 then some ⟨2, 0xA0, 0xBF, 0⟩
  else if b = 0xED then some ⟨2, 0x80, 0x9F, 0xD⟩
  else if 0xE1 ≤ b ∧ b ≤ 0xEF then some ⟨2, 0x80, 0xBF, b - 0xE0⟩
  else if b = 0xF0 then some ⟨3, 0x90, 0xBF, 0⟩
  else if 0xF1 ≤ b ∧ b ≤ 0xF3 then some ⟨3, 0x80, 0xBF, b - 0xF0⟩
  else if b = 0xF4 then some ⟨3, 0x80, 0x8F, 4⟩
  else none

/-- Reads the bytes that are owed, as long as they fit: the finished code point, or none where a
byte does not fit or is missing, and in both cases the bytes not used. -/
def take : (owed least greatest bits : Nat) → List UInt8 → Option Nat × List UInt8
  | 0, _, _, bits, rest => (some bits, rest)
  | _ + 1, _, _, _, [] => (none, [])
  | owed + 1, least, greatest, bits, b :: rest =>
    if least ≤ b.toNat ∧ b.toNat ≤ greatest then
      take owed 0x80 0xBF (bits * 64 + (b.toNat - 0x80)) rest
    else (none, b :: rest)

/-- The character behind a lead, and the bytes after it. -/
def follow (lead : Lead) (rest : List UInt8) : Option Nat × List UInt8 :=
  take lead.owed lead.least lead.greatest lead.bits rest

theorem length_take_le (owed least greatest bits : Nat) (rest : List UInt8) :
    (take owed least greatest bits rest).2.length ≤ rest.length := by
  induction owed generalizing least greatest bits rest with
  | zero => simp [take]
  | succ owed ih =>
    cases rest with
    | nil => simp [take]
    | cons b rest =>
      simp only [take]
      split
      · exact Nat.le_succ_of_le (ih _ _ _ _)
      · simp

theorem length_follow_le (lead : Lead) (rest : List UInt8) :
    (lead.follow rest).2.length ≤ rest.length :=
  length_take_le ..

end Lead

/-- The characters of any bytes, in order. -/
def decodeChars (bytes : List UInt8) : List Char :=
  match bytes with
  | [] => []
  | b :: rest =>
    match Lead.ofByte? b with
    | none => replacement :: decodeChars rest
    | some lead =>
      have := lead.length_follow_le rest
      (lead.follow rest).1.elim replacement Char.ofNat :: decodeChars (lead.follow rest).2
termination_by bytes.length
decreasing_by all_goals simp only [List.length_cons]; omega

/-- The text that bytes spell, with `replacement` for what is not UTF-8. -/
def decodeLossy (bytes : List UInt8) : String :=
  String.ofList (decodeChars bytes)

@[simp] theorem decodeChars_nil : decodeChars [] = [] := by
  rw [decodeChars]

end FleetLink.Text
