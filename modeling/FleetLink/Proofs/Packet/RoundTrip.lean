import FleetLink.Proofs.Packet.Tolerance

/-!
# Packets there and back

A packet that is written is read back, after edits as well.  The other way, data may hold more than
the packet that is read from it, and be arranged in ways that are not written, as arrays for
example.  **Bodies go through unchanged** all the same: wherever the data has the text of a body,
the packet is written with the same text in that place.

**A place is followed step by step.**  Each reader on the way is asked for what stood at one step,
whether that was a member or an element (`Fields.parts_of_read`), and the last one reads bytes,
which are written as they were spelled.

## Main Definitions

* `Json.Value.at?` — what stands at the end of some steps
* `Packet.body?` — the body of a packet and where it stands

## Main Statements

* `Packet.exists_body_of_read` — a body goes through
* `Packet.round_trip` — there and back, edited and not
-/

namespace FleetLink

open Json (Value Edited)

/-- What stands in a value at the end of some steps. -/
def Json.Value.at? (v : Value) : List (String × Nat) → Option Value
  | [] => some v
  | place :: rest => (v.part? place).bind (·.at? rest)

theorem Json.Value.at?_singleton (v : Value) (place : String × Nat) :
    v.at? [place] = v.part? place := by
  simp [at?]

theorem Json.Value.at?_cons_eq_some_iff {v part : Value} {place : String × Nat}
    {rest : List (String × Nat)} :
    v.at? (place :: rest) = some part ↔ ∃ w, v.part? place = some w ∧ w.at? rest = some part :=
  Option.bind_eq_some_iff

/-- The body of a packet, if its kind has one, and where it stands: from the outside in, the name of
each member and its position in an array. -/
def Packet.body? : Packet → Option (List (String × Nat) × List UInt8)
  | commandRequest line => some ([("data", 1), ("body", 0)], line)
  | commandResponse chunk | compressedCommandResponse chunk =>
    some ([("data", 1), ("body", 3)], chunk.body)
  | algorithmData ⟨_, _, .raw bytes⟩ => some ([("data", 1), ("payload", 2), ("bytes", 1)], bytes)
  | other _ payload => some ([("data", 1), ("payload", 1)], payload)
  | _ => none

variable {intake : Intake} {v : Value}

namespace Payload

/-- The fields of a payload are read apart from its tag, which stands in front of them. -/
theorem exists_fields_of_read {p : Payload} (h : read intake v = .ok p) :
    ∃ type fields, readFields type fields = .ok p ∧
      ∀ name position, name ≠ "type" →
        v.part? (name, position + 1) = fields.part? (name, position) := by
  unfold read at h
  split at h
  next members =>
    split at h
    · cases h
    · split at h
      · cases h
      next type _ =>
        refine ⟨type, _, h, fun name position hname => ?_⟩
        exact (Value.part?_filter_ne hname position).symm
    · cases h
  · cases h
  next tag fields =>
    split at h
    · cases h
    next type _ => exact ⟨type, _, h, fun _ _ _ => rfl⟩
  · cases h

/-- The bytes of a payload of no known type. -/
theorem bytes_of_read {bs : List UInt8} (h : codec.read intake v = .ok (.raw bs)) {body : Value}
    (hbody : v.part? ("bytes", 1) = some body) :
    ∃ intake', Codec.bytes.read intake' body = .ok bs := by
  obtain ⟨type, fields, hread, hparts⟩ := exists_fields_of_read h
  rw [hparts "bytes" 0 (by decide)] at hbody
  unfold readFields at hread
  split at hread
  · obtain ⟨_, -, heq⟩ := exists_of_map_eq_ok hread
    cases heq
  · split at hread
    · obtain ⟨_, -, heq⟩ := exists_of_map_eq_ok hread
      cases heq
    · obtain ⟨_, hraw, heq⟩ := exists_of_map_eq_ok hread
      cases heq
      obtain ⟨row, rfl, hrow⟩ := Codec.parts_of_record (by decide) hraw
      exact ⟨.buffered, hrow.1 body hbody⟩

end Payload

namespace Packet

/-- The record of a packet stands next to its tag. -/
theorem exists_data_of_read {p : Packet} (h : codec.read intake v = .ok p) :
    ∃ record kind intake', v.part? ("data", 1) = some record ∧
      readData intake' kind record = .ok p := by
  cases v with
  | object members =>
      have hmembers : ofMembers intake members = .ok p := h
      unfold ofMembers at hmembers
      generalize hdata : members.filter (·.1 = "data") = data at hmembers
      split at hmembers
      · cases hmembers
      · split at hmembers
        · cases hmembers
        next kind _ =>
          split at hmembers
          · cases hmembers
          next record =>
            split at hmembers
            · cases hmembers
            next hread =>
              cases hmembers
              refine ⟨record, kind, .buffered, ?_, hread⟩
              rw [Value.part?, ← List.head?_filter, hdata]
              rfl
          · cases hmembers
      · cases hmembers
  | array elements =>
      have helements : ofElements intake elements = .ok p := h
      unfold ofElements at helements
      split at helements
      · cases helements
      · split at helements
        · cases helements
        next kind _ =>
          split at helements
          · cases helements
          next record others =>
            split at helements
            · cases helements
            next packet hread =>
              -- What stands behind the record is accepted or not, and is no part of the packet.
              have hpacket : packet = p := by
                split at helements
                · exact Except.ok.inj helements
                · split at helements
                  · cases helements
                  · exact Except.ok.inj helements
              exact ⟨record, kind, intake, rfl, hpacket ▸ hread⟩
  | _ => cases h

/-- The bytes of a body are read from what stands at its place. -/
theorem bytes_of_readData {p : Packet} {kind : PacketKind} {record body : Value}
    {place : List (String × Nat)} {bs : List UInt8} (h : readData intake kind record = .ok p)
    (hp : p.body? = some (place, bs)) (hbody : record.at? place.tail = some body) :
    ∃ intake', Codec.bytes.read intake' body = .ok bs := by
  cases kind with
  | commandRequest =>
      obtain ⟨line, hread, rfl⟩ := exists_of_map_eq_ok h
      obtain ⟨row, rfl, hrow⟩ := Codec.parts_of_record (by decide) hread
      cases hp
      rw [List.tail_cons, Value.at?_singleton] at hbody
      exact ⟨intake, hrow.1 body hbody⟩
  | commandResponse =>
      obtain ⟨chunk, hread, rfl⟩ := exists_of_map_eq_ok h
      obtain ⟨row, rfl, hrow⟩ := Codec.parts_of_record (by decide) hread
      cases hp
      rw [List.tail_cons, Value.at?_singleton] at hbody
      exact ⟨intake, hrow.2.2.2.1 body hbody⟩
  | compressedCommandResponse =>
      obtain ⟨chunk, hread, rfl⟩ := exists_of_map_eq_ok h
      obtain ⟨row, rfl, hrow⟩ := Codec.parts_of_record (by decide) hread
      cases hp
      rw [List.tail_cons, Value.at?_singleton] at hbody
      exact ⟨intake, hrow.2.2.2.1 body hbody⟩
  | algorithmData =>
      obtain ⟨data, hread, rfl⟩ := exists_of_map_eq_ok h
      obtain ⟨⟨index, algorithm, payload, ⟨⟩⟩, rfl, hrow⟩ := Codec.parts_of_record (by decide) hread
      cases payload with
      | raw bytes =>
          cases hp
          rw [List.tail_cons, Value.at?_cons_eq_some_iff] at hbody
          obtain ⟨w, hw, hbody⟩ := hbody
          rw [Value.at?_singleton] at hbody
          exact Payload.bytes_of_read (hrow.2.2.1 w hw) hbody
      | _ => cases hp
  | other =>
      obtain ⟨pair, hread, rfl⟩ := exists_of_map_eq_ok h
      obtain ⟨row, rfl, hrow⟩ := Codec.parts_of_members (by decide) hread
      cases hp
      rw [List.tail_cons, Value.at?_singleton] at hbody
      exact ⟨intake, hrow.2.1 body hbody⟩
  | _ =>
      obtain ⟨_, -, rfl⟩ := exists_of_map_eq_ok h
      cases hp

/-- The body of a packet is written at its place. -/
theorem write_at? {p : Packet} {place : List (String × Nat)} {bs : List UInt8}
    (hp : p.body? = some (place, bs)) :
    (codec.write p).at? place = some (Codec.bytes.write bs) ∧
      place = ("data", 1) :: place.tail := by
  cases p with
  | commandRequest line =>
      cases hp
      exact ⟨rfl, rfl⟩
  | commandResponse chunk =>
      cases hp
      exact ⟨rfl, rfl⟩
  | compressedCommandResponse chunk =>
      cases hp
      exact ⟨rfl, rfl⟩
  | algorithmData data =>
      obtain ⟨index, algorithm, payload⟩ := data
      cases payload with
      | raw bytes =>
          cases hp
          exact ⟨rfl, rfl⟩
      | _ => cases hp
  | other typeCode payload =>
      cases hp
      exact ⟨rfl, rfl⟩
  | _ => cases hp

/-- **A body goes through:** the text that was read is the text that is written. -/
theorem exists_body_of_read {p : Packet} (h : codec.read intake v = .ok p)
    {place : List (String × Nat)} {bs : List UInt8} (hp : p.body? = some (place, bs)) {body : Value}
    (hbody : v.at? place = some body) :
    ∃ s, body = .string s ∧ (codec.write p).at? place = some (.string s) := by
  obtain ⟨record, kind, intake', hrecord, hread⟩ := exists_data_of_read h
  obtain ⟨hwrite, hplace⟩ := write_at? hp
  rw [hplace, Value.at?_cons_eq_some_iff] at hbody
  obtain ⟨w, hw, hbody⟩ := hbody
  obtain rfl := Option.some.inj (hrecord.symm.trans hw)
  obtain ⟨_, hbytes⟩ := bytes_of_readData hread hp hbody
  obtain ⟨s, rfl, hs⟩ := Codec.write_bytes_of_read hbytes
  exact ⟨s, rfl, by rw [hwrite, hs]⟩

/-- **Packets there and back.**  However the data comes to the reader:

A packet that is written is read back.

It is read back as well when the data was edited in between: any of the fields that may be left out
and hold what their absence means are gone, any members of other names are added to any of the
objects, and members are put in another order.

Data that is read as a packet with a body has a text where the body stands, unless there is nothing,
and the packet is written with that very text there. -/
theorem round_trip :
    (∀ intake (p : Packet), codec.read intake (codec.write p) = .ok p) ∧
    (∀ intake (p : Packet) v, Edited omissible (codec.write p) v → codec.read intake v = .ok p) ∧
    ∀ intake v (p : Packet), codec.read intake v = .ok p →
      ∀ place bs, p.body? = some (place, bs) →
        (codec.write p).at? place = some (.string (Text.Base64.encode bs)) ∧
        ∀ body, v.at? place = some body →
          ∃ s, body = .string s ∧ (codec.write p).at? place = some (.string s) :=
  ⟨codec_tolerant.lawful, fun intake p v h => codec_tolerant.read intake p v h,
    fun _ _ _ h _ _ hp => ⟨(write_at? hp).1, fun _ hbody => exists_body_of_read h hp hbody⟩⟩

end Packet

end FleetLink
