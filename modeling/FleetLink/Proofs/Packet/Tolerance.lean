import FleetLink.Packet.Codec
import FleetLink.Proofs.Codec.Edits

/-!
# Edited packets

**A packet that was written is read back, and after edits as well**: fields that hold their defaults
may be gone, members of any other name may have been added to any of the objects, and all members
may stand in another order.

A record is tolerant because its fields are and their defaults are the ones in the table of what may
be left out.  The two tagged forms are not records: a payload has its tag among its fields, and a
packet has it next to them.  Both look for their tag first, and what they then read is free of it.

A number that is not finite has no form in data.  No packet comes to have one by being read, and the
statements here are silent on how one would be written.

## Main Definitions

* `Packet.omissible` — the fields that may be left out, with what they hold then

## Main Statements

* `Payload.codec_tolerant` — a payload, with its tag among its fields
* `Packet.codec_tolerant` — a packet, with its tag next to its record
-/

namespace FleetLink

open Json (Value Edited EditedMembers)

namespace Packet

/-- The fields that may be left out, with what they hold then. -/
def omissible : List (String × Value) :=
  [("amsl", .null), ("agl", .null),
    ("velocity",
      .object [("north", .ofFloat .zero), ("east", .ofFloat .zero), ("down", .ofFloat .zero)]),
    ("heading", .ofFloat .zero), ("algorithm_name", .string ""), ("error", .ofNat 0),
    ("flags", .ofNat 0), ("name", .string ""), ("dose_rate", .null), ("raw_counts", .null),
    ("features", .array []), ("payload", .string "")]

end Packet

open Packet (omissible)

/-! ## Records -/

namespace Codec

theorem word8_tolerant : word8.Tolerant omissible := .scalar (fun _ => trivial) word8_lawful

theorem word32_tolerant : word32.Tolerant omissible := .scalar (fun _ => trivial) word32_lawful

theorem float_tolerant : float.Tolerant omissible := .scalar (fun _ => trivial) float_lawful

theorem string_tolerant : string.Tolerant omissible := .scalar (fun _ => trivial) string_lawful

theorem bytes_tolerant : bytes.Tolerant omissible := .scalar (fun _ => trivial) bytes_lawful

end Codec

open Codec

theorem Position.codec_tolerant : Position.codec.Tolerant omissible :=
  .record (by decide) (fun _ => rfl)
    ⟨.required float_tolerant (by simp [omissible]), .required float_tolerant (by simp [omissible]),
      .optional float_tolerant nofun (by simp [omissible]),
      .optional float_tolerant nofun (by simp [omissible]), trivial⟩

theorem Velocity.codec_tolerant : Velocity.codec.Tolerant omissible :=
  .record (by decide) (fun _ => rfl)
    ⟨.required float_tolerant (by simp [omissible]), .required float_tolerant (by simp [omissible]),
      .required float_tolerant (by simp [omissible]), trivial⟩

theorem StatusReport.codec_tolerant : StatusReport.codec.Tolerant omissible :=
  .record (by decide) (fun _ => rfl)
    ⟨.required word32_tolerant (by simp [omissible]),
      .required Position.codec_tolerant (by simp [omissible]),
      .defaulted Velocity.codec_tolerant (by simp [omissible]; rfl),
      .defaulted float_tolerant (by simp [omissible]; rfl),
      .defaulted string_tolerant (by simp [omissible]; rfl),
      .defaulted word8_tolerant (by simp [omissible]; rfl), trivial⟩

theorem PrearmReport.codec_tolerant : PrearmReport.codec.Tolerant omissible :=
  .record (by decide) (fun _ => rfl)
    ⟨.required word32_tolerant (by simp [omissible]),
      .defaulted word32_tolerant (by simp [omissible]; rfl), trivial⟩

theorem MissionInfo.codec_tolerant : MissionInfo.codec.Tolerant omissible :=
  .record (by decide) (fun _ => rfl)
    ⟨.required word32_tolerant (by simp [omissible]),
      .defaulted string_tolerant (by simp [omissible]; rfl), trivial⟩

theorem commandLineCodec_tolerant : commandLineCodec.Tolerant omissible :=
  .record (by decide) (fun _ => rfl) ⟨.required bytes_tolerant (by simp [omissible]), trivial⟩

theorem Chunk.codec_tolerant : Chunk.codec.Tolerant omissible :=
  .record (by decide) (fun _ => rfl)
    ⟨.required word8_tolerant (by simp [omissible]), .required word8_tolerant (by simp [omissible]),
      .required word8_tolerant (by simp [omissible]),
      .required bytes_tolerant (by simp [omissible]), trivial⟩

theorem GeigerReading.codec_tolerant : GeigerReading.codec.Tolerant omissible :=
  .record (by decide) (fun _ => rfl)
    ⟨.required word32_tolerant (by simp [omissible]),
      .optional float_tolerant nofun (by simp [omissible]),
      .optional word32_tolerant.list nofun (by simp [omissible]), trivial⟩

theorem CameraDetection.codec_tolerant : CameraDetection.codec.Tolerant omissible :=
  .record (by decide) (fun _ => rfl)
    ⟨.required word32_tolerant (by simp [omissible]),
      .defaulted Position.codec_tolerant.list (by simp [omissible]; rfl), trivial⟩

theorem rawPayloadCodec_tolerant : rawPayloadCodec.Tolerant omissible :=
  .record (by decide) (fun _ => rfl) ⟨.required bytes_tolerant (by simp [omissible]), trivial⟩

theorem otherPacketCodec_tolerant : otherPacketCodec.Tolerant omissible :=
  .members (by decide) (fun _ => rfl)
    ⟨.required word8_tolerant (by simp [omissible]),
      .defaulted bytes_tolerant (by simp [omissible]; rfl), trivial⟩

/-! ## Tags -/

namespace Payload

/-- The fields of a payload form an object without a type of its own, and are read back. -/
theorem writeFields_spec (p : Payload) :
    ∃ members, p.writeFields = .object members ∧ ("type" :: members.map (·.1)).Nodup ∧
      EditedMembers omissible members members ∧
      ∀ edited, EditedMembers omissible members edited →
        readFields p.typeName (.object edited) = .ok p := by
  cases p with
  | geiger reading =>
      obtain ⟨hself, hread⟩ := GeigerReading.codec_tolerant.object (a := reading) rfl
      refine ⟨_, rfl, ?_, hself, fun edited h => congrArg (Except.map geiger) (hread _ edited h)⟩
      show ["type", "itow", "dose_rate", "raw_counts"].Nodup
      decide
  | camera detection =>
      obtain ⟨hself, hread⟩ := CameraDetection.codec_tolerant.object (a := detection) rfl
      refine ⟨_, rfl, ?_, hself, fun edited h => congrArg (Except.map camera) (hread _ edited h)⟩
      show ["type", "itow", "features"].Nodup
      decide
  | raw bytes =>
      obtain ⟨hself, hread⟩ := rawPayloadCodec_tolerant.object (a := bytes) rfl
      refine ⟨_, rfl, ?_, hself, fun edited h => congrArg (Except.map raw) (hread _ edited h)⟩
      show ["type", "bytes"].Nodup
      decide

theorem readTag_typeName (p : Payload) (intake : Intake) :
    Codec.readTag typeNames intake (.string p.typeName) = .ok p.typeName := by
  cases p <;> cases intake <;> rfl

theorem codec_tolerant : codec.Tolerant omissible where
  self p := by
    obtain ⟨members, hwrite, hnames, hself, -⟩ := p.writeFields_spec
    show Edited omissible p.write p.write
    rw [write, hwrite]
    exact ⟨_, rfl, Json.editedMembers_cons_self hnames rfl hself⟩
  read intake p v := by
    obtain ⟨members, hwrite, hnames, -, hread⟩ := p.writeFields_spec
    show Edited omissible p.write v → read intake v = .ok p
    rw [write, hwrite]
    rintro ⟨edited, rfl, hedited⟩
    obtain ⟨⟨tag, htag, heq⟩, hfields⟩ :=
      Json.editedMembers_cons hedited (by simp [omissible])
    obtain rfl : tag = .string p.typeName := heq
    have hne : ∀ m ∈ members, m.1 ≠ "type" := fun m hm heq =>
      (List.nodup_cons.mp hnames).1 (heq ▸ List.mem_map_of_mem hm)
    simp only [read, htag, p.readTag_typeName intake]
    exact hread _ (Json.editedMembers_filter_ne hfields hne)

end Payload

/-- The field of another record that has the name of a payload never holds one. -/
theorem payload_notMem_omissible (p : Payload) :
    ("payload", Payload.codec.write p) ∉ omissible := by
  have hobject : Payload.codec.write p ≠ .string "" := by
    cases p <;> exact nofun
  simpa [omissible] using hobject

theorem AlgorithmData.codec_tolerant : AlgorithmData.codec.Tolerant omissible :=
  .record (by decide) (fun _ => rfl)
    ⟨.required word32_tolerant (by simp [omissible]),
      .required string_tolerant (by simp [omissible]),
      .required Payload.codec_tolerant payload_notMem_omissible, trivial⟩

/-! ## Packets -/

namespace PacketKind

theorem ofName_label (k : PacketKind) (intake : Intake) :
    ofName (Codec.readName labels intake (.string k.label)) = .ok k := by
  cases k <;> rfl

end PacketKind

namespace Packet

/-- The record of a packet is read back. -/
theorem readData_of_edited (p : Packet) (intake : Intake) {v : Value}
    (h : Edited omissible p.writeData v) : readData intake p.kind v = .ok p := by
  cases p with
  | status report => exact StatusReport.codec_tolerant.map_read status intake h
  | prearmStatus report => exact PrearmReport.codec_tolerant.map_read prearmStatus intake h
  | commandRequest line => exact commandLineCodec_tolerant.map_read commandRequest intake h
  | commandResponse chunk => exact Chunk.codec_tolerant.map_read commandResponse intake h
  | compressedCommandResponse chunk =>
      exact Chunk.codec_tolerant.map_read compressedCommandResponse intake h
  | algorithmData data => exact AlgorithmData.codec_tolerant.map_read algorithmData intake h
  | missionInfo info => exact MissionInfo.codec_tolerant.map_read missionInfo intake h
  | other typeCode payload =>
      exact otherPacketCodec_tolerant.map_read (fun p => other p.1 p.2) intake h

theorem writeData_self (p : Packet) : Edited omissible p.writeData p.writeData := by
  cases p with
  | status report => exact StatusReport.codec_tolerant.self report
  | prearmStatus report => exact PrearmReport.codec_tolerant.self report
  | commandRequest line => exact commandLineCodec_tolerant.self line
  | commandResponse chunk => exact Chunk.codec_tolerant.self chunk
  | compressedCommandResponse chunk => exact Chunk.codec_tolerant.self chunk
  | algorithmData data => exact AlgorithmData.codec_tolerant.self data
  | missionInfo info => exact MissionInfo.codec_tolerant.self info
  | other typeCode payload => exact otherPacketCodec_tolerant.self (typeCode, payload)

/-- **A packet is read back,** after edits as well. -/
theorem codec_tolerant : codec.Tolerant omissible where
  self p := by
    refine ⟨_, rfl, Json.editedMembers_cons_self ?_ rfl
      (Json.editedMembers_cons_self ?_ p.writeData_self trivial)⟩
    · show ["kind", "data"].Nodup
      decide
    · show ["data"].Nodup
      decide
  read intake p v := by
    rintro ⟨edited, rfl, hedited⟩
    obtain ⟨⟨tag, htag, heq⟩, hrest⟩ := Json.editedMembers_cons hedited (by simp [omissible])
    obtain ⟨⟨record, hrecord, hdata⟩, -⟩ := Json.editedMembers_cons hrest (by simp [omissible])
    obtain rfl : tag = .string p.kind.label := heq
    show ofMembers intake edited = .ok p
    simp only [ofMembers, htag, hrecord, p.kind.ofName_label, p.readData_of_edited .buffered hdata]

/-- A report that holds nothing but what has to be there, next to a member of another name. -/
example (lat lon : Binary64) :
    codec.read .direct (.object [("data", .object [("location", .object [("lon", .ofFloat lon),
        ("lat", .ofFloat lat)]), ("id", .ofNat 7), ("mood", .null)]), ("kind", .string "status")]) =
      .ok (.status ⟨7, ⟨lat, lon, none, none⟩, .rest, .zero, "", 0⟩) := by
  rfl

end Packet

end FleetLink
