import FleetLink.Packet

/-!
# Packets in data

A packet is an object with its kind under `kind` and its record under `data`.  An algorithm's
payload carries the name of its type among its own fields, under `type`.  Bytes are base64.

**The tag is judged first,** wherever it stands: a record is read only once it is known which one it
is.  Both tagged forms may also be arrays with the tag in front.

**What was set aside for the tag stays so.**  The record in a packet's object and the fields of any
payload are read as data that was set aside.  A packet that is an array has its tag in front, so its
record is read as the packet itself is.

## Main Definitions

* `Packet.codec` — any packet
* `Payload.codec` — a payload with its tag inside
* one codec for each record
-/

namespace FleetLink

open Json (Value)

/-- A position in data. -/
def Position.codec : Codec Position :=
  .record "struct GpsCoordinate"
    (.cons (.required "lat" .float) <| .cons (.required "lon" .float) <|
      .cons (.optional "amsl" .float) <| .cons (.optional "agl" .float) .nil)
    (fun (lat, lon, amsl, agl, ()) => ⟨lat, lon, amsl, agl⟩)
    (fun p => (p.lat, p.lon, p.amsl, p.agl, ()))

/-- A velocity in data. -/
def Velocity.codec : Codec Velocity :=
  .record "struct VelocityNed"
    (.cons (.required "north" .float) <| .cons (.required "east" .float) <|
      .cons (.required "down" .float) .nil)
    (fun (north, east, down, ()) => ⟨north, east, down⟩)
    (fun v => (v.north, v.east, v.down, ()))

/-- A status report in data. -/
def StatusReport.codec : Codec StatusReport :=
  .record "struct StatusPacket"
    (.cons (.required "id" .word32) <| .cons (.required "location" Position.codec) <|
      .cons (.defaulted "velocity" Velocity.codec .rest) <|
      .cons (.defaulted "heading" .float .zero) <|
      .cons (.defaulted "algorithm_name" .string "") <| .cons (.defaulted "error" .word8 0) .nil)
    (fun (index, position, velocity, heading, algorithm, errorCode, ()) =>
      ⟨index, position, velocity, heading, algorithm, errorCode⟩)
    (fun r => (r.index, r.position, r.velocity, r.heading, r.algorithm, r.errorCode, ()))

/-- A report of checks in data. -/
def PrearmReport.codec : Codec PrearmReport :=
  .record "struct PrearmStatusPacket"
    (.cons (.required "id" .word32) <| .cons (.defaulted "flags" .word32 0) .nil)
    (fun (index, flags, ()) => ⟨index, flags⟩)
    (fun r => (r.index, r.flags, ()))

/-- A mission in data. -/
def MissionInfo.codec : Codec MissionInfo :=
  .record "struct MissionInfoPacket"
    (.cons (.required "id" .word32) <| .cons (.defaulted "name" .string "") .nil)
    (fun (index, name, ()) => ⟨index, name⟩)
    (fun r => (r.index, r.name, ()))

/-- A command line in data. -/
def commandLineCodec : Codec (List UInt8) :=
  .record "struct CommandRequestPacket"
    (.cons (.required "body" .bytes) .nil)
    (fun (body, ()) => body)
    (fun body => (body, ()))

/-- A chunk in data. -/
def Chunk.codec : Codec Chunk :=
  .record "struct CommandResponseChunk"
    (.cons (.required "sequence_id" .word8) <| .cons (.required "chunk_index" .word8) <|
      .cons (.required "total_chunks" .word8) <| .cons (.required "body" .bytes) .nil)
    (fun (sequence, index, total, body, ()) => ⟨sequence, index, total, body⟩)
    (fun c => (c.sequence, c.index, c.total, c.body, ()))

/-- A reading of the counter in data. -/
def GeigerReading.codec : Codec GeigerReading :=
  .record "struct GeigerCounterData"
    (.cons (.required "itow" .word32) <| .cons (.optional "dose_rate" .float) <|
      .cons (.optional "raw_counts" (.list .word32)) .nil)
    (fun (itow, doseRate, rawCounts, ()) => ⟨itow, doseRate, rawCounts⟩)
    (fun r => (r.itow, r.doseRate, r.rawCounts, ()))

/-- A detection of the camera in data. -/
def CameraDetection.codec : Codec CameraDetection :=
  .record "struct CameraFeatureData"
    (.cons (.required "itow" .word32) <|
      .cons (.defaulted "features" (.list Position.codec) []) .nil)
    (fun (itow, features, ()) => ⟨itow, features⟩)
    (fun r => (r.itow, r.features, ()))

/-- The bytes of a payload of no known type, in data. -/
def rawPayloadCodec : Codec (List UInt8) :=
  .record "struct variant AlgorithmPayload::Raw"
    (.cons (.required "bytes" .bytes) .nil)
    (fun (bytes, ()) => bytes)
    (fun bytes => (bytes, ()))

/-- A packet of no known kind, in data. -/
def otherPacketCodec : Codec (UInt8 × List UInt8) :=
  .members "struct variant Packet::Other"
    (.cons (.required "type_code" .word8) <| .cons (.defaulted "payload" .bytes []) .nil)
    (fun (typeCode, payload, ()) => (typeCode, payload))
    (fun p => (p.1, p.2, ()))

namespace Payload

/-- The names of the types of payload. -/
def typeNames : List String := ["geiger_counter", "camera_features", "raw"]

/-- Reads the fields of a payload whose type is known. -/
def readFields (type : String) (fields : Value) : Except Fault Payload :=
  if type = "geiger_counter" then (GeigerReading.codec.read .buffered fields).map .geiger
  else if type = "camera_features" then (CameraDetection.codec.read .buffered fields).map .camera
  else (rawPayloadCodec.read .buffered fields).map .raw

/-- Reads a payload with its type among its fields. -/
def read (intake : Intake) (v : Value) : Except Fault Payload :=
  match v with
  | .object members =>
    match members.filter (·.1 = "type") with
    | [] => .error (.missingField "type")
    | [(_, type)] =>
      match Codec.readTag typeNames intake type with
      | .error fault => .error (fault.under (.member "type"))
      | .ok name => readFields name (.object (members.filter (·.1 ≠ "type")))
    | _ => .error (.duplicateField "type")
  | .array [] => .error (.missingField "type")
  | .array (type :: fields) =>
    match Codec.readTag typeNames intake type with
    | .error fault => .error (fault.under (.element 0))
    | .ok name => readFields name (.array fields)
  | _ => .error (.invalidType v "internally tagged enum AlgorithmPayload")

/-- The name of a payload's type. -/
def typeName : Payload → String
  | geiger _ => "geiger_counter"
  | camera _ => "camera_features"
  | raw _ => "raw"

/-- The fields of a payload. -/
def writeFields : Payload → Value
  | geiger reading => GeigerReading.codec.write reading
  | camera detection => CameraDetection.codec.write detection
  | raw bytes => rawPayloadCodec.write bytes

/-- The object of a payload: its fields behind its type. -/
def write (p : Payload) : Value :=
  match p.writeFields with
  | .object members => .object (("type", .string p.typeName) :: members)
  | v => v

/-- A payload in data. -/
def codec : Codec Payload where
  read := read
  write := write

end Payload

/-- Data of an algorithm, in data. -/
def AlgorithmData.codec : Codec AlgorithmData :=
  .record "struct AlgorithmDataPacket"
    (.cons (.required "uav_id" .word32) <| .cons (.required "algorithm" .string) <|
      .cons (.required "payload" Payload.codec) .nil)
    (fun (index, algorithm, payload, ()) => ⟨index, algorithm, payload⟩)
    (fun d => (d.index, d.algorithm, d.payload, ()))

namespace PacketKind

/-- The names of the kinds. -/
def labels : List String := all.map label

/-- The kind of a packet, given a reader of its name. -/
def ofName (name : Except Fault String) : Except Fault PacketKind :=
  match name with
  | .error fault => .error fault
  | .ok name =>
    match ofLabel? name with
    | some kind => .ok kind
    | none => .error (.unknownVariant name labels)

end PacketKind

namespace Packet

/-- Reads the record of a packet whose kind is known. -/
def readData (intake : Intake) : PacketKind → Value → Except Fault Packet
  | .status, v => (StatusReport.codec.read intake v).map .status
  | .prearmStatus, v => (PrearmReport.codec.read intake v).map .prearmStatus
  | .commandRequest, v => (commandLineCodec.read intake v).map .commandRequest
  | .commandResponse, v => (Chunk.codec.read intake v).map .commandResponse
  | .compressedCommandResponse, v => (Chunk.codec.read intake v).map .compressedCommandResponse
  | .algorithmData, v => (AlgorithmData.codec.read intake v).map .algorithmData
  | .missionInfo, v => (MissionInfo.codec.read intake v).map .missionInfo
  | .other, v => (otherPacketCodec.read intake v).map fun p => .other p.1 p.2

/-- What a packet is called in faults. -/
def what : String := "adjacently tagged enum Packet"

/-- Reads a packet from the members of an object. -/
def ofMembers (intake : Intake) (members : List (String × Value)) : Except Fault Packet :=
  match members.filter (·.1 = "kind"), members.filter (·.1 = "data") with
  | [], _ => .error (.missingField "kind")
  | [(_, tag)], data =>
    match PacketKind.ofName (Codec.readName PacketKind.labels intake tag) with
    | .error fault => .error (fault.under (.member "kind"))
    | .ok kind =>
      match data with
      | [] => .error (.missingField "data")
      | [(_, record)] =>
        match readData .buffered kind record with
        | .error fault => .error (fault.under (.member "data"))
        | .ok packet => .ok packet
      | _ => .error (.duplicateField "data")
  | _, _ => .error (.duplicateField "kind")

/-- Reads a packet from the elements of an array. -/
def ofElements (intake : Intake) : List Value → Except Fault Packet
  | [] => .error (.invalidLength 0 what)
  | tag :: rest =>
    match PacketKind.ofName (Codec.readTag PacketKind.labels intake tag) with
    | .error fault => .error (fault.under (.element 0))
    | .ok kind =>
      match rest with
      | [] => .error (.invalidLength 1 what)
      | record :: others =>
        match readData intake kind record with
        | .error fault => .error (fault.under (.element 1))
        | .ok packet =>
          if others = [] then .ok packet
          else
            match Fields.surplus intake 2 (others.length + 2) with
            | .error fault => .error fault
            | .ok () => .ok packet

/-- Reads a packet. -/
def read (intake : Intake) : Value → Except Fault Packet
  | .object members => ofMembers intake members
  | .array elements => ofElements intake elements
  | v => .error (.invalidType v what)

/-- The record of a packet. -/
def writeData : Packet → Value
  | status report => StatusReport.codec.write report
  | prearmStatus report => PrearmReport.codec.write report
  | commandRequest line => commandLineCodec.write line
  | commandResponse chunk => Chunk.codec.write chunk
  | compressedCommandResponse chunk => Chunk.codec.write chunk
  | algorithmData data => AlgorithmData.codec.write data
  | missionInfo info => MissionInfo.codec.write info
  | other typeCode payload => otherPacketCodec.write (typeCode, payload)

/-- The object of a packet. -/
def write (p : Packet) : Value :=
  .object [("kind", .string p.kind.label), ("data", p.writeData)]

/-- A packet in data. -/
def codec : Codec Packet where
  read := read
  write := write

end Packet

end FleetLink
