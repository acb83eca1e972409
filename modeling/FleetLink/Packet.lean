import FleetLink.Source

/-!
# Packets

What travels between the fleet and its vehicles, decoded.  A vehicle is known to the protocol by a
number, its index; ids are made from indices elsewhere.

Positions, velocities and readings are kept as they were reported.  Text that a vehicle sends back
comes in chunks, since a packet is small; a chunk says which response it belongs to, how many
there are and which of them it is.

## Main Definitions

* `Position`, `Velocity` — where a vehicle is and how it moves
* `StatusReport`, `Chunk`, `AlgorithmData` — the packets that change something
* `Packet`, `PacketKind` — any packet, and which one it is
-/

namespace FleetLink

/-- A place in degrees, with heights in metres above the sea and above the ground if known. -/
structure Position where
  lat : Binary64
  lon : Binary64
  amsl : Option Binary64
  agl : Option Binary64
  deriving DecidableEq, Repr, Inhabited

/-- A velocity in metres per second. -/
structure Velocity where
  north : Binary64
  east : Binary64
  down : Binary64
  deriving DecidableEq, Repr, Inhabited

/-- At rest. -/
def Velocity.rest : Velocity := ⟨.zero, .zero, .zero⟩

/-- What a vehicle reports about itself, again and again. -/
structure StatusReport where
  index : UInt32
  position : Position
  velocity : Velocity
  heading : Binary64
  /-- The algorithm that runs on board; empty when there is none. -/
  algorithm : String
  errorCode : UInt8
  deriving DecidableEq, Repr, Inhabited

/-- The checks a vehicle passed before arming. -/
structure PrearmReport where
  index : UInt32
  flags : UInt32
  deriving DecidableEq, Repr, Inhabited

/-- The mission a vehicle is on. -/
structure MissionInfo where
  index : UInt32
  name : String
  deriving DecidableEq, Repr, Inhabited

/-- A part of the response to a command. -/
structure Chunk where
  /-- The same for all parts of one response. -/
  sequence : UInt8
  /-- Which part this is, from zero. -/
  index : UInt8
  /-- How many parts there are. -/
  total : UInt8
  body : List UInt8
  deriving DecidableEq, Repr, Inhabited

/-- What the counter tubes measured. -/
structure GeigerReading where
  /-- Milliseconds into the week. -/
  itow : UInt32
  doseRate : Option Binary64
  /-- Impulses since power on, tube by tube. -/
  rawCounts : Option (List UInt32)
  deriving DecidableEq, Repr, Inhabited

/-- What the camera recognised. -/
structure CameraDetection where
  /-- Milliseconds into the week. -/
  itow : UInt32
  features : List Position
  deriving DecidableEq, Repr, Inhabited

/-- What an algorithm on board has to say. -/
inductive Payload where
  | geiger (reading : GeigerReading)
  | camera (detection : CameraDetection)
  | raw (bytes : List UInt8)
  deriving DecidableEq, Repr, Inhabited

/-- Data of a named algorithm on board. -/
structure AlgorithmData where
  index : UInt32
  algorithm : String
  payload : Payload
  deriving DecidableEq, Repr, Inhabited

/-- A packet. -/
inductive Packet where
  | status (report : StatusReport)
  | prearmStatus (report : PrearmReport)
  | commandRequest (line : List UInt8)
  | commandResponse (chunk : Chunk)
  | compressedCommandResponse (chunk : Chunk)
  | algorithmData (data : AlgorithmData)
  | missionInfo (info : MissionInfo)
  | other (typeCode : UInt8) (payload : List UInt8)
  deriving DecidableEq, Repr, Inhabited

/-- Which packet a packet is. -/
inductive PacketKind where
  | status
  | prearmStatus
  | commandRequest
  | commandResponse
  | compressedCommandResponse
  | algorithmData
  | missionInfo
  | other
  deriving DecidableEq, Repr, Inhabited

namespace PacketKind

/-- Every kind, in the order of the protocol. -/
def all : List PacketKind :=
  [status, prearmStatus, commandRequest, commandResponse, compressedCommandResponse, algorithmData,
    missionInfo, other]

/-- The name of a kind. -/
def label : PacketKind → String
  | status => "status"
  | prearmStatus => "prearm_status"
  | commandRequest => "command_request"
  | commandResponse => "command_response"
  | compressedCommandResponse => "compressed_command_response"
  | algorithmData => "algorithm_data"
  | missionInfo => "mission_info"
  | other => "other"

/-- The kind with a name. -/
def ofLabel? (name : String) : Option PacketKind :=
  all.find? (·.label = name)

theorem ofLabel?_label (k : PacketKind) : ofLabel? k.label = some k := by cases k <;> decide

end PacketKind

/-- The kind of a packet. -/
def Packet.kind : Packet → PacketKind
  | status _ => .status
  | prearmStatus _ => .prearmStatus
  | commandRequest _ => .commandRequest
  | commandResponse _ => .commandResponse
  | compressedCommandResponse _ => .compressedCommandResponse
  | algorithmData _ => .algorithmData
  | missionInfo _ => .missionInfo
  | other _ _ => .other

end FleetLink
