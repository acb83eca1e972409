import FleetLink.Fleet

/-!
# Inbound packets

What the fleet makes of a packet from a source.  Status reports and sensor data concern the vehicle
whose index they carry; parts of responses concern the vehicle that owns the source, and nobody
looks at that before the response is complete.

**A refused packet is not an error of the program.**  `dispatch` says why a packet was refused,
`receive` only that it was, and counts it.

## Main Definitions

* `Route`, `PacketKind.route?` — which packets concern the fleet
* `PacketFault` — why a packet is refused
* `Fleet.deliver` — a complete response
* `Fleet.dispatch`, `Fleet.receive` — any packet
-/

namespace FleetLink

/-- What becomes of the packets of a kind. -/
inductive Route where
  | handler
  | ignore
  deriving DecidableEq, Repr

/-- The route of a kind.  Commands of others and packets of no known kind have none. -/
def PacketKind.route? : PacketKind → Option Route
  | status | commandResponse | compressedCommandResponse | algorithmData => some .handler
  | prearmStatus | missionInfo => some .ignore
  | commandRequest | other => none

/-- Why a packet is refused. -/
inductive PacketFault where
  | address (fault : AddressFault)
  | assembly (fault : AssemblyFault)
  | undeclaredChannel (path : ChannelPath)
  deriving DecidableEq, Repr

/-- The wording of a refusal. -/
def PacketFault.message : PacketFault → String
  | address fault => fault.message
  | assembly fault => fault.message
  | undeclaredChannel path => undeclaredMessage path

/-- What became of a packet. -/
inductive Handling where
  | handled
  | ignored
  | unhandled
  | rejected
  deriving DecidableEq, Repr

/-- The name of a handling in reports. -/
def Handling.label : Handling → String
  | handled => "handled"
  | ignored => "ignored"
  | unhandled => "unhandled"
  | rejected => "rejected"

namespace Fleet

/-- A vehicle reports its status.  The source it reports from has to be its own, or free. -/
def takeStatus (f : Fleet) (now : Nat) (source : Source) (report : StatusReport) :
    Fleet × Except PacketFault Unit :=
  let (id, vehicle, f) := f.meet report.index
  match f.book.record id source with
  | .error fault => (f.observe (·.refuse fault), .error (.address fault))
  | .ok (_, book) =>
    let status := VehicleStatus.ofReport report now
    let f := { f with book := book }
    ((f.setVehicle id { vehicle with status := status }).publish ⟨id, status.error, now⟩, .ok ())

/-- An algorithm on board sends data. -/
def takeData (f : Fleet) (data : AlgorithmData) : Fleet × Except PacketFault Unit :=
  let (id, vehicle, f) := f.meet data.index
  match vehicle.absorb f.algorithms f.tree id data with
  | .error path => (f, .error (.undeclaredChannel path))
  | .ok done => ({ f with tree := done.tree }.setVehicle id done.vehicle, .ok ())

/-- A response is complete: the pending command of the vehicle that owns the source gets the text.
False if there is no such vehicle or no such command. -/
def deliver (f : Fleet) (source : Source) (body : List UInt8) : Bool × Fleet :=
  match f.book.owner? source with
  | none => (false, f.observe (·.drop .unknownSource))
  | some vehicle =>
    let (found, commands) := f.commands.fulfill vehicle (Text.decodeLossy body)
    let f := { f with commands := commands }
    (found, if found then f else f.observe (·.staleResponse))

/-- A part of a response arrives. -/
def takeChunk (f : Fleet) (now : Nat) (source : Source) (compressed : Bool) (chunk : Chunk) :
    Fleet × Except PacketFault Unit :=
  let (assembler, result) := f.assembler.add now source compressed chunk
  let f := { f with assembler := assembler }
  match result with
  | .error fault => (f, .error (.assembly fault))
  | .ok none => (f, .ok ())
  | .ok (some body) => ((f.deliver source body).2, .ok ())

/-- What the handlers do with a packet. -/
def handle (f : Fleet) (now : Nat) (source : Source) : Packet → Fleet × Except PacketFault Unit
  | .status report => f.takeStatus now source report
  | .commandResponse chunk => f.takeChunk now source false chunk
  | .compressedCommandResponse chunk => f.takeChunk now source true chunk
  | .algorithmData data => f.takeData data
  | _ => (f, .ok ())

/-- Takes in a packet, or says why it is refused. -/
def dispatch (f : Fleet) (now : Nat) (source : Source) (packet : Packet) :
    Fleet × Except PacketFault Handling :=
  let f := f.observe (·.receive packet.kind)
  match packet.kind.route? with
  | none => (f.observe (·.drop .unhandledKind), .ok .unhandled)
  | some .ignore => (f, .ok .ignored)
  | some .handler =>
    match f.handle now source packet with
    | (f, .error fault) => (f, .error fault)
    | (f, .ok ()) => (f, .ok .handled)

/-- Takes in a packet. -/
def receive (f : Fleet) (now : Nat) (source : Source) (packet : Packet) : Fleet × Handling :=
  match f.dispatch now source packet with
  | (f, .ok handling) => (f, handling)
  | (f, .error _) => (f.observe (·.drop .handlerError), .rejected)

end Fleet

end FleetLink
