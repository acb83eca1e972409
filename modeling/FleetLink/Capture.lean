import FleetLink.Json.Parser
import FleetLink.Packet.Codec
import FleetLink.Text.Blank
import FleetLink.Text.Lines
import FleetLink.VehicleId

/-!
# Captures

A capture is a text with one record a line: a packet that came from a source, or a command for a
vehicle, each perhaps some time after the record before it.  Blank lines mean nothing but count
where lines are counted.

A record is an object.  Its kind stands under `action` among the fields of that kind, which are set
aside until it is known, and the time before it under `delay_ms`.
-/

namespace FleetLink

open Json (Value)

/-- What a record of a capture is about. -/
inductive CaptureAction where
  | inbound (source : Source) (packet : Packet)
  | command (vehicle : VehicleId) (line : String)
  deriving DecidableEq, Repr

/-- A record of a capture. -/
structure CaptureRecord where
  /-- The milliseconds that pass before it. -/
  delay : Option UInt64
  action : CaptureAction
  deriving DecidableEq, Repr

namespace CaptureAction

/-- The names of the actions. -/
def names : List String := ["inbound", "command"]

/-- A packet and the source it came from, in data. -/
def inboundCodec : Codec (Source × Packet) :=
  .record "struct variant ReplayAction::Inbound"
    (.cons (.required "source" Source.codec) <| .cons (.required "packet" Packet.codec) .nil)
    (fun (source, packet, ()) => (source, packet))
    (fun p => (p.1, p.2, ()))

/-- A command and the vehicle it is for, in data. -/
def commandCodec : Codec (VehicleId × String) :=
  .record "struct variant ReplayAction::Command"
    (.cons (.required "vehicle" .string) <| .cons (.required "command" .string) .nil)
    (fun (vehicle, line, ()) => (vehicle, line))
    (fun p => (p.1, p.2, ()))

/-- Reads the action that some members describe. -/
def read (members : List (String × Value)) : Except Fault CaptureAction :=
  let fields : Value := .object (members.filter (·.1 ≠ "action"))
  match members.filter (·.1 = "action") with
  | [] => .error (.missingField "action")
  | [(_, tag)] =>
    match Codec.readTag names .buffered tag with
    | .error fault => .error fault
    | .ok name =>
      if name = "inbound" then
        (inboundCodec.read .buffered fields).map fun (source, packet) => .inbound source packet
      else
        (commandCodec.read .buffered fields).map fun (vehicle, line) => .command vehicle line
  | _ => .error (.duplicateField "action")

end CaptureAction

namespace CaptureRecord

/-- Reads the time before a record. -/
def readDelay (members : List (String × Value)) : Except Fault (Option UInt64) :=
  match members.filter (·.1 = "delay_ms") with
  | [] => .ok none
  | [(_, v)] => Codec.word64.option.read .direct v
  | _ => .error (.duplicateField "delay_ms")

/-- Reads a record. -/
def read (v : Value) : Except Fault CaptureRecord :=
  match v with
  | .object members =>
    match readDelay members with
    | .error fault => .error fault
    | .ok delay => (CaptureAction.read (members.filter (·.1 ≠ "delay_ms"))).map (⟨delay, ·⟩)
  | _ => .error (.invalidType v "struct ReplayRecord")

/-- The record that a line holds. -/
def ofLine? (line : String) : Option CaptureRecord :=
  match Json.parse line with
  | none => none
  | some v => (read v).toOption

end CaptureRecord

namespace Capture

/-- The lines of a capture that are not blank, each with its number, the first of all lines being
number one. -/
def numbered (text : String) : List (Nat × String) :=
  ((Text.lines text).zipIdx 1).filterMap fun (line, number) =>
    if Text.IsBlankText line then none else some (number, line)

end Capture

end FleetLink
