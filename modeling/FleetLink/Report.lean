import FleetLink.Config
import FleetLink.Json.Printer
import FleetLink.Replay

/-!
# Reports

The reports that the command line tool prints: the configuration in effect, and what a replay came
to.  Names stand in alphabetical order at every level.

A channel leaves out the heights that its position does not have; a vehicle's own position shows
them as null.
-/

namespace FleetLink

open Json (Value)

namespace Report

/-- A channel's measurement. -/
def measurement (m : Measurement) : Value :=
  let height (name : String) : Option Binary64 → List (String × Value)
    | none => []
    | some x => [(name, .ofFloat x)]
  .object ([("lat", .ofFloat m.position.lat), ("lon", .ofFloat m.position.lon)] ++
    height "amsl" m.position.amsl ++ height "agl" m.position.agl ++
    [("value", .ofOption .ofFloat m.value)])

/-- A vehicle's status, given how points in time are written. -/
def status (time : Nat → String) (s : VehicleStatus) : Value :=
  .object [("position", .ofOption Position.codec.write s.position),
    ("velocity", .ofOption Velocity.codec.write s.velocity),
    ("heading", .ofOption .ofFloat s.heading), ("algorithm", .ofOption .string s.algorithm),
    ("error", .string s.error.label),
    ("updated_at", .ofOption (fun t => .string (time t)) s.updatedAt)]

/-- The addresses of a vehicle, by medium. -/
def addresses (a : Addresses) : Value :=
  .object (a.toList.map fun (medium, address) => (medium, .string address))

/-- What a command came to: a response or an error. -/
def command (c : CommandReport) : Value :=
  let ending : String × Value :=
    match c.result with
    | .ok text => ("response", .string text)
    | .error fault => ("error", .string fault.message)
  .object [("vehicle", .string c.vehicle), ("command", .string c.line), ending]

/-- What a capture came to. -/
def summary (s : ReplaySummary) : Value :=
  .object [("records", .ofNat s.records),
    ("outcomes", .object (s.outcomes.toList.map fun (label, count) => (label, .ofNat count))),
    ("commands", .array (s.commands.map command))]

/-- The known vehicles of a fleet. -/
def vehicles (time : Nat → String) (f : Fleet) : Value :=
  .object (f.registry.toList.map fun (id, vehicle) =>
    (id, .object [("status", status time vehicle.status),
      ("addresses", addresses (f.book.addresses id))]))

/-- What a replay came to. -/
def replay (time : Nat → String) (r : Replay) : Value :=
  let f := r.session.fleet
  .object [("summary", summary r.summary), ("vehicles", vehicles time f),
    ("channels", .object (f.tree.snapshot.map fun (path, m) => (path, measurement m))),
    ("sent_commands", .array (f.outbox.lines.map .string))]

/-- A configuration and where it came from. -/
def config (c : Config) (source : Option String) : Value :=
  .object [("source", .ofOption .string source), ("config", Config.codec.write c)]

end Report

end FleetLink
