import FleetLink.CommandLine
import FleetLink.Fleet

/-!
# Calls

A call sends a command line to a vehicle and waits for what the vehicle answers.  It ends with the
text of the answer, or with the words that stand for a cancelled command, or with a fault.

**Where a call can end.**  At once, if there is no such vehicle, no address for it, another command
in strict mode, or a link that is down.  Otherwise when its slot is resolved or, if it is bounded,
when its time is over.  However it ends, its slot is released.

**Every call that found a vehicle and an address is counted once,** under the way it ended.

## Main Definitions

* `CallFault` — why a call ended without a text
* `Call` — a call that waits
* `Fleet.call` — how a call begins
* `Fleet.finish?` — how a waiting call ends
-/

namespace FleetLink

/-- Why a call ended without a text. -/
inductive CallFault where
  | unknownVehicle (vehicle : VehicleId)
  | noKnownAddress (vehicle : VehicleId)
  | alreadyInProgress (vehicle : VehicleId)
  | linkDown (destination : Source)
  | timedOut (vehicle : VehicleId) (seconds : Nat)
  deriving DecidableEq, Repr

/-- A time in whole seconds; no time at all is shown in the smallest unit. -/
def secondsText (seconds : Nat) : String :=
  if seconds = 0 then "0ns" else s!"{seconds}s"

/-- The wording of a fault. -/
def CallFault.message : CallFault → String
  | unknownVehicle vehicle => s!"no such vehicle: {vehicle}"
  | noKnownAddress vehicle => s!"address of vehicle {vehicle} is not known yet"
  | alreadyInProgress vehicle => s!"a command is already in progress for vehicle {vehicle}"
  | linkDown destination => s!"transport error: link to {destination.text} is down"
  | timedOut vehicle seconds =>
    s!"command for vehicle {vehicle} timed out after {secondsText seconds}"

/-- What a call came to. -/
abbrev CallResult := Except CallFault String

/-- A call that waits. -/
structure Call where
  vehicle : VehicleId
  slot : SlotId
  /-- When its time is over, if it is bounded. -/
  deadline : Option Nat
  deriving DecidableEq, Repr

namespace Fleet

/-- How a finished command is counted. -/
def outcomeLabel : Outcome → CallOutcome
  | .completed _ => .completed
  | .cancelled => .cancelled

/-- Begins a call: takes a slot and sends the line.  Returns the slot to wait for. -/
def call (f : Fleet) (now : Nat) (vehicle : VehicleId) (line : String) :
    Fleet × Except CallFault SlotId :=
  if vehicle ∈ f.registry then
    match f.preferred? vehicle with
    | none => (f, .error (.noKnownAddress vehicle))
    | some destination =>
      match f.commands.begin now f.settings.strictCommands vehicle with
      | none => (f.observe (·.finish .rejected), .error (.alreadyInProgress vehicle))
      | some (slot, commands) =>
        match f.outbox.send? destination (CommandLine.packet line) with
        | none =>
          ({ f with commands := commands.release slot }.observe (·.finish .sendFailed),
            .error (.linkDown destination))
        | some outbox => ({ f with commands := commands, outbox := outbox }, .ok slot)
  else (f, .error (.unknownVehicle vehicle))

/-- The time until which a bounded call waits. -/
def deadline (f : Fleet) (now : Nat) : Nat :=
  now + f.settings.commandTimeout.toNat * 1000

/-- Lets go of a call's slot. -/
def release (f : Fleet) (call : Call) : Fleet :=
  { f with commands := f.commands.release call.slot }

/-- The end of a call, if it has come: its slot is resolved, or its time is over. -/
def finish? (f : Fleet) (now : Nat) (call : Call) : Option (Fleet × CallResult) :=
  match f.commands.wait? call.slot with
  | some outcome =>
    some ((f.release call).observe (·.finish (outcomeLabel outcome)), .ok outcome.text)
  | none =>
    if call.deadline.any (· ≤ now) then
      some ((f.release call).observe (·.finish .timeout),
        .error (.timedOut call.vehicle f.settings.commandTimeout.toNat))
    else none

end Fleet

end FleetLink
