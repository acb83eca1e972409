import FleetLink.Fleet.Call
import FleetLink.Fleet.Inbound

/-!
# Sessions

A fleet with a clock and the calls that wait.  Nothing happens in a session but events, one after
the other; after each event every call that can end does.

**Time moves only by events.**  A bounded call ends when the clock reaches its deadline and its slot
is not resolved by then.

**Results are kept,** in the order in which the calls ended.  A call that is abandoned has none.

## Main Definitions

* `Session` — the fleet, the clock, the calls
* `Session.settle` — ends the calls that can end
* `Event`, `Session.step`, `Session.run` — what can happen
* `Session.begin`, `Session.abandon` — how calls come and go
-/

namespace FleetLink

/-- The number of a call; no two calls of a session have the same. -/
abbrev CallId := Nat

/-- A fleet with a clock and calls. -/
structure Session where
  /-- The time in milliseconds. -/
  now : Nat
  fleet : Fleet
  /-- The number of the next call. -/
  next : CallId
  /-- The calls that wait, in the order in which they began. -/
  waiting : List (CallId × Call)
  /-- What the calls that ended came to. -/
  results : List (CallId × CallResult)

namespace Session

/-- A session in which nothing happened yet. -/
def new (config : Config) (algorithms : List Algorithm) : Session :=
  ⟨0, .new config algorithms, 0, [], []⟩

/-- Changes the fleet. -/
def update (s : Session) (change : Fleet → Fleet) : Session :=
  { s with fleet := change s.fleet }

/-- Lets the first of the given calls end if it can, then the others. -/
def settleCalls (s : Session) : List (CallId × Call) → Session
  | [] => s
  | (id, call) :: rest =>
    match s.fleet.finish? s.now call with
    | none => { s with waiting := s.waiting ++ [(id, call)] }.settleCalls rest
    | some (fleet, result) =>
      { s with fleet := fleet, results := s.results ++ [(id, result)] }.settleCalls rest

/-- Ends every call that can end. -/
def settle (s : Session) : Session :=
  { s with waiting := [] }.settleCalls s.waiting

/-- Begins a call to a vehicle.  A bounded call waits no longer than configured. -/
def begin (s : Session) (bounded : Bool) (vehicle : VehicleId) (line : String) : Session :=
  match s.fleet.call s.now vehicle line with
  | (fleet, .error fault) =>
    { s with fleet := fleet, next := s.next + 1, results := s.results ++ [(s.next, .error fault)] }
  | (fleet, .ok slot) =>
    let deadline := if bounded then some (s.fleet.deadline s.now) else none
    { s with
      fleet := fleet
      next := s.next + 1
      waiting := s.waiting ++ [(s.next, ⟨vehicle, slot, deadline⟩)] }

/-- Whoever waits for a call stops waiting. -/
def abandon (s : Session) (id : CallId) : Session :=
  match s.waiting.find? (·.1 = id) with
  | none => s
  | some (_, call) =>
    { s with fleet := s.fleet.release call, waiting := s.waiting.filter (·.1 ≠ id) }

/-- A call waits. -/
def isWaiting (s : Session) (id : CallId) : Bool :=
  s.waiting.any (·.1 = id)

end Session

/-- What can happen in a session. -/
inductive Event where
  /-- A packet arrives from a source. -/
  | packet (source : Source) (packet : Packet)
  /-- A complete response is handed over. -/
  | response (source : Source) (body : List UInt8)
  /-- A call is made. -/
  | call (bounded : Bool) (vehicle : VehicleId) (line : String)
  /-- A call is abandoned. -/
  | abandon (id : CallId)
  /-- The pending command of a vehicle gets a text from elsewhere. -/
  | fulfill (vehicle : VehicleId) (text : String)
  /-- The pending command of a vehicle is cancelled. -/
  | cancel (vehicle : VehicleId)
  /-- The links of a vehicle are dropped. -/
  | forget (vehicle : VehicleId)
  /-- The id of an index is asked for. -/
  | identify (index : UInt32)
  /-- The vehicle of an index is asked for. -/
  | meet (index : UInt32)
  /-- A vehicle enters the registry without channels. -/
  | register (vehicle : VehicleId)
  /-- A vehicle is removed from the registry. -/
  | unregister (vehicle : VehicleId)
  /-- The link goes down or up. -/
  | setLink (failing : Bool)
  /-- Somebody subscribes to the notices. -/
  | subscribe
  /-- The subscriber takes what waits. -/
  | drain
  /-- Time passes. -/
  | advance (millis : Nat)
  deriving Repr

namespace Session

/-- What an event does, before calls end. -/
def apply (s : Session) : Event → Session
  | .packet source packet => s.update fun f => (f.receive s.now source packet).1
  | .response source body => s.update fun f => (f.deliver source body).2
  | .call bounded vehicle line => s.begin bounded vehicle line
  | .abandon id => s.abandon id
  | .fulfill vehicle text =>
    s.update fun f => { f with commands := (f.commands.fulfill vehicle text).2 }
  | .cancel vehicle => s.update fun f => { f with commands := (f.commands.cancel vehicle).2 }
  | .forget vehicle => s.update (·.forget vehicle)
  | .identify index => s.update fun f => (f.identify index).2
  | .meet index => s.update fun f => (f.meet index).2.2
  | .register vehicle =>
    s.update fun f => { f with registry := f.registry.insert vehicle .new }
  | .unregister vehicle => s.update fun f => { f with registry := f.registry.erase vehicle }
  | .setLink failing =>
    s.update fun f => { f with outbox := { f.outbox with failing := failing } }
  | .subscribe => s.update (·.subscribe)
  | .drain => s.update (·.drain)
  | .advance millis => { s with now := s.now + millis }

/-- An event, and then every call that can end does. -/
def step (s : Session) (event : Event) : Session := (s.apply event).settle

/-- Events one after the other. -/
def run (s : Session) (events : List Event) : Session := events.foldl step s

@[simp] theorem run_nil (s : Session) : s.run [] = s := rfl

@[simp] theorem run_cons (s : Session) (event : Event) (events : List Event) :
    s.run (event :: events) = (s.step event).run events := rfl

end Session

end FleetLink
