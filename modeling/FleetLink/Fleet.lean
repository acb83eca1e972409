import FleetLink.Assembler
import FleetLink.CommandTable
import FleetLink.Metrics
import FleetLink.Notice
import FleetLink.Outbox
import FleetLink.Sensor

/-!
# The fleet

Everything that is known about a fleet and its links, in one value.  Vehicles speak of themselves by
index; the fleet gives each index an id once and keeps to it.  A vehicle is registered, and its
channels are declared, when its index is first heard of.

**Ids outlive vehicles.**  A vehicle that is removed from the registry is registered again under the
same id when it is next heard of, and starts over with nothing known but its channels.

## Main Definitions

* `Fleet` — the state
* `Fleet.new` — a fleet that was never heard of
* `Fleet.identify` — the id of an index
* `Fleet.meet` — the vehicle of an index
* `Fleet.forget` — drops a vehicle's links
-/

namespace FleetLink

open Std (ExtTreeMap)

/-- What is known about a fleet. -/
structure Fleet where
  settings : DriverSettings
  /-- The algorithms whose data is understood. -/
  algorithms : List Algorithm
  /-- The ids of the indices heard of. -/
  ids : ExtTreeMap UInt32 VehicleId
  registry : Registry
  tree : DeviceTree
  book : AddressBook
  assembler : Assembler
  commands : CommandTable
  outbox : Outbox
  /-- What waits for the subscriber, if there is one. -/
  inbox : Option Inbox
  metrics : Metrics

namespace Fleet

/-- A fleet that was never heard of. -/
def new (config : Config) (algorithms : List Algorithm) : Fleet where
  settings := config.driver
  algorithms := algorithms
  ids := ∅
  registry := ∅
  tree := .empty
  book := .empty
  assembler := .new (.ofSettings config.reassembly)
  commands := .empty
  outbox := .empty
  inbox := none
  metrics := .zero

/-- Counts something. -/
def observe (f : Fleet) (change : Metrics → Metrics) : Fleet :=
  { f with metrics := change f.metrics }

/-! ### Vehicles -/

/-- The id of an index.  It is made once. -/
def identify (f : Fleet) (index : UInt32) : VehicleId × Fleet :=
  match f.ids[index]? with
  | some id => (id, f)
  | none =>
    let id := VehicleId.ofIndex f.settings.idFormat index
    let ids := f.ids.insert index id
    (id, { f with ids := ids, metrics := f.metrics.knowVehicles ids.size })

/-- A vehicle with nothing known about it enters the registry, and its channels are declared. -/
def enrol (f : Fleet) (id : VehicleId) : Fleet :=
  { f with
    registry := f.registry.insert id .new
    tree := SensorChannels.declare f.tree id }

/-- The vehicle of an index.  It is registered when it is not. -/
def meet (f : Fleet) (index : UInt32) : VehicleId × Vehicle × Fleet :=
  let (id, f) := f.identify index
  match f.registry[id]? with
  | some vehicle => (id, vehicle, f)
  | none => (id, .new, f.enrol id)

/-- Changes what is known about a vehicle. -/
def setVehicle (f : Fleet) (id : VehicleId) (vehicle : Vehicle) : Fleet :=
  { f with registry := f.registry.insert id vehicle }

/-! ### Links -/

/-- The source to reach a vehicle at. -/
def preferred? (f : Fleet) (vehicle : VehicleId) : Option Source :=
  f.book.preferred? f.settings.preferredMedia vehicle

/-- Drops what is known about a vehicle's links: its command is cancelled and its addresses are
free. -/
def forget (f : Fleet) (vehicle : VehicleId) : Fleet :=
  { f with
    commands := (f.commands.cancel vehicle).2
    book := f.book.forget vehicle }

/-! ### Subscribers -/

/-- Somebody subscribes to the notices; nobody else does any more. -/
def subscribe (f : Fleet) : Fleet := { f with inbox := some .empty }

/-- The subscriber has taken what waited. -/
def drain (f : Fleet) : Fleet := { f with inbox := f.inbox.map fun _ => .empty }

/-- Tells the subscriber, if there is one. -/
def publish (f : Fleet) (notice : StatusNotice) : Fleet :=
  { f with inbox := f.inbox.map (·.push notice) }

@[simp] theorem ids_new (config : Config) (algorithms : List Algorithm) :
    (new config algorithms).ids = ∅ := rfl

theorem identify_of_known {f : Fleet} {index : UInt32} {id : VehicleId}
    (h : f.ids[index]? = some id) : f.identify index = (id, f) := by
  simp [identify, h]

end Fleet

end FleetLink
