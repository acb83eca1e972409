import Std.Data.ExtTreeMap
import FleetLink.VehicleId

/-!
# The command table

A vehicle carries out one command at a time, so at most one command of a vehicle is pending.
Whoever issues a command holds a slot and waits for its outcome: the text of the vehicle's response,
or that the command was cancelled.

**Who resolves a slot.**  The table points from a vehicle to the slot of its pending command.
Whatever resolves a slot first takes it out of the table, so no slot can be resolved twice: a
response (`fulfill`), a cancellation (`cancel`), or a newer command for the vehicle, which in
lenient mode takes the older one's place and cancels it.

**Who releases a slot.**  Its holder, whenever it stops waiting.  A slot that is still pending then
leaves the table, but a newer slot of the vehicle stays.

**Small steps.**  The operations are made of steps on the table (`enter`, `remove`, `removeOwn`) and
steps on one slot (`resolve`, `close`).  Each step is atomic; between the steps of one operation
those of others may happen.

## Main Definitions

* `Outcome`, `CommandSlot` — how a command ends, and who waits for it
* `CommandTable` — the pending commands and the open slots
* `current?`, `wait?` — what the table and the holder of a slot see
* `enter`, `remove`, `resolve`, `removeOwn`, `close` — the steps
* `begin`, `fulfill`, `cancel`, `release` — the operations
-/

namespace FleetLink

open Std (ExtTreeMap)

/-- How a command ended. -/
inductive Outcome where
  | completed (text : String)
  | cancelled
  deriving DecidableEq, Repr

/-- The text for whoever waited. -/
def Outcome.text : Outcome → String
  | completed text => text
  | cancelled => "Execution cancelled"

/-- The number of a slot; no two slots of a table have the same.  Slots are numbered in the order in
which commands begin, so these numbers and words of sixty-four bits agree for fewer than `2 ^ 64`
commands. -/
abbrev SlotId := Nat

/-- The pending command of a vehicle. -/
structure PendingCommand where
  slot : SlotId
  /-- When the command was issued. -/
  since : Nat
  deriving DecidableEq, Repr

/-- A slot that somebody holds. -/
structure CommandSlot where
  vehicle : VehicleId
  /-- How the command ended, once it has. -/
  outcome : Option Outcome
  deriving DecidableEq, Repr

/-- The pending commands and the slots that are held. -/
structure CommandTable where
  /-- The number of the next slot. -/
  next : SlotId
  pending : ExtTreeMap VehicleId PendingCommand
  slots : ExtTreeMap SlotId CommandSlot
  deriving Inhabited

namespace CommandTable

/-- No command was ever issued. -/
def empty : CommandTable := ⟨0, ∅, ∅⟩

/-- The vehicle has a pending command. -/
def isPending (t : CommandTable) (vehicle : VehicleId) : Bool :=
  vehicle ∈ t.pending

/-- How many vehicles have a pending command. -/
def count (t : CommandTable) : Nat := t.pending.size

/-- How long the command of a vehicle has been pending. -/
def age? (t : CommandTable) (now : Nat) (vehicle : VehicleId) : Option Nat :=
  t.pending[vehicle]?.map fun p => now - p.since

/-- The slot of the pending command of a vehicle. -/
def current? (t : CommandTable) (vehicle : VehicleId) : Option SlotId :=
  t.pending[vehicle]?.map (·.slot)

/-- The outcome that was told to the holder of a slot. -/
def outcome? (t : CommandTable) (slot : SlotId) : Option Outcome :=
  t.slots[slot]?.bind (·.outcome)

/-- What the holder of a slot finds when it looks: the outcome, or nothing as long as the command is
pending.  A command that left the table without a word counts as cancelled. -/
def wait? (t : CommandTable) (slot : SlotId) : Option Outcome :=
  match t.slots[slot]? with
  | none => none
  | some s =>
    match s.outcome with
    | some outcome => some outcome
    | none => if t.current? s.vehicle = some slot then none else some .cancelled

/-! ### Steps -/

/-- Enters a new slot as the pending command of a vehicle.  Returns the slot that was there. -/
def enter (t : CommandTable) (now : Nat) (vehicle : VehicleId) : Option SlotId × CommandTable :=
  (t.current? vehicle,
    { next := t.next + 1
      pending := t.pending.insert vehicle ⟨t.next, now⟩
      slots := t.slots.insert t.next ⟨vehicle, none⟩ })

/-- Removes the pending command of a vehicle.  Returns its slot. -/
def remove (t : CommandTable) (vehicle : VehicleId) : Option SlotId × CommandTable :=
  (t.current? vehicle, { t with pending := t.pending.erase vehicle })

/-- Tells the holder of a slot how its command ended.  False if nobody holds the slot any more. -/
def resolve (t : CommandTable) (slot : SlotId) (outcome : Outcome) : Bool × CommandTable :=
  match t.slots[slot]? with
  | none => (false, t)
  | some s => (true, { t with slots := t.slots.insert slot { s with outcome := some outcome } })

/-- Removes the pending command of a slot's vehicle if it is this slot's. -/
def removeOwn (t : CommandTable) (slot : SlotId) : CommandTable :=
  match t.slots[slot]? with
  | none => t
  | some s =>
    if t.current? s.vehicle = some slot then
      { t with pending := t.pending.erase s.vehicle }
    else t

/-- Nobody holds the slot any more. -/
def close (t : CommandTable) (slot : SlotId) : CommandTable :=
  { t with slots := t.slots.erase slot }

/-! ### Operations -/

/-- Issues a command for a vehicle.  In strict mode none is issued while another is pending; else
the pending one is cancelled. -/
def begin (t : CommandTable) (now : Nat) (strict : Bool) (vehicle : VehicleId) :
    Option (SlotId × CommandTable) :=
  if strict && t.isPending vehicle then none
  else
    let entered := t.enter now vehicle
    match entered.1 with
    | none => some (t.next, entered.2)
    | some replaced => some (t.next, (entered.2.resolve replaced .cancelled).2)

/-- The vehicle answered.  False when nothing waited for the answer. -/
def fulfill (t : CommandTable) (vehicle : VehicleId) (text : String) : Bool × CommandTable :=
  let removed := t.remove vehicle
  match removed.1 with
  | none => (false, removed.2)
  | some slot => removed.2.resolve slot (.completed text)

/-- Cancels the pending command of a vehicle.  False when there is none. -/
def cancel (t : CommandTable) (vehicle : VehicleId) : Bool × CommandTable :=
  let removed := t.remove vehicle
  match removed.1 with
  | none => (false, removed.2)
  | some slot => (true, (removed.2.resolve slot .cancelled).2)

/-- The holder of a slot lets it go. -/
def release (t : CommandTable) (slot : SlotId) : CommandTable :=
  (t.removeOwn slot).close slot

@[simp] theorem isPending_empty (vehicle : VehicleId) : empty.isPending vehicle = false := by
  simp [isPending, empty]

@[simp] theorem outcome?_empty (slot : SlotId) : empty.outcome? slot = none := by
  simp [outcome?, empty]

end CommandTable

end FleetLink
