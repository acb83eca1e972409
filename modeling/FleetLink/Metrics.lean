import FleetLink.AddressBook
import FleetLink.Packet
import FleetLink.Tally

/-!
# Metrics

What the program counts: packets by kind, packets that were dropped and why, responses that came too
late, addresses that were refused, commands by the way they ended, and the vehicles seen so far.

The counts are shown in the Prometheus text format.  A family stands there once with its meaning and
its type, and then each of its samples; families stand in the order of their names, samples in the
order of their labels, and a labelled family that has seen nothing is left out.

## Main Definitions

* `Metrics` — the counts
* `DropReason`, `CallOutcome` — the labels of two of the families
* `Metrics.families`, `Metrics.exposition` — the counts as text
-/

namespace FleetLink

/-- Why a packet or a response was dropped. -/
inductive DropReason where
  | unhandledKind
  | handlerError
  | unknownSource
  deriving DecidableEq, Repr

/-- The name of a reason. -/
def DropReason.label : DropReason → String
  | unhandledKind => "unhandled_kind"
  | handlerError => "handler_error"
  | unknownSource => "unknown_source"

/-- How a command ended, once it had a vehicle and an address to go to. -/
inductive CallOutcome where
  | completed
  | cancelled
  | sendFailed
  | rejected
  | timeout
  deriving DecidableEq, Repr

/-- The name of an outcome. -/
def CallOutcome.label : CallOutcome → String
  | completed => "completed"
  | cancelled => "cancelled"
  | sendFailed => "send_failed"
  | rejected => "rejected"
  | timeout => "timeout"

/-- What was counted. -/
structure Metrics where
  packetsReceived : Tally
  packetsDropped : Tally
  staleResponses : Nat
  addressConflicts : Nat
  addressesInUse : Nat
  commands : Tally
  vehiclesKnown : Nat
  deriving Inhabited

namespace Metrics

/-- Nothing was counted yet. -/
def zero : Metrics := ⟨.empty, .empty, 0, 0, 0, .empty, 0⟩

/-- How many packets of a kind came. -/
def received (m : Metrics) (kind : PacketKind) : Nat := m.packetsReceived.count kind.label

/-- How many packets or responses were dropped for a reason. -/
def dropped (m : Metrics) (reason : DropReason) : Nat := m.packetsDropped.count reason.label

/-- How many commands ended in a way. -/
def ended (m : Metrics) (outcome : CallOutcome) : Nat := m.commands.count outcome.label

/-- A packet came. -/
def receive (m : Metrics) (kind : PacketKind) : Metrics :=
  { m with packetsReceived := m.packetsReceived.bump kind.label }

/-- A packet or a response is dropped. -/
def drop (m : Metrics) (reason : DropReason) : Metrics :=
  { m with packetsDropped := m.packetsDropped.bump reason.label }

/-- A response came that nothing waited for. -/
def staleResponse (m : Metrics) : Metrics :=
  { m with staleResponses := m.staleResponses + 1 }

/-- A claim to an address was refused. -/
def refuse (m : Metrics) : AddressFault → Metrics
  | .conflict .. => { m with addressConflicts := m.addressConflicts + 1 }
  | .inUse .. => { m with addressesInUse := m.addressesInUse + 1 }

/-- A command ended. -/
def finish (m : Metrics) (outcome : CallOutcome) : Metrics :=
  { m with commands := m.commands.bump outcome.label }

/-- So many vehicles are known. -/
def knowVehicles (m : Metrics) (count : Nat) : Metrics :=
  { m with vehiclesKnown := count }

end Metrics

/-! ### As text -/

/-- What a family's samples do. -/
inductive MetricType where
  | counter
  | gauge
  deriving DecidableEq, Repr

/-- The name of a type. -/
def MetricType.name : MetricType → String
  | counter => "counter"
  | gauge => "gauge"

/-- A number with its label, if the family has one. -/
structure Sample where
  label : Option (String × String)
  value : Nat
  deriving DecidableEq, Repr

/-- Samples of one name. -/
structure MetricFamily where
  name : String
  help : String
  type : MetricType
  samples : List Sample
  deriving DecidableEq, Repr

namespace MetricFamily

/-- The line of a sample. -/
def sampleLine (f : MetricFamily) (s : Sample) : String :=
  let label :=
    match s.label with
    | none => ""
    | some (name, value) => "\x7b" ++ name ++ "=\"" ++ value ++ "\"\x7d"
  f.name ++ label ++ " " ++ toString s.value

/-- The lines of a family: its meaning, its type and its samples. -/
def lines (f : MetricFamily) : List String :=
  ["# HELP " ++ f.name ++ " " ++ f.help, "# TYPE " ++ f.name ++ " " ++ f.type.name] ++
    f.samples.map f.sampleLine

end MetricFamily

namespace Metrics

/-- A family with a sample for each label of a tally. -/
def labelled (name help label : String) (tally : Tally) : MetricFamily :=
  ⟨name, help, .counter, tally.toList.map fun (value, count) => ⟨some (label, value), count⟩⟩

/-- A family with one sample and no label. -/
def single (name help : String) (type : MetricType) (value : Nat) : MetricFamily :=
  ⟨name, help, type, [⟨none, value⟩]⟩

/-- Every family, in the order of their names. -/
def families (m : Metrics) : List MetricFamily :=
  [single "flock_address_conflicts_total" "Status packets refused because of an address conflict"
      .counter m.addressConflicts,
    single "flock_address_in_use_total"
      "Status packets refused because another vehicle owns the source address"
      .counter m.addressesInUse,
    labelled "flock_commands_total" "Commands by outcome" "outcome" m.commands,
    labelled "flock_packets_dropped_total" "Inbound packets dropped by reason" "reason"
      m.packetsDropped,
    labelled "flock_packets_received_total" "Inbound packets by kind" "kind" m.packetsReceived,
    single "flock_stale_responses_total" "Command responses with no pending command"
      .counter m.staleResponses,
    single "flock_vehicles_known" "Vehicles resolved by the driver" .gauge m.vehiclesKnown]

/-- The families that have samples. -/
def shown (m : Metrics) : List MetricFamily :=
  m.families.filter fun f => f.samples ≠ []

/-- Every line of the text format. -/
def exposition (m : Metrics) : List String :=
  m.shown.flatMap (·.lines)

/-- The lines of the samples alone. -/
def sampleLines (m : Metrics) : List String :=
  m.shown.flatMap fun f => f.samples.map f.sampleLine

@[simp] theorem received_zero (kind : PacketKind) : zero.received kind = 0 := by
  simp [received, zero]

end Metrics

end FleetLink
