import Std.Data.ExtTreeMap
import FleetLink.Packet

/-!
# The device tree

Named channels that hold the latest measurement.  A channel is declared once, with its unit, and
written any number of times after that.

**Batches land whole or not at all.**  The writes of one packet are collected in a batch.  A batch
that names an undeclared channel changes nothing, and the first such channel in the order of writing
is the one reported.

## Main Definitions

* `ChannelPath`, `Measurement`, `Channel` — what is in the tree
* `Batch` — writes that belong together
* `DeviceTree.declare`, `DeviceTree.commit` — the two ways the tree changes
-/

namespace FleetLink

open Std (ExtTreeMap)

/-- The name of a channel. -/
abbrev ChannelPath := String

/-- The name of a channel of a device of a vehicle. -/
def ChannelPath.of (vehicle device channel : String) : ChannelPath :=
  vehicle ++ "/" ++ device ++ "/" ++ channel

/-- A value and where it was measured; the value is absent when the device is switched off. -/
structure Measurement where
  position : Position
  value : Option Binary64
  deriving DecidableEq, Repr

/-- A write to a channel. -/
structure ChannelUpdate where
  channel : ChannelPath
  measurement : Measurement
  deriving DecidableEq, Repr

/-- Writes that belong together, in order. -/
abbrev Batch := List ChannelUpdate

namespace Batch

/-- What a batch would leave in a channel: the last of its writes there. -/
def value? (batch : Batch) (channel : ChannelPath) : Option Measurement :=
  (batch.reverse.find? (·.channel = channel)).map (·.measurement)

end Batch

/-- A declared channel. -/
structure Channel where
  unit : Option String
  value : Option Measurement
  /-- How often it was written. -/
  writes : Nat
  deriving DecidableEq, Repr

/-- A channel that was never written. -/
def Channel.fresh (unit : Option String) : Channel := ⟨unit, none, 0⟩

/-- The channel after a write. -/
def Channel.written (c : Channel) (m : Measurement) : Channel :=
  { c with value := some m, writes := c.writes + 1 }

/-- The declared channels. -/
structure DeviceTree where
  channels : ExtTreeMap ChannelPath Channel
  deriving Inhabited

namespace DeviceTree

/-- A tree without channels. -/
def empty : DeviceTree := ⟨∅⟩

/-- A channel has been declared. -/
def isDeclared (t : DeviceTree) (path : ChannelPath) : Bool :=
  path ∈ t.channels

/-- How many channels have been declared. -/
def channelCount (t : DeviceTree) : Nat := t.channels.size

/-- What a channel holds. -/
def value? (t : DeviceTree) (path : ChannelPath) : Option Measurement :=
  t.channels[path]?.bind (·.value)

/-- The unit of a channel. -/
def unit? (t : DeviceTree) (path : ChannelPath) : Option String :=
  t.channels[path]?.bind (·.unit)

/-- How often a channel was written. -/
def writes (t : DeviceTree) (path : ChannelPath) : Nat :=
  (t.channels[path]?.map (·.writes)).getD 0

/-- Declares a channel.  One that is declared already stays as it is. -/
def declare (t : DeviceTree) (path : ChannelPath) (unit : Option String) : DeviceTree :=
  ⟨t.channels.insertIfNew path (.fresh unit)⟩

/-- Writes to a declared channel. -/
def write (t : DeviceTree) (u : ChannelUpdate) : DeviceTree :=
  match t.channels[u.channel]? with
  | none => t
  | some c => ⟨t.channels.insert u.channel (c.written u.measurement)⟩

/-- The first channel of a batch that has not been declared. -/
def undeclared? (t : DeviceTree) (batch : Batch) : Option ChannelPath :=
  (batch.find? fun u => !t.isDeclared u.channel).map (·.channel)

/-- Commits a batch, or names the first channel that has not been declared. -/
def commit (t : DeviceTree) (batch : Batch) : Except ChannelPath DeviceTree :=
  match t.undeclared? batch with
  | some path => .error path
  | none => .ok (batch.foldl write t)

/-- The channels that hold something, in the order of their names. -/
def snapshot (t : DeviceTree) : List (ChannelPath × Measurement) :=
  t.channels.toList.filterMap fun (path, c) => c.value.map fun m => (path, m)

@[simp] theorem isDeclared_empty (path : ChannelPath) : empty.isDeclared path = false := by
  simp [isDeclared, empty]

@[simp] theorem commit_nil (t : DeviceTree) : t.commit [] = .ok t := rfl

end DeviceTree

/-- The wording of a commit that is refused. -/
def undeclaredMessage (path : ChannelPath) : String :=
  s!"channel {path} has not been declared"

end FleetLink
