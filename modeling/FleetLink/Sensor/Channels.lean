import FleetLink.DeviceTree
import FleetLink.VehicleId

/-!
# Sensor channels

The channels of a vehicle in the device tree.  They are the same for every vehicle but for the id in
front: those of the counter with two tubes, and those of a camera that reports up to thirty-two
features.
-/

namespace FleetLink.SensorChannels

/-- How many tubes the counter has. -/
def tubes : Nat := 2

/-- How many features of the camera have a channel. -/
def features : Nat := 32

/-- A channel of the counter. -/
def counter (vehicle : VehicleId) (channel : String) : ChannelPath :=
  .of vehicle "geiger_counter" channel

/-- The dose rate. -/
def doseRate (vehicle : VehicleId) : ChannelPath := counter vehicle "dose_rate"

/-- The impulses of a tube since power on. -/
def rawCount (vehicle : VehicleId) (tube : Nat) : ChannelPath :=
  counter vehicle ("raw_count_" ++ toString tube)

/-- The impulses of a tube per second. -/
def rate (vehicle : VehicleId) (tube : Nat) : ChannelPath :=
  counter vehicle ("rate_" ++ toString tube)

/-- A feature of the camera. -/
def feature (vehicle : VehicleId) (place : Nat) : ChannelPath :=
  .of vehicle "camera" ("feature_" ++ toString place)

/-- Every channel of a vehicle with its unit. -/
def declarations (vehicle : VehicleId) : List (ChannelPath × Option String) :=
  (doseRate vehicle, some "mGy/h") ::
    ((List.range tubes).map fun i => (rawCount vehicle i, none)) ++
    ((List.range tubes).map fun i => (rate vehicle i, some "count/sec")) ++
    ((List.range features).map fun i => (feature vehicle i, none))

/-- Declares every channel of a vehicle. -/
def declare (tree : DeviceTree) (vehicle : VehicleId) : DeviceTree :=
  (declarations vehicle).foldl (fun t d => t.declare d.1 d.2) tree

end FleetLink.SensorChannels
