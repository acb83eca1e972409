import FleetLink.DeviceTree
import FleetLink.ErrorClass
import FleetLink.VehicleId

/-!
# Vehicles

What the program knows about a vehicle: the status it last reported, and the last reading of its
counter, kept because a rate needs two readings.  A vehicle that was never heard of has neither.

The registry is the set of known vehicles.  Removing a vehicle from it and registering it again
starts over with nothing known.
-/

namespace FleetLink

open Std (ExtTreeMap)

/-- The status a vehicle last reported. -/
structure VehicleStatus where
  position : Option Position
  velocity : Option Velocity
  heading : Option Binary64
  algorithm : Option String
  error : ErrorClass
  /-- When the report came. -/
  updatedAt : Option Nat
  deriving DecidableEq, Repr

namespace VehicleStatus

/-- Nothing was reported yet. -/
def unknown : VehicleStatus := ⟨none, none, none, none, .noError, none⟩

/-- The status that a report gives.  An empty name means that no algorithm runs. -/
def ofReport (report : StatusReport) (now : Nat) : VehicleStatus where
  position := some report.position
  velocity := some report.velocity
  heading := some report.heading
  algorithm := if report.algorithm = "" then none else some report.algorithm
  error := ErrorClass.ofCode report.errorCode
  updatedAt := some now

end VehicleStatus

/-- A reading of the counter tubes that rates are derived from. -/
structure GeigerSample where
  itow : UInt32
  rawCounts : List UInt32
  deriving DecidableEq, Repr

/-- What is known about a vehicle. -/
structure Vehicle where
  status : VehicleStatus
  sample : Option GeigerSample
  deriving DecidableEq, Repr

/-- A vehicle that was just registered. -/
def Vehicle.new : Vehicle := ⟨.unknown, none⟩

/-- The known vehicles. -/
abbrev Registry := ExtTreeMap VehicleId Vehicle

end FleetLink
