/-!
# Error classes

What a vehicle reports as a number, as one of ten classes.  Every number has a class: those that
the table does not hold are `unknown`.
-/

namespace FleetLink

/-- What is wrong with a vehicle. -/
inductive ErrorClass where
  | noError
  | lowBattery
  | batteryCritical
  | gpsSignalLost
  | rcSignalLost
  | geofenceViolation
  | sensorFailure
  | motorFailure
  | failsafeActive
  | unknown
  deriving DecidableEq, Repr, Inhabited

namespace ErrorClass

/-- The class of a reported code. -/
def ofCode (code : UInt8) : ErrorClass :=
  match code.toNat with
  | 0 => noError
  | 1 => lowBattery
  | 2 => batteryCritical
  | 3 => gpsSignalLost
  | 4 => rcSignalLost
  | 5 => geofenceViolation
  | 6 => sensorFailure
  | 7 => motorFailure
  | 8 => failsafeActive
  | _ => unknown

/-- The name of a class in reports. -/
def label : ErrorClass → String
  | noError => "no_error"
  | lowBattery => "low_battery"
  | batteryCritical => "battery_critical"
  | gpsSignalLost => "gps_signal_lost"
  | rcSignalLost => "rc_signal_lost"
  | geofenceViolation => "geofence_violation"
  | sensorFailure => "sensor_failure"
  | motorFailure => "motor_failure"
  | failsafeActive => "failsafe_active"
  | unknown => "unknown"

end ErrorClass

end FleetLink
