import FleetLink.Sensor.Channels
import FleetLink.Sensor.Rate

/-!
# Sensor data

What becomes of the data of the algorithms on board.  An algorithm turns a payload into a batch of
channel writes; the batch is committed as a whole; and only after that the counter's reading is
retained for the next rate.

**Data without a place is dropped.**  A measurement belongs to a position, so nothing is written
before the vehicle has reported one.  The features of the camera carry positions of their own.

**A reading that is lost leaves no gap in the rates.**  If the batch is refused, the retained
reading stays, and the next rate spans the lost one.  If the device was switched off, it had no
counts: the retained reading is cleared, and no rate spans the pause.

## Main Definitions

* `Algorithm` — the algorithms whose data is understood
* `Algorithm.stage` — the writes for a payload
* `Algorithm.retain` — the vehicle once they are committed
* `Vehicle.absorb` — both, for a packet
-/

namespace FleetLink

/-- An algorithm on board. -/
inductive Algorithm where
  | camera
  | geigerCounter
  deriving DecidableEq, Repr

/-- What a sample keeps of a reading: the counts of the tubes that have channels.  A device that is
switched off gives none. -/
def GeigerReading.sample? (reading : GeigerReading) : Option GeigerSample :=
  reading.rawCounts.map fun counts => ⟨reading.itow, counts.take SensorChannels.tubes⟩

namespace Algorithm

/-- Every algorithm, in the order of their names. -/
def all : List Algorithm := [camera, geigerCounter]

/-- The name under which an algorithm sends data. -/
def name : Algorithm → String
  | camera => "camera"
  | geigerCounter => "geiger_counter"

/-- The algorithm with a name. -/
def ofName? (name : String) : Option Algorithm :=
  all.find? (·.name = name)

/-- The writes for counts of the tubes. -/
def countWrites (id : VehicleId) (position : Position) (counts : List UInt32) : Batch :=
  ((List.range SensorChannels.tubes).zip counts).map fun (tube, count) =>
    ⟨SensorChannels.rawCount id tube, position, some (.ofNat count.toNat)⟩

/-- The writes for rates of the tubes; a tube without a rate is passed over. -/
def rateWrites (id : VehicleId) (position : Position) (rates : List (Option Rate)) : Batch :=
  ((List.range SensorChannels.tubes).zip rates).filterMap fun (tube, rate) =>
    rate.map fun r => ⟨SensorChannels.rate id tube, position, some r.perSecond⟩

/-- The writes for a reading of the counter. -/
def readingWrites (id : VehicleId) (retained : Option GeigerSample) (position : Position)
    (reading : GeigerReading) : Batch :=
  let rates :=
    match retained, reading.sample? with
    | some previous, some current => Rate.perTube previous current
    | _, _ => []
  ⟨SensorChannels.doseRate id, position, reading.doseRate⟩ ::
    (countWrites id position (reading.rawCounts.getD []) ++ rateWrites id position rates)

/-- The writes for what the camera recognised: the time, at the place of the feature. -/
def featureWrites (id : VehicleId) (detection : CameraDetection) : Batch :=
  ((List.range SensorChannels.features).zip detection.features).map fun (place, feature) =>
    ⟨SensorChannels.feature id place, feature, some (.ofNat detection.itow.toNat)⟩

/-- The writes for a payload.  A payload of another type than the algorithm's has none. -/
def stage (a : Algorithm) (id : VehicleId) (v : Vehicle) (position : Position)
    (payload : Payload) : Batch :=
  match a, payload with
  | geigerCounter, .geiger reading => readingWrites id v.sample position reading
  | camera, .camera detection => featureWrites id detection
  | _, _ => []

/-- The vehicle once the writes for a payload are committed. -/
def retain (a : Algorithm) (v : Vehicle) (payload : Payload) : Vehicle :=
  match a, payload with
  | geigerCounter, .geiger reading => { v with sample := reading.sample? }
  | _, _ => v

end Algorithm

/-- Data of an algorithm was taken in. -/
structure Absorbed where
  /-- How many channel writes there were. -/
  writes : Nat
  vehicle : Vehicle
  tree : DeviceTree

/-- Takes in a packet of algorithm data: the named algorithm, if it is among those given, stages its
writes at the last known position, and they are committed as one batch. -/
def Vehicle.absorb (algorithms : List Algorithm) (tree : DeviceTree) (id : VehicleId) (v : Vehicle)
    (data : AlgorithmData) : Except ChannelPath Absorbed :=
  match v.status.position, algorithms.find? (·.name = data.algorithm) with
  | some position, some a =>
    let batch := a.stage id v position data.payload
    match tree.commit batch with
    | .error path => .error path
    | .ok tree => .ok ⟨batch.length, a.retain v data.payload, tree⟩
  | _, _ => .ok ⟨0, v, tree⟩

end FleetLink
