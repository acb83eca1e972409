import FleetLink.Proofs.Sensor.Rates

/-!
# The retained reading

A rate needs two readings, and the earlier one is kept from one call to the next.  Between them lie
reports, declarations, data of other algorithms, data under a wrong name or with a wrong payload,
and calls that are refused.  This module proves that after every such history **the retained reading
is the one of the latest call that took one in**, and so every rate spans exactly two readings that
were taken in one after the other.

**A refused call is as if it had not been made.**  Its reading is not retained, and the next rate
spans it.  A call with a reading that has no counts is taken in, and the next one has no rate.

**Looked at from the end.**  What is kept after a history is decided by its last event, if that is a
call that takes a reading in, and otherwise by what was before (`latest_concat_of_takesIn`,
`latest_concat_of_not_takesIn`).

## Main Definitions

* `Monitor`, `Monitor.Event`, `Monitor.step` — a vehicle, its tree, and what can happen
* `Monitor.TakesIn` — a call that takes a reading in
* `Monitor.Latest` — the latest reading that a history took in

## Main Statements

* `Monitor.exists_latest` — what is retained after every history
* `Monitor.rates_span_readings` — and what each call writes
-/

namespace FleetLink

/-- A vehicle, as far as it is known, and the tree that its data is written to. -/
structure Monitor where
  vehicle : Vehicle
  tree : DeviceTree

namespace Monitor

/-- What can happen to a vehicle and its tree. -/
inductive Event where
  | report (report : StatusReport) (now : ℕ)
  | declare (path : ChannelPath) (unit : Option String)
  | data (data : AlgorithmData)

/-- The place that an event reports. -/
def Event.place? : Event → Option Position
  | .report status _ => some status.position
  | _ => none

section

variable (algorithms : List Algorithm) (id : VehicleId)

/-- An event.  Data that is refused changes nothing. -/
def step (s : Monitor) : Event → Monitor
  | .report report now => { s with vehicle := { s.vehicle with status := .ofReport report now } }
  | .declare path unit => { s with tree := s.tree.declare path unit }
  | .data data =>
    match s.vehicle.absorb algorithms s.tree id data with
    | .ok done => ⟨done.vehicle, done.tree⟩
    | .error _ => s

/-- Some events, one after the other. -/
def run (s : Monitor) (history : List Event) : Monitor := history.foldl (step algorithms id) s

/-- Data brings a reading of the counter to a known place: it comes under the counter's name, the
counter is among the algorithms, and the payload is a reading. -/
structure Brings (s : Monitor) (data : AlgorithmData) (position : Position)
    (reading : GeigerReading) : Prop where
  name : data.algorithm = "geiger_counter"
  registered : .geigerCounter ∈ algorithms
  payload : data.payload = .geiger reading
  place : s.vehicle.status.position = some position

/-- An event takes a reading in: it is data that brings it and is not refused. -/
def TakesIn (s : Monitor) (event : Event) (reading : GeigerReading) : Prop :=
  ∃ data position done, event = .data data ∧ s.Brings algorithms data position reading ∧
    s.vehicle.absorb algorithms s.tree id data = .ok done

/-- A history takes a reading in after one of its parts. -/
def TookIn (start : Monitor) (history before : List Event) (reading : GeigerReading) : Prop :=
  ∃ event after, history = before ++ event :: after ∧
    (start.run algorithms id before).TakesIn algorithms id event reading

/-- The latest reading that a history took in. -/
def Latest (start : Monitor) (history : List Event) (reading : GeigerReading) : Prop :=
  ∃ before, start.TookIn algorithms id history before reading ∧
    ∀ other r, start.TookIn algorithms id history other r → other.length ≤ before.length

end

variable {algorithms : List Algorithm} {id : VehicleId} {s start : Monitor} {data : AlgorithmData}
  {position : Position} {reading : GeigerReading}

/-! ## One call -/

theorem name_eq_geigerCounter {a : Algorithm} (h : a.name = "geiger_counter") :
    a = .geigerCounter := by
  cases a with
  | camera => exact absurd h (by decide)
  | geigerCounter => rfl

theorem Brings.find? (h : s.Brings algorithms data position reading) :
    algorithms.find? (·.name = data.algorithm) = some .geigerCounter := by
  rw [h.name]
  have hfound : (algorithms.find? (·.name = "geiger_counter")).isSome := by
    rw [List.find?_isSome]
    exact ⟨_, h.registered, rfl⟩
  obtain ⟨a, ha⟩ := Option.isSome_iff_exists.mp hfound
  have hname := List.find?_some ha
  rw [decide_eq_true_iff] at hname
  rw [ha, name_eq_geigerCounter hname]

theorem Brings.stage (h : s.Brings algorithms data position reading) :
    Algorithm.stage .geigerCounter id s.vehicle position data.payload =
      Algorithm.readingWrites id s.vehicle.sample position reading := by
  rw [h.payload]
  rfl

/-- Data that brings a reading is refused exactly if the batch of that reading is. -/
theorem Brings.absorb_eq_ok_iff (h : s.Brings algorithms data position reading) {done : Absorbed} :
    s.vehicle.absorb algorithms s.tree id data = .ok done ↔
      ∃ written, s.tree.commit (Algorithm.readingWrites id s.vehicle.sample position reading) =
          .ok written ∧
        done = ⟨(Algorithm.readingWrites id s.vehicle.sample position reading).length,
          { s.vehicle with sample := reading.sample? }, written⟩ := by
  rw [Vehicle.absorb_eq_ok_iff, h.find?, h.place]
  constructor
  · rintro (⟨hnone, -⟩ | ⟨_, a, written, hplace, ha, hcommit, rfl⟩)
    · simp at hnone
    · obtain rfl := Option.some.inj hplace
      obtain rfl := Option.some.inj ha
      rw [h.stage] at hcommit ⊢
      refine ⟨written, hcommit, ?_⟩
      rw [h.payload]
      rfl
  · rintro ⟨written, hcommit, rfl⟩
    refine .inr ⟨position, _, written, rfl, rfl, ?_, ?_⟩
    · rw [h.stage, hcommit]
    · rw [h.stage, h.payload]
      rfl

theorem step_data_of_ok {done : Absorbed}
    (h : s.vehicle.absorb algorithms s.tree id data = .ok done) :
    s.step algorithms id (.data data) = ⟨done.vehicle, done.tree⟩ := by
  simp only [step, h]

theorem step_data_of_error {path : ChannelPath}
    (h : s.vehicle.absorb algorithms s.tree id data = .error path) :
    s.step algorithms id (.data data) = s := by
  simp only [step, h]

/-- A reading that is taken in is retained. -/
theorem TakesIn.sample_step {event : Event} (h : s.TakesIn algorithms id event reading) :
    (s.step algorithms id event).vehicle.sample = reading.sample? := by
  obtain ⟨data, position, done, rfl, hbrings, hok⟩ := h
  obtain ⟨written, -, rfl⟩ := hbrings.absorb_eq_ok_iff.mp hok
  rw [step_data_of_ok hok]

theorem TakesIn.unique {event : Event} {other : GeigerReading}
    (h : s.TakesIn algorithms id event reading) (h' : s.TakesIn algorithms id event other) :
    reading = other := by
  obtain ⟨data, _, _, rfl, hbrings, -⟩ := h
  obtain ⟨_, _, _, heq, hbrings', -⟩ := h'
  obtain rfl := Event.data.inj heq
  exact Payload.geiger.inj (hbrings.payload.symm.trans hbrings'.payload)

/-- **Nothing else touches what is retained.** -/
theorem sample_step_of_not_takesIn {event : Event}
    (h : ∀ r, ¬ s.TakesIn algorithms id event r) :
    (s.step algorithms id event).vehicle.sample = s.vehicle.sample := by
  cases event with
  | report report now => rfl
  | declare path unit => rfl
  | data data =>
      cases habsorb : s.vehicle.absorb algorithms s.tree id data with
      | error path => rw [step_data_of_error habsorb]
      | ok done =>
          rw [step_data_of_ok habsorb]
          obtain ⟨-, rfl⟩ | ⟨position, a, written, hplace, ha, -, rfl⟩ :=
            Vehicle.absorb_eq_ok_iff.mp habsorb
          · rfl
          · show (a.retain s.vehicle data.payload).sample = s.vehicle.sample
            unfold Algorithm.retain
            split
            next reading hpayload =>
              have hname := List.find?_some ha
              rw [decide_eq_true_iff] at hname
              have hbrings : s.Brings algorithms data position reading :=
                ⟨hname.symm, List.mem_of_find?_eq_some ha, hpayload, hplace⟩
              exact absurd ⟨data, position, _, rfl, hbrings, habsorb⟩ (h reading)
            next => rfl

/-! ## Histories -/

theorem run_concat (history : List Event) (event : Event) :
    start.run algorithms id (history ++ [event]) =
      (start.run algorithms id history).step algorithms id event := by
  simp [run]

/-- What a longer history takes in: what the shorter one did, and what the last event does. -/
theorem tookIn_concat_iff {history before : List Event} {event : Event} :
    start.TookIn algorithms id (history ++ [event]) before reading ↔
      start.TookIn algorithms id history before reading ∨
        before = history ∧
          (start.run algorithms id history).TakesIn algorithms id event reading := by
  constructor
  · rintro ⟨taken, after, hsplit, htakes⟩
    rcases List.eq_nil_or_concat after with rfl | ⟨later, last, rfl⟩
    · obtain ⟨rfl, hlast⟩ := List.append_inj' hsplit rfl
      obtain rfl := (List.cons.inj hlast).1
      exact .inr ⟨rfl, htakes⟩
    · rw [List.concat_eq_append, ← List.cons_append, ← List.append_assoc] at hsplit
      obtain ⟨rfl, -⟩ := List.append_inj' hsplit rfl
      exact .inl ⟨taken, later, rfl, htakes⟩
  · rintro (⟨taken, after, rfl, htakes⟩ | ⟨rfl, htakes⟩)
    · exact ⟨taken, after ++ [event], by simp, htakes⟩
    · exact ⟨event, [], rfl, htakes⟩

theorem TookIn.length_lt {history before : List Event}
    (h : start.TookIn algorithms id history before reading) : before.length < history.length := by
  obtain ⟨event, after, rfl, -⟩ := h
  simp

/-- A call that takes a reading in makes it the latest one. -/
theorem latest_concat_of_takesIn {history : List Event} {event : Event} {r : GeigerReading}
    (h : (start.run algorithms id history).TakesIn algorithms id event reading) :
    start.Latest algorithms id (history ++ [event]) r ↔ reading = r := by
  have hlast : start.TookIn algorithms id (history ++ [event]) history reading :=
    tookIn_concat_iff.mpr (.inr ⟨rfl, h⟩)
  constructor
  · rintro ⟨before, htook, hlatest⟩
    rcases tookIn_concat_iff.mp htook with hearlier | ⟨rfl, hr⟩
    · exact absurd (hlatest history reading hlast) (Nat.not_le.mpr hearlier.length_lt)
    · exact h.unique hr
  · rintro rfl
    refine ⟨history, hlast, ?_⟩
    intro other r htook
    have hlt := htook.length_lt
    rw [List.length_append, List.length_singleton] at hlt
    exact Nat.le_of_lt_succ hlt

/-- Any other event takes nothing in. -/
theorem tookIn_concat_of_not_takesIn {history before : List Event} {event : Event}
    (h : ∀ r, ¬ (start.run algorithms id history).TakesIn algorithms id event r) :
    start.TookIn algorithms id (history ++ [event]) before reading ↔
      start.TookIn algorithms id history before reading := by
  rw [tookIn_concat_iff, or_iff_left fun hlast => h reading hlast.2]

theorem latest_concat_of_not_takesIn {history : List Event} {event : Event}
    (h : ∀ r, ¬ (start.run algorithms id history).TakesIn algorithms id event r) :
    start.Latest algorithms id (history ++ [event]) reading ↔
      start.Latest algorithms id history reading := by
  simp only [Latest, tookIn_concat_of_not_takesIn h]

/-- **What is retained after a history:** the latest reading, if there is one. -/
theorem exists_latest (algorithms : List Algorithm) (id : VehicleId)
    (hstart : start.vehicle.sample = none) (history : List Event) :
    ∃ latest : Option GeigerReading,
      (∀ r, start.Latest algorithms id history r ↔ latest = some r) ∧
      ((∃ before r, start.TookIn algorithms id history before r) ↔ latest.isSome) ∧
      (start.run algorithms id history).vehicle.sample = latest.bind (·.sample?) := by
  induction history using List.reverseRecOn with
  | nil =>
      have hnone : ∀ before r, ¬ start.TookIn algorithms id [] before r :=
        fun before r h => Nat.not_lt_zero _ h.length_lt
      refine ⟨none, ?_, ?_, hstart⟩
      · intro r
        exact iff_of_false (fun ⟨before, h, _⟩ => hnone before r h) (by simp)
      · exact iff_of_false (fun ⟨before, r, h⟩ => hnone before r h) (by simp)
  | append_singleton history event ih =>
      obtain ⟨latest, hlatest, hsome, hsample⟩ := ih
      by_cases htakes : ∃ r, (start.run algorithms id history).TakesIn algorithms id event r
      · obtain ⟨reading, htakes⟩ := htakes
        refine ⟨some reading, ?_, ?_, ?_⟩
        · intro r
          rw [latest_concat_of_takesIn htakes, Option.some.injEq]
        · exact iff_of_true ⟨history, reading, tookIn_concat_iff.mpr (.inr ⟨rfl, htakes⟩)⟩ rfl
        · rw [run_concat, htakes.sample_step]
          rfl
      · have hnot : ∀ r, ¬ (start.run algorithms id history).TakesIn algorithms id event r :=
          fun r h => htakes ⟨r, h⟩
        refine ⟨latest, ?_, ?_, ?_⟩
        · intro r
          rw [latest_concat_of_not_takesIn hnot, hlatest r]
        · simp only [tookIn_concat_of_not_takesIn hnot, hsome]
        · rw [run_concat, sample_step_of_not_takesIn hnot, hsample]

/-- A place is known once a report came, and it is that of the last one. -/
theorem position_run (algorithms : List Algorithm) (id : VehicleId)
    (hstart : start.vehicle.status.position = none) (history : List Event) :
    (start.run algorithms id history).vehicle.status.position =
      history.reverse.findSome? Event.place? := by
  induction history using List.reverseRecOn with
  | nil => exact hstart
  | append_singleton history event ih =>
      rw [run_concat, List.reverse_append, List.reverse_singleton, List.singleton_append]
      cases event with
      | report report now => rfl
      | declare path unit => exact ih
      | data data =>
          show _ = history.reverse.findSome? Event.place?
          rw [← ih]
          cases habsorb : (start.run algorithms id history).vehicle.absorb algorithms _ id data with
          | error path => rw [step_data_of_error habsorb]
          | ok done => rw [step_data_of_ok habsorb, Vehicle.status_absorb habsorb]

/-- **Rates span the readings that were taken in.**  After every history of reports, declarations
and data of algorithms, for every vehicle that was just registered, every tree, whatever is declared
in it, and whichever algorithms there are:

A call that is refused leaves everything as it was, and it is one with a channel of the vehicle that
has not been declared.

What is retained is the latest reading that was taken in, cut to the tubes that have channels, and
nothing if there is none or it had no counts.

A call that brings a reading, at the place of the last report, has a batch without two writes to one
channel.  It is refused exactly if its batch is.  The batch has a number for the rate of a tube
exactly if the latest reading and the new one give that tube a rate; the span is then not empty, the
rate is not negative, and the number is the exact rate up to two roundings. -/
theorem rates_span_readings (algorithms : List Algorithm) (id : VehicleId) (tree : DeviceTree)
    (history : List Event) :
    let start : Monitor := ⟨.new, tree⟩
    let s := start.run algorithms id history
    (∀ data path, s.vehicle.absorb algorithms s.tree id data = .error path →
      s.step algorithms id (.data data) = s ∧
      path ∈ SensorChannels.paths id ∧ s.tree.isDeclared path = false) ∧
    (∀ reading, start.Latest algorithms id history reading →
      s.vehicle.sample = reading.rawCounts.map fun counts => ⟨reading.itow, counts.take 2⟩) ∧
    ((∀ before reading, ¬ start.TookIn algorithms id history before reading) →
      s.vehicle.sample = none) ∧
    ∀ data position reading, s.Brings algorithms data position reading →
      let batch := Algorithm.stage .geigerCounter id s.vehicle position data.payload
      history.reverse.findSome? Event.place? = some position ∧
      (batch.map (·.channel)).Nodup ∧
      (∀ path, s.vehicle.absorb algorithms s.tree id data = .error path ↔
        s.tree.commit batch = .error path) ∧
      (∀ written, s.tree.commit batch = .ok written →
        (s.step algorithms id (.data data)).tree = written) ∧
      ∀ tube < 2,
        (∀ m, batch.value? (SensorChannels.rate id tube) = some m →
          ∃ previous rate x, start.Latest algorithms id history previous ∧
            HasRate previous reading tube rate ∧ previous.itow < reading.itow ∧ 0 ≤ rate ∧
            m = ⟨position, some x⟩ ∧ x.Approximates rate) ∧
        ∀ previous rate, start.Latest algorithms id history previous →
          HasRate previous reading tube rate →
          ∃ x, batch.value? (SensorChannels.rate id tube) = some ⟨position, some x⟩ ∧
            x.Approximates rate := by
  intro start s
  have hnothing : start.vehicle.sample = none ∧ start.vehicle.status.position = none := ⟨rfl, rfl⟩
  obtain ⟨latest, hlatest, htook, hsample⟩ := exists_latest algorithms id hnothing.1 history
  refine ⟨fun data path herror => ⟨step_data_of_error herror, ?_⟩, ?_, ?_, ?_⟩
  · obtain ⟨position, a, -, -, hcommit⟩ := Vehicle.absorb_eq_error_iff.mp herror
    obtain ⟨before, m, after, hsplit, -, hundeclared⟩ := DeviceTree.commit_eq_error_iff.mp hcommit
    refine ⟨?_, hundeclared⟩
    exact Algorithm.channel_mem_paths (u := ⟨path, m⟩) (by rw [hsplit]; simp)
  · intro reading h
    rw [hsample, (hlatest reading).mp h]
    rfl
  · intro hnone
    have hlatestNone : latest = none := by
      rw [← Option.not_isSome_iff_eq_none, ← htook]
      exact fun ⟨before, reading, h⟩ => hnone before reading h
    rw [hsample, hlatestNone]
    rfl
  · intro data position reading hbrings batch
    have hbatch : batch =
        Algorithm.readingWrites id (latest.bind (·.sample?)) position reading := by
      rw [← hsample]
      exact hbrings.stage
    refine ⟨?_, Algorithm.nodup_channels_stage _ _ _, ?_, ?_, fun tube htube => ⟨?_, ?_⟩⟩
    · rw [← position_run algorithms id hnothing.2 history]
      exact hbrings.place
    · intro path
      rw [Vehicle.absorb_eq_error_iff, hbrings.find?, hbrings.place]
      simp [batch]
    · intro written hcommit
      rw [show batch = _ from hbrings.stage] at hcommit
      rw [step_data_of_ok (hbrings.absorb_eq_ok_iff.mpr ⟨written, hcommit, rfl⟩)]
    · intro m hm
      rw [hbatch] at hm
      obtain ⟨previous, rate, x, hprevious, hrate, hmeasured, hclose⟩ :=
        Algorithm.exists_rate_of_value? htube hm
      exact ⟨previous, rate, x, (hlatest previous).mpr hprevious, hrate, hrate.itow_lt,
        hrate.nonneg, hmeasured, hclose⟩
    · intro previous rate hprevious hrate
      rw [hbatch]
      exact Algorithm.exists_value?_of_rate htube ((hlatest previous).mp hprevious) hrate

end Monitor

end FleetLink
