import FleetLink.Proofs.Sensor.Footprint
import FleetLink.Proofs.Session.Identities

/-!
# A packet concerns one vehicle

A fleet keeps everything that is known of its vehicles in maps that all packets work on.  This
module proves that **a packet changes nothing of a vehicle that it does not concern**.  What a
packet concerns is told in one of two ways: status reports and sensor data carry the index of a
vehicle, and a part of a response concerns the vehicle that owns the source it comes from, if one
does.  All other packets are counted, and that is all.

A vehicle is touched through the registry, the address book, the device tree or the command table.
In the first three it has places of its own: its id is the key, and its channels are no other
vehicle's (`vehicle_eq_of_mem_paths`).  A claim to an address writes to the map of the sources, too,
but never over the entry of another vehicle.

## Main Statements

* `Fleet.Untouched` — nothing that is known of a vehicle itself differs
* `Fleet.Confined` — what a packet of each kind leaves alone
* `untouched_takeStatus`, `untouched_takeData` — vehicles that a report or data is not about
* `confined_handle` — every packet is confined
* `packet_confined` — every packet that a session takes in
-/

namespace FleetLink

/-- A claim changes no address of another vehicle, and takes no source from it. -/
theorem AddressBook.others_record {book written : AddressBook} {vehicle other : VehicleId}
    {source : Source} {recorded : Recorded} (hne : other ≠ vehicle)
    (ok : book.record vehicle source = .ok (recorded, written)) :
    (∀ medium, written.address? other medium = book.address? other medium) ∧
      ∀ s, written.owner? s = some other ↔ book.owner? s = some other := by
  -- What is written is nobody's, or the claimant's own.
  have hwrite : (∀ owner, book.owner? source = some owner → owner = vehicle) →
      (∀ medium, (book.write vehicle source).address? other medium = book.address? other medium) ∧
        ∀ s, (book.write vehicle source).owner? s = some other ↔ book.owner? s = some other := by
    intro hown
    refine ⟨fun medium => ?_, fun s => ?_⟩
    · rw [address?_write, if_neg fun hboth => hne hboth.1.symm]
    · rw [owner?_write]
      split
      next hs =>
        subst hs
        constructor
        · intro hvehicle
          exact absurd (Option.some.inj hvehicle).symm hne
        · intro howner
          exact absurd (hown other howner) hne
      next => rfl
  unfold record at ok
  cases hknown : book.address? vehicle source.medium with
  | some existing =>
      simp only [hknown] at ok
      split at ok
      · cases ok
        exact ⟨fun _ => rfl, fun _ => Iff.rfl⟩
      · cases ok
  | none =>
      cases howner : book.owner? source with
      | none =>
          simp only [hknown, howner] at ok
          cases ok
          exact hwrite (by simp [howner])
      | some owner =>
          simp only [hknown, howner] at ok
          split at ok
          next hv =>
            cases ok
            exact hwrite (by simp [howner, hv])
          · cases ok

namespace Fleet

/-- The status of a vehicle.  One that is not registered has reported nothing. -/
def status (f : Fleet) (vehicle : VehicleId) : VehicleStatus :=
  (f.registry[vehicle]?.getD .new).status

/-- Nothing that is known of a vehicle itself differs: its place in the registry with its status and
its sample, its addresses and sources, and its channels with their values and numbers of writes. -/
structure Untouched (vehicle : VehicleId) (f g : Fleet) : Prop where
  entry : g.registry[vehicle]? = f.registry[vehicle]?
  addresses : ∀ medium, g.book.address? vehicle medium = f.book.address? vehicle medium
  sources : ∀ source, g.book.owner? source = some vehicle ↔ f.book.owner? source = some vehicle
  channels : ∀ path ∈ SensorChannels.paths vehicle, g.tree.channels[path]? = f.tree.channels[path]?

/-- What a packet from a source leaves alone, when it makes one fleet of another.  Given is which id
an index has. -/
def Confined (idOf : UInt32 → VehicleId) (source : Source) (f g : Fleet) : Packet → Prop
  | .commandResponse _ | .compressedCommandResponse _ =>
    g.registry = f.registry ∧ g.tree = f.tree ∧ g.book = f.book ∧
      ∀ vehicle, f.book.owner? source ≠ some vehicle →
        CommandTable.SameFor vehicle f.commands g.commands
  | .status report =>
    g.commands = f.commands ∧ g.assembler = f.assembler ∧
      ∀ vehicle, vehicle ≠ idOf report.index → Untouched vehicle f g
  | .algorithmData data =>
    g.book = f.book ∧ g.commands = f.commands ∧ g.assembler = f.assembler ∧
      (∀ vehicle, g.status vehicle = f.status vehicle) ∧
      (∀ vehicle ∈ f.registry, vehicle ∈ g.registry) ∧
      ∀ vehicle, vehicle ≠ idOf data.index → Untouched vehicle f g
  | .prearmStatus _ | .missionInfo _ | .commandRequest _ | .other _ _ =>
    ∃ metrics, g = { f with metrics := metrics }

section

variable {f g h : Fleet} {vehicle : VehicleId}

theorem Untouched.trans (hfirst : Untouched vehicle f g) (hsecond : Untouched vehicle g h) :
    Untouched vehicle f h where
  entry := hsecond.entry.trans hfirst.entry
  addresses medium := (hsecond.addresses medium).trans (hfirst.addresses medium)
  sources source := (hsecond.sources source).trans (hfirst.sources source)
  channels path hpath := (hsecond.channels path hpath).trans (hfirst.channels path hpath)

/-! ## Meeting a vehicle -/

theorem untouched_identify (f : Fleet) (index : UInt32) (vehicle : VehicleId) :
    Untouched vehicle f (f.identify index).2 := by
  unfold identify
  split <;> exact ⟨rfl, fun _ => rfl, fun _ => Iff.rfl, fun _ _ => rfl⟩

/-- A vehicle that is enrolled takes no place from another. -/
theorem untouched_enrol (f : Fleet) {id : VehicleId} (hne : vehicle ≠ id) :
    Untouched vehicle f (f.enrol id) where
  entry := by simp [enrol, Std.ExtTreeMap.getElem?_insert, hne.symm]
  addresses _ := rfl
  sources _ := Iff.rfl
  channels path hpath := by
    refine SensorChannels.channels_declare f.tree fun hother => hne ?_
    exact SensorChannels.vehicle_eq_of_mem_paths hpath hother

theorem untouched_setVehicle (f : Fleet) {id : VehicleId} (v : Vehicle) (hne : vehicle ≠ id) :
    Untouched vehicle f (f.setVehicle id v) where
  entry := by simp [setVehicle, Std.ExtTreeMap.getElem?_insert, hne.symm]
  addresses _ := rfl
  sources _ := Iff.rfl
  channels _ _ := rfl

theorem untouched_meet (f : Fleet) {index : UInt32} (hne : vehicle ≠ (f.identify index).1) :
    Untouched vehicle f (f.meet index).2.2 := by
  have hidentify := f.untouched_identify index vehicle
  unfold meet
  rcases hid : f.identify index with ⟨id, g⟩
  rw [hid] at hidentify hne
  dsimp only
  cases g.registry[id]? with
  | some known => exact hidentify
  | none => exact hidentify.trans (g.untouched_enrol hne)

/-! ## Status reports -/

theorem untouched_takeStatus (f : Fleet) (now : Nat) (source : Source) (report : StatusReport)
    (hne : vehicle ≠ (f.identify report.index).1) :
    Untouched vehicle f (f.takeStatus now source report).1 := by
  have hmeet := f.untouched_meet hne
  rw [← meet_fst] at hne
  unfold takeStatus
  rcases hmet : f.meet report.index with ⟨id, known, g⟩
  rw [hmet] at hmeet hne
  dsimp only
  cases hrecord : g.book.record id source with
  | error fault => exact ⟨hmeet.entry, hmeet.addresses, hmeet.sources, hmeet.channels⟩
  | ok recorded =>
      obtain ⟨recorded, book⟩ := recorded
      obtain ⟨haddresses, hsources⟩ := AddressBook.others_record hne hrecord
      have hclaimed : Untouched vehicle g { g with book := book } :=
        ⟨rfl, haddresses, hsources, fun _ _ => rfl⟩
      have hset := (hmeet.trans hclaimed).trans (untouched_setVehicle _
        { known with status := .ofReport report now } hne)
      exact ⟨hset.entry, hset.addresses, hset.sources, hset.channels⟩

/-! ## Data of algorithms -/

theorem untouched_takeData (f : Fleet) (data : AlgorithmData)
    (hne : vehicle ≠ (f.identify data.index).1) : Untouched vehicle f (f.takeData data).1 := by
  have hmeet := f.untouched_meet hne
  rw [← meet_fst] at hne
  unfold takeData
  rcases hmet : f.meet data.index with ⟨id, known, g⟩
  rw [hmet] at hmeet hne
  dsimp only
  cases habsorb : known.absorb g.algorithms g.tree id data with
  | error path => exact hmeet
  | ok done =>
      have hwritten : Untouched vehicle g { g with tree := done.tree } := by
        refine ⟨rfl, fun _ => rfl, fun _ => Iff.rfl, fun path hpath => ?_⟩
        refine Vehicle.channels_absorb habsorb fun hother => hne ?_
        exact SensorChannels.vehicle_eq_of_mem_paths hpath hother
      exact (hmeet.trans hwritten).trans (untouched_setVehicle _ done.vehicle hne)

/-- The vehicle that is met is registered, with the status that it had; it has reported nothing if
it was not registered. -/
theorem registry_meet (f : Fleet) (index : UInt32) :
    (f.meet index).2.2.registry[(f.meet index).1]? = some (f.meet index).2.1 ∧
      (f.meet index).2.1.status = f.status (f.meet index).1 := by
  have hregistry : (f.identify index).2.registry = f.registry := by
    unfold identify
    split <;> rfl
  unfold meet status
  rw [← hregistry]
  rcases f.identify index with ⟨id, g⟩
  dsimp only
  cases hknown : g.registry[id]? with
  | some known => simp [hknown]
  | none => simp [hknown, enrol]

/-- The vehicle whose data is taken in is registered, with the status that it had. -/
theorem registry_takeData (f : Fleet) (data : AlgorithmData) :
    (f.identify data.index).1 ∈ (f.takeData data).1.registry ∧
      (f.takeData data).1.status (f.identify data.index).1 =
        f.status (f.identify data.index).1 := by
  obtain ⟨hknown, hstatus⟩ := f.registry_meet data.index
  rw [← meet_fst]
  unfold takeData
  rcases hmet : f.meet data.index with ⟨id, known, g⟩
  rw [hmet] at hknown hstatus
  dsimp only at hknown hstatus ⊢
  rw [← hstatus]
  cases habsorb : known.absorb g.algorithms g.tree id data with
  | error path =>
      dsimp only
      exact ⟨by simp [Std.ExtTreeMap.mem_iff_isSome_getElem?, hknown], by rw [status, hknown]; rfl⟩
  | ok done =>
      dsimp only
      refine ⟨by simp [setVehicle], ?_⟩
      rw [← Vehicle.status_absorb habsorb]
      simp [status, setVehicle]

theorem Untouched.status_eq (h : Untouched vehicle f g) : g.status vehicle = f.status vehicle := by
  rw [status, status, h.entry]

theorem Untouched.mem_iff (h : Untouched vehicle f g) :
    vehicle ∈ g.registry ↔ vehicle ∈ f.registry := by
  rw [Std.ExtTreeMap.mem_iff_isSome_getElem?, Std.ExtTreeMap.mem_iff_isSome_getElem?, h.entry]

end

/-! ## Packets -/

/-- A part of a response works on the commands of the vehicle that owns its source, if on any. -/
theorem sameFor_takeChunk {f : Fleet} (h : f.commands.Coherent) (x : Arrival)
    {vehicle : VehicleId} (hother : f.book.owner? x.source ≠ some vehicle) :
    CommandTable.SameFor vehicle f.commands
      (f.takeChunk x.now x.source x.compressed x.chunk).1.commands := by
  have hcommands : (f.takeChunk x.now x.source x.compressed x.chunk).1.commands =
      f.commands.run (f.deliveries x) := congrArg (·.commands) (f.links_takeChunk x)
  rw [hcommands]
  unfold deliveries delivery
  match f.assembler.reply x with
  | .error fault => exact CommandTable.SameFor.refl vehicle _
  | .ok none => exact CommandTable.SameFor.refl vehicle _
  | .ok (some body) =>
      cases howner : f.book.owner? x.source with
      | none => exact CommandTable.SameFor.refl vehicle _
      | some owner =>
          rw [howner] at hother
          have hstep : CommandTable.SameFor vehicle f.commands
              (f.commands.step (.fulfill owner (Text.decodeLossy body))) :=
            CommandTable.sameFor_step h hother
          exact hstep

/-- A part of a response is confined. -/
theorem confined_takeChunk {f : Fleet} (h : f.commands.Coherent) (x : Arrival) :
    let g := (f.takeChunk x.now x.source x.compressed x.chunk).1
    g.registry = f.registry ∧ g.tree = f.tree ∧ g.book = f.book ∧
      ∀ vehicle, f.book.owner? x.source ≠ some vehicle →
        CommandTable.SameFor vehicle f.commands g.commands := by
  have hcommands : ∀ vehicle, f.book.owner? x.source ≠ some vehicle →
      CommandTable.SameFor vehicle f.commands
        (f.takeChunk x.now x.source x.compressed x.chunk).1.commands :=
    fun _ hother => sameFor_takeChunk h x hother
  obtain ⟨assembler, commands, count, htake⟩ :=
    f.takeChunk_eq x.now x.source x.compressed x.chunk
  rw [htake] at hcommands ⊢
  exact ⟨rfl, rfl, rfl, hcommands⟩

/-- **Every packet is confined** to the vehicle that it concerns. -/
theorem confined_handle {f : Fleet} (h : f.commands.Coherent) (now : Nat) (source : Source)
    (packet : Packet) :
    Confined (fun index => (f.identify index).1) source f (f.handle now source packet).1
      packet := by
  cases packet with
  | status report =>
      have hlinks := f.links_takeStatus now source report
      refine ⟨congrArg (·.commands) hlinks, congrArg (·.assembler) hlinks, fun vehicle hne => ?_⟩
      exact f.untouched_takeStatus now source report hne
  | commandResponse chunk => exact confined_takeChunk h ⟨now, source, false, chunk⟩
  | compressedCommandResponse chunk => exact confined_takeChunk h ⟨now, source, true, chunk⟩
  | algorithmData data =>
      have hlinks := f.links_takeData data
      obtain ⟨hmem, hstatus⟩ := f.registry_takeData data
      refine ⟨congrArg (·.book) hlinks, congrArg (·.commands) hlinks,
        congrArg (·.assembler) hlinks, fun vehicle => ?_, fun vehicle hvehicle => ?_,
        fun vehicle hne => f.untouched_takeData data hne⟩
      -- The vehicle is the one whose data it is, or it is not touched at all.
      · by_cases hv : vehicle = (f.identify data.index).1
        · rw [hv]
          exact hstatus
        · exact (f.untouched_takeData data hv).status_eq
      · by_cases hv : vehicle = (f.identify data.index).1
        · rw [hv]
          exact hmem
        · exact (f.untouched_takeData data hv).mem_iff.mpr hvehicle
  | prearmStatus | commandRequest | missionInfo | other => exact ⟨f.metrics, rfl⟩

/-- What is counted before a packet is handled and behind it makes no difference. -/
theorem Confined.observe {idOf : UInt32 → VehicleId} {source : Source} {f g : Fleet}
    {packet : Packet} {before after : Metrics → Metrics}
    (h : Confined idOf source (f.observe before) g packet) :
    Confined idOf source f (g.observe after) packet := by
  cases packet with
  | status report =>
      obtain ⟨hcommands, hassembler, huntouched⟩ := h
      refine ⟨hcommands, hassembler, fun vehicle hne => ?_⟩
      have hvehicle := huntouched vehicle hne
      exact ⟨hvehicle.entry, hvehicle.addresses, hvehicle.sources, hvehicle.channels⟩
  | commandResponse chunk => exact h
  | compressedCommandResponse chunk => exact h
  | algorithmData data =>
      obtain ⟨hbook, hcommands, hassembler, hstatus, hmem, huntouched⟩ := h
      refine ⟨hbook, hcommands, hassembler, hstatus, hmem, fun vehicle hne => ?_⟩
      have hvehicle := huntouched vehicle hne
      exact ⟨hvehicle.entry, hvehicle.addresses, hvehicle.sources, hvehicle.channels⟩
  | prearmStatus | commandRequest | missionInfo | other =>
      obtain ⟨metrics, rfl⟩ := h
      exact ⟨after metrics, rfl⟩

end Fleet

/-- **A packet concerns one vehicle.**  For every session that can be reached and every packet from
every source, whether whoever hands the packet in is told of a refusal or not:

A part of a response changes no entry of the registry, no channel and no address, and no command of
any vehicle but the one that owns the source at that moment.  A status report changes no command and
no response that is on its way, and nothing that is known of any vehicle but the one with its index.
Data of an algorithm changes no address, no command, no response that is on its way and no status,
and nothing that is known of any vehicle but the one with its index.  All other packets are counted,
and that is all. -/
theorem packet_confined {config : Config} {algorithms : List Algorithm} {s : Session}
    (hs : s.Reachable config algorithms) (source : Source) (packet : Packet) :
    let idOf := VehicleId.ofIndex config.driver.idFormat
    s.fleet.Confined idOf source (s.fleet.receive s.now source packet).1 packet ∧
      s.fleet.Confined idOf source (s.fleet.dispatch s.now source packet).1 packet := by
  intro idOf
  let counted := s.fleet.observe (·.receive packet.kind)
  have hidentified : counted.Identified config := hs.identified.of_naming rfl
  have hcoherent : counted.commands.Coherent := hs.sound.coherent
  have hid : idOf = fun index => (counted.identify index).1 := by
    funext index
    exact (hidentified.identify_fst index).symm
  have hhandle : Fleet.Confined idOf source counted (counted.handle s.now source packet).1
      packet := by
    rw [hid]
    exact Fleet.confined_handle hcoherent s.now source packet
  constructor
  · obtain ⟨count, hreceive⟩ := s.fleet.receive_eq_handle s.now source packet
    rw [hreceive]
    exact hhandle.observe
  · obtain ⟨count, hdispatch⟩ := s.fleet.dispatch_eq_handle s.now source packet
    rw [hdispatch]
    exact hhandle.observe

/-- Two vehicles reported where they are, and both were told to land. -/
private def twoLanding : Session :=
  (Session.new .standard []).run
    [.packet (.wireless "a") (.atRest 1), .packet (.wireless "b") (.atRest 2),
      .call true "01" "land", .call true "02" "land"]

/-- The answer of one vehicle ends its command, and the other vehicle's is as it was. -/
theorem answer_confined :
    let answered := (twoLanding.fleet.receive twoLanding.now (.wireless "a")
      (.commandResponse ⟨5, 0, 1, [0x6F, 0x6B]⟩)).1
    twoLanding.Reachable .standard [] ∧
      answered.commands.wait? 0 = some (.completed "ok") ∧
      answered.registry = twoLanding.fleet.registry ∧
      CommandTable.SameFor "02" twoLanding.fleet.commands answered.commands ∧
      answered.commands.current? "02" = some 1 := by
  intro answered
  have hreach : twoLanding.Reachable .standard [] := Session.Reachable.new.run _
  obtain ⟨⟨hregistry, -, -, hothers⟩, -⟩ := packet_confined hreach (.wireless "a")
    (.commandResponse ⟨5, 0, 1, [0x6F, 0x6B]⟩)
  have hsame := hothers "02" (by decide +kernel)
  exact ⟨hreach, by decide +kernel, hregistry, hsame, by decide +kernel⟩

end FleetLink
