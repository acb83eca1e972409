import FleetLink.Proofs.AddressBook.FirstClaim
import FleetLink.Proofs.Session.Confinement

/-!
# Status reports

A status report is taken in by steps.  The vehicle of its index is met, which may put it into the
registry; its claim to the source is recorded, which may fail; and only then are the status and the
notice written.  **A report that fails has done the first step and no other** (`Sighted`): whoever
looks at readings, addresses, commands, responses on their way or notices sees nothing of it.

**A report fails for what the book says of its vehicle and its source,** and both rules matter: the
vehicle may be known elsewhere on the medium, and the source may be another vehicle's.  That no
third reason comes up, and that a report that is taken in leaves its vehicle the owner of the
source, takes that the two maps of the book agree.

**There is one notice for a report that is taken in,** and it is told to the subscriber at once.  A
subscriber that does not keep up pays for it with its oldest notice (`Inbox.Told`).

## Main Definitions

* `Inbox.Told` — a subscriber gets one more notice
* `Fleet.Sighted` — a vehicle was heard of, and that is all
* `Fleet.KeepsReadings` — what was reported and measured is the same
* `Fleet.Reported` — a report was taken in

## Main Statements

* `meet_eq` — meeting a vehicle, in one equation
* `takeStatus_cases` — a report is refused with the vehicle met, or all of it is written
* `refused_or_reported` — when a report fails, and what it does then and otherwise
-/

namespace FleetLink

/-! ## Notices -/

namespace Inbox

/-- A subscriber gets one more notice, if there is a subscriber.  It waits behind the others, and
what is lost to it is the oldest ones. -/
def Told (notice : StatusNotice) : Option Inbox → Option Inbox → Prop
  | none, after => after = none
  | some before, after => ∃ inbox, after = some inbox ∧
      inbox.waiting <:+ before.waiting ++ [notice] ∧ inbox.waiting.getLast? = some notice ∧
      inbox.lost + inbox.waiting.length = before.lost + before.waiting.length + 1

theorem told_push (notice : StatusNotice) (before : Option Inbox) :
    Told notice before (before.map (·.push notice)) := by
  cases before with
  | none => rfl
  | some inbox =>
      have hlength : (inbox.waiting ++ [notice]).length = inbox.waiting.length + 1 :=
        List.length_append
      -- There is room for one, so the newest is kept.
      have hroom : 0 < capacity := by decide
      refine ⟨inbox.push notice, rfl, ?_, ?_, ?_⟩
      · simp only [push]
        exact List.drop_suffix _ _
      · rw [push, List.getLast?_drop, if_neg (by omega), List.getLast?_concat]
      · simp only [push, List.length_drop]
        omega

end Inbox

namespace Fleet

/-- The reading that is kept of a vehicle. -/
def sample (f : Fleet) (vehicle : VehicleId) : Option GeigerSample :=
  (f.registry[vehicle]?.getD .new).sample

/-! ## What a report comes to -/

/-- Nothing differs but what is counted, and that a vehicle was heard of: its index has its id, and
the vehicle is in the registry, with its channels if it was not there before. -/
structure Sighted (index : UInt32) (id : VehicleId) (f g : Fleet) : Prop where
  settings : g.settings = f.settings
  algorithms : g.algorithms = f.algorithms
  book : g.book = f.book
  assembler : g.assembler = f.assembler
  commands : g.commands = f.commands
  outbox : g.outbox = f.outbox
  inbox : g.inbox = f.inbox
  ids : ∀ other : UInt32, g.ids[other]? = if index = other then some id else f.ids[other]?
  known : id ∈ f.registry → g.registry = f.registry ∧ g.tree = f.tree
  entered : id ∉ f.registry →
    g.registry = f.registry.insert id .new ∧ g.tree = SensorChannels.declare f.tree id

/-- What the vehicles reported and what was measured is the same. -/
structure KeepsReadings (f g : Fleet) : Prop where
  status : ∀ vehicle, g.status vehicle = f.status vehicle
  sample : ∀ vehicle, g.sample vehicle = f.sample vehicle
  value : ∀ path, g.tree.value? path = f.tree.value? path
  writes : ∀ path, g.tree.writes path = f.tree.writes path

/-- A report from a source was taken in. -/
structure Reported (id : VehicleId) (source : Source) (report : StatusReport) (now : Nat)
    (f g : Fleet) : Prop where
  owner : g.book.owner? source = some id
  entry : g.registry[id]? = some {
    status := {
      position := some report.position
      velocity := some report.velocity
      heading := some report.heading
      algorithm := if report.algorithm = "" then none else some report.algorithm
      error := .ofCode report.errorCode
      updatedAt := some now }
    sample := f.sample id }
  others : ∀ other, other ≠ id → g.registry[other]? = f.registry[other]?
  told : Inbox.Told ⟨id, .ofCode report.errorCode, now⟩ f.inbox g.inbox

section

variable {f g : Fleet} {index : UInt32} {id : VehicleId}

/-! ## Vehicles that are heard of -/

theorem identify_eq (f : Fleet) (index : UInt32) : ∃ metrics,
    (f.identify index).2 = { f with ids := (f.identify index).2.ids, metrics := metrics } := by
  unfold identify
  split <;> exact ⟨_, rfl⟩

/-- **Meeting a vehicle** gives its index an id, and puts the vehicle into the registry with its
channels if it is not there. -/
theorem meet_eq (f : Fleet) (index : UInt32) :
    f.meet index = ((f.identify index).1, f.registry[(f.identify index).1]?.getD .new,
      { (f.identify index).2 with
        registry :=
          if (f.identify index).1 ∈ f.registry then f.registry
          else f.registry.insert (f.identify index).1 .new
        tree :=
          if (f.identify index).1 ∈ f.registry then f.tree
          else SensorChannels.declare f.tree (f.identify index).1 }) := by
  obtain ⟨metrics, hidentify⟩ := f.identify_eq index
  unfold meet
  rcases hpair : f.identify index with ⟨id, g⟩
  rw [hpair] at hidentify
  dsimp only at hidentify ⊢
  rw [hidentify]
  dsimp only
  simp only [Std.ExtTreeMap.mem_iff_isSome_getElem?]
  cases f.registry[id]? <;> rfl

theorem sighted_meet (f : Fleet) (index : UInt32) :
    Sighted index (f.identify index).1 f (f.meet index).2.2 := by
  obtain ⟨metrics, hidentify⟩ := f.identify_eq index
  have hids := f.ids_identify index
  rw [meet_eq]
  dsimp only
  rw [hidentify]
  exact {
    settings := rfl
    algorithms := rfl
    book := rfl
    assembler := rfl
    commands := rfl
    outbox := rfl
    inbox := rfl
    ids := hids
    known := fun hknown => ⟨if_pos hknown, if_pos hknown⟩
    entered := fun hnew => ⟨if_neg hnew, if_neg hnew⟩ }

namespace Sighted

theorem observe (h : Sighted index id f g) (change : Metrics → Metrics) :
    Sighted index id f (g.observe change) := { h with }

/-- A vehicle that is heard of has reported nothing new. -/
theorem entry (h : Sighted index id f g) (vehicle : VehicleId) :
    g.registry[vehicle]?.getD .new = f.registry[vehicle]?.getD .new := by
  by_cases hknown : id ∈ f.registry
  · rw [(h.known hknown).1]
  · rw [(h.entered hknown).1, Std.ExtTreeMap.getElem?_insert]
    split
    next hvehicle =>
      rw [← Std.LawfulEqCmp.eq_of_compare hvehicle, Std.ExtTreeMap.getElem?_eq_none hknown]
      rfl
    next => rfl

/-- A channel that is declared holds nothing, and one that was declared before stays as it was. -/
theorem channel (h : Sighted index id f g) (path : ChannelPath) :
    g.tree.channels[path]? = f.tree.channels[path]? ∨
      f.tree.channels[path]? = none ∧ ∃ unit, g.tree.channels[path]? = some (.fresh unit) := by
  by_cases hknown : id ∈ f.registry
  · rw [(h.known hknown).2]
    exact .inl rfl
  · rw [(h.entered hknown).2, SensorChannels.channels_declare_eq]
    cases f.tree.channels[path]? with
    | some c => exact .inl rfl
    | none =>
        cases (SensorChannels.declarations id).find? (·.1 = path) with
        | none => exact .inl rfl
        | some d => exact .inr ⟨rfl, d.2, rfl⟩

/-- **Hearing of a vehicle changes no reading.** -/
theorem keepsReadings (h : Sighted index id f g) : KeepsReadings f g where
  status vehicle := congrArg Vehicle.status (h.entry vehicle)
  sample vehicle := congrArg Vehicle.sample (h.entry vehicle)
  value path := by
    unfold DeviceTree.value?
    rcases h.channel path with hsame | ⟨hnone, unit, hfresh⟩
    · rw [hsame]
    · rw [hnone, hfresh]
      rfl
  writes path := by
    unfold DeviceTree.writes
    rcases h.channel path with hsame | ⟨hnone, unit, hfresh⟩
    · rw [hsame]
    · rw [hnone, hfresh]
      rfl

end Sighted

/-! ## Reports -/

/-- **A report is refused with its vehicle met, or all of it is written.** -/
theorem takeStatus_cases (f : Fleet) (now : Nat) (source : Source) (report : StatusReport) :
    let id := (f.identify report.index).1
    let met := (f.meet report.index).2.2
    (∃ fault, f.book.record id source = .error fault ∧
      f.takeStatus now source report =
        (met.observe (·.refuse fault), .error (.address fault))) ∨
    ∃ recorded book, f.book.record id source = .ok (recorded, book) ∧
      f.takeStatus now source report =
        ((setVehicle { met with book := book } id
          ⟨.ofReport report now, f.sample id⟩).publish
            ⟨id, .ofCode report.errorCode, now⟩, .ok ()) := by
  intro id met
  have hbook : met.book = f.book := (f.sighted_meet report.index).book
  have hmeet : f.meet report.index = (id, f.registry[id]?.getD .new, met) := by
    simp only [met]
    rw [meet_eq]
  unfold takeStatus
  rw [hmeet]
  dsimp only
  rw [hbook]
  cases f.book.record id source with
  | error fault => exact .inl ⟨fault, rfl, rfl⟩
  | ok written => exact .inr ⟨written.1, written.2, rfl, rfl⟩

theorem sighted_of_refused {now : Nat} {source : Source} {report : StatusReport}
    {fault : PacketFault} (h : (f.takeStatus now source report).2 = .error fault) :
    Sighted report.index (f.identify report.index).1 f (f.takeStatus now source report).1 := by
  rcases f.takeStatus_cases now source report with ⟨own, -, heq⟩ | ⟨recorded, book, -, heq⟩
  · rw [heq]
    exact (f.sighted_meet report.index).observe (·.refuse own)
  · rw [heq] at h
    cases h

/-- A report is refused exactly if its vehicle is known elsewhere or its source is another's. -/
theorem refused_iff (h : f.book.Agrees) (now : Nat) (source : Source) (report : StatusReport) :
    let id := (f.identify report.index).1
    (∃ fault, (f.takeStatus now source report).2 = .error fault) ↔
      (∃ address, f.book.address? id source.medium = some address ∧ address ≠ source.address) ∨
        ∃ owner, f.book.owner? source = some owner ∧ owner ≠ id := by
  intro id
  rw [← h.record_eq_error_iff]
  rcases f.takeStatus_cases now source report with ⟨fault, hfault, heq⟩ | ⟨recorded, book, hok, heq⟩
  · rw [heq, hfault]
    exact ⟨fun _ => ⟨fault, rfl⟩, fun _ => ⟨.address fault, rfl⟩⟩
  · rw [heq, hok]
    constructor <;> exact fun ⟨_, hnever⟩ => nomatch hnever

theorem reported_of_taken (h : f.book.Agrees) {now : Nat} {source : Source}
    {report : StatusReport} (hok : (f.takeStatus now source report).2 = .ok ()) :
    Reported (f.identify report.index).1 source report now f
      (f.takeStatus now source report).1 := by
  rcases f.takeStatus_cases now source report with ⟨fault, -, heq⟩ | ⟨recorded, book, hbook, heq⟩
  · rw [heq] at hok
    cases hok
  · have hothers : ∀ other, other ≠ (f.identify report.index).1 →
        (f.takeStatus now source report).1.registry[other]? = f.registry[other]? :=
      fun _ hne => (f.untouched_takeStatus now source report hne).entry
    rw [heq] at hothers ⊢
    exact {
      owner := h.owner?_of_record hbook
      entry := by simp [publish, setVehicle, VehicleStatus.ofReport]
      others := hothers
      told := by
        rw [← (f.sighted_meet report.index).inbox]
        exact Inbox.told_push _ _ }

end

end Fleet

/-- **A report is taken in, or the fleet is as it was.**  In every session that can be reached:

A report fails exactly if the vehicle with its index has another address on the medium of its
source, or the source belongs to another vehicle.  When it fails, the vehicle may have entered the
registry, with its channels, and what is counted may differ.  Nothing else does: no status and no
reading that is kept, no value of a channel, no address, no command, no response that is on its way
and no notice.  When it is taken in, the source belongs to the vehicle, whose status is the one that
was reported, every other vehicle is as it was, and there is one more notice, for the vehicle. -/
theorem refused_or_reported {config : Config} {algorithms : List Algorithm} {s : Session}
    (hs : s.Reachable config algorithms) (source : Source) (report : StatusReport) :
    let id := VehicleId.ofIndex config.driver.idFormat report.index
    let took := s.fleet.takeStatus s.now source report
    ((∃ fault, took.2 = .error fault) ↔
      (∃ address, s.fleet.book.address? id source.medium = some address ∧
        address ≠ source.address) ∨
      ∃ owner, s.fleet.book.owner? source = some owner ∧ owner ≠ id) ∧
    (∀ fault, took.2 = .error fault →
      Fleet.Sighted report.index id s.fleet took.1 ∧ Fleet.KeepsReadings s.fleet took.1) ∧
    (took.2 = .ok () → Fleet.Reported id source report s.now s.fleet took.1) := by
  intro id took
  have hid : id = (s.fleet.identify report.index).1 := (hs.identify_fst report.index).symm
  have hagrees : s.fleet.book.Agrees := hs.sound.agrees
  rw [hid]
  refine ⟨Fleet.refused_iff hagrees s.now source report, fun fault hfault => ?_, fun hok => ?_⟩
  · have hsighted := Fleet.sighted_of_refused hfault
    exact ⟨hsighted, hsighted.keepsReadings⟩
  · exact Fleet.reported_of_taken hagrees hok

/-- A vehicle reported its status, and somebody subscribed to the notices. -/
private def watched : Session :=
  (Session.new .standard []).run [.packet (.wireless "a") (.atRest 1), .subscribe]

/-- A report of another vehicle.  It runs an algorithm, and its error code is of no class. -/
private def other : StatusReport :=
  ⟨2, ⟨.zero, .zero, none, none⟩, .rest, .zero, "camera", 255⟩

/-- Another vehicle that reports from the same source enters the registry, and its report is
refused; from a source of its own the report is taken in. -/
theorem newcomer_refused_or_reported :
    let intruding := watched.fleet.takeStatus watched.now (.wireless "a") other
    let settling := watched.fleet.takeStatus watched.now (.wireless "b") other
    watched.Reachable .standard [] ∧
      intruding.2 = .error (.address (.inUse "wireless" "a" "01" "02")) ∧
      "02" ∈ intruding.1.registry ∧ Fleet.KeepsReadings watched.fleet intruding.1 ∧
      settling.2 = .ok () ∧
      Fleet.Reported "02" (.wireless "b") other 0 watched.fleet settling.1 := by
  intro intruding settling
  have hreach : watched.Reachable .standard [] := Session.Reachable.new.run _
  have hrefused : intruding.2 = .error (.address (.inUse "wireless" "a" "01" "02")) := by
    decide +kernel
  have htaken : settling.2 = .ok () := by decide +kernel
  obtain ⟨-, hkept, -⟩ := refused_or_reported hreach (.wireless "a") other
  obtain ⟨-, -, hreported⟩ := refused_or_reported hreach (.wireless "b") other
  exact ⟨hreach, hrefused, by decide +kernel, (hkept _ hrefused).2, htaken, hreported htaken⟩

end FleetLink
