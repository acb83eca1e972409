import Mathlib.Logic.ExistsUnique
import FleetLink.Proofs.AddressBook.FirstClaim
import FleetLink.Proofs.Assembler.Separation
import FleetLink.Proofs.Fleet.Counters
import FleetLink.Proofs.Session.Accounting
import FleetLink.Proofs.Session.Confinement
import FleetLink.Proofs.VehicleId.Distinct

/-!
# Registered vehicles

A vehicle becomes known in four places: its index has an id, the id is in the registry, its channels
are in the device tree, and its addresses are in the book.  They are written at different moments,
by reports and by data, and cleared apart: a vehicle that is removed from the registry keeps its id,
its channels and its addresses, and a vehicle that is forgotten loses the last of these only.

**Whatever is known of a vehicle is known of one that has an id** (`Enrolled`), and a vehicle in the
registry has its channels.  All else follows: data of algorithms is written to the vehicle's own
channels, so there is always room for it, and a packet can be refused for a claim to an address or
for what the assembler says only.

A vehicle could also be put into the registry from outside, without channels; that event is
left out.

## Main Statements

* `Fleet.Enrolled` — what is known, and of whom
* `Enrolled.meet`, `Enrolled.receive` — what packets keep
* `enrolled_turn`, `enrolled_turns` — whatever happens
* `Enrolled.takeData` — data is taken in
* `Refusal`, `refusal_of_handle` — why a packet is refused
* `registered_everywhere` — all of that, in every session
-/

namespace FleetLink

namespace Fleet

/-- The ids, the vehicles, their channels and their addresses. -/
def holdings (f : Fleet) : Std.ExtTreeMap UInt32 VehicleId × Registry × DeviceTree × AddressBook :=
  (f.ids, f.registry, f.tree, f.book)

/-- An id is the one of an index that was heard of. -/
def Knows (f : Fleet) (id : VehicleId) : Prop := ∃ index : UInt32, f.ids[index]? = some id

/-- The vehicles in the registry and the owners of sources have an id that is kept, and the vehicles
in the registry have their channels. -/
structure Enrolled (f : Fleet) : Prop where
  cached : ∀ id ∈ f.registry, f.Knows id
  declared : ∀ id ∈ f.registry, ∀ path ∈ SensorChannels.paths id, f.tree.isDeclared path = true
  units : SensorChannels.HasUnits f.tree
  owners : ∀ source id, f.book.owner? source = some id → f.Knows id

theorem enrolled_new (config : Config) (algorithms : List Algorithm) :
    (new config algorithms).Enrolled where
  cached := by simp [new]
  declared := by simp [new]
  units := SensorChannels.hasUnits_empty
  owners := by simp [new]

section

variable {f g : Fleet} {id : VehicleId}

theorem Enrolled.of_holdings (h : f.Enrolled) (hsame : g.holdings = f.holdings) : g.Enrolled := by
  cases f
  cases g
  cases hsame
  exact ⟨h.cached, h.declared, h.units, h.owners⟩

/-! ## Vehicles that are met -/

/-- Ids are kept. -/
theorem Knows.identify (h : f.Knows id) (index : UInt32) : (f.identify index).2.Knows id := by
  obtain ⟨own, hown⟩ := h
  refine ⟨own, ?_⟩
  rw [ids_identify]
  split
  next hindex => rw [hindex, identify_of_known hown]
  next => exact hown

theorem knows_identify (f : Fleet) (index : UInt32) :
    (f.identify index).2.Knows (f.identify index).1 :=
  ⟨index, by rw [ids_identify, if_pos rfl]⟩

namespace Enrolled

theorem identify (h : f.Enrolled) (index : UInt32) : (f.identify index).2.Enrolled := by
  have hsame : (f.identify index).2.registry = f.registry ∧ (f.identify index).2.tree = f.tree ∧
      (f.identify index).2.book = f.book := by
    unfold Fleet.identify
    split <;> exact ⟨rfl, rfl, rfl⟩
  obtain ⟨hregistry, htree, hbook⟩ := hsame
  refine ⟨?_, ?_, ?_, ?_⟩
  · rw [hregistry]
    exact fun id hid => (h.cached id hid).identify index
  · rw [hregistry, htree]
    exact h.declared
  · rw [htree]
    exact h.units
  · rw [hbook]
    exact fun source id howner => (h.owners source id howner).identify index

/-- A vehicle that enters the registry has its channels. -/
theorem enrol (h : f.Enrolled) (hid : f.Knows id) : (f.enrol id).Enrolled where
  cached other hother := by
    rw [Fleet.enrol, Std.ExtTreeMap.mem_insert, Std.LawfulEqCmp.compare_eq_iff_eq] at hother
    rcases hother with rfl | hold
    · exact hid
    · exact h.cached other hold
  declared other hother path hpath := by
    rw [Fleet.enrol, Std.ExtTreeMap.mem_insert, Std.LawfulEqCmp.compare_eq_iff_eq] at hother
    rw [Fleet.enrol, SensorChannels.isDeclared_declare]
    rcases hother with rfl | hold
    · exact .inr hpath
    · exact .inl (h.declared other hold path hpath)
  units := h.units.declare id
  owners := h.owners

/-- Whoever is in the registry can be put there again. -/
theorem setVehicle (h : f.Enrolled) (hid : id ∈ f.registry) (v : Vehicle) :
    (f.setVehicle id v).Enrolled := by
  have hmem : ∀ other ∈ (f.setVehicle id v).registry, other ∈ f.registry := by
    intro other hother
    rw [Fleet.setVehicle, Std.ExtTreeMap.mem_insert, Std.LawfulEqCmp.compare_eq_iff_eq] at hother
    rcases hother with rfl | hold
    · exact hid
    · exact hold
  exact ⟨fun other hother => h.cached other (hmem other hother),
    fun other hother => h.declared other (hmem other hother), h.units, h.owners⟩

/-- **A vehicle that is met** is in the registry, under an id that is kept. -/
theorem meet (h : f.Enrolled) (index : UInt32) :
    (f.meet index).2.2.Enrolled ∧ (f.meet index).1 ∈ (f.meet index).2.2.registry ∧
      (f.meet index).2.2.Knows (f.meet index).1 := by
  have hidentify := h.identify index
  have hknows := f.knows_identify index
  have hregistered : (f.meet index).1 ∈ (f.meet index).2.2.registry := by
    rw [Std.ExtTreeMap.mem_iff_isSome_getElem?, (f.registry_meet index).1]
    rfl
  refine ⟨?_, hregistered, ?_⟩
  · unfold Fleet.meet
    rcases hid : f.identify index with ⟨id, g⟩
    rw [hid] at hidentify hknows
    dsimp only
    cases g.registry[id]? with
    | some vehicle => exact hidentify
    | none => exact hidentify.enrol hknows
  · have hids : (f.meet index).2.2.ids = (f.identify index).2.ids :=
      congrArg (·.2) (f.naming_meet index)
    rw [Knows, hids, meet_fst]
    exact hknows

/-! ## Packets -/

/-- A claim that is accepted gives its source to the claimant, and no source to anybody else. -/
theorem record (h : f.Enrolled) {source : Source} {recorded : AddressBook.Recorded}
    {book : AddressBook} (hid : f.Knows id)
    (haccepted : f.book.record id source = .ok (recorded, book)) :
    Enrolled { f with book := book } := by
  refine ⟨h.cached, h.declared, h.units, fun s owner howner => ?_⟩
  by_cases howned : owner = id
  · rw [howned]
    exact hid
  · exact h.owners s owner ((AddressBook.others_record howned haccepted).2 s |>.mp howner)

theorem takeStatus (h : f.Enrolled) (now : Nat) (source : Source) (report : StatusReport) :
    (f.takeStatus now source report).1.Enrolled := by
  obtain ⟨hmeet, hregistered, hknows⟩ := h.meet report.index
  unfold Fleet.takeStatus
  rcases hmet : f.meet report.index with ⟨id, vehicle, g⟩
  rw [hmet] at hmeet hregistered hknows
  dsimp only at hmeet hregistered hknows ⊢
  cases hrecord : g.book.record id source with
  | error fault => exact hmeet.of_holdings rfl
  | ok recorded =>
      have hset := (hmeet.record hknows hrecord).setVehicle hregistered
        { vehicle with status := .ofReport report now }
      exact hset.of_holdings rfl

/-- **Data is taken in**, and written to channels that are there. -/
theorem takeData (h : f.Enrolled) (data : AlgorithmData) :
    (f.takeData data).1.Enrolled ∧ (f.takeData data).2 = .ok () := by
  obtain ⟨hmeet, hregistered, -⟩ := h.meet data.index
  unfold Fleet.takeData
  rcases hmet : f.meet data.index with ⟨id, vehicle, g⟩
  rw [hmet] at hmeet hregistered
  dsimp only at hmeet hregistered ⊢
  obtain ⟨done, habsorb⟩ := Vehicle.absorb_of_declared g.algorithms vehicle data
    (hmeet.declared id hregistered)
  obtain ⟨hdeclared, hunits⟩ := Vehicle.tree_absorb habsorb
  have hwritten : Enrolled { g with tree := done.tree } :=
    ⟨hmeet.cached, fun other hother path hpath =>
      (hdeclared path).trans (hmeet.declared other hother path hpath), hunits hmeet.units,
      hmeet.owners⟩
  rw [habsorb]
  exact ⟨hwritten.setVehicle hregistered done.vehicle, rfl⟩

theorem handle (h : f.Enrolled) (now : Nat) (source : Source) (packet : Packet) :
    (f.handle now source packet).1.Enrolled := by
  have hchunk : ∀ compressed chunk, (f.takeChunk now source compressed chunk).1.Enrolled := by
    intro compressed chunk
    obtain ⟨assembler, commands, count, htake⟩ := f.takeChunk_eq now source compressed chunk
    rw [htake]
    exact h.of_holdings rfl
  cases packet with
  | status report => exact h.takeStatus now source report
  | algorithmData data => exact (h.takeData data).1
  | commandResponse chunk => exact hchunk false chunk
  | compressedCommandResponse chunk => exact hchunk true chunk
  | prearmStatus | commandRequest | missionInfo | other => exact h

theorem receive (h : f.Enrolled) (now : Nat) (source : Source) (packet : Packet) :
    (f.receive now source packet).1.Enrolled := by
  obtain ⟨count, hreceive⟩ := f.receive_eq_handle now source packet
  have hcounted : (f.observe (·.receive packet.kind)).Enrolled := h.of_holdings rfl
  rw [hreceive]
  exact (hcounted.handle now source packet).of_holdings rfl

end Enrolled

end

end Fleet

namespace Session

variable {s : Session}

/-! ## Turns -/

theorem holdings_begin (s : Session) (bounded : Bool) (vehicle : VehicleId) (line : String) :
    (s.begin bounded vehicle line).fleet.holdings = s.fleet.holdings := by
  obtain ⟨commands, outbox, count, hbegin⟩ := s.begin_eq bounded vehicle line
  rw [hbegin]
  rfl

theorem holdings_poll (s : Session) (id : CallId) :
    (s.poll id).fleet.holdings = s.fleet.holdings := by
  obtain ⟨commands, count, hpoll⟩ := s.poll_eq id
  rw [hpoll]
  rfl

theorem holdings_abandon (s : Session) (id : CallId) :
    (s.abandon id).fleet.holdings = s.fleet.holdings := by
  obtain ⟨commands, habandon⟩ := s.abandon_eq id
  rw [habandon]
  rfl

/-- **Whatever happens**, what is known is known of vehicles that have an id, and those in the
registry have their channels. -/
theorem enrolled_turn (h : s.fleet.Enrolled) {t : Turn}
    (hregister : ∀ vehicle, t ≠ .event (.register vehicle)) : (s.turn t).fleet.Enrolled := by
  cases t with
  | poll id => exact h.of_holdings (s.holdings_poll id)
  | event event =>
      cases event with
      | register vehicle => exact absurd rfl (hregister vehicle)
      | packet source packet => exact h.receive s.now source packet
      | identify index => exact h.identify index
      | meet index => exact (h.meet index).1
      | response source body =>
          obtain ⟨commands, count, hdeliver⟩ := s.fleet.deliver_eq source body
          have hsame := congrArg Fleet.holdings hdeliver
          exact h.of_holdings hsame
      | call bounded vehicle line => exact h.of_holdings (s.holdings_begin bounded vehicle line)
      | abandon id => exact h.of_holdings (s.holdings_abandon id)
      -- A vehicle that is removed keeps its channels, and one that is forgotten owns nothing more.
      | unregister vehicle =>
          have hmem : ∀ id ∈ s.fleet.registry.erase vehicle, id ∈ s.fleet.registry :=
            fun id hid => Std.ExtTreeMap.mem_of_mem_erase hid
          exact ⟨fun id hid => h.cached id (hmem id hid), fun id hid => h.declared id (hmem id hid),
            h.units, h.owners⟩
      | forget vehicle =>
          refine ⟨h.cached, h.declared, h.units, fun source id howner => h.owners source id ?_⟩
          show s.fleet.book.owner? source = some id
          have hkept : (s.fleet.book.forget vehicle).owner? source = some id := howner
          rw [AddressBook.owner?_forget] at hkept
          split at hkept
          · cases hkept
          · exact hkept
      | _ => exact h.of_holdings rfl

theorem enrolled_turns (h : s.fleet.Enrolled) {happenings : List Turn}
    (hregister : ∀ vehicle, .event (.register vehicle) ∉ happenings) :
    (s.turns happenings).fleet.Enrolled := by
  induction happenings generalizing s with
  | nil => exact h
  | cons t later ih =>
      refine ih (s := s.turn t) (enrolled_turn h fun vehicle heq => ?_) fun vehicle hmem => ?_
      · exact hregister vehicle (heq ▸ List.mem_cons_self)
      · exact hregister vehicle (List.mem_cons_of_mem t hmem)

end Session

/-! ## Why packets are refused -/

/-- Why a packet from a source can be refused, when it is told which id an index has: for a claim to
an address by the vehicle that reports, or for a part of a response that cannot be taken in. -/
inductive Refusal (idOf : UInt32 → VehicleId) (now : Nat) (source : Source) :
    Packet → PacketFault → Prop
  | conflict (report : StatusReport) (existing : String) :
      Refusal idOf now source (.status report)
        (.address (.conflict (idOf report.index) source.medium existing source.address))
  | inUse (report : StatusReport) (owner : VehicleId) :
      Refusal idOf now source (.status report)
        (.address (.inUse source.medium source.address owner (idOf report.index)))
  | empty (packet : Packet) (x : Arrival) (part : packet.arrival? now source = some x) :
      Refusal idOf now source packet (.assembly (.emptyResponse source))
  | outOfRange (packet : Packet) (x : Arrival) (part : packet.arrival? now source = some x) :
      Refusal idOf now source packet
        (.assembly (.chunkOutOfRange source x.chunk.index x.chunk.total))
  /-- Only what is compressed can fail to be inflated. -/
  | undecodable (chunk : Chunk) :
      Refusal idOf now source (.compressedCommandResponse chunk) (.assembly (.undecodable source))
  | tooLarge (packet : Packet) (x : Arrival) (part : packet.arrival? now source = some x)
      (limit : Nat) : Refusal idOf now source packet (.assembly (.bodyTooLarge source limit))

namespace Assembler

variable {a : Assembler} {x : Arrival}

/-- The buffer that a chunk belongs into holds a response that is compressed if the chunk is. -/
theorem compressed_target (a : Assembler) (x : Arrival) :
    (a.target x).compressed = x.compressed := by
  rcases a.target_cases x with ⟨-, htarget⟩ | ⟨b, -, -, hmatch, -, htarget⟩
  · rw [htarget]
    rfl
  · rw [htarget]
    simp only [AssemblyBuffer.matchesChunk, Bool.and_eq_true, decide_eq_true_eq] at hmatch
    exact hmatch.2

/-- **Why the assembler refuses a part of a response**: for its header, or for the body that it
completes. -/
theorem fault_of_reply (h : Distinct a) {fault : AssemblyFault}
    (hreply : a.reply x = .error fault) :
    fault = .emptyResponse x.source ∨
      fault = .chunkOutOfRange x.source x.chunk.index x.chunk.total ∨
      (x.compressed = true ∧ fault = .undecodable x.source) ∨
      fault = .bodyTooLarge x.source a.limits.maxBodyBytes := by
  by_cases hsound : x.chunk.IsSound
  · rcases placement_step h hsound with ⟨-, -, hanswer⟩ | ⟨_, -, -, -, hanswer⟩ |
      ⟨filled, hfills, -, -, hanswer⟩
    · rw [hanswer] at hreply
      cases hreply
    · rw [hanswer] at hreply
      cases hreply
    · have hcompressed : filled.compressed = x.compressed := by
        rw [← compressed_target a x]
        unfold AssemblyBuffer.fill? at hfills
        split at hfills
        · cases hfills
          rfl
        · cases hfills
      rw [hanswer, hcompressed] at hreply
      unfold body at hreply
      split at hreply
      next hc =>
        split at hreply
        · cases hreply
        · cases hreply
          exact .inr (.inr (.inr rfl))
        · cases hreply
          exact .inr (.inr (.inl ⟨hc, rfl⟩))
      next =>
        split at hreply
        · cases hreply
          exact .inr (.inr (.inr rfl))
        · cases hreply
  · rw [reply_of_unsound a hsound] at hreply
    cases hreply
    split
    · exact .inl rfl
    · exact .inr (.inl rfl)

end Assembler

namespace Fleet

variable {f : Fleet}

/-- **Why a packet is refused.** -/
theorem refusal_of_handle {config : Config} (h : f.Enrolled) (hidentified : f.Identified config)
    (hsound : f.links.Sound) {now : Nat} {source : Source} {packet : Packet} {fault : PacketFault}
    (hrefused : (f.handle now source packet).2 = .error fault) :
    Refusal (.ofIndex config.driver.idFormat) now source packet fault := by
  have hpart : ∀ compressed chunk,
      (f.takeChunk now source compressed chunk).2 = .error fault →
        packet.arrival? now source = some ⟨now, source, compressed, chunk⟩ →
          (compressed = true → packet = .compressedCommandResponse chunk) →
            Refusal (.ofIndex config.driver.idFormat) now source packet fault := by
    intro compressed chunk hchunk hx hcompressed
    have hreply := f.takeChunk_snd ⟨now, source, compressed, chunk⟩
    rw [hchunk] at hreply
    cases hanswer : f.assembler.reply ⟨now, source, compressed, chunk⟩ with
    | ok body =>
        rw [hanswer] at hreply
        cases hreply
    | error own =>
        rw [hanswer] at hreply
        cases hreply
        rcases Assembler.fault_of_reply hsound.distinct hanswer with
          rfl | rfl | ⟨hc, rfl⟩ | rfl
        · exact .empty packet _ hx
        · exact .outOfRange packet _ hx
        · rw [hcompressed hc]
          exact .undecodable chunk
        · exact .tooLarge packet _ hx _
  cases packet with
  | status report =>
      have hid := hidentified.identify_fst report.index
      have hsame : (f.meet report.index).2.2.book = f.book :=
        congrArg (·.book) (f.links_meet report.index)
      have hbook : (f.meet report.index).2.2.book.Agrees := hsame ▸ hsound.agrees
      rw [← meet_fst] at hid
      rw [handle, takeStatus] at hrefused
      rcases hmet : f.meet report.index with ⟨id, vehicle, g⟩
      rw [hmet] at hid hbook hrefused
      dsimp only at hid hbook hrefused
      have hanswered := hbook.answered id source
      generalize g.book.record id source = answer at hanswered hrefused
      subst hid
      cases hanswered with
      | unchanged | new => cases hrefused
      | conflict existing =>
          cases hrefused
          exact .conflict report existing
      | inUse owner =>
          cases hrefused
          exact .inUse report owner
  | algorithmData data =>
      rw [handle, (h.takeData data).2] at hrefused
      cases hrefused
  | commandResponse chunk => exact hpart false chunk hrefused rfl (by simp)
  | compressedCommandResponse chunk => exact hpart true chunk hrefused rfl fun _ => rfl
  | prearmStatus | commandRequest | missionInfo | other => cases hrefused

end Fleet

/-- **A vehicle is known everywhere or nowhere it matters.**  Take ids that are made from what is
read as a template, and any turns but those that put a vehicle into the registry from outside:
packets of any kind from any sources, responses that are handed over, ids and vehicles that are
asked for, calls and what ends them, vehicles that are forgotten, and vehicles that are removed from
the registry.

Every vehicle in the registry has the id of one index that is kept, and of no other.  All its
channels are declared, each with its unit; they have different names, and none is the name of
another vehicle's channel.  Every vehicle in one of the two maps of the address book has an id that
is kept.

So data of algorithms is never refused.  All that is refused is a status report, for an address that
its vehicle has or for one that is another's, and a part of a response, for its header or for the
body that it completes. -/
theorem registered_everywhere {config : Config} (algorithms : List Algorithm) {text : String}
    (hparse : Template.parse text = .ok config.driver.idFormat) {happenings : List Turn}
    (hregister : ∀ vehicle, .event (.register vehicle) ∉ happenings) :
    let f := ((Session.new config algorithms).turns happenings).fleet
    ((∀ id ∈ f.registry, ∃! index : UInt32, f.ids[index]? = some id) ∧
      (∀ id ∈ f.registry, ∀ d ∈ SensorChannels.declarations id,
        f.tree.isDeclared d.1 = true ∧ f.tree.unit? d.1 = d.2) ∧
      (∀ id, ((SensorChannels.declarations id).map (·.1)).Nodup ∧
        ∀ other ≠ id, ∀ path ∈ (SensorChannels.declarations id).map (·.1),
          path ∉ (SensorChannels.declarations other).map (·.1)) ∧
      (∀ id, id ∈ f.book.byVehicle → f.Knows id) ∧
      ∀ (source : Source) (id : VehicleId), f.book.bySource[source]? = some id → f.Knows id) ∧
    (∀ now source data,
      (f.receive now source (.algorithmData data)).2 = .handled ∧
        (f.dispatch now source (.algorithmData data)).2 = .ok .handled) ∧
    ∀ now source packet fault, (f.dispatch now source packet).2 = .error fault →
      Refusal (.ofIndex config.driver.idFormat) now source packet fault := by
  intro f
  have henrolled : f.Enrolled :=
    Session.enrolled_turns (Fleet.enrolled_new config algorithms) hregister
  have hidentified : f.Identified config :=
    Session.identified_turns (Fleet.identified_new config algorithms) happenings
  have hsound : f.links.Sound :=
    Session.sound_turns (Fleet.sound_new config algorithms) happenings
  refine ⟨⟨?_, ?_, ?_, ?_, ?_⟩, ?_, ?_⟩
  · intro id hid
    obtain ⟨index, hindex⟩ := henrolled.cached id hid
    have hinjective := VehicleId.ofIndex_injective (Template.hasIndex_of_parse hparse)
    refine ⟨index, hindex, fun other hother => hinjective ?_⟩
    rw [← hidentified.made other id hother, ← hidentified.made index id hindex]
  · intro id hid d hd
    have hdeclared := henrolled.declared id hid d.1 (List.mem_map_of_mem hd)
    obtain ⟨c, hc⟩ := DeviceTree.isDeclared_iff.mp hdeclared
    refine ⟨hdeclared, ?_⟩
    rw [DeviceTree.unit?, hc]
    exact henrolled.units id d hd c hc
  · intro id
    refine ⟨SensorChannels.nodup_paths id, fun other hne path hpath hother => hne ?_⟩
    exact SensorChannels.vehicle_eq_of_mem_paths hother hpath
  · intro id hid
    obtain ⟨source, howner⟩ := hsound.agrees.exists_owner hid
    exact henrolled.owners source id howner
  · exact henrolled.owners
  · intro now source data
    have hcounted : (f.observe (·.receive .algorithmData)).Enrolled := henrolled.of_holdings rfl
    have hdispatch : (f.dispatch now source (.algorithmData data)).2 = .ok .handled := by
      have hroute : (Packet.algorithmData data).kind.route? = some .handler := rfl
      rw [f.dispatch_of_handler now source hroute]
      show ((f.observe (·.receive .algorithmData)).takeData data).2.map _ = _
      rw [(hcounted.takeData data).2]
      rfl
    refine ⟨?_, hdispatch⟩
    unfold Fleet.receive
    rcases hresult : f.dispatch now source (.algorithmData data) with ⟨g, fault | handling⟩
    · rw [hresult] at hdispatch
      cases hdispatch
    · rw [hresult] at hdispatch
      exact Except.ok.inj hdispatch
  · intro now source packet fault hfault
    have hcounted : (f.observe (·.receive packet.kind)).Enrolled := henrolled.of_holdings rfl
    exact Fleet.refusal_of_handle hcounted (hidentified.of_naming rfl) hsound
      (Fleet.handle_of_dispatch hfault)

/-- A vehicle reports its status and another one sends data.  The first one is removed from the
registry, and then sends data from elsewhere. -/
private def purged : List Turn :=
  [.event (.packet (.wireless "a") (.atRest 1)),
    .event (.packet (.wireless "b") (.algorithmData ⟨2, "camera", .raw []⟩)),
    .event (.unregister "01"),
    .event (.packet (.wireless "c") (.algorithmData ⟨1, "geiger_counter", .raw []⟩))]

/-- Both are registered in the end, and data of the first one is taken in at every time. -/
theorem purged_registered :
    let f := ((Session.new .standard Algorithm.all).turns purged).fleet
    Template.parse Config.standard.driver.idFormat.text = .ok Config.standard.driver.idFormat ∧
      (∀ vehicle, .event (.register vehicle) ∉ purged) ∧
      ("01" ∈ f.registry ∧ "02" ∈ f.registry) ∧
      (∃! index : UInt32, f.ids[index]? = some "01") ∧
      ∀ now source,
        (f.receive now source (.algorithmData ⟨1, "camera", .raw []⟩)).2 = .handled := by
  intro f
  have hparse : Template.parse Config.standard.driver.idFormat.text =
      .ok Config.standard.driver.idFormat := by decide +kernel
  have hregister : ∀ vehicle, .event (.register vehicle) ∉ purged := by simp [purged]
  have hboth : "01" ∈ f.registry ∧ "02" ∈ f.registry := by decide +kernel
  obtain ⟨⟨hcached, -⟩, hdata, -⟩ := registered_everywhere Algorithm.all hparse hregister
  exact ⟨hparse, hregister, hboth, hcached "01" hboth.1, fun now source => (hdata now source _).1⟩

end FleetLink
