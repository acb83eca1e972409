import FleetLink.Proofs.Fleet.Places
import FleetLink.Proofs.Session.Counts
import FleetLink.Proofs.VehicleId.Distinct

/-!
# Packets about different vehicles commute

Two vehicles report at the same time, and nobody can tell which packet comes first.  This module
proves that **it does not matter**: whichever is taken in first, each packet is answered as if the
other had not come, and the fleet ends up the same.

A packet reads and writes at its places, and different indices, vehicles and sources share no place.
So the one packet finds its places as it would have found them without the other, and leaves the
other's alone (`Local.commute`).  Different indices are different vehicles because a template never
makes one id for two.

Two things have no place.  Counters are raised by both packets, and it is the same in either order
to raise them (`count_comm`).  The notices of a subscriber stand in the order in which the packets
came, and they are all that differs.

## Main Statements

* `Fleet.Regular` — what every fleet in a session keeps
* `Received.count_comm` — packets are counted in any order
* `Fleet.Local`, `Local.commute` — changes that work at different places commute
* `local_dispatch`, `local_receive` — packets with an index work at their places
* `packets_commute` — in every session, two packets about different vehicles
-/

namespace FleetLink

/-! ## Counting in any order -/

theorem Tally.bump_comm (t : Tally) (first second : String) :
    (t.bump first).bump second = (t.bump second).bump first := by
  have hbump : ∀ (t : Tally) (seen label : String), (t.bump seen)[label]? =
      if seen = label then some (t.count seen + 1) else t[label]? := by
    intro t seen label
    simp [bump, Std.ExtTreeMap.getElem?_insert]
  apply Std.ExtTreeMap.ext_getElem?
  intro label
  rw [hbump, hbump, hbump, hbump, count_bump, count_bump]
  by_cases hfirst : first = label
  · by_cases hsecond : second = label
    · simp [hfirst, hsecond]
    · simp [hfirst, hsecond]
  · by_cases hsecond : second = label
    · simp [hfirst, hsecond]
    · simp [hfirst, hsecond]

namespace Received

variable (p q : Received) (m : Metrics)

/-- What a packet changes, counter by counter. -/
theorem count_eq :
    p.count m =
      { m with
        packetsReceived := m.packetsReceived.bump p.packet.kind.label
        packetsDropped :=
          p.handling.dropReason?.elim m.packetsDropped
            fun reason => m.packetsDropped.bump reason.label
        addressConflicts := m.addressConflicts + (p.fault?.any PacketFault.isConflict).toNat
        addressesInUse := m.addressesInUse + (p.fault?.any PacketFault.isInUse).toNat } := by
  unfold count
  cases p.handling <;> rcases p.fault? with _ | ⟨_ | _⟩ | _ | _ <;> rfl

theorem count_knowVehicles (known : Nat) :
    p.count (m.knowVehicles known) = (p.count m).knowVehicles known := by
  rw [count_eq, count_eq]
  rfl

/-- **Packets are counted in any order.** -/
theorem count_comm : p.count (q.count m) = q.count (p.count m) := by
  have hdropped : ∀ (first second : Option DropReason) (t : Tally),
      (second.elim (first.elim t fun reason => t.bump reason.label) fun reason =>
          (first.elim t fun reason => t.bump reason.label).bump reason.label) =
        first.elim (second.elim t fun reason => t.bump reason.label) fun reason =>
          (second.elim t fun reason => t.bump reason.label).bump reason.label := by
    intro first second t
    cases first with
    | none => rfl
    | some first =>
        cases second with
        | none => rfl
        | some second => exact t.bump_comm first.label second.label
  rw [count_eq p, count_eq q, count_eq q, count_eq p]
  dsimp only
  rw [Tally.bump_comm, hdropped, Nat.add_right_comm, Nat.add_right_comm m.addressesInUse]

end Received

namespace Fleet

/-! ## Changes that work at different places -/

/-- What every fleet in a session keeps: ids are made as configured, the parts of the links agree,
and the gauge is the number of ids. -/
structure Regular (config : Config) (f : Fleet) : Prop where
  identified : f.Identified config
  sound : f.links.Sound
  gauged : f.Gauged

/-- A change of fleets works at some places: what stands elsewhere it neither writes nor reads.
What it answers tells how it is counted. -/
structure Local {α : Type*} (config : Config) (places : Set Place) (log : α → Received)
    (act : Fleet → Fleet × α) : Prop where
  regular : ∀ {f}, Regular config f → Regular config (act f).1
  within : ∀ {f}, Regular config f → Within places f (act f).1
  alike : ∀ {f g}, Regular config f → Alike places f g →
    (act g).2 = (act f).2 ∧ Alike places (act f).1 (act g).1
  metrics : ∀ {f}, Regular config f →
    (act f).1.metrics = ((log (act f).2).count f.metrics).knowVehicles (act f).1.ids.size

/-- Two changes of a fleet commute.  In either order each is answered alike, and the fleet ends up
the same, but for the notices that wait. -/
def Commute {α β : Type*} (f : Fleet) (one : Fleet → Fleet × α) (other : Fleet → Fleet × β) :
    Prop :=
  (one (other f).1).2 = (one f).2 ∧ (other (one f).1).2 = (other f).2 ∧
    ∃ inbox, (other (one f).1).1 = { (one (other f).1).1 with inbox := inbox }

section

variable {config : Config} {α β : Type*} {places others : Set Place} {log : α → Received}
  {log' : β → Received} {one : Fleet → Fleet × α} {other : Fleet → Fleet × β} {f : Fleet}

/-- **Changes that work at different places commute.** -/
theorem Local.commute (hone : Local config places log one) (hother : Local config others log' other)
    (hapart : ∀ p ∈ places, p ∉ others) (h : f.Regular config) : f.Commute one other := by
  have hapart' : ∀ p ∈ others, p ∉ places := fun p hp hmem => hapart p hmem hp
  have hf₁ : (one f).1.Regular config := hone.regular h
  have hf₂ : (other f).1.Regular config := hother.regular h
  -- Each finds its places as they were, and so it answers and writes as it would have done alone.
  obtain ⟨hanswer, hplaces⟩ := hone.alike h ((hother.within h).alike hapart)
  obtain ⟨hanswer', hothers⟩ := hother.alike h ((hone.within h).alike hapart')
  have hend := Within.around hapart (hone.within h) (hother.within hf₁) (hother.within h)
    (hone.within hf₂) hplaces hothers
  have hsame := eq_of_places (hone.regular hf₂).sound.agrees (hother.regular hf₁).sound.agrees hend
  have hmetrics : (other (one f).1).1.metrics = (one (other f).1).1.metrics := by
    have hids : (other (one f).1).1.ids = (one (other f).1).1.ids := congrArg (·.ids) hsame
    rw [hother.metrics hf₁, hone.metrics h, hone.metrics hf₂, hother.metrics h, hanswer, hanswer',
      hids, Received.count_knowVehicles, Received.count_knowVehicles, Received.count_comm]
    rfl
  refine ⟨hanswer, hanswer', (other (one f).1).1.inbox, ?_⟩
  rw [hmetrics] at hsame
  exact hsame

end

/-! ## Packets work at their places -/

section

variable {config : Config} {now : Nat} {source : Source} {packet : Packet} {index : UInt32}
  {f g : Fleet}

/-- A packet with an index has a handler, and is no part of a response. -/
theorem route?_of_index? (hindex : packet.index? = some index) :
    packet.kind.route? = some .handler ∧
      ∀ (f : Fleet) (now : Nat) (source : Source), f.completed? now source packet = none := by
  cases packet with
  | status | algorithmData => exact ⟨rfl, fun _ _ _ => rfl⟩
  | prearmStatus | commandRequest | commandResponse | compressedCommandResponse | missionInfo
  | other => cases hindex

/-- Counting makes no difference to the id of an index. -/
theorem Regular.identify_observe (h : f.Regular config) (change : Metrics → Metrics)
    (index : UInt32) :
    ((f.observe change).identify index).1 = .ofIndex config.driver.idFormat index := by
  have hcounted : (f.observe change).Identified config := h.identified.of_naming rfl
  exact hcounted.identify_fst index

/-- Taking a packet in is handling it, whatever is counted and whatever is told of it: so it works
at its places. -/
theorem local_of_handle {α : Type*} {log : α → Received} {act : Fleet → Fleet × α}
    (hindex : packet.index? = some index)
    (hhandle : ∀ f, ∃ count, (act f).1 =
      ((f.observe (·.receive packet.kind)).handle now source packet).1.observe count)
    (hanswer : ∀ f g, (g.dispatch now source packet).2 = (f.dispatch now source packet).2 →
      (act g).2 = (act f).2)
    (hmetrics : ∀ f, f.Regular config →
      (act f).1.metrics = ((log (act f).2).count f.metrics).knowVehicles (act f).1.ids.size) :
    Local config (Place.of index (.ofIndex config.driver.idFormat index) source) log act where
  regular := by
    intro f h
    obtain ⟨count, heq⟩ := hhandle f
    have hgauged := congrArg (·.vehiclesKnown) (hmetrics f h)
    refine ⟨?_, ?_, hgauged⟩
    · have hcounted : (f.observe (·.receive packet.kind)).Identified config :=
        h.identified.of_naming rfl
      rw [heq]
      exact (hcounted.handle now source packet).of_naming rfl
    · have hlinks := (f.observe (·.receive packet.kind)).links_handle now source packet
      have hsound : (f.observe (·.receive packet.kind)).links.Sound := h.sound
      rw [heq]
      show ((f.observe (·.receive packet.kind)).handle now source packet).1.links.Sound
      rw [hlinks]
      exact hsound.after _ _ _
  within := by
    intro f h
    obtain ⟨count, heq⟩ := hhandle f
    have hcounted := within_observe f (·.receive packet.kind)
    have hwrites := (f.observe (·.receive packet.kind)).within_handle now source hindex
    rw [h.identify_observe] at hwrites
    rw [heq]
    exact ((hcounted.mono (Set.empty_subset _)).trans hwrites).observe count
  alike := by
    intro f g h halike
    obtain ⟨count, heq⟩ := hhandle f
    obtain ⟨count', heq'⟩ := hhandle g
    have hcounted := halike.observe (·.receive packet.kind) (·.receive packet.kind)
    rw [← h.identify_observe (·.receive packet.kind)] at hcounted ⊢
    obtain ⟨hsame, hleft⟩ := alike_handle now hindex hcounted
    obtain ⟨hroute, -⟩ := route?_of_index? hindex
    refine ⟨hanswer f g ?_, ?_⟩
    · rw [f.dispatch_of_handler now source hroute, g.dispatch_of_handler now source hroute, hsame]
    · rw [heq, heq']
      exact hleft.observe count count'
  metrics := hmetrics _

/-- What a packet is answered with when whoever hands it in is told of a refusal. -/
def answered (source : Source) (packet : Packet) (answer : Except PacketFault Handling) :
    Received :=
  ⟨source, packet, .handled, refusal? answer⟩

theorem local_dispatch (config : Config) (now : Nat) (source : Source)
    (hindex : packet.index? = some index) :
    Local config (Place.of index (.ofIndex config.driver.idFormat index) source)
      (answered source packet) (·.dispatch now source packet) := by
  refine local_of_handle hindex (fun f => f.dispatch_eq_handle now source packet)
    (fun _ _ hsame => hsame) fun f h => ?_
  obtain ⟨hroute, hquiet⟩ := route?_of_index? hindex
  have hhandle := metrics_handle (f := f.observe (·.receive packet.kind)) h.gauged h.sound.coherent
    now source packet
  rw [hquiet] at hhandle
  rw [f.dispatch_of_handler now source hroute]
  have hrefusal : refusal? (((f.observe (·.receive packet.kind)).handle now source packet).2.map
      fun _ => Handling.handled) =
        refusal? ((f.observe (·.receive packet.kind)).handle now source packet).2 := by
    cases ((f.observe (·.receive packet.kind)).handle now source packet).2 <;> rfl
  rw [answered, Received.count, hrefusal]
  exact hhandle

theorem local_receive (config : Config) (now : Nat) (source : Source)
    (hindex : packet.index? = some index) :
    Local config (Place.of index (.ofIndex config.driver.idFormat index) source) id
      (fun f => ((f.receive now source packet).1, f.received now source packet)) := by
  refine local_of_handle hindex (fun f => f.receive_eq_handle now source packet) ?_ fun f h => ?_
  · intro f g hsame
    have hhandling : (g.receive now source packet).2 = (f.receive now source packet).2 := by
      unfold receive
      rcases hf : f.dispatch now source packet with ⟨f', fault | handling⟩
      · rw [hf] at hsame
        rcases hg : g.dispatch now source packet with ⟨g', answer⟩
        rw [hg] at hsame
        obtain rfl : answer = .error fault := hsame
        rfl
      · rw [hf] at hsame
        rcases hg : g.dispatch now source packet with ⟨g', answer⟩
        rw [hg] at hsame
        obtain rfl : answer = .ok handling := hsame
        rfl
    dsimp only [received]
    rw [hhandling, hsame]
  · obtain ⟨-, hquiet⟩ := route?_of_index? hindex
    have hreceive := metrics_receive h.gauged h.sound.coherent now source packet
    rw [hquiet] at hreceive
    exact hreceive

end

end Fleet

/-- **Packets about different vehicles commute.**  Take any session that can be reached, and two
packets, each a status report or data of an algorithm, about different indices and from different
sources.  Whichever is taken in first, each of them is answered as if the other had not come: it is
handled or refused alike, and whoever is told of refusals is told the same reason.  And the fleet
ends up the same: the ids that are kept, the registry with the statuses and the retained readings,
the address book, the device tree with the values and the numbers of writes, and all that is
counted.  Only the notices that wait for a subscriber can stand in another order. -/
theorem packets_commute {config : Config} (algorithms : List Algorithm) {text : String}
    (hparse : Template.parse text = .ok config.driver.idFormat) (happenings : List Turn)
    {source source' : Source} {packet packet' : Packet} {i j : UInt32}
    (hpacket : packet.index? = some i) (hpacket' : packet'.index? = some j)
    (hindex : i ≠ j) (hsource : source ≠ source') :
    let s := (Session.new config algorithms).turns happenings
    s.fleet.Commute (·.dispatch s.now source packet) (·.dispatch s.now source' packet') ∧
      s.fleet.Commute (·.receive s.now source packet) (·.receive s.now source' packet') := by
  intro s
  have hregular : s.fleet.Regular config :=
    ⟨Session.identified_turns (Fleet.identified_new config algorithms) happenings,
      Session.sound_turns (Fleet.sound_new config algorithms) happenings,
      Session.gauged_turns (Fleet.gauged_new config algorithms)
        (Fleet.sound_new config algorithms) happenings⟩
  have hvehicle : VehicleId.ofIndex config.driver.idFormat i ≠ .ofIndex config.driver.idFormat j :=
    fun hids => hindex (VehicleId.ofIndex_injective (Template.hasIndex_of_parse hparse) hids)
  have hapart : ∀ p ∈ Place.of i (.ofIndex config.driver.idFormat i) source,
      p ∉ Place.of j (.ofIndex config.driver.idFormat j) source' :=
    fun _ => Place.notMem_of hindex hvehicle hsource
  refine ⟨?_, ?_⟩
  · exact (Fleet.local_dispatch config s.now source hpacket).commute
      (Fleet.local_dispatch config s.now source' hpacket') hapart hregular
  · obtain ⟨hanswer, hanswer', hend⟩ := (Fleet.local_receive config s.now source hpacket).commute
      (Fleet.local_receive config s.now source' hpacket') hapart hregular
    exact ⟨congrArg (·.handling) hanswer, congrArg (·.handling) hanswer', hend⟩

/-- A vehicle reports its status. -/
private def settled : List Turn := [.event (.packet (.wireless "a") (.atRest 1))]

/-- It reports again from elsewhere, and is refused, whether another vehicle is heard of before or
after that. -/
theorem conflict_sighting_commute :
    let s := (Session.new .standard []).turns settled
    let claim := fun f : Fleet => f.dispatch s.now (.wireless "b") (.atRest 1)
    let sighting := fun f : Fleet => f.dispatch s.now (.wireless "c") (.atRest 2)
    Template.parse Config.standard.driver.idFormat.text = .ok Config.standard.driver.idFormat ∧
      (Packet.atRest 1).index? = some 1 ∧ (Packet.atRest 2).index? = some 2 ∧
      Source.wireless "b" ≠ Source.wireless "c" ∧
      s.fleet.Commute claim sighting ∧
      (claim s.fleet).2 = .error (.address (.conflict "01" "wireless" "a" "b")) ∧
      (claim (sighting s.fleet).1).2 = .error (.address (.conflict "01" "wireless" "a" "b")) := by
  intro s claim sighting
  have hparse : Template.parse Config.standard.driver.idFormat.text =
      .ok Config.standard.driver.idFormat := by decide +kernel
  have hclaim : (Packet.atRest 1).index? = some 1 := rfl
  have hsighting : (Packet.atRest 2).index? = some 2 := rfl
  have hsource : Source.wireless "b" ≠ Source.wireless "c" := by decide
  have hcommute := (packets_commute [] hparse settled hclaim hsighting (by decide) hsource).1
  have hrefused : (claim s.fleet).2 = .error (.address (.conflict "01" "wireless" "a" "b")) := by
    decide +kernel
  exact ⟨hparse, hclaim, hsighting, hsource, hcommute, hrefused, hcommute.1.trans hrefused⟩

end FleetLink
