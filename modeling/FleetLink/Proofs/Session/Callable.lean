import FleetLink.Proofs.Session.Registration
import FleetLink.Proofs.Session.Sending

/-!
# Vehicles that can be called

A call to a vehicle gets as far as asking for a slot if the vehicle is in the registry and has an
address on a medium that is preferred (`Fleet.Reaches`).  A vehicle with a pending command was so
when the command was issued, and **it stays so** as long as nobody takes it out of the registry or
forgets it.

Whoever forgets a vehicle cancels its pending command, too.  But a call that asked for the source
before may ask for the slot after that, and then a command is pending for a vehicle that has no
address.  So nothing is said when a vehicle is forgotten in between (`Undisturbed`).

## Main Statements

* `Fleet.exists_preferred?_iff` — what it needs to reach a vehicle
* `mem_registry_turn`, `owner?_turn` — what vehicles keep
* `Undisturbed`, `Ready` — nothing comes in between, and a call gets to ask for a slot
* `Ready.step`, `ready_run` — that it stays so
-/

namespace FleetLink

namespace Fleet

variable {f : Fleet} {vehicle : VehicleId}

/-- A vehicle has an address on a medium that is preferred. -/
def Reaches (f : Fleet) (vehicle : VehicleId) : Prop :=
  ∃ source, f.book.owner? source = some vehicle ∧ source.medium ∈ f.settings.preferredMedia

/-- **A vehicle is reached** at some source exactly if it owns one on a medium that is preferred. -/
theorem exists_preferred?_iff (h : AddressBook.Agrees f.book) :
    (∃ destination, f.preferred? vehicle = some destination) ↔ f.Reaches vehicle := by
  constructor
  · rintro ⟨destination, hpreferred⟩
    obtain ⟨before, after, hmedia, -, -, howner⟩ := h.preferred? hpreferred
    exact ⟨destination, howner, by rw [hmedia]; simp⟩
  · rintro ⟨source, howner, hmedium⟩
    have haddress := (h.address_iff_owner vehicle source).mpr howner
    refine Option.isSome_iff_exists.mp (List.findSome?_isSome_iff.mpr ⟨_, hmedium, ?_⟩)
    rw [haddress]
    rfl

/-! ## What vehicles keep -/

theorem mem_registry_setVehicle (hmem : vehicle ∈ f.registry) (id : VehicleId) (v : Vehicle) :
    vehicle ∈ (f.setVehicle id v).registry :=
  Std.ExtTreeMap.mem_insert.mpr (.inr hmem)

theorem mem_registry_meet (hmem : vehicle ∈ f.registry) (index : UInt32) :
    vehicle ∈ (f.meet index).2.2.registry := by
  have hidentify : vehicle ∈ (f.identify index).2.registry := by
    unfold identify
    split <;> exact hmem
  unfold meet
  rcases hid : f.identify index with ⟨id, g⟩
  rw [hid] at hidentify
  dsimp only at hidentify ⊢
  cases g.registry[id]? with
  | some known => exact hidentify
  | none => exact Std.ExtTreeMap.mem_insert.mpr (.inr hidentify)

/-- No packet takes a vehicle out of the registry. -/
theorem mem_registry_receive (hmem : vehicle ∈ f.registry) (now : Nat) (source : Source)
    (packet : Packet) : vehicle ∈ (f.receive now source packet).1.registry := by
  obtain ⟨count, hreceive⟩ := f.receive_eq_handle now source packet
  rw [hreceive]
  show vehicle ∈ ((f.observe (·.receive packet.kind)).handle now source packet).1.registry
  have hcounted : vehicle ∈ (f.observe (·.receive packet.kind)).registry := hmem
  generalize f.observe (·.receive packet.kind) = g at hcounted
  have hchunk : ∀ compressed chunk,
      vehicle ∈ (g.takeChunk now source compressed chunk).1.registry := by
    intro compressed chunk
    obtain ⟨assembler, commands, count, htake⟩ := g.takeChunk_eq now source compressed chunk
    rw [htake]
    exact hcounted
  cases packet with
  | status report =>
      have hmeet := mem_registry_meet hcounted report.index
      show vehicle ∈ (g.takeStatus now source report).1.registry
      unfold takeStatus
      rcases hmet : g.meet report.index with ⟨id, known, met⟩
      rw [hmet] at hmeet
      dsimp only at hmeet ⊢
      cases met.book.record id source with
      | error fault => exact hmeet
      | ok recorded =>
          exact mem_registry_setVehicle (f := { met with book := recorded.2 }) hmeet id _
  | algorithmData data =>
      have hmeet := mem_registry_meet hcounted data.index
      show vehicle ∈ (g.takeData data).1.registry
      unfold takeData
      rcases hmet : g.meet data.index with ⟨id, known, met⟩
      rw [hmet] at hmeet
      dsimp only at hmeet ⊢
      cases known.absorb met.algorithms met.tree id data with
      | error path => exact hmeet
      | ok done => exact mem_registry_setVehicle (f := { met with tree := done.tree }) hmeet id _
  | commandResponse chunk => exact hchunk false chunk
  | compressedCommandResponse chunk => exact hchunk true chunk
  | prearmStatus | commandRequest | missionInfo | other => exact hcounted

end Fleet

namespace Session

variable {s : Session} {vehicle : VehicleId}

/-- **A vehicle stays in the registry** until it is removed. -/
theorem mem_registry_turn (hmem : vehicle ∈ s.fleet.registry) {t : Turn}
    (hkept : t ≠ .event (.unregister vehicle)) : vehicle ∈ (s.turn t).fleet.registry := by
  have hsame : ∀ g : Fleet, g.holdings = s.fleet.holdings → vehicle ∈ g.registry := by
    intro g hholdings
    have hregistry : g.registry = s.fleet.registry := congrArg (·.2.1) hholdings
    exact hregistry ▸ hmem
  cases t with
  | poll id => exact hsame _ (s.holdings_poll id)
  | event event =>
      cases event with
      | packet source packet => exact Fleet.mem_registry_receive hmem s.now source packet
      | response source body =>
          obtain ⟨commands, count, hdeliver⟩ := s.fleet.deliver_eq source body
          have hholdings := congrArg Fleet.holdings hdeliver
          exact hsame _ hholdings
      | call bounded own line => exact hsame _ (s.holdings_begin bounded own line)
      | abandon id => exact hsame _ (s.holdings_abandon id)
      | identify index =>
          show vehicle ∈ (s.fleet.identify index).2.registry
          unfold Fleet.identify
          split <;> exact hmem
      | meet index => exact Fleet.mem_registry_meet hmem index
      | register own => exact Std.ExtTreeMap.mem_insert.mpr (.inr hmem)
      | unregister own =>
          refine Std.ExtTreeMap.mem_erase.mpr ⟨fun heq => hkept ?_, hmem⟩
          rw [Std.LawfulEqCmp.eq_of_compare heq]
      | _ => exact hmem

/-- **A source stays with its owner** until the owner is forgotten. -/
theorem owner?_turn (h : s.fleet.links.Sound) {source : Source}
    (howner : s.fleet.book.owner? source = some vehicle) {t : Turn}
    (hkept : t ≠ .event (.forget vehicle)) :
    (s.turn t).fleet.book.owner? source = some vehicle := by
  cases t with
  | poll id =>
      have hbook : (s.poll id).fleet.book = s.fleet.book :=
        congrArg (·.2.2.2) (s.holdings_poll id)
      exact hbook ▸ howner
  | event event =>
      exact owner?_move h howner (m := .event event) fun heq => by
        cases heq
        exact hkept rfl

end Session

namespace Exchange

variable {w w' : Exchange} {x : Step} {vehicle : VehicleId}

/-! ## One step -/

theorem Does.mem_registry (h : Does w x w') (hmem : vehicle ∈ w.session.fleet.registry)
    (hkept : x ≠ .turn (.event (.unregister vehicle))) : vehicle ∈ w'.session.fleet.registry := by
  cases h with
  | call bounded own line =>
      exact Session.mem_registry_turn hmem (t := .event (.call bounded own line)) (by simp)
  | turn => exact Session.mem_registry_turn hmem fun heq => hkept (congrArg Step.turn heq)
  | found | unknown | addressed | unreached | begun | busy | sent | failed | expired | left
  | idle => exact hmem

theorem Does.reaches {config : Config} (h : Does w x w') (hs : w.session.fleet.links.Sound)
    (hi : w.session.fleet.Identified config) (hreaches : w.session.fleet.Reaches vehicle)
    (hkept : x ≠ .turn (.event (.forget vehicle))) : w'.session.fleet.Reaches vehicle := by
  obtain ⟨source, howner, hmedium⟩ := hreaches
  refine ⟨source, ?_, ?_⟩
  · cases h with
    | call bounded own line =>
        exact Session.owner?_turn hs howner (t := .event (.call bounded own line)) (by simp)
    | turn => exact Session.owner?_turn hs howner fun heq => hkept (congrArg Step.turn heq)
    | found | unknown | addressed | unreached | begun | busy | sent | failed | expired | left
    | idle => exact howner
  · rw [(h.identified hi).settings, ← hi.settings]
    exact hmedium

/-- **A slot is opened** by a call that is made in one go, or by one that asked for the source. -/
theorem of_opened? {slot : SlotId} (hs : w.session.fleet.links.Sound)
    (hopened : w.opened? x = some (vehicle, slot)) :
    (vehicle ∈ w.session.fleet.registry ∧ w.session.fleet.Reaches vehicle) ∨
      ∃ (id : CallId) (u : Underway) (destination : Source),
        w.underway[id]? = some u ∧ u.vehicle = vehicle ∧ u.stage = .addressed destination := by
  cases x with
  | turn t =>
      by_cases hcall : ∃ bounded own line, t = .event (.call bounded own line)
      · obtain ⟨bounded, own, line, rfl⟩ := hcall
        obtain ⟨opened, hopens, heq⟩ := Option.map_eq_some_iff.mp hopened
        cases heq
        unfold Fleet.opens? at hopens
        split at hopens
        next hmem =>
          obtain ⟨destination, hpreferred, -⟩ := Option.bind_eq_some_iff.mp hopens
          exact .inl ⟨hmem, (Fleet.exists_preferred?_iff hs.agrees).mp ⟨destination, hpreferred⟩⟩
        next => cases hopens
      · have hsilent := w.silent_turn fun bounded own line heq => hcall ⟨bounded, own, line, heq⟩
        rw [hsilent.2.1] at hopened
        cases hopened
  | begin id =>
      rcases hcall : w.underway[id]? with _ | ⟨own, line, deadline, _ | destination | _⟩
      case some.addressed =>
        simp only [opened?, hcall] at hopened
        obtain ⟨begun, -, heq⟩ := Option.map_eq_some_iff.mp hopened
        cases heq
        exact .inr ⟨id, _, destination, hcall, rfl, rfl⟩
      all_goals simp [opened?, hcall] at hopened
  | find | address | send | expire | leave => cases hopened

/-- A vehicle that is called is in the registry, and it is reached once a call asked for its source
or has a slot. -/
structure Ready (w : Exchange) (vehicle : VehicleId) : Prop where
  found : ∀ (id : CallId) (u : Underway), w.underway[id]? = some u → u.vehicle = vehicle →
    vehicle ∈ w.session.fleet.registry
  addressed : ∀ (id : CallId) (u : Underway) (destination : Source), w.underway[id]? = some u →
    u.vehicle = vehicle → u.stage = .addressed destination → w.session.fleet.Reaches vehicle
  pending : ∀ slot, w.session.fleet.commands.current? vehicle = some slot →
    vehicle ∈ w.session.fleet.registry ∧ w.session.fleet.Reaches vehicle

/-- A step neither removes a vehicle nor forgets it while a call to it has asked for its source. -/
def Spares (w : Exchange) (vehicle : VehicleId) (x : Step) : Prop :=
  x ≠ .turn (.event (.unregister vehicle)) ∧
    (x = .turn (.event (.forget vehicle)) →
      ∀ (id : CallId) (u : Underway) (destination : Source), w.underway[id]? = some u →
      u.vehicle = vehicle → u.stage ≠ .addressed destination)

/-- **A step keeps a vehicle ready.** -/
theorem Ready.step {config : Config} (h : w.Ready vehicle) (hs : w.session.fleet.links.Sound)
    (hi : w.session.fleet.Identified config) (hspares : w.Spares vehicle x) :
    (w.step x).Ready vehicle where
  found := by
    intro id u hu hown
    refine (w.does_step x).mem_registry ?_ hspares.1
    cases (w.does_step x).comes hu with
    | stayed before => exact h.found id u before hown
    | made made registered => exact hown ▸ registered
    | addressed before | begun before => exact h.found id _ before hown
  addressed := by
    intro id u destination hu hown hstage
    cases (w.does_step x).comes hu with
    | stayed before =>
        have hreaches := h.addressed id u destination before hown hstage
        exact (w.does_step x).reaches hs hi hreaches fun heq =>
          hspares.2 heq id u destination before hown hstage
    | addressed before reached =>
        obtain ⟨hasks, hpreferred⟩ := of_reached? reached
        have hreaches : w.session.fleet.Reaches vehicle := by
          rw [← hown]
          exact (Fleet.exists_preferred?_iff hs.agrees).mp ⟨_, hpreferred⟩
        refine (w.does_step x).reaches hs hi hreaches ?_
        rintro rfl
        cases hasks
    | made | begun => cases hstage
  pending := by
    intro slot hpending
    -- A command that is pending was so before, or a slot is opened for it with the step.
    have hready : vehicle ∈ w.session.fleet.registry ∧ w.session.fleet.Reaches vehicle ∧
        x ≠ .turn (.event (.forget vehicle)) := by
      rcases (w.does_step x).pending hs hpending with hopened | ⟨hbefore, -⟩
      · have hboth : vehicle ∈ w.session.fleet.registry ∧ w.session.fleet.Reaches vehicle := by
          rcases of_opened? hs hopened with hboth | ⟨id, u, destination, hu, hown, hstage⟩
          · exact hboth
          · exact ⟨h.found id u hu hown, h.addressed id u destination hu hown hstage⟩
        refine ⟨hboth.1, hboth.2, ?_⟩
        rintro rfl
        cases hopened
      · refine ⟨(h.pending slot hbefore).1, (h.pending slot hbefore).2, ?_⟩
        rintro rfl
        have hcancelled : (w.session.fleet.commands.cancel vehicle).2.current? vehicle = none := by
          rw [CommandTable.cancel_snd, CommandTable.current?_withdraw, if_pos rfl]
        cases hcancelled.symm.trans hpending
    exact ⟨(w.does_step x).mem_registry hready.1 hspares.1,
      (w.does_step x).reaches hs hi hready.2.1 hready.2.2⟩

/-! ## Whole runs -/

/-- No step removes a vehicle, and none forgets it while a call to it has asked for its source. -/
def Undisturbed (start : Exchange) (steps : List Step) (vehicle : VehicleId) : Prop :=
  ∀ front x back, steps = front ++ x :: back → (start.run front).Spares vehicle x

theorem ready_run (config : Config) (algorithms : List Algorithm) {steps : List Step}
    (hundisturbed : Undisturbed (new config algorithms) steps vehicle) :
    ((new config algorithms).run steps).Ready vehicle := by
  induction steps using List.reverseRecOn with
  | nil =>
      refine ⟨fun id u hu => absurd hu (by simp [run]), fun id u _ hu => absurd hu (by simp [run]),
        fun slot hpending => ?_⟩
      cases (CommandTable.current?_empty vehicle).symm.trans hpending
  | append_singleton earlier x ih =>
      rw [run_concat]
      refine (ih fun front y back heq => ?_).step (sound_new config algorithms earlier)
        (identified_new config algorithms earlier) (hundisturbed earlier x [] rfl)
      exact hundisturbed front y (back ++ [x]) (by simp [heq])

end Exchange

end FleetLink
