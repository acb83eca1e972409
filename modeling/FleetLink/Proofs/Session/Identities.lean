import FleetLink.Proofs.Session.Moves

/-!
# Ids are kept

A fleet makes the id of an index when it first hears of the index, and looks it up from then on.
Looking up and making anew come to the same, because **the template never changes and whatever is
looked up was made from it**.  So the id of an index is a function of the configuration alone,
whatever happened before anybody asks, and whether or not its vehicle is still registered.

## Main Statements

* `receive_eq_handle`, `takeChunk_eq` — what a packet comes to, but for what is counted
* `call_eq`, `finish?_eq`, `begin_eq`, `abandon_eq` — what calls work on
* `Fleet.naming` — the part of a fleet that gives ids, and what changes it
* `Fleet.Identified` — every id that is kept is the one that the template makes
* `identified_move` — every move keeps it so
* `Reachable.identify_fst` — the id of an index, in every session
-/

namespace FleetLink

namespace Fleet

/-! ## What packets and calls work on -/

/-- Taking a packet in is handling it, but for what is counted. -/
theorem dispatch_eq_handle (f : Fleet) (now : Nat) (source : Source) (packet : Packet) :
    ∃ count, (f.dispatch now source packet).1 =
      ((f.observe (·.receive packet.kind)).handle now source packet).1.observe count := by
  cases packet with
  | commandRequest | other => exact ⟨(·.drop .unhandledKind), rfl⟩
  | prearmStatus | missionInfo => exact ⟨id, rfl⟩
  | status | commandResponse | compressedCommandResponse | algorithmData =>
      refine ⟨id, ?_⟩
      simp only [dispatch, Packet.kind, PacketKind.route?]
      split
      next h => rw [h]; rfl
      next h => rw [h]; rfl

theorem receive_eq_handle (f : Fleet) (now : Nat) (source : Source) (packet : Packet) :
    ∃ count, (f.receive now source packet).1 =
      ((f.observe (·.receive packet.kind)).handle now source packet).1.observe count := by
  obtain ⟨count, hdispatch⟩ := f.dispatch_eq_handle now source packet
  unfold receive
  rcases hresult : f.dispatch now source packet with ⟨g, result⟩
  rw [hresult] at hdispatch
  cases result with
  | ok handling => exact ⟨count, hdispatch⟩
  | error fault =>
      refine ⟨fun metrics => (count metrics).drop .handlerError, ?_⟩
      exact congrArg (fun refused : Fleet => refused.observe (·.drop .handlerError)) hdispatch

/-- Handing a response over works on the commands. -/
theorem deliver_eq (f : Fleet) (source : Source) (body : List UInt8) :
    ∃ commands count, (f.deliver source body).2 =
      { f with commands := commands }.observe count := by
  unfold deliver
  cases f.book.owner? source with
  | none => exact ⟨f.commands, (·.drop .unknownSource), rfl⟩
  | some vehicle =>
      dsimp only
      rcases f.commands.fulfill vehicle (Text.decodeLossy body) with ⟨found, commands⟩
      cases found with
      | true => exact ⟨commands, id, rfl⟩
      | false => exact ⟨commands, (·.staleResponse), rfl⟩

/-- A part of a response works on the assembler and the commands. -/
theorem takeChunk_eq (f : Fleet) (now : Nat) (source : Source) (compressed : Bool)
    (chunk : Chunk) :
    ∃ assembler commands count, (f.takeChunk now source compressed chunk).1 =
      { f with assembler := assembler, commands := commands }.observe count := by
  unfold takeChunk
  rcases f.assembler.add now source compressed chunk with ⟨assembler, result⟩
  match result with
  | .error fault => exact ⟨assembler, f.commands, id, rfl⟩
  | .ok none => exact ⟨assembler, f.commands, id, rfl⟩
  | .ok (some body) => exact ⟨assembler, deliver_eq { f with assembler := assembler } source body⟩

/-- A call works on the commands and the outbox. -/
theorem call_eq (f : Fleet) (now : Nat) (vehicle : VehicleId) (line : String) :
    ∃ commands outbox count, (f.call now vehicle line).1 =
      { f with commands := commands, outbox := outbox }.observe count := by
  unfold call
  split
  · cases f.preferred? vehicle with
    | none => exact ⟨f.commands, f.outbox, id, rfl⟩
    | some destination =>
        rcases f.commands.begin now f.settings.strictCommands vehicle with _ | ⟨slot, commands⟩
        · exact ⟨f.commands, f.outbox, (·.finish .rejected), rfl⟩
        · dsimp only
          cases f.outbox.send? destination (CommandLine.packet line) with
          | none => exact ⟨commands.release slot, f.outbox, (·.finish .sendFailed), rfl⟩
          | some outbox => exact ⟨commands, outbox, id, rfl⟩
  · exact ⟨f.commands, f.outbox, id, rfl⟩

/-- A call that ends works on the commands. -/
theorem finish?_eq {f g : Fleet} {now : Nat} {call : Call} {result : CallResult}
    (h : f.finish? now call = some (g, result)) :
    ∃ commands count, g = { f with commands := commands }.observe count := by
  unfold finish? at h
  split at h
  next outcome hwait =>
    cases h
    exact ⟨f.commands.release call.slot, (·.finish (outcomeLabel outcome)), rfl⟩
  next =>
    split at h
    · cases h
      exact ⟨f.commands.release call.slot, (·.finish .timeout), rfl⟩
    · cases h

/-! ## What changes the ids -/

/-- What ids are made with, and the ids that are kept. -/
def naming (f : Fleet) : DriverSettings × Std.ExtTreeMap UInt32 VehicleId := (f.settings, f.ids)

section

variable (f : Fleet)

theorem naming_meet (index : UInt32) :
    (f.meet index).2.2.naming = (f.identify index).2.naming := by
  unfold meet
  rcases f.identify index with ⟨id, g⟩
  dsimp only
  cases g.registry[id]? <;> rfl

theorem naming_takeStatus (now : Nat) (source : Source) (report : StatusReport) :
    (f.takeStatus now source report).1.naming = (f.identify report.index).2.naming := by
  rw [← naming_meet]
  unfold takeStatus
  rcases f.meet report.index with ⟨id, vehicle, g⟩
  dsimp only
  cases g.book.record id source <;> rfl

theorem naming_takeData (data : AlgorithmData) :
    (f.takeData data).1.naming = (f.identify data.index).2.naming := by
  rw [← naming_meet]
  unfold takeData
  rcases f.meet data.index with ⟨id, vehicle, g⟩
  dsimp only
  cases vehicle.absorb g.algorithms g.tree id data <;> rfl

theorem naming_takeChunk (now : Nat) (source : Source) (compressed : Bool) (chunk : Chunk) :
    (f.takeChunk now source compressed chunk).1.naming = f.naming := by
  obtain ⟨assembler, commands, count, htake⟩ := f.takeChunk_eq now source compressed chunk
  rw [htake]
  rfl

end

/-- The fleet makes ids as configured, and every id that it keeps was made so. -/
structure Identified (config : Config) (f : Fleet) : Prop where
  settings : f.settings = config.driver
  made : ∀ (index : UInt32) (id : VehicleId), f.ids[index]? = some id →
    id = .ofIndex config.driver.idFormat index

variable {config : Config} {f g : Fleet}

theorem identified_new (config : Config) (algorithms : List Algorithm) :
    (new config algorithms).Identified config where
  settings := rfl
  made := by simp

namespace Identified

theorem of_naming (h : f.Identified config) (hnaming : g.naming = f.naming) :
    g.Identified config where
  settings := (congrArg (·.1) hnaming).trans h.settings
  made := by
    have hids : g.ids = f.ids := congrArg (·.2) hnaming
    rw [hids]
    exact h.made

/-- Looking an id up and making it anew come to the same. -/
theorem identify_fst (h : f.Identified config) (index : UInt32) :
    (f.identify index).1 = .ofIndex config.driver.idFormat index := by
  rw [Fleet.identify_fst, h.settings]
  cases hid : f.ids[index]? with
  | none => rfl
  | some id => exact h.made index id hid

theorem identify (h : f.Identified config) (index : UInt32) :
    (f.identify index).2.Identified config := by
  unfold Fleet.identify
  cases hid : f.ids[index]? with
  | some id => exact h
  | none =>
      refine ⟨h.settings, fun other id hother => ?_⟩
      dsimp only at hother
      rw [Std.ExtTreeMap.getElem?_insert] at hother
      split at hother
      next hindex =>
        rw [← Option.some.inj hother, ← Std.LawfulEqCmp.eq_of_compare hindex, ← h.settings]
      next => exact h.made other id hother

/-- Of all packets only those that carry an index have an id made. -/
theorem handle (h : f.Identified config) (now : Nat) (source : Source) (packet : Packet) :
    (f.handle now source packet).1.Identified config := by
  cases packet with
  | status report =>
      exact (h.identify report.index).of_naming (f.naming_takeStatus now source report)
  | algorithmData data => exact (h.identify data.index).of_naming (f.naming_takeData data)
  | commandResponse chunk => exact h.of_naming (f.naming_takeChunk now source false chunk)
  | compressedCommandResponse chunk => exact h.of_naming (f.naming_takeChunk now source true chunk)
  | prearmStatus | commandRequest | missionInfo | other => exact h

theorem receive (h : f.Identified config) (now : Nat) (source : Source) (packet : Packet) :
    (f.receive now source packet).1.Identified config := by
  obtain ⟨count, hreceive⟩ := f.receive_eq_handle now source packet
  have hcounted : (f.observe (·.receive packet.kind)).Identified config := h.of_naming rfl
  rw [hreceive]
  exact (hcounted.handle now source packet).of_naming rfl

end Identified

end Fleet

namespace Session

variable {config : Config} {algorithms : List Algorithm} {s : Session}

theorem naming_settleCalls (s : Session) (calls : List (CallId × Call)) :
    (s.settleCalls calls).fleet.naming = s.fleet.naming := by
  induction calls generalizing s with
  | nil => rfl
  | cons first rest ih =>
      obtain ⟨id, call⟩ := first
      rw [settleCalls]
      cases hfinish : s.fleet.finish? s.now call with
      | none => exact ih _
      | some ended =>
          obtain ⟨commands, count, hended⟩ := Fleet.finish?_eq hfinish
          have hnaming := congrArg Fleet.naming hended
          exact (ih _).trans hnaming

theorem naming_settle (s : Session) : s.settle.fleet.naming = s.fleet.naming :=
  naming_settleCalls { s with waiting := [] } s.waiting

theorem begin_eq (s : Session) (bounded : Bool) (vehicle : VehicleId) (line : String) :
    ∃ commands outbox count, (s.begin bounded vehicle line).fleet =
      { s.fleet with commands := commands, outbox := outbox }.observe count := by
  obtain ⟨commands, outbox, count, hcall⟩ := s.fleet.call_eq s.now vehicle line
  refine ⟨commands, outbox, count, ?_⟩
  rw [← hcall]
  unfold begin
  rcases s.fleet.call s.now vehicle line with ⟨fleet, fault | slot⟩ <;> rfl

/-- Whoever stops waiting for a call works on the commands. -/
theorem abandon_eq (s : Session) (id : CallId) :
    ∃ commands, (s.abandon id).fleet = { s.fleet with commands := commands } := by
  unfold abandon
  cases s.waiting.find? (·.1 = id) with
  | none => exact ⟨s.fleet.commands, rfl⟩
  | some found => exact ⟨s.fleet.commands.release found.2.slot, rfl⟩

theorem naming_begin (s : Session) (bounded : Bool) (vehicle : VehicleId) (line : String) :
    (s.begin bounded vehicle line).fleet.naming = s.fleet.naming := by
  obtain ⟨commands, outbox, count, hbegin⟩ := s.begin_eq bounded vehicle line
  rw [hbegin]
  rfl

theorem naming_abandon (s : Session) (id : CallId) :
    (s.abandon id).fleet.naming = s.fleet.naming := by
  obtain ⟨commands, habandon⟩ := s.abandon_eq id
  rw [habandon]
  rfl

/-- Every move keeps the ids as they were made. -/
theorem identified_move (h : s.fleet.Identified config) (m : Move) :
    (s.move m).fleet.Identified config := by
  cases m with
  | settle => exact h.of_naming s.naming_settle
  | event event =>
      cases event with
      | packet source packet => exact h.receive s.now source packet
      | identify index => exact h.identify index
      | meet index => exact (h.identify index).of_naming (s.fleet.naming_meet index)
      | response source body =>
          obtain ⟨commands, count, hdeliver⟩ := s.fleet.deliver_eq source body
          have hnaming := congrArg Fleet.naming hdeliver
          exact h.of_naming (hnaming.trans rfl)
      | call bounded vehicle line => exact h.of_naming (s.naming_begin bounded vehicle line)
      | abandon id => exact h.of_naming (s.naming_abandon id)
      | _ => exact h.of_naming rfl

theorem Reachable.identified (h : Reachable config algorithms s) : s.fleet.Identified config := by
  induction h with
  | new => exact Fleet.identified_new config algorithms
  | move _ m ih => exact identified_move ih m

/-- **The id of an index** is the one that the template makes, in every session. -/
theorem Reachable.identify_fst (h : Reachable config algorithms s) (index : UInt32) :
    (s.fleet.identify index).1 = .ofIndex config.driver.idFormat index :=
  h.identified.identify_fst index

end Session

end FleetLink
