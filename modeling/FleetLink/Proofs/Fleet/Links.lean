import FleetLink.Fleet.Call
import FleetLink.Fleet.Inbound
import FleetLink.Proofs.AddressBook.Agreement
import FleetLink.Proofs.Assembler.Step
import FleetLink.Proofs.CommandTable.History

/-!
# The links of a fleet

Of all that a fleet knows, three parts concern its links: whose address is whose, the responses that
are on their way, and the commands that are pending.  Each has a theory of its own, with its own
kinds of change.  **Whatever a fleet does, it changes the links by such changes only**, and this
module says by which (`Links.after`).  What the parts keep, a fleet therefore keeps, too.

The parts meet in one place: a completed response is handed to the vehicle that owns its source at
that moment, and ends the pending command of that vehicle (`Fleet.delivery`).

## Main Statements

* `Links`, `Fleet.links`, `Links.after` — the links, and changes of them
* `Links.Sound`, `Links.Sound.after` — what every change keeps
* `links_receive` — packets, of which only claims and parts of responses change the links
* `links_takeChunk` — a part of a response, and the command that it may end
* `links_call`, `links_finish?` — calls
-/

namespace FleetLink

/-- Whose address is whose, the responses on their way, and the pending commands. -/
structure Links where
  book : AddressBook
  assembler : Assembler
  commands : CommandTable

/-- The links of a fleet. -/
def Fleet.links (f : Fleet) : Links := ⟨f.book, f.assembler, f.commands⟩

namespace Links

/-- The links after changes of their parts. -/
def after (l : Links) (changes : List AddressBook.Change) (arrivals : List Arrival)
    (operations : List CommandTable.Operation) : Links :=
  ⟨l.book.run changes, l.assembler.run arrivals, l.commands.run operations⟩

theorem after_after (l : Links) (changes changes' : List AddressBook.Change)
    (arrivals arrivals' : List Arrival) (operations operations' : List CommandTable.Operation) :
    (l.after changes arrivals operations).after changes' arrivals' operations' =
      l.after (changes ++ changes') (arrivals ++ arrivals') (operations ++ operations') := by
  simp [after, AddressBook.run, Assembler.run, CommandTable.run]

/-- What every change of the links keeps. -/
structure Sound (l : Links) : Prop where
  agrees : l.book.Agrees
  distinct : l.assembler.Distinct
  coherent : l.commands.Coherent

theorem Sound.after {l : Links} (h : Sound l) (changes : List AddressBook.Change)
    (arrivals : List Arrival) (operations : List CommandTable.Operation) :
    Sound (l.after changes arrivals operations) where
  agrees := h.agrees.run changes
  distinct := Assembler.distinct_run h.distinct arrivals
  coherent := h.coherent.run operations

end Links

/-- The part of a response that a packet is, if it is one. -/
def Packet.arrival? (packet : Packet) (now : Nat) (source : Source) : Option Arrival :=
  match packet with
  | .commandResponse chunk => some ⟨now, source, false, chunk⟩
  | .compressedCommandResponse chunk => some ⟨now, source, true, chunk⟩
  | _ => none

namespace Fleet

theorem sound_new (config : Config) (algorithms : List Algorithm) :
    (new config algorithms).links.Sound where
  agrees := AddressBook.agrees_empty
  distinct := Assembler.distinct_new _
  coherent := CommandTable.coherent_empty

/-! ## Vehicles and counters -/

theorem links_identify (f : Fleet) (index : UInt32) : (f.identify index).2.links = f.links := by
  unfold identify
  split <;> rfl

theorem identify_fst (f : Fleet) (index : UInt32) :
    (f.identify index).1 = f.ids[index]?.getD (VehicleId.ofIndex f.settings.idFormat index) := by
  unfold identify
  cases f.ids[index]? <;> rfl

/-- An index that is asked for has its id from then on, and the others have theirs. -/
theorem ids_identify (f : Fleet) (index other : UInt32) :
    (f.identify index).2.ids[other]? =
      if index = other then some (f.identify index).1 else f.ids[other]? := by
  unfold identify
  cases hknown : f.ids[index]? with
  | some id =>
      dsimp only
      split
      next h => rw [← h, hknown]
      next => rfl
  | none =>
      dsimp only
      rw [Std.ExtTreeMap.getElem?_insert]
      simp only [Std.compare_eq_iff_eq]

theorem meet_fst (f : Fleet) (index : UInt32) : (f.meet index).1 = (f.identify index).1 := by
  unfold meet
  rcases f.identify index with ⟨id, g⟩
  dsimp only
  cases g.registry[id]? <;> rfl

theorem links_meet (f : Fleet) (index : UInt32) : (f.meet index).2.2.links = f.links := by
  have hlinks := links_identify f index
  unfold meet
  rcases hidentify : f.identify index with ⟨id, g⟩
  rw [hidentify] at hlinks
  dsimp only
  cases g.registry[id]? with
  | some vehicle => exact hlinks
  | none => exact hlinks

theorem links_forget (f : Fleet) (vehicle : VehicleId) :
    (f.forget vehicle).links = f.links.after [.forget vehicle] [] [.cancel vehicle] := rfl

/-! ## Packets -/

section

variable (f : Fleet) (now : Nat) (source : Source)

/-- A status report claims its source for its vehicle. -/
theorem links_takeStatus (report : StatusReport) :
    (f.takeStatus now source report).1.links =
      f.links.after [.record (f.identify report.index).1 source] [] [] := by
  have hlinks := links_meet f report.index
  rw [← meet_fst]
  unfold takeStatus
  rcases hmeet : f.meet report.index with ⟨id, vehicle, g⟩
  rw [hmeet] at hlinks
  rw [← hlinks]
  show _ = (⟨g.book.step (.record id source), g.assembler, g.commands⟩ : Links)
  unfold AddressBook.step
  dsimp only
  cases g.book.record id source with
  | error fault => rfl
  | ok recorded => rfl

theorem links_takeData (data : AlgorithmData) : (f.takeData data).1.links = f.links := by
  have hlinks := links_meet f data.index
  unfold takeData
  rcases hmeet : f.meet data.index with ⟨id, vehicle, g⟩
  rw [hmeet] at hlinks
  dsimp only
  cases vehicle.absorb g.algorithms g.tree id data with
  | error path => exact hlinks
  | ok done => exact hlinks

/-- What handing over a response means for the commands. -/
def delivery (body : List UInt8) : List CommandTable.Operation :=
  ((f.book.owner? source).map fun vehicle =>
    CommandTable.Operation.fulfill vehicle (Text.decodeLossy body)).toList

/-- A response is handed to the vehicle that owns its source, if one does. -/
theorem links_deliver (body : List UInt8) :
    (f.deliver source body).2.links = f.links.after [] [] (f.delivery source body) := by
  unfold deliver delivery
  cases f.book.owner? source with
  | none => rfl
  | some vehicle =>
      show _ = (⟨f.book, f.assembler,
        (f.commands.fulfill vehicle (Text.decodeLossy body)).2⟩ : Links)
      dsimp only
      rcases f.commands.fulfill vehicle (Text.decodeLossy body) with ⟨found, commands⟩
      cases found <;> rfl

end

/-- The answer to a part of a response means something for the commands if it is a body. -/
def deliveries (f : Fleet) (x : Arrival) : List CommandTable.Operation :=
  match f.assembler.reply x with
  | .ok (some body) => f.delivery x.source body
  | _ => []

/-- **A part of a response** goes to the assembler, and what it completes to the vehicle that owns
the source. -/
theorem links_takeChunk (f : Fleet) (x : Arrival) :
    (f.takeChunk x.now x.source x.compressed x.chunk).1.links =
      f.links.after [] [x] (f.deliveries x) := by
  unfold takeChunk deliveries Assembler.reply
  show _ = (⟨f.book, (f.assembler.add x.now x.source x.compressed x.chunk).1, _⟩ : Links)
  rcases f.assembler.add x.now x.source x.compressed x.chunk with ⟨assembler, result⟩
  match result with
  | .error fault => rfl
  | .ok none => rfl
  | .ok (some body) => exact links_deliver { f with assembler := assembler } x.source body

/-- The claims that a packet makes: a status report says where its vehicle is. -/
def claims (f : Fleet) (source : Source) : Packet → List AddressBook.Change
  | .status report => [.record (f.identify report.index).1 source]
  | _ => []

theorem links_handle (f : Fleet) (now : Nat) (source : Source) (packet : Packet) :
    (f.handle now source packet).1.links = f.links.after (f.claims source packet)
      (packet.arrival? now source).toList ((packet.arrival? now source).elim [] f.deliveries) := by
  cases packet with
  | status report => exact f.links_takeStatus now source report
  | commandResponse chunk => exact f.links_takeChunk ⟨now, source, false, chunk⟩
  | compressedCommandResponse chunk => exact f.links_takeChunk ⟨now, source, true, chunk⟩
  | algorithmData data => exact f.links_takeData data
  | prearmStatus | commandRequest | missionInfo | other => rfl

theorem claims_observe (f : Fleet) (change : Metrics → Metrics) (source : Source)
    (packet : Packet) : (f.observe change).claims source packet = f.claims source packet := by
  cases packet with
  | status report =>
      rw [claims, claims, identify_fst, identify_fst]
      rfl
  | _ => rfl

/-- **A packet** claims an address, or is a part of a response, or leaves the links as they are. -/
theorem links_receive (f : Fleet) (now : Nat) (source : Source) (packet : Packet) :
    (f.receive now source packet).1.links = f.links.after (f.claims source packet)
      (packet.arrival? now source).toList ((packet.arrival? now source).elim [] f.deliveries) := by
  have hreceive : (f.receive now source packet).1.links =
      (f.dispatch now source packet).1.links := by
    unfold receive
    rcases f.dispatch now source packet with ⟨g, result⟩
    cases result <;> rfl
  rw [hreceive]
  have hhandle := links_handle (f.observe (·.receive packet.kind)) now source packet
  rw [claims_observe] at hhandle
  cases packet with
  | prearmStatus | commandRequest | missionInfo | other => rfl
  | status | commandResponse | compressedCommandResponse | algorithmData =>
      -- Counting the packet and refusing it are no business of the links.
      refine Eq.trans ?_ hhandle
      simp only [dispatch, Packet.kind, PacketKind.route?]
      split
      · simp only [*]
      · simp only [*]

/-! ## Calls -/

/-- A call issues a command, and lets its slot go at once if the link is down. -/
theorem links_call (f : Fleet) (now : Nat) (vehicle : VehicleId) (line : String) :
    ∃ slot operations, (f.call now vehicle line).1.links = f.links.after [] [] operations ∧
      operations <+: [.begin now f.settings.strictCommands vehicle, .drop slot] := by
  unfold call
  split
  · cases f.preferred? vehicle with
    | none => exact ⟨0, [], rfl, List.nil_prefix⟩
    | some destination =>
        cases hbegin : f.commands.begin now f.settings.strictCommands vehicle with
        | none => exact ⟨0, [], rfl, List.nil_prefix⟩
        | some begun =>
            obtain ⟨slot, commands⟩ := begun
            have hstep : f.commands.step (.begin now f.settings.strictCommands vehicle) =
                commands := by
              simp only [CommandTable.step, hbegin]
            dsimp only
            cases f.outbox.send? destination (CommandLine.packet line) with
            | none =>
                refine ⟨slot, [.begin now f.settings.strictCommands vehicle, .drop slot], ?_,
                  List.prefix_refl _⟩
                show (⟨f.book, f.assembler, commands.release slot⟩ : Links) =
                  ⟨f.book, f.assembler, (f.commands.step _).release slot⟩
                rw [hstep]
            | some outbox =>
                refine ⟨slot, [.begin now f.settings.strictCommands vehicle], ?_,
                  ⟨[.drop slot], rfl⟩⟩
                show (⟨f.book, f.assembler, commands⟩ : Links) =
                  ⟨f.book, f.assembler,
                    f.commands.step (.begin now f.settings.strictCommands vehicle)⟩
                rw [hstep]
  · exact ⟨0, [], rfl, List.nil_prefix⟩

/-- A call that ends lets its slot go. -/
theorem links_finish? (f : Fleet) (now : Nat) (call : Call) {g : Fleet} {result : CallResult}
    (h : f.finish? now call = some (g, result)) :
    g.links = f.links.after [] [] [.drop call.slot] := by
  unfold finish? at h
  split at h
  · cases h
    rfl
  · split at h
    · cases h
      rfl
    · cases h

end Fleet

end FleetLink
