import FleetLink.Proofs.Session.Identities

/-!
# What is counted of a packet

A packet leaves traces in several counters, and each of them is raised somewhere else: that it came,
what became of it, why an address was refused, what became of a response that it completed, and how
many vehicles are known since.  This module says in one place **what a packet changes of the
counters**.

That is told without the counters.  A packet is logged with what whoever hands it in is told and, if
it is refused, with the reason (`Received`); a response that is complete is logged with what becomes
of it (`Fate`), which the address book and the pending commands of that moment decide.

## Main Statements

* `Received`, `Fate`, `Delivered` — what is logged of packets and of responses
* `Fleet.Gauged` — the gauge is the number of ids that are kept
* `metrics_receive` — what a packet changes of the counters
* `kind_of_dispatch`, `rejected_iff` — packets are refused for reasons of their own kinds
* `Raised` — a counter, and what raises it
-/

namespace FleetLink

/-! ## What is logged -/

/-- What becomes of a complete response. -/
inductive Fate where
  /-- Its source belongs to no vehicle. -/
  | unbound
  /-- Its source belongs to a vehicle that waits for nothing. -/
  | stale (vehicle : VehicleId)
  /-- It ends the pending command of a vehicle, which holds this slot. -/
  | ends (vehicle : VehicleId) (slot : SlotId)
  deriving DecidableEq, Repr

namespace Fate

/-- The vehicle waits for nothing. -/
def isStale : Fate → Bool
  | stale _ => true
  | unbound | ends .. => false

/-- Counts a response. -/
def count : Fate → Metrics → Metrics
  | unbound, m => m.drop .unknownSource
  | stale _, m => m.staleResponse
  | ends .., m => m

/-- Why a response is dropped, if it is. -/
def dropReason? : Fate → Option DropReason
  | unbound => some .unknownSource
  | stale _ | ends .. => none

/-- What a fate means for a response from a source, when one fleet becomes another: it is dropped,
or stale, or the holder of a slot that waited is told what it says.  It is counted in the first two
cases, once, and in the last one not at all. -/
def Befalls (source : Source) (body : List UInt8) (before after : Fleet) : Fate → Prop
  | unbound => before.book.owner? source = none ∧ after.commands = before.commands ∧
      after.metrics.dropped .unknownSource = before.metrics.dropped .unknownSource + 1 ∧
      after.metrics.staleResponses = before.metrics.staleResponses
  | stale vehicle => before.book.owner? source = some vehicle ∧
      before.commands.isPending vehicle = false ∧ after.commands = before.commands ∧
      after.metrics.dropped .unknownSource = before.metrics.dropped .unknownSource ∧
      after.metrics.staleResponses = before.metrics.staleResponses + 1
  | ends vehicle slot => before.book.owner? source = some vehicle ∧
      before.commands.current? vehicle = some slot ∧ before.commands.wait? slot = none ∧
      after.commands.wait? slot = some (.completed (Text.decodeLossy body)) ∧
      after.metrics.dropped .unknownSource = before.metrics.dropped .unknownSource ∧
      after.metrics.staleResponses = before.metrics.staleResponses

end Fate

/-- A complete response and what becomes of it. -/
structure Delivered where
  source : Source
  body : List UInt8
  fate : Fate
  deriving DecidableEq, Repr

/-- A packet that is taken in, what whoever hands it in is told, and why it is refused if it is. -/
structure Received where
  source : Source
  packet : Packet
  handling : Handling
  fault? : Option PacketFault
  deriving DecidableEq, Repr

/-- Why a packet is refused, if it is. -/
def refusal? {α : Type} : Except PacketFault α → Option PacketFault
  | .error fault => some fault
  | .ok _ => none

namespace PacketFault

/-- A vehicle has another address. -/
def isConflict : PacketFault → Bool
  | address (.conflict ..) => true
  | _ => false

/-- An address belongs to another vehicle. -/
def isInUse : PacketFault → Bool
  | address (.inUse ..) => true
  | _ => false

/-- A claim to an address is refused. -/
def isAddress : PacketFault → Bool
  | address _ => true
  | _ => false

theorem isAddress_of_isConflict {fault : PacketFault} (h : fault.isConflict) : fault.isAddress := by
  cases fault with
  | address => rfl
  | assembly | undeclaredChannel => cases h

theorem isAddress_of_isInUse {fault : PacketFault} (h : fault.isInUse) : fault.isAddress := by
  cases fault with
  | address => rfl
  | assembly | undeclaredChannel => cases h

end PacketFault

/-- Why a packet is dropped, if it is. -/
def Handling.dropReason? : Handling → Option DropReason
  | unhandled => some .unhandledKind
  | rejected => some .handlerError
  | handled | ignored => none

namespace Metrics

/-- Counts why a packet is refused. -/
def blame (m : Metrics) : Option PacketFault → Metrics
  | some (.address fault) => m.refuse fault
  | _ => m

/-- Counts what became of a packet. -/
def note (m : Metrics) : Handling → Metrics
  | .unhandled => m.drop .unhandledKind
  | .rejected => m.drop .handlerError
  | .handled | .ignored => m

end Metrics

/-- Counts a packet. -/
def Received.count (p : Received) (m : Metrics) : Metrics :=
  ((m.receive p.packet.kind).blame p.fault?).note p.handling

namespace Fleet

/-- What is logged of a packet. -/
def received (f : Fleet) (now : Nat) (source : Source) (packet : Packet) : Received :=
  ⟨source, packet, (f.receive now source packet).2, refusal? (f.dispatch now source packet).2⟩

/-- The response that a packet completes. -/
def completed? (f : Fleet) (now : Nat) (source : Source) (packet : Packet) : Option (List UInt8) :=
  (packet.arrival? now source).bind fun x => (f.assembler.reply x).toOption.join

/-- What becomes of a response from a source that is complete now. -/
def fate (f : Fleet) (source : Source) : Fate :=
  match f.book.owner? source with
  | none => .unbound
  | some vehicle => (f.commands.current? vehicle).elim (.stale vehicle) (.ends vehicle)

/-- Counts a response from a source, if there is one. -/
def countReply (f : Fleet) (source : Source) (body? : Option (List UInt8)) (m : Metrics) :
    Metrics :=
  body?.elim m fun _ => (f.fate source).count m

/-- What is logged of a complete response. -/
def delivered (f : Fleet) (source : Source) (body : List UInt8) : Delivered :=
  ⟨source, body, f.fate source⟩

/-- The gauge is the number of ids that are kept. -/
def Gauged (f : Fleet) : Prop := f.metrics.vehiclesKnown = f.ids.size

end Fleet

/-! ## One packet -/

namespace Fleet

section

variable {f : Fleet}

theorem gauged_new (config : Config) (algorithms : List Algorithm) :
    (new config algorithms).Gauged := rfl

theorem Gauged.eq_knowVehicles (h : f.Gauged) : f.metrics = f.metrics.knowVehicles f.ids.size := by
  rw [← h]
  rfl

/-- Packets of the kinds that have a handler are handled. -/
theorem dispatch_of_handler (f : Fleet) (now : Nat) (source : Source) {packet : Packet}
    (h : packet.kind.route? = some .handler) :
    f.dispatch now source packet =
      (((f.observe (·.receive packet.kind)).handle now source packet).1,
        ((f.observe (·.receive packet.kind)).handle now source packet).2.map
          fun _ => Handling.handled) := by
  unfold dispatch
  rw [h]
  dsimp only
  rcases (f.observe (·.receive packet.kind)).handle now source packet with ⟨g, fault | done⟩ <;> rfl

theorem metrics_identify (h : f.Gauged) (index : UInt32) :
    (f.identify index).2.metrics = f.metrics.knowVehicles (f.identify index).2.ids.size := by
  unfold identify
  cases f.ids[index]? with
  | some id => exact h.eq_knowVehicles
  | none => rfl

theorem metrics_meet (h : f.Gauged) (index : UInt32) :
    (f.meet index).2.2.metrics = f.metrics.knowVehicles (f.meet index).2.2.ids.size := by
  have hidentify := metrics_identify h index
  unfold meet
  rcases hid : f.identify index with ⟨id, g⟩
  rw [hid] at hidentify
  dsimp only
  cases g.registry[id]? with
  | some vehicle => exact hidentify
  | none => exact hidentify

theorem metrics_takeStatus (h : f.Gauged) (now : Nat) (source : Source) (report : StatusReport) :
    let took := f.takeStatus now source report
    took.1.metrics = (f.metrics.blame (refusal? took.2)).knowVehicles took.1.ids.size := by
  have hmeet := metrics_meet h report.index
  unfold takeStatus
  rcases hmet : f.meet report.index with ⟨id, vehicle, g⟩
  rw [hmet] at hmeet
  dsimp only at hmeet ⊢
  cases g.book.record id source with
  | ok recorded => exact hmeet
  | error fault =>
      show g.metrics.refuse fault = (f.metrics.refuse fault).knowVehicles g.ids.size
      rw [hmeet]
      cases fault <;> rfl

theorem metrics_takeData (h : f.Gauged) (data : AlgorithmData) :
    let took := f.takeData data
    took.1.metrics = (f.metrics.blame (refusal? took.2)).knowVehicles took.1.ids.size := by
  have hmeet := metrics_meet h data.index
  unfold takeData
  rcases hmet : f.meet data.index with ⟨id, vehicle, g⟩
  rw [hmet] at hmeet
  dsimp only at hmeet ⊢
  cases vehicle.absorb g.algorithms g.tree id data with
  | error path => exact hmeet
  | ok done => exact hmeet

/-- A response is counted by what becomes of it. -/
theorem metrics_deliver (h : f.commands.Coherent) (source : Source) (body : List UInt8) :
    (f.deliver source body).2.metrics = (f.fate source).count f.metrics := by
  unfold deliver fate
  cases f.book.owner? source with
  | none => rfl
  | some vehicle =>
      have hfound := h.fulfill_fst vehicle (Text.decodeLossy body)
      rw [CommandTable.isPending_eq_isSome] at hfound
      dsimp only
      rcases hresult : f.commands.fulfill vehicle (Text.decodeLossy body) with ⟨found, commands⟩
      rw [hresult] at hfound
      dsimp only at hfound
      cases hentry : f.commands.current? vehicle with
      | none =>
          obtain rfl : found = false := by rw [hfound, hentry]; rfl
          rfl
      | some slot =>
          obtain rfl : found = true := by rw [hfound, hentry]; rfl
          rfl

theorem metrics_takeChunk (h : f.commands.Coherent) (x : Arrival) :
    let took := f.takeChunk x.now x.source x.compressed x.chunk
    took.1.metrics = f.countReply x.source (f.assembler.reply x).toOption.join
      (f.metrics.blame (refusal? took.2)) := by
  unfold takeChunk Assembler.reply
  rcases f.assembler.add x.now x.source x.compressed x.chunk with ⟨assembler, result⟩
  match result with
  | .error fault => rfl
  | .ok none => rfl
  | .ok (some body) =>
      exact metrics_deliver (f := { f with assembler := assembler }) h x.source body

/-- Neither refusals nor responses move the gauge. -/
theorem countReply_knowVehicles (source : Source) (body? : Option (List UInt8)) (m : Metrics)
    (fault? : Option PacketFault) (count : Nat) :
    f.countReply source body? ((m.knowVehicles count).blame fault?) =
      (f.countReply source body? (m.blame fault?)).knowVehicles count := by
  have hblame : (m.knowVehicles count).blame fault? = (m.blame fault?).knowVehicles count := by
    rcases fault? with _ | ⟨_ | _⟩ | _ | _ <;> rfl
  rw [hblame, countReply, countReply]
  cases body? with
  | none => rfl
  | some body => cases f.fate source <;> rfl

/-- A part of a response does not make a vehicle known. -/
theorem metrics_arrival (h : f.Gauged) (hcoherent : f.commands.Coherent) (x : Arrival) :
    let took := f.takeChunk x.now x.source x.compressed x.chunk
    took.1.metrics = (f.countReply x.source (f.assembler.reply x).toOption.join
      (f.metrics.blame (refusal? took.2))).knowVehicles took.1.ids.size := by
  intro took
  have hids : took.1.ids = f.ids :=
    congrArg (·.2) (f.naming_takeChunk x.now x.source x.compressed x.chunk)
  rw [hids, ← countReply_knowVehicles, ← h.eq_knowVehicles]
  exact metrics_takeChunk hcoherent x

/-- What a packet changes of the counters when it is handled. -/
theorem metrics_handle (h : f.Gauged) (hcoherent : f.commands.Coherent) (now : Nat)
    (source : Source) (packet : Packet) :
    let took := f.handle now source packet
    took.1.metrics = (f.countReply source (f.completed? now source packet)
      (f.metrics.blame (refusal? took.2))).knowVehicles took.1.ids.size := by
  cases packet with
  | status report => exact metrics_takeStatus h now source report
  | algorithmData data => exact metrics_takeData h data
  | commandResponse chunk => exact metrics_arrival h hcoherent ⟨now, source, false, chunk⟩
  | compressedCommandResponse chunk => exact metrics_arrival h hcoherent ⟨now, source, true, chunk⟩
  | prearmStatus | commandRequest | missionInfo | other => exact h.eq_knowVehicles

/-- A packet of a kind that has no handler completes nothing. -/
theorem completed?_of_route? (f : Fleet) (now : Nat) (source : Source) (packet : Packet)
    (h : packet.kind.route? ≠ some .handler) : f.completed? now source packet = none := by
  cases packet with
  | commandResponse | compressedCommandResponse => exact absurd rfl h
  | status | prearmStatus | commandRequest | algorithmData | missionInfo | other => rfl

/-- Packets and responses are counted apart. -/
theorem countReply_receive (source : Source) (body? : Option (List UInt8)) (m : Metrics)
    (kind : PacketKind) (fault? : Option PacketFault) :
    f.countReply source body? ((m.receive kind).blame fault?) =
      ((f.countReply source body? m).receive kind).blame fault? := by
  unfold countReply
  cases body? with
  | none => rfl
  | some body => cases f.fate source <;> rcases fault? with _ | ⟨_ | _⟩ | _ | _ <;> rfl

/-- **What a packet changes of the counters**: what is logged of it and of the response that it
completes, and the gauge is the number of ids that are kept then. -/
theorem metrics_receive (h : f.Gauged) (hcoherent : f.commands.Coherent) (now : Nat)
    (source : Source) (packet : Packet) :
    (f.receive now source packet).1.metrics =
      ((f.received now source packet).count
        (f.countReply source (f.completed? now source packet) f.metrics)).knowVehicles
          (f.receive now source packet).1.ids.size := by
  unfold received Received.count
  cases hroute : packet.kind.route? with
  | none =>
      have hquiet := f.completed?_of_route? now source packet (by simp [hroute])
      simp only [receive, dispatch, hroute, hquiet]
      exact Gauged.eq_knowVehicles
        (f := (f.observe (·.receive packet.kind)).observe (·.drop .unhandledKind)) h
  | some route =>
      cases route with
      | ignore =>
          have hquiet := f.completed?_of_route? now source packet (by simp [hroute])
          simp only [receive, dispatch, hroute, hquiet]
          exact Gauged.eq_knowVehicles (f := f.observe (·.receive packet.kind)) h
      | handler =>
          have hhandle := metrics_handle (f := f.observe (·.receive packet.kind)) h hcoherent now
            source packet
          have hreply := f.countReply_receive source (f.completed? now source packet) f.metrics
            packet.kind
          unfold receive
          rw [f.dispatch_of_handler now source hroute]
          rcases hresult : (f.observe (·.receive packet.kind)).handle now source packet with
            ⟨g, fault | done⟩
          · rw [hresult] at hhandle
            have hg : g.metrics = ((f.countReply source (f.completed? now source packet)
                f.metrics).receive packet.kind |>.blame (some fault)).knowVehicles g.ids.size :=
              hhandle.trans (congrArg (·.knowVehicles g.ids.size) (hreply _))
            show g.metrics.drop .handlerError = _
            rw [hg]
            rfl
          · rw [hresult] at hhandle
            exact hhandle.trans (congrArg (·.knowVehicles g.ids.size) (hreply _))

/-! ### Why packets are refused -/

end

end Fleet

/-- The kinds of the packets that are refused with a fault. -/
def PacketFault.kinds : PacketFault → List PacketKind
  | address _ => [.status]
  | assembly _ => [.commandResponse, .compressedCommandResponse]
  | undeclaredChannel _ => [.algorithmData]

namespace Fleet

section

variable {f : Fleet}

/-- A part of a response is refused if the assembler refuses it, for the same reason. -/
theorem takeChunk_snd (f : Fleet) (x : Arrival) :
    (f.takeChunk x.now x.source x.compressed x.chunk).2 =
      ((f.assembler.reply x).mapError .assembly).map fun _ => () := by
  unfold takeChunk Assembler.reply
  rcases f.assembler.add x.now x.source x.compressed x.chunk with ⟨assembler, result⟩
  match result with
  | .error fault => rfl
  | .ok none => rfl
  | .ok (some body) => rfl

theorem kind_of_takeChunk {x : Arrival} {fault : PacketFault}
    (h : (f.takeChunk x.now x.source x.compressed x.chunk).2 = .error fault) :
    fault.kinds = [.commandResponse, .compressedCommandResponse] := by
  rw [takeChunk_snd] at h
  rcases hreply : f.assembler.reply x with own | body
  · rw [hreply] at h
    cases h
    rfl
  · rw [hreply] at h
    cases h

/-- A packet is refused for a reason of its own kind. -/
theorem kind_of_handle {now : Nat} {source : Source} {packet : Packet} {fault : PacketFault}
    (h : (f.handle now source packet).2 = .error fault) : packet.kind ∈ fault.kinds := by
  cases packet with
  | status report =>
      simp only [handle, takeStatus] at h
      split at h
      · cases h
        exact List.mem_singleton_self _
      · cases h
  | algorithmData data =>
      simp only [handle, takeData] at h
      split at h
      · cases h
        exact List.mem_singleton_self _
      · cases h
  | commandResponse chunk =>
      rw [kind_of_takeChunk (x := ⟨now, source, false, chunk⟩) h]
      exact List.mem_cons_self
  | compressedCommandResponse chunk =>
      rw [kind_of_takeChunk (x := ⟨now, source, true, chunk⟩) h]
      exact List.mem_cons_of_mem _ List.mem_cons_self
  | prearmStatus | commandRequest | missionInfo | other => cases h

/-- A packet is refused by what handles it. -/
theorem handle_of_dispatch {now : Nat} {source : Source} {packet : Packet} {fault : PacketFault}
    (h : (f.dispatch now source packet).2 = .error fault) :
    ((f.observe (·.receive packet.kind)).handle now source packet).2 = .error fault := by
  cases hroute : packet.kind.route? with
  | none =>
      simp only [dispatch, hroute] at h
      cases h
  | some route =>
      cases route with
      | ignore =>
          simp only [dispatch, hroute] at h
          cases h
      | handler =>
          rw [f.dispatch_of_handler now source hroute] at h
          rcases hhandle : ((f.observe (·.receive packet.kind)).handle now source packet).2 with
            own | done
          · rw [hhandle] at h
            cases h
            rfl
          · rw [hhandle] at h
            cases h

theorem kind_of_dispatch {now : Nat} {source : Source} {packet : Packet} {fault : PacketFault}
    (h : (f.dispatch now source packet).2 = .error fault) : packet.kind ∈ fault.kinds :=
  kind_of_handle (handle_of_dispatch h)

/-- Whoever hands a packet in is told that it is refused exactly when there is a reason. -/
theorem rejected_iff (now : Nat) (source : Source) (packet : Packet) :
    (f.receive now source packet).2 = .rejected ↔
      ∃ fault, (f.dispatch now source packet).2 = .error fault := by
  unfold receive
  rcases hresult : f.dispatch now source packet with ⟨g, fault | handling⟩
  · simp
  · suffices handling ≠ .rejected by simpa
    rintro rfl
    cases hroute : packet.kind.route? with
    | none => simp [dispatch, hroute] at hresult
    | some route =>
        cases route with
        | ignore => simp [dispatch, hroute] at hresult
        | handler =>
            have hmap :=
              congrArg (·.2) ((f.dispatch_of_handler now source hroute).symm.trans hresult)
            rcases hhandle : ((f.observe (·.receive packet.kind)).handle now source packet).2 with
              own | done <;> simp [hhandle, Except.map] at hmap

end

end Fleet

/-! ## The counters, one by one -/

theorem PacketKind.label_inj {first second : PacketKind} :
    first.label = second.label ↔ first = second := by
  constructor
  · intro h
    have hkind := congrArg ofLabel? h
    rwa [ofLabel?_label, ofLabel?_label, Option.some.injEq] at hkind
  · exact congrArg _

theorem DropReason.label_inj {first second : DropReason} :
    first.label = second.label ↔ first = second := by
  cases first <;> cases second <;> simp [label]

theorem Metrics.dropped_drop (m : Metrics) (seen reason : DropReason) :
    (m.drop seen).dropped reason = m.dropped reason + if seen = reason then 1 else 0 := by
  simp only [dropped, drop, Tally.count_bump, DropReason.label_inj]

/-- A counter of packets and responses is raised by those that are told, once by each.  It is no
count of commands, and not the gauge. -/
structure Raised (read : Metrics → Nat) (ofPacket : Received → Bool) (ofReply : Fate → Bool) :
    Prop where
  packet : ∀ p m, read (p.count m) = read m + if ofPacket p then 1 else 0
  reply : ∀ fate m, read (fate.count m) = read m + if ofReply fate then 1 else 0
  other : ∀ m commands known,
    read { m with commands := commands, vehiclesKnown := known } = read m

namespace Raised

theorem received (kind : PacketKind) :
    Raised (·.received kind) (fun p => p.packet.kind = kind) (fun _ => false) where
  packet p m := by
    have hbump : (m.receive p.packet.kind).received kind =
        m.received kind + if p.packet.kind = kind then 1 else 0 := by
      simp only [Metrics.received, Metrics.receive, Tally.count_bump, PacketKind.label_inj]
    simp only [decide_eq_true_eq]
    rw [← hbump]
    unfold Received.count
    cases p.handling <;> rcases p.fault? with _ | ⟨_ | _⟩ | _ | _ <;> rfl
  reply fate m := by cases fate <;> rfl
  other _ _ _ := rfl

/-- Packets and responses are dropped, and for different reasons. -/
theorem dropped (reason : DropReason) :
    Raised (·.dropped reason) (fun p => p.handling.dropReason? = some reason)
      (fun fate => fate.dropReason? = some reason) where
  packet p m := by
    have hnote : (p.count m).dropped reason = (m.note p.handling).dropped reason := by
      unfold Received.count
      cases p.handling <;> rcases p.fault? with _ | ⟨_ | _⟩ | _ | _ <;> rfl
    rw [hnote]
    cases p.handling <;> simp [Metrics.note, Handling.dropReason?, Metrics.dropped_drop]
  reply fate m := by
    cases fate with
    | unbound => simp [Fate.count, Fate.dropReason?, Metrics.dropped_drop]
    | stale vehicle => simp [Fate.count, Fate.dropReason?, Metrics.staleResponse, Metrics.dropped]
    | ends vehicle slot => simp [Fate.count, Fate.dropReason?]
  other _ _ _ := rfl

section

variable {read : Metrics → Nat} {ofPacket ofPacket' : Received → Bool}
  {ofReply ofReply' : Fate → Bool}

theorem congr (h : Raised read ofPacket ofReply) (hpacket : ∀ p, ofPacket' p = ofPacket p)
    (hreply : ∀ fate, ofReply' fate = ofReply fate) : Raised read ofPacket' ofReply' := by
  obtain rfl : ofPacket' = ofPacket := funext hpacket
  obtain rfl : ofReply' = ofReply := funext hreply
  exact h

end

theorem unhandledKind :
    Raised (·.dropped .unhandledKind) (fun p => p.handling = .unhandled) (fun _ => false) :=
  (dropped .unhandledKind).congr (fun p => by cases p.handling <;> rfl)
    (fun fate => by cases fate <;> rfl)

theorem handlerError :
    Raised (·.dropped .handlerError) (fun p => p.handling = .rejected) (fun _ => false) :=
  (dropped .handlerError).congr (fun p => by cases p.handling <;> rfl)
    (fun fate => by cases fate <;> rfl)

theorem unknownSource :
    Raised (·.dropped .unknownSource) (fun _ => false) (fun fate => fate = .unbound) :=
  (dropped .unknownSource).congr (fun p => by cases p.handling <;> rfl)
    (fun fate => by cases fate <;> rfl)

theorem addressConflicts :
    Raised (·.addressConflicts) (·.fault?.any PacketFault.isConflict) (fun _ => false) where
  packet p m := by
    unfold Received.count
    cases p.handling <;> rcases p.fault? with _ | ⟨_ | _⟩ | _ | _ <;> rfl
  reply fate m := by cases fate <;> rfl
  other _ _ _ := rfl

theorem addressesInUse :
    Raised (·.addressesInUse) (·.fault?.any PacketFault.isInUse) (fun _ => false) where
  packet p m := by
    unfold Received.count
    cases p.handling <;> rcases p.fault? with _ | ⟨_ | _⟩ | _ | _ <;> rfl
  reply fate m := by cases fate <;> rfl
  other _ _ _ := rfl

theorem staleResponses : Raised (·.staleResponses) (fun _ => false) (·.isStale) where
  packet p m := by
    unfold Received.count
    cases p.handling <;> rcases p.fault? with _ | ⟨_ | _⟩ | _ | _ <;> rfl
  reply fate m := by cases fate <;> rfl
  other _ _ _ := rfl

end Raised

/-! ## What is logged of a packet agrees with itself -/

/-- A packet is refused exactly if there is a reason, and it is a reason for packets of its kind. -/
structure Received.Sound (p : Received) : Prop where
  rejected : p.handling = .rejected ↔ p.fault?.isSome
  kind : ∀ fault, p.fault? = some fault → p.packet.kind ∈ fault.kinds

theorem refusal?_eq_some_iff {α : Type} {result : Except PacketFault α} {fault : PacketFault} :
    refusal? result = some fault ↔ result = .error fault := by
  cases result <;> simp [refusal?]

theorem Fleet.sound_received (f : Fleet) (now : Nat) (source : Source) (packet : Packet) :
    (f.received now source packet).Sound where
  rejected := by
    refine (f.rejected_iff now source packet).trans ?_
    rw [Option.isSome_iff_exists]
    exact exists_congr fun fault => refusal?_eq_some_iff.symm
  kind := fun _ hfault => Fleet.kind_of_dispatch (refusal?_eq_some_iff.mp hfault)

namespace Received.Sound

variable {p : Received}

/-- A packet whose claim to an address is refused is a status report. -/
theorem address_iff (h : p.Sound) :
    p.fault?.any PacketFault.isAddress ↔ p.packet.kind = .status ∧ p.handling = .rejected := by
  cases hfault : p.fault? with
  | none => simp [h.rejected, hfault]
  | some fault =>
      have hkind := h.kind fault hfault
      have hrejected : p.handling = .rejected := h.rejected.mpr (by simp [hfault])
      cases fault <;> simp_all [PacketFault.kinds, PacketFault.isAddress]
      rcases hkind with hkind | hkind <;> simp [hkind]

/-- Each of the two ways in which a claim is refused is one. -/
theorem claim_iff (h : p.Sound) {way : PacketFault → Bool}
    (hway : ∀ fault, way fault → fault.isAddress) :
    p.fault?.any way ↔
      p.packet.kind = .status ∧ p.handling = .rejected ∧ p.fault?.any way := by
  constructor
  · intro hany
    obtain ⟨fault, hfault, hclaim⟩ := (Option.any_eq_true _ _).mp hany
    obtain ⟨hkind, hrejected⟩ := h.address_iff.mp
      ((Option.any_eq_true _ _).mpr ⟨fault, hfault, hway fault hclaim⟩)
    exact ⟨hkind, hrejected, hany⟩
  · exact fun hboth => hboth.2.2

end Received.Sound

/-- A claim is refused in one of two ways. -/
theorem countP_claims (log : List Received) :
    log.countP (·.fault?.any PacketFault.isConflict) +
        log.countP (·.fault?.any PacketFault.isInUse) =
      log.countP (·.fault?.any PacketFault.isAddress) := by
  induction log with
  | nil => rfl
  | cons p log ih =>
      simp only [List.countP_cons]
      rw [← ih]
      rcases p.fault? with _ | ⟨_ | _⟩ | _ | _ <;>
        simp [PacketFault.isConflict, PacketFault.isInUse, PacketFault.isAddress] <;> omega

end FleetLink
