import Mathlib.Data.Finset.Card
import FleetLink.Proofs.Fleet.Counters
import FleetLink.Proofs.Session.Accounting
import FleetLink.Replay

/-!
# Packets are counted

**The counters say what happened**, over everything that can happen in a session.  What happened is
told by two logs, one of the packets that were taken in and one of the responses that were complete.
A counter is, after all turns, the number of those entries of the logs that raise it
(`counter_turns`), and the gauge is the number of different indices that were resolved
(`mem_ids_turns`).

Counts of commands are kept elsewhere.  A turn that ends a call moves no counter of this module, and
a packet moves none of those.

## Main Statements

* `Session.received?`, `Session.delivered?`, `Turn.index?` — what there is to see at a turn
* `counts_turn` — what a turn changes of the counters
* `counter_turn`, `counter_turns` — a counter, after a turn and after some turns
* `mem_ids_turns` — the indices that are known
* `befalls_of_delivered?` — what becomes of a response that is complete
* `packets_counted` — every counter of packets and responses, and the gauge
-/

namespace FleetLink

/-! ## What is logged -/

namespace Session

/-- The packet that is taken in with a turn. -/
def received? (s : Session) : Turn → Option Received
  | .event (.packet source packet) => some (s.fleet.received s.now source packet)
  | _ => none

/-- The response that is complete with a turn. -/
def delivered? (s : Session) : Turn → Option Delivered
  | .event (.packet source packet) =>
    (s.fleet.completed? s.now source packet).map (s.fleet.delivered source)
  | .event (.response source body) => some (s.fleet.delivered source body)
  | _ => none

end Session

/-- The index that is resolved with a turn. -/
def Turn.index? : Turn → Option UInt32
  | .event (.packet _ packet) => packet.index?
  | .event (.identify index) => some index
  | .event (.meet index) => some index
  | _ => none

/-! ## One turn -/

/-- The end of a call is counted among the commands. -/
theorem CallEnding.count_eq (ending : CallEnding) (m : Metrics) :
    ending.count m = { m with commands := (ending.count m).commands } := by
  unfold count
  cases ending.counted? <;> rfl

namespace Session

section

variable {s : Session}

/-- The counters with what is logged of a turn. -/
def counted (s : Session) (t : Turn) : Metrics :=
  (s.received? t).elim id Received.count
    ((s.delivered? t).elim id (fun d => d.fate.count) s.fleet.metrics)

/-- The counters are those with what is logged of a turn, but for commands, which are counted
elsewhere, and for the gauge, which is the number of ids that are kept. -/
def Counts (s : Session) (t : Turn) (left : Fleet) : Prop :=
  ∃ commands, left.metrics =
    { s.counted t with commands := commands, vehiclesKnown := left.ids.size }

theorem counts_begin (h : s.fleet.Gauged) (bounded : Bool) (vehicle : VehicleId) (line : String) :
    s.Counts (.event (.call bounded vehicle line)) (s.begin bounded vehicle line).fleet := by
  have hids := congrArg (·.2.size) (s.naming_begin bounded vehicle line)
  have hsize : (s.begin bounded vehicle line).fleet.ids.size = s.fleet.metrics.vehiclesKnown :=
    hids.trans h.symm
  unfold Counts
  rw [hsize]
  unfold begin
  rcases hcall : s.fleet.call s.now vehicle line with ⟨fleet, fault | slot⟩
  · exact ⟨_, (Fleet.metrics_of_error hcall).trans (CallEnding.count_eq _ _)⟩
  · exact ⟨_, Fleet.metrics_of_ok hcall⟩

theorem counts_poll (h : s.fleet.Gauged) (id : CallId) : s.Counts (.poll id) (s.poll id).fleet := by
  have hids := congrArg (·.2.size) (s.naming_poll id)
  have hsize : (s.poll id).fleet.ids.size = s.fleet.metrics.vehiclesKnown := hids.trans h.symm
  unfold Counts
  rw [hsize]
  unfold poll
  cases s.waiting.find? (·.1 = id) with
  | none => exact ⟨_, rfl⟩
  | some found =>
      obtain ⟨own, call⟩ := found
      dsimp only
      rw [Fleet.finish?_eq_verdict?]
      cases s.fleet.verdict? s.now call with
      | none => exact ⟨_, rfl⟩
      | some ending => exact ⟨_, CallEnding.count_eq ending _⟩

theorem counts_response (h : s.fleet.Gauged) (hcoherent : s.fleet.commands.Coherent)
    (source : Source) (body : List UInt8) :
    s.Counts (.event (.response source body)) (s.fleet.deliver source body).2 := by
  obtain ⟨commands, count, hdeliver⟩ := s.fleet.deliver_eq source body
  have hsize : (s.fleet.deliver source body).2.ids.size = s.fleet.metrics.vehiclesKnown :=
    (congrArg (·.ids.size) hdeliver).trans h.symm
  have hmetrics := Fleet.metrics_deliver hcoherent source body
  unfold Counts
  rw [hsize, hmetrics]
  unfold counted
  dsimp only [received?, delivered?, Option.elim_none, Option.elim_some, id, Fleet.delivered]
  cases s.fleet.fate source <;> exact ⟨_, rfl⟩

/-- **What a turn changes of the counters**: what is logged of it. -/
theorem counts_turn (h : s.fleet.Gauged) (hcoherent : s.fleet.commands.Coherent) (t : Turn) :
    s.Counts t (s.turn t).fleet := by
  cases t with
  | poll id => exact counts_poll h id
  | event event =>
      cases event with
      | call bounded vehicle line => exact counts_begin h bounded vehicle line
      | response source body => exact counts_response h hcoherent source body
      | packet source packet =>
          have hlog : (s.fleet.received s.now source packet).count (s.fleet.countReply source
              (s.fleet.completed? s.now source packet) s.fleet.metrics) =
                s.counted (.event (.packet source packet)) := by
            unfold counted Fleet.countReply
            dsimp only [received?, delivered?]
            cases s.fleet.completed? s.now source packet <;> rfl
          have hreceive := Fleet.metrics_receive h hcoherent s.now source packet
          rw [hlog] at hreceive
          exact ⟨_, hreceive⟩
      | identify index => exact ⟨_, Fleet.metrics_identify h index⟩
      | meet index => exact ⟨_, Fleet.metrics_meet h index⟩
      | abandon id =>
          show s.Counts _ (s.abandon id).fleet
          unfold abandon
          cases s.waiting.find? (·.1 = id) <;> exact ⟨_, h.eq_knowVehicles⟩
      | _ => exact ⟨_, h.eq_knowVehicles⟩

/-! ## Some turns -/

theorem gauged_turn (h : s.fleet.Gauged) (hcoherent : s.fleet.commands.Coherent) (t : Turn) :
    (s.turn t).fleet.Gauged := by
  obtain ⟨commands, hmetrics⟩ := counts_turn h hcoherent t
  exact congrArg (·.vehiclesKnown) hmetrics

section

variable {read : Metrics → Nat} {ofPacket : Received → Bool} {ofReply : Fate → Bool}

/-- A counter is raised by what is logged of a turn. -/
theorem counter_turn (hread : Raised read ofPacket ofReply) (h : s.fleet.Gauged)
    (hcoherent : s.fleet.commands.Coherent) (t : Turn) :
    read (s.turn t).fleet.metrics =
      read s.fleet.metrics + (s.received? t).toList.countP ofPacket +
        (s.delivered? t).toList.countP (fun d => ofReply d.fate) := by
  obtain ⟨commands, hmetrics⟩ := counts_turn h hcoherent t
  rw [hmetrics, hread.other, counted]
  cases s.received? t <;> cases s.delivered? t <;> simp [hread.packet, hread.reply]
  omega

/-- **A counter is the number of those logged packets and responses that raise it.** -/
theorem counter_turns (hread : Raised read ofPacket ofReply) (h : s.fleet.Gauged)
    (hsound : s.fleet.links.Sound) (happenings : List Turn) :
    read (s.turns happenings).fleet.metrics =
      read s.fleet.metrics + (s.log received? happenings).countP ofPacket +
        (s.log delivered? happenings).countP (fun d => ofReply d.fate) := by
  induction happenings generalizing s with
  | nil => rfl
  | cons t later ih =>
      have hcoherent : s.fleet.commands.Coherent := hsound.coherent
      show read ((s.turn t).turns later).fleet.metrics = _
      rw [ih (gauged_turn h hcoherent t) (sound_turn hsound t), counter_turn hread h hcoherent t,
        log, log, List.countP_append, List.countP_append]
      omega

end

/-- What is logged has what is there at every turn. -/
theorem forall_mem_log {α : Type*} (s : Session) {look : Session → Turn → Option α} {P : α → Prop}
    (h : ∀ (s : Session) (t : Turn) (a : α), look s t = some a → P a) (happenings : List Turn) :
    ∀ a ∈ s.log look happenings, P a := by
  induction happenings generalizing s with
  | nil => simp [log]
  | cons t later ih =>
      intro a ha
      rw [log, List.mem_append, Option.mem_toList] at ha
      rcases ha with hnow | hlater
      · exact h s t a hnow
      · exact ih (s.turn t) a hlater

/-! ## The indices that are known -/

end

end Session

namespace Fleet

variable (f : Fleet)

theorem mem_ids_identify (index other : UInt32) :
    other ∈ (f.identify index).2.ids ↔ index = other ∨ other ∈ f.ids := by
  rw [Std.ExtTreeMap.mem_iff_isSome_getElem?, Std.ExtTreeMap.mem_iff_isSome_getElem?, ids_identify]
  split <;> simp [*]

/-- Of all packets those with an index have it resolved. -/
theorem mem_ids_handle (now : Nat) (source : Source) (packet : Packet) (other : UInt32) :
    other ∈ (f.handle now source packet).1.ids ↔ packet.index? = some other ∨ other ∈ f.ids := by
  cases packet with
  | status report =>
      have hids : (f.handle now source (.status report)).1.ids = (f.identify report.index).2.ids :=
        congrArg (·.2) (f.naming_takeStatus now source report)
      rw [hids, mem_ids_identify, Packet.index?, Option.some.injEq]
  | algorithmData data =>
      have hids :
          (f.handle now source (.algorithmData data)).1.ids = (f.identify data.index).2.ids :=
        congrArg (·.2) (f.naming_takeData data)
      rw [hids, mem_ids_identify, Packet.index?, Option.some.injEq]
  | commandResponse chunk =>
      have hids : (f.handle now source (.commandResponse chunk)).1.ids = f.ids :=
        congrArg (·.2) (f.naming_takeChunk now source false chunk)
      simp [hids, Packet.index?]
  | compressedCommandResponse chunk =>
      have hids : (f.handle now source (.compressedCommandResponse chunk)).1.ids = f.ids :=
        congrArg (·.2) (f.naming_takeChunk now source true chunk)
      simp [hids, Packet.index?]
  | prearmStatus | commandRequest | missionInfo | other => simp [handle, Packet.index?]

end Fleet

namespace Session

section

variable {s : Session}

/-- **The indices that are known after a turn**: those that were known, and the one that is
resolved. -/
theorem mem_ids_turn (t : Turn) (index : UInt32) :
    index ∈ (s.turn t).fleet.ids ↔ t.index? = some index ∨ index ∈ s.fleet.ids := by
  have hsame : ∀ {g : Fleet}, g.naming = s.fleet.naming → t.index? = none →
      (index ∈ g.ids ↔ t.index? = some index ∨ index ∈ s.fleet.ids) := by
    intro g hnaming hnone
    have hids : g.ids = s.fleet.ids := congrArg (·.2) hnaming
    simp [hids, hnone]
  cases t with
  | poll id => exact hsame (s.naming_poll id) rfl
  | event event =>
      cases event with
      | packet source packet =>
          obtain ⟨count, hreceive⟩ := s.fleet.receive_eq_handle s.now source packet
          have hids : (s.turn (.event (.packet source packet))).fleet.ids =
              ((s.fleet.observe (·.receive packet.kind)).handle s.now source packet).1.ids :=
            congrArg (·.ids) hreceive
          rw [hids, Fleet.mem_ids_handle]
          rfl
      | identify asked =>
          refine (s.fleet.mem_ids_identify asked index).trans ?_
          rw [Turn.index?, Option.some.injEq]
      | meet asked =>
          have hids : (s.turn (.event (.meet asked))).fleet.ids = (s.fleet.identify asked).2.ids :=
            congrArg (·.2) (s.fleet.naming_meet asked)
          rw [hids, Fleet.mem_ids_identify, Turn.index?, Option.some.injEq]
      | response source body =>
          obtain ⟨commands, count, hdeliver⟩ := s.fleet.deliver_eq source body
          have hnaming := congrArg Fleet.naming hdeliver
          exact hsame hnaming rfl
      | call bounded vehicle line => exact hsame (s.naming_begin bounded vehicle line) rfl
      | abandon id => exact hsame (s.naming_abandon id) rfl
      | _ => exact hsame (g := s.fleet) rfl rfl

theorem mem_ids_turns (happenings : List Turn) (index : UInt32) :
    index ∈ (s.turns happenings).fleet.ids ↔
      index ∈ happenings.filterMap Turn.index? ∨ index ∈ s.fleet.ids := by
  induction happenings generalizing s with
  | nil => simp [turns]
  | cons t later ih =>
      refine (ih (s := s.turn t)).trans ?_
      rw [mem_ids_turn, List.mem_filterMap, List.mem_filterMap]
      simp only [List.mem_cons, exists_eq_or_imp]
      rw [← or_assoc, or_comm (b := t.index? = some index)]

theorem gauged_turns (h : s.fleet.Gauged) (hsound : s.fleet.links.Sound)
    (happenings : List Turn) : (s.turns happenings).fleet.Gauged := by
  induction happenings generalizing s with
  | nil => exact h
  | cons t later ih => exact ih (gauged_turn h hsound.coherent t) (sound_turn hsound t)

end

end Session

/-! ## What is logged agrees with itself -/

theorem Session.sound_of_received? {s : Session} {t : Turn} {p : Received}
    (h : s.received? t = some p) : p.Sound := by
  cases t with
  | poll id => cases h
  | event event =>
      cases event with
      | packet source packet =>
          cases h
          exact s.fleet.sound_received s.now source packet
      | _ => cases h

/-! ## What becomes of responses -/

namespace Session

variable {s : Session} {t : Turn} {d : Delivered}

/-- A response that is complete is handed to the vehicle that owns its source. -/
theorem commands_of_delivered? (h : s.delivered? t = some d) :
    d.fate = s.fleet.fate d.source ∧
      (s.turn t).fleet.commands = s.fleet.commands.run (s.fleet.delivery d.source d.body) := by
  cases t with
  | poll id => cases h
  | event event =>
      cases event with
      | packet source packet =>
          obtain ⟨body, hbody, rfl⟩ := Option.map_eq_some_iff.mp h
          obtain ⟨x, hx, hreply⟩ := Option.bind_eq_some_iff.mp hbody
          have hsource : x.source = source := by
            cases packet <;> cases hx <;> rfl
          have hanswer : s.fleet.assembler.reply x = .ok (some body) := by
            rcases hresult : s.fleet.assembler.reply x with fault | left
            · simp [hresult, Except.toOption] at hreply
            · simpa [hresult, Except.toOption] using hreply
          have hlinks := links_of_arrival? (s := s) (m := .event (.packet source packet)) hx
          refine ⟨rfl, (congrArg (·.commands) hlinks).trans ?_⟩
          show s.fleet.commands.run (s.fleet.deliveries x) = _
          rw [Fleet.deliveries, hanswer, hsource]
          rfl
      | response source body =>
          cases h
          exact ⟨rfl, congrArg (·.commands) (s.fleet.links_deliver source body)⟩
      | _ => cases h

/-- **A response that is complete** meets the fate that is logged. -/
theorem befalls_of_delivered? (hgauged : s.fleet.Gauged) (hcoherent : s.fleet.commands.Coherent)
    (h : s.delivered? t = some d) :
    d.fate.Befalls d.source d.body s.fleet (s.turn t).fleet := by
  obtain ⟨hfate, hcommands⟩ := commands_of_delivered? h
  have hdropped : (s.turn t).fleet.metrics.dropped .unknownSource =
      s.fleet.metrics.dropped .unknownSource + if d.fate = .unbound then 1 else 0 := by
    have hcount := counter_turn .unknownSource hgauged hcoherent t
    simpa [h, List.countP_cons] using hcount
  have hstale : (s.turn t).fleet.metrics.staleResponses =
      s.fleet.metrics.staleResponses + if d.fate.isStale then 1 else 0 := by
    have hcount := counter_turn .staleResponses hgauged hcoherent t
    simpa [h, List.countP_cons] using hcount
  unfold Fleet.delivery at hcommands
  cases howner : s.fleet.book.owner? d.source with
  | none =>
      simp only [Fleet.fate, howner] at hfate
      rw [howner] at hcommands
      rw [hfate] at hdropped hstale ⊢
      exact ⟨howner, hcommands, hdropped, hstale⟩
  | some vehicle =>
      simp only [Fleet.fate, howner] at hfate
      rw [howner] at hcommands
      have hfulfill : (s.turn t).fleet.commands =
          s.fleet.commands.withdraw vehicle (.completed (Text.decodeLossy d.body)) :=
        hcommands.trans (CommandTable.fulfill_snd _ _ _)
      cases hentry : s.fleet.commands.current? vehicle with
      | none =>
          rw [hentry, Option.elim_none] at hfate
          rw [hfate] at hdropped hstale ⊢
          rw [CommandTable.withdraw_of_current?_eq_none hentry] at hfulfill
          refine ⟨howner, ?_, hfulfill, hdropped, hstale⟩
          rw [CommandTable.isPending_eq_isSome, hentry]
          rfl
      | some slot =>
          rw [hentry, Option.elim_some] at hfate
          rw [hfate] at hdropped hstale ⊢
          refine ⟨howner, hentry, hcoherent.wait?_of_current hentry, ?_, hdropped, hstale⟩
          rw [hfulfill]
          exact hcoherent.wait?_withdraw hentry _

end Session

/-- **The counters say what happened.**  Take any turns: packets from any sources, responses that
are handed over, calls, ids and vehicles that are asked for, vehicles that are forgotten or removed,
and time that passes.

For each kind as many packets are counted as came.  As many are counted as unhandled, and as
refused, as whoever handed one in was told so.  Status reports that were refused because the vehicle
has another address, and because the address belongs to another vehicle, are counted apart, and
these are all the status reports that were refused.

A response that is complete meets one of three fates.  If its source belongs to no vehicle it is
counted as dropped, if the vehicle waits for nothing it is counted as stale, and otherwise the
holder of the slot that waited is told what it says, and it is not counted.

The gauge is the number of different indices that were resolved. -/
theorem packets_counted (config : Config) (algorithms : List Algorithm) (happenings : List Turn) :
    let start := Session.new config algorithms
    let s := start.turns happenings
    let packets := start.log Session.received? happenings
    let replies := start.log Session.delivered? happenings
    (∀ kind, s.fleet.metrics.received kind = packets.countP (·.packet.kind = kind)) ∧
    (s.fleet.metrics.dropped .unhandledKind = packets.countP (·.handling = .unhandled) ∧
      s.fleet.metrics.dropped .handlerError = packets.countP (·.handling = .rejected)) ∧
    (s.fleet.metrics.addressConflicts = packets.countP (fun p =>
        p.packet.kind = .status ∧ p.handling = .rejected ∧ p.fault?.any PacketFault.isConflict) ∧
      s.fleet.metrics.addressesInUse = packets.countP (fun p =>
        p.packet.kind = .status ∧ p.handling = .rejected ∧ p.fault?.any PacketFault.isInUse) ∧
      s.fleet.metrics.addressConflicts + s.fleet.metrics.addressesInUse =
        packets.countP (fun p => p.packet.kind = .status ∧ p.handling = .rejected)) ∧
    (s.fleet.metrics.dropped .unknownSource = replies.countP (·.fate = .unbound) ∧
      s.fleet.metrics.staleResponses = replies.countP (·.fate.isStale) ∧
      ∀ front t back d, happenings = front ++ t :: back →
        (start.turns front).delivered? t = some d →
          d.fate.Befalls d.source d.body (start.turns front).fleet
            ((start.turns front).turn t).fleet) ∧
    s.fleet.metrics.vehiclesKnown = (happenings.filterMap Turn.index?).toFinset.card := by
  intro start s packets replies
  have hsound : start.fleet.links.Sound := Fleet.sound_new config algorithms
  have hgauged : start.fleet.Gauged := Fleet.gauged_new config algorithms
  have hlogged : ∀ p ∈ packets, p.Sound :=
    start.forall_mem_log (fun _ _ _ => Session.sound_of_received?) happenings
  -- A counter that only packets raise, and one that only responses raise.
  have hpackets : ∀ {read : Metrics → Nat} {ofPacket : Received → Bool},
      Raised read ofPacket (fun _ => false) → read start.fleet.metrics = 0 →
        read s.fleet.metrics = packets.countP ofPacket := by
    intro read ofPacket hread hzero
    simpa [hzero] using Session.counter_turns hread hgauged hsound happenings
  have hreplies : ∀ {read : Metrics → Nat} {ofReply : Fate → Bool},
      Raised read (fun _ => false) ofReply → read start.fleet.metrics = 0 →
        read s.fleet.metrics = replies.countP fun d => ofReply d.fate := by
    intro read ofReply hread hzero
    simpa [hzero] using Session.counter_turns hread hgauged hsound happenings
  have hconflicts := hpackets .addressConflicts rfl
  have hinUse := hpackets .addressesInUse rfl
  refine ⟨fun kind => hpackets (.received kind) rfl,
    ⟨hpackets .unhandledKind rfl, hpackets .handlerError rfl⟩, ⟨?_, ?_, ?_⟩,
    ⟨hreplies .unknownSource rfl, hreplies .staleResponses rfl, ?_⟩, ?_⟩
  · rw [hconflicts]
    refine List.countP_congr fun p hp => ?_
    rw [decide_eq_true_eq]
    exact (hlogged p hp).claim_iff fun _ => PacketFault.isAddress_of_isConflict
  · rw [hinUse]
    refine List.countP_congr fun p hp => ?_
    rw [decide_eq_true_eq]
    exact (hlogged p hp).claim_iff fun _ => PacketFault.isAddress_of_isInUse
  · rw [hconflicts, hinUse, countP_claims]
    refine List.countP_congr fun p hp => ?_
    rw [decide_eq_true_eq]
    exact (hlogged p hp).address_iff
  · intro front t back d _ hd
    have hfront : (start.turns front).fleet.links.Sound := Session.sound_turns hsound front
    exact Session.befalls_of_delivered? (Session.gauged_turns hgauged hsound front)
      hfront.coherent hd
  · have hsize : s.fleet.metrics.vehiclesKnown = s.fleet.ids.size :=
      Session.gauged_turns hgauged hsound happenings
    rw [hsize, ← Std.ExtTreeMap.length_keys,
      ← List.toFinset_card_of_nodup Std.ExtTreeMap.nodup_keys]
    congr 1
    ext index
    rw [List.mem_toFinset, List.mem_toFinset, Std.ExtTreeMap.mem_keys]
    refine (Session.mem_ids_turns happenings index).trans ?_
    simp [start, Session.new]

end FleetLink
