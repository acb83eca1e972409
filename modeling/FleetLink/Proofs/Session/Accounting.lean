import Mathlib.Logic.ExistsUnique
import FleetLink.Proofs.Session.Turns

/-!
# Calls are accounted for

A call ends in one of several ways, some of which race: its slot is resolved by a response, a
cancellation or a newer command, or its time is over; or it ends before it waits, because a command
is refused or cannot be sent.  This module keeps the books: **every call that ends does so once,
lets go of what it had, and is counted under the way it ended**, and the calls that have not ended
are the pending commands.

**What a call ended with is more than its result**: a command that was cancelled and one whose
response says so have the same text, but are counted apart (`CallEnding`).  What a turn ends can be
told before it is taken (`Session.ending?`); results and counts are both read off the endings.

## Main Statements

* `CallEnding`, `Session.ending?`, `Session.endings` — how calls end, turn by turn
* `results_turn`, `results_turns` — what turns add to the results and to the counts
* `InOrder.released` — a call that ends lets its slot go, and takes nobody else's entry along
* `calls_accounted` — the calls that wait, the slots, the results and the counts
-/

namespace FleetLink

/-! ## How calls end -/

/-- How a call ended. -/
inductive CallEnding where
  /-- Whoever waited was told. -/
  | told (outcome : Outcome)
  | faulted (fault : CallFault)
  deriving DecidableEq, Repr

namespace CallEnding

/-- What a call came to that ended so. -/
def result : CallEnding → CallResult
  | told outcome => .ok outcome.text
  | faulted fault => .error fault

/-- The label under which it is counted; there is none for a call that had no vehicle or no address
to go to. -/
def counted? : CallEnding → Option CallOutcome
  | told (.completed _) => some .completed
  | told .cancelled => some .cancelled
  | faulted (.unknownVehicle _) | faulted (.noKnownAddress _) => none
  | faulted (.alreadyInProgress _) => some .rejected
  | faulted (.linkDown _) => some .sendFailed
  | faulted (.timedOut ..) => some .timeout

/-- Counts a call. -/
def count (ending : CallEnding) (metrics : Metrics) : Metrics :=
  ending.counted?.elim metrics metrics.finish

/-- A call is counted under a label. -/
def isLabelled (ending : CallEnding) (label : String) : Bool :=
  ending.counted?.any (·.label = label)

theorem count_commands (ending : CallEnding) (metrics : Metrics) (label : String) :
    (ending.count metrics).commands.count label =
      metrics.commands.count label + if ending.isLabelled label then 1 else 0 := by
  unfold count isLabelled
  cases ending.counted? with
  | none => rfl
  | some outcome =>
      simp only [Option.elim_some, Metrics.finish, Tally.count_bump, Option.any_some,
        decide_eq_true_eq]

end CallEnding

/-- A call that came to this had a vehicle and an address to go to. -/
def CallResult.isCounted : CallResult → Bool
  | .error (.unknownVehicle _) | .error (.noKnownAddress _) => false
  | _ => true

theorem CallEnding.isCounted_result (ending : CallEnding) :
    CallResult.isCounted ending.result = ending.counted?.isSome := by
  cases ending with
  | told outcome => cases outcome <;> rfl
  | faulted fault => cases fault <;> rfl

namespace Fleet

/-- How a call ends that is looked at, if it does. -/
def verdict? (f : Fleet) (now : Nat) (call : Call) : Option CallEnding :=
  match f.commands.wait? call.slot with
  | some outcome => some (.told outcome)
  | none =>
    if call.deadline.any (· ≤ now) then
      some (.faulted (.timedOut call.vehicle f.settings.commandTimeout.toNat))
    else none

/-- A call that ends lets its slot go, is counted and has a result, all by how it ended. -/
theorem finish?_eq_verdict? (f : Fleet) (now : Nat) (call : Call) :
    f.finish? now call = (f.verdict? now call).map fun ending =>
      ((f.release call).observe ending.count, ending.result) := by
  unfold finish? verdict?
  cases f.commands.wait? call.slot with
  | some outcome => cases outcome <;> rfl
  | none => cases call.deadline.any (· ≤ now) <;> rfl

/-! ## What is counted -/

theorem metrics_of_error {f g : Fleet} {now : Nat} {vehicle : VehicleId} {line : String}
    {fault : CallFault} (hcall : f.call now vehicle line = (g, .error fault)) :
    g.metrics = (CallEnding.faulted fault).count f.metrics := by
  unfold call at hcall
  split at hcall
  · split at hcall
    · cases hcall
      rfl
    · split at hcall
      · cases hcall
        rfl
      · split at hcall
        · cases hcall
          rfl
        · cases hcall
  · cases hcall
    rfl

theorem metrics_of_ok {f g : Fleet} {now : Nat} {vehicle : VehicleId} {line : String}
    {slot : SlotId} (hcall : f.call now vehicle line = (g, .ok slot)) : g.metrics = f.metrics := by
  unfold call at hcall
  split at hcall
  · split at hcall
    · cases hcall
    · split at hcall
      · cases hcall
      · split at hcall
        · cases hcall
        · cases hcall
          rfl
  · cases hcall

section

variable (f : Fleet)

theorem counts_identify (index : UInt32) :
    (f.identify index).2.metrics.commands = f.metrics.commands := by
  unfold identify
  cases f.ids[index]? <;> rfl

theorem counts_meet (index : UInt32) :
    (f.meet index).2.2.metrics.commands = f.metrics.commands := by
  rw [← f.counts_identify index]
  unfold meet
  rcases f.identify index with ⟨id, g⟩
  dsimp only
  cases g.registry[id]? <;> rfl

theorem counts_takeStatus (now : Nat) (source : Source) (report : StatusReport) :
    (f.takeStatus now source report).1.metrics.commands = f.metrics.commands := by
  rw [← f.counts_meet report.index]
  unfold takeStatus
  rcases f.meet report.index with ⟨id, vehicle, g⟩
  dsimp only
  cases g.book.record id source with
  | ok => rfl
  | error fault => cases fault <;> rfl

theorem counts_takeData (data : AlgorithmData) :
    (f.takeData data).1.metrics.commands = f.metrics.commands := by
  rw [← f.counts_meet data.index]
  unfold takeData
  rcases f.meet data.index with ⟨id, vehicle, g⟩
  dsimp only
  cases vehicle.absorb g.algorithms g.tree id data <;> rfl

theorem counts_deliver (source : Source) (body : List UInt8) :
    (f.deliver source body).2.metrics.commands = f.metrics.commands := by
  unfold deliver
  cases f.book.owner? source with
  | none => rfl
  | some vehicle =>
      dsimp only
      rcases f.commands.fulfill vehicle (Text.decodeLossy body) with ⟨found, commands⟩
      cases found <;> rfl

theorem counts_takeChunk (now : Nat) (source : Source) (compressed : Bool) (chunk : Chunk) :
    (f.takeChunk now source compressed chunk).1.metrics.commands = f.metrics.commands := by
  unfold takeChunk
  rcases f.assembler.add now source compressed chunk with ⟨assembler, result⟩
  rcases result with fault | body
  · rfl
  · cases body with
    | none => rfl
    | some body => exact counts_deliver { f with assembler := assembler } source body

theorem counts_handle (now : Nat) (source : Source) (packet : Packet) :
    (f.handle now source packet).1.metrics.commands = f.metrics.commands := by
  cases packet with
  | status report => exact f.counts_takeStatus now source report
  | algorithmData data => exact f.counts_takeData data
  | commandResponse chunk => exact f.counts_takeChunk now source false chunk
  | compressedCommandResponse chunk => exact f.counts_takeChunk now source true chunk
  | prearmStatus | commandRequest | missionInfo | other => rfl

/-- Packets are not commands, whatever becomes of them. -/
theorem counts_receive (now : Nat) (source : Source) (packet : Packet) :
    (f.receive now source packet).1.metrics.commands = f.metrics.commands := by
  have hdispatch : (f.dispatch now source packet).1.metrics.commands = f.metrics.commands := by
    have hhandle := (f.observe (·.receive packet.kind)).counts_handle now source packet
    unfold dispatch
    dsimp only
    cases packet.kind.route? with
    | none => rfl
    | some route =>
        cases route with
        | ignore => rfl
        | handler =>
            dsimp only
            rcases hresult : (f.observe (·.receive packet.kind)).handle now source packet with
              ⟨g, fault | handled⟩
            · rw [hresult] at hhandle
              exact hhandle
            · rw [hresult] at hhandle
              exact hhandle
  unfold receive
  rcases hresult : f.dispatch now source packet with ⟨g, fault | handling⟩
  · rw [hresult] at hdispatch
    exact hdispatch
  · rw [hresult] at hdispatch
    exact hdispatch

end

end Fleet

namespace Session

/-- The call that ends with a turn, if one does, and how. -/
def ending? (s : Session) : Turn → Option (CallId × CallEnding)
  | .event (.call _ vehicle line) =>
    match (s.fleet.call s.now vehicle line).2 with
    | .error fault => some (s.next, .faulted fault)
    | .ok _ => none
  | .event _ => none
  | .poll id =>
    match s.waiting.find? (·.1 = id) with
    | none => none
    | some (_, call) => (s.fleet.verdict? s.now call).map (id, ·)

/-- The calls that end with some turns, and how, one after the other. -/
def endings (s : Session) : List Turn → List (CallId × CallEnding)
  | [] => []
  | t :: later => (s.ending? t).toList ++ (s.turn t).endings later

/-! ## One turn -/

section

variable (s : Session)

/-- An event that is no call ends none. -/
theorem ending?_of_event {event : Event}
    (hcall : ∀ bounded vehicle line, event ≠ .call bounded vehicle line) :
    s.ending? (.event event) = none := by
  cases event with
  | call bounded vehicle line => exact absurd rfl (hcall bounded vehicle line)
  | _ => rfl

theorem results_of_event {event : Event}
    (hcall : ∀ bounded vehicle line, event ≠ .call bounded vehicle line) :
    (s.apply event).results = s.results ∧
      (s.apply event).fleet.metrics.commands = s.fleet.metrics.commands := by
  cases event with
  | call bounded vehicle line => exact absurd rfl (hcall bounded vehicle line)
  | packet source packet => exact ⟨rfl, s.fleet.counts_receive s.now source packet⟩
  | response source body => exact ⟨rfl, s.fleet.counts_deliver source body⟩
  | identify index => exact ⟨rfl, s.fleet.counts_identify index⟩
  | meet index => exact ⟨rfl, s.fleet.counts_meet index⟩
  | abandon id =>
      show (s.abandon id).results = _ ∧ (s.abandon id).fleet.metrics.commands = _
      unfold abandon
      cases s.waiting.find? (·.1 = id) <;> exact ⟨rfl, rfl⟩
  | _ => exact ⟨rfl, rfl⟩

/-- **What a turn adds**: the call that ends with it has a result and is counted, both by how it
ended. -/
theorem results_turn (t : Turn) (label : String) :
    (s.turn t).results = s.results ++ (s.ending? t).toList.map (fun e => (e.1, e.2.result)) ∧
      (s.turn t).fleet.metrics.commands.count label =
        s.fleet.metrics.commands.count label +
          (s.ending? t).toList.countP (·.2.isLabelled label) := by
  cases t with
  | event event =>
      by_cases hcall : ∃ bounded vehicle line, event = .call bounded vehicle line
      · obtain ⟨bounded, vehicle, line, rfl⟩ := hcall
        rcases hresult : s.fleet.call s.now vehicle line with ⟨fleet, fault | slot⟩
        · simp only [turn, apply, begin, ending?, hresult]
          refine ⟨rfl, ?_⟩
          rw [Fleet.metrics_of_error hresult, CallEnding.count_commands]
          simp [List.countP_cons]
        · simp only [turn, apply, begin, ending?, hresult]
          rw [Fleet.metrics_of_ok hresult]
          exact ⟨by simp, by simp⟩
      -- All other events end no call and count no command.
      · have hothers : ∀ bounded vehicle line, event ≠ .call bounded vehicle line :=
          fun bounded vehicle line heq => hcall ⟨bounded, vehicle, line, heq⟩
        obtain ⟨hresults, hcounts⟩ := s.results_of_event hothers
        rw [s.ending?_of_event hothers]
        show (s.apply event).results = _ ∧ (s.apply event).fleet.metrics.commands.count label = _
        rw [hresults, hcounts]
        exact ⟨by simp, by simp⟩
  | poll id =>
      cases hfind : s.waiting.find? (·.1 = id) with
      | none =>
          simp only [turn, poll, ending?, hfind]
          exact ⟨by simp, by simp⟩
      | some found =>
          obtain ⟨own, call⟩ := found
          simp only [turn, poll, ending?, hfind, Fleet.finish?_eq_verdict?]
          cases s.fleet.verdict? s.now call with
          | none => exact ⟨by simp, by simp⟩
          | some ending =>
              refine ⟨rfl, ?_⟩
              show (ending.count s.fleet.metrics).commands.count label = _
              rw [CallEnding.count_commands]
              simp [List.countP_cons]

/-- **What some turns add.** -/
theorem results_turns (happenings : List Turn) (label : String) :
    (s.turns happenings).results =
        s.results ++ (s.endings happenings).map (fun e => (e.1, e.2.result)) ∧
      (s.turns happenings).fleet.metrics.commands.count label =
        s.fleet.metrics.commands.count label +
          (s.endings happenings).countP (·.2.isLabelled label) := by
  induction happenings generalizing s with
  | nil => exact ⟨by simp [turns, endings], by simp [turns, endings]⟩
  | cons t later ih =>
      obtain ⟨hresults, hcounts⟩ := s.results_turn t label
      obtain ⟨hlater, hmore⟩ := ih (s.turn t)
      show ((s.turn t).turns later).results = _ ∧
        ((s.turn t).turns later).fleet.metrics.commands.count label = _
      rw [hlater, hresults, hmore, hcounts, endings, List.map_append, List.countP_append]
      exact ⟨List.append_assoc _ _ _, Nat.add_assoc _ _ _⟩

end

/-! ## Slots that are let go -/

section

variable {s : Session} {config : Config}

/-- **A call that ends when it is looked at lets its slot go.** -/
theorem commands_of_ending (h : s.Orderly s.waiting) {id : CallId} {call : Call}
    (hcall : (id, call) ∈ s.waiting) (hends : (s.ending? (.poll id)).isSome) :
    (s.poll id).fleet.commands = s.fleet.commands.release call.slot := by
  obtain ⟨front, rest, hsplit⟩ := List.append_of_mem hcall
  have honce := (List.nodup_append.mp h.once).1
  rw [hsplit] at honce
  have hfind : s.waiting.find? (·.1 = id) = some (id, call) := by
    rw [hsplit]
    exact find?_gone honce
  simp only [ending?, hfind, Option.isSome_map] at hends
  obtain ⟨ending, hverdict⟩ := Option.isSome_iff_exists.mp hends
  simp only [poll, hfind, Fleet.finish?_eq_verdict?, hverdict]
  rfl

/-- Its slot is let go for good, and no entry leaves the table with it but its own. -/
theorem InOrder.released (h : s.InOrder config) {id : CallId} {call : Call} {later : List Turn}
    {left : Session} (hcall : (id, call) ∈ s.waiting) (hends : (s.ending? (.poll id)).isSome)
    (hlater : left = s.turns (.poll id :: later)) :
    left.fleet.commands.slots[call.slot]? = none ∧
      ∀ (vehicle : VehicleId) (p : PendingCommand),
        s.fleet.commands.pending[vehicle]? = some p → p.slot ≠ call.slot →
          (s.poll id).fleet.commands.pending[vehicle]? = some p := by
  have hcoherent : s.fleet.commands.Coherent := h.sound.coherent
  have hleft := commands_of_ending h.orderly hcall hends
  have hgone : (s.poll id).fleet.commands.slots[call.slot]? = none := by
    rw [hleft, CommandTable.slots_release, if_pos rfl]
  have hold : call.slot < (s.poll id).fleet.commands.next := by
    rw [hleft, CommandTable.next_release]
    exact h.orderly.slot_lt_next hcoherent hcall
  obtain ⟨operations, hrest⟩ := commands_turns (s.poll id) later
  constructor
  · have hend : left.fleet.commands = (s.poll id).fleet.commands.run operations := by
      rw [hlater]
      exact hrest
    have hnow : (s.poll id).fleet.commands.Coherent := hleft ▸ hcoherent.release call.slot
    rw [hend]
    exact (CommandTable.free_of_run hnow operations hold hgone).2
  · intro vehicle p hp hne
    rw [hleft]
    exact s.fleet.commands.pending_release_of_ne hp hne

end

end Session

/-! ## The books -/

theorem CallOutcome.label_inj {first second : CallOutcome} :
    first.label = second.label ↔ first = second := by
  cases first <;> cases second <;> simp [label]

theorem CallEnding.isLabelled_label (ending : CallEnding) (outcome : CallOutcome) :
    ending.isLabelled outcome.label = decide (ending.counted? = some outcome) := by
  unfold isLabelled
  cases ending.counted? with
  | none => rfl
  | some own => simp [CallOutcome.label_inj]

/-- There are five ways to end for a call that is counted. -/
theorem countP_counted (log : List (CallId × CallEnding)) :
    log.countP (·.2.counted? = some .completed) + log.countP (·.2.counted? = some .cancelled) +
        log.countP (·.2.counted? = some .sendFailed) +
        log.countP (·.2.counted? = some .rejected) + log.countP (·.2.counted? = some .timeout) =
      log.countP (·.2.counted?.isSome) := by
  induction log with
  | nil => rfl
  | cons e log ih =>
      simp only [List.countP_cons]
      rw [← ih]
      cases e.2.counted? with
      | none => simp
      | some outcome => cases outcome <;> simp <;> omega

section

variable {s : Session} {config : Config}

/-- **When nothing is left to do, the calls that wait are the pending commands.** -/
theorem Session.InOrder.waiting_of_quiet (h : s.InOrder config) (hquiet : s.Quiet) :
    s.fleet.commands.count = s.waiting.length ∧
      ∀ (vehicle : VehicleId) (slot : SlotId), s.fleet.commands.current? vehicle = some slot →
        ∃! w, w ∈ s.waiting ∧ w.2.vehicle = vehicle ∧ w.2.slot = slot := by
  have hcoherent : s.fleet.commands.Coherent := h.sound.coherent
  have howner : ∀ {vehicle slot}, s.fleet.commands.current? vehicle = some slot →
      ∃ w ∈ s.waiting, w.2.slot = slot ∧ w.2.vehicle = vehicle := by
    intro vehicle slot hentry
    rw [hcoherent.current_iff] at hentry
    exact (h.orderly.held slot vehicle).mp (by rw [CommandTable.vehicleOf?, hentry]; rfl)
  constructor
  · rw [← List.length_map fun w : CallId × Call => w.2.slot]
    refine hcoherent.count_eq_length h.orderly.own fun slot => ?_
    rw [List.mem_map]
    constructor
    · rintro ⟨w, hw, rfl⟩
      obtain ⟨p, hp, hslot, -⟩ := h.pending_of_quiet hquiet hw
      exact ⟨w.2.vehicle, Option.map_eq_some_iff.mpr ⟨p, hp, hslot⟩⟩
    · rintro ⟨vehicle, hentry⟩
      obtain ⟨w, hw, hslot, -⟩ := howner hentry
      exact ⟨w, hw, hslot⟩
  · intro vehicle slot hentry
    obtain ⟨w, hw, hslot, hvehicle⟩ := howner hentry
    refine ⟨w, ⟨hw, hvehicle, hslot⟩, ?_⟩
    rintro other ⟨hother, -, hsame⟩
    exact List.inj_on_of_nodup_map h.orderly.own hother hw (hsame.trans hslot.symm)

end

/-- **No call leaks, and each is counted once.**  Take any turns in which every call that is made is
bounded: packets and responses that arrive, cancellations, vehicles that are forgotten, links that
fail, calls that are given up, time that passes, and calls that are looked at, in any order.  Take a
moment at which no call that waits could end if it was looked at.

The pending commands are as many as the calls that wait.  Each of these calls is the pending command
of its vehicle, under its own slot, and no older than a call may be; each pending command is that of
one call.

A slot is held only for a call that waits.  When a call ended after it waited, its slot was let go
for good, and no entry left the table with it but its own.

Every call that ended has one result.  For each label as many calls are counted as ended that way,
and under no other label any; in sum they are the calls that ended, but for those that had no
vehicle or no address to go to. -/
theorem calls_accounted (config : Config) (algorithms : List Algorithm) {happenings : List Turn}
    (hbounded : ∀ t ∈ happenings, ∀ vehicle line, t ≠ .event (.call false vehicle line))
    (hquiet : ((Session.new config algorithms).turns happenings).Quiet) :
    let start := Session.new config algorithms
    let s := start.turns happenings
    let log := start.endings happenings
    (s.fleet.commands.count = s.waiting.length ∧
      (∀ w ∈ s.waiting, s.fleet.commands.current? w.2.vehicle = some w.2.slot ∧
        ∃ age, s.fleet.commands.age? s.now w.2.vehicle = some age ∧
          age ≤ config.driver.commandTimeout.toNat * 1000) ∧
      ∀ (vehicle : VehicleId) (slot : SlotId), s.fleet.commands.current? vehicle = some slot →
        ∃! w, w ∈ s.waiting ∧ w.2.vehicle = vehicle ∧ w.2.slot = slot) ∧
    ((∀ (slot : SlotId) (held : CommandSlot), s.fleet.commands.slots[slot]? = some held →
        ∃ w ∈ s.waiting, w.2.slot = slot) ∧
      ∀ front id call back, happenings = front ++ .poll id :: back →
        (id, call) ∈ (start.turns front).waiting →
        ((start.turns front).ending? (.poll id)).isSome →
          s.fleet.commands.slots[call.slot]? = none ∧
          ∀ (vehicle : VehicleId) (p : PendingCommand),
            (start.turns front).fleet.commands.pending[vehicle]? = some p → p.slot ≠ call.slot →
              ((start.turns front).poll id).fleet.commands.pending[vehicle]? = some p) ∧
    (s.results = log.map (fun e => (e.1, e.2.result)) ∧ (log.map (·.1)).Nodup ∧
      (∀ outcome, s.fleet.metrics.ended outcome = log.countP (·.2.counted? = some outcome)) ∧
      (∀ label, (∀ outcome : CallOutcome, outcome.label ≠ label) →
        s.fleet.metrics.commands.count label = 0) ∧
      s.fleet.metrics.ended .completed + s.fleet.metrics.ended .cancelled +
          s.fleet.metrics.ended .sendFailed + s.fleet.metrics.ended .rejected +
          s.fleet.metrics.ended .timeout =
        s.results.countP fun r => CallResult.isCounted r.2) := by
  intro start s log
  have h : s.InOrder config := (Session.inOrder_new config algorithms).turns hbounded
  obtain ⟨hcount, hunique⟩ := h.waiting_of_quiet hquiet
  have hresults : s.results = log.map fun e => (e.1, e.2.result) :=
    (start.results_turns happenings "").1
  have hcounts : ∀ label, s.fleet.metrics.commands.count label =
      log.countP (·.2.isLabelled label) := fun label =>
    ((start.results_turns happenings label).2).trans (Nat.zero_add _)
  have hended : ∀ outcome, s.fleet.metrics.ended outcome =
      log.countP (·.2.counted? = some outcome) := by
    intro outcome
    simp only [Metrics.ended, hcounts, CallEnding.isLabelled_label]
  refine ⟨⟨hcount, ?_, hunique⟩, ⟨?_, ?_⟩, ⟨hresults, ?_, hended, ?_, ?_⟩⟩
  · intro w hw
    obtain ⟨p, hp, hslot, hage⟩ := h.pending_of_quiet hquiet hw
    refine ⟨Option.map_eq_some_iff.mpr ⟨p, hp, hslot⟩, s.now - p.since, ?_, by omega⟩
    rw [CommandTable.age?, hp]
    rfl
  · intro slot held hslot
    obtain ⟨w, hw, hown, -⟩ := (h.orderly.held slot held.vehicle).mp
      (by rw [CommandTable.vehicleOf?, hslot]; rfl)
    exact ⟨w, hw, hown⟩
  · intro front id call back hsplit hcall hends
    have hfront : (start.turns front).InOrder config :=
      (Session.inOrder_new config algorithms).turns fun t ht =>
        hbounded t (by rw [hsplit]; exact List.mem_append_left _ ht)
    exact hfront.released hcall hends (by rw [← Session.turns_append, ← hsplit])
  · have honce := (List.nodup_append.mp h.orderly.once).2.1
    rw [hresults, List.map_map] at honce
    exact honce
  · intro label hother
    rw [hcounts, List.countP_eq_zero]
    intro e _ hlabel
    obtain ⟨outcome, -, hsame⟩ := (Option.any_eq_true _ _).mp hlabel
    exact hother outcome (of_decide_eq_true hsame)
  · rw [hended, hended, hended, hended, hended, countP_counted, hresults, List.countP_map]
    refine List.countP_congr fun e _ => ?_
    show e.2.counted?.isSome = true ↔ CallResult.isCounted e.2.result = true
    rw [CallEnding.isCounted_result]

/-- A vehicle reports its status, is told to land and then to hover, and whoever waits for the first
command looks. -/
private def preempted : List Turn :=
  [.event (.packet (.wireless "a") (.atRest 1)), .event (.call true "01" "land"),
    .event (.call true "01" "hover"), .poll 0]

/-- The newer command takes the place of the older one, whose call ends as cancelled. -/
theorem preempted_accounted :
    let s := (Session.new .standard []).turns preempted
    (s.Quiet ∧ s.waiting = [(1, ⟨"01", 1, some 30000⟩)]) ∧
      s.fleet.commands.count = s.waiting.length ∧
      s.fleet.metrics.ended .completed + s.fleet.metrics.ended .cancelled +
          s.fleet.metrics.ended .sendFailed + s.fleet.metrics.ended .rejected +
          s.fleet.metrics.ended .timeout =
        s.results.countP fun r => CallResult.isCounted r.2 := by
  intro s
  have hbounded : ∀ t ∈ preempted, ∀ vehicle line, t ≠ .event (.call false vehicle line) := by
    simp [preempted]
  have hquiet : s.Quiet := by
    simp only [Session.Quiet, Fleet.finish?_eq_none_iff]
    decide +kernel
  have hlaw := calls_accounted .standard [] hbounded hquiet
  exact ⟨⟨hquiet, by decide +kernel⟩, hlaw.1.1, hlaw.2.2.2.2.2.2⟩

end FleetLink
