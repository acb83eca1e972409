import FleetLink.Proofs.Session.Callable
import FleetLink.Proofs.Session.Counts

/-!
# Strict and lenient mode

A vehicle carries out one command at a time.  What becomes of a second one is configured: in strict
mode **the newer call is refused**, and the older command is as it was; in lenient mode **the older
command is cancelled**, and no call is refused.

Everything follows from what a step can tell the holder of a slot (`Does.tells`).  A command is
cancelled by somebody who asks for that, or by a newer command, and the latter in lenient mode only.
It is completed as the pending command of its vehicle, and in every mode the pending command of a
vehicle is the one that was issued last (`latest?_of_pending`).

## Main Statements

* `Tells`, `Does.tells` — how a step can end a command
* `latest?_of_pending` — the pending command is the latest
* `StrictMode`, `LenientMode` — what is so in a mode
* `command_modes` — that it is so, whatever happens
-/

namespace FleetLink

namespace CommandTable

variable {t : CommandTable} {vehicle : VehicleId} {slot : SlotId}

/-- The next slot is no entry, and nobody was told its outcome. -/
theorem Coherent.fresh (h : Coherent t) (vehicle : VehicleId) :
    t.current? vehicle ≠ some t.next ∧ t.outcome? t.next = none := by
  have hfree : t.slots[t.next]? = none := Option.map_eq_none_iff.mp h.vehicleOf?_next
  refine ⟨fun hentry => Nat.lt_irrefl _ (h.current_lt_next hentry), ?_⟩
  rw [outcome?, hfree]
  rfl

theorem Coherent.outcome?_of_begin (h : Coherent t) {now : Nat} {strict : Bool}
    {begun : CommandTable} (hbegin : t.begin now strict vehicle = some (slot, begun))
    (other : SlotId) : begun.outcome? other =
      if t.current? vehicle = some other then some .cancelled else t.outcome? other := by
  obtain ⟨-, -, -, hslots⟩ := h.of_begin hbegin
  unfold outcome?
  rw [hslots]
  split
  next hnew =>
    subst hnew
    rw [if_neg (h.fresh vehicle).1]
    exact (h.fresh vehicle).2.symm
  next => split <;> rfl

theorem outcome?_release (t : CommandTable) (own other : SlotId) :
    (t.release own).outcome? other = if own = other then none else t.outcome? other := by
  unfold outcome?
  rw [slots_release]
  split <;> rfl

end CommandTable

/-- A call is refused for another command in strict mode only. -/
theorem Fleet.strict_of_refused {f : Fleet} {now : Nat} {vehicle other : VehicleId} {line : String}
    (hrefused : (f.call now vehicle line).2 = .error (.alreadyInProgress other)) :
    f.settings.strictCommands = true := by
  unfold call at hrefused
  split at hrefused
  · cases hpreferred : f.preferred? vehicle with
    | none => simp [hpreferred] at hrefused
    | some destination =>
        simp only [hpreferred] at hrefused
        cases hbegin : f.commands.begin now f.settings.strictCommands vehicle with
        | none => exact ((CommandTable.begin_eq_none_iff _ _ _ _).mp hbegin).1
        | some begun =>
            simp only [hbegin] at hrefused
            split at hrefused <;> cases hrefused
  · cases hrefused

/-- No call that waits ends like that. -/
theorem Session.strict_of_refused (s : Session) {t : Turn} {id : CallId} {vehicle : VehicleId}
    (hends : s.ending? t = some (id, .faulted (.alreadyInProgress vehicle))) :
    s.fleet.settings.strictCommands = true := by
  cases t with
  | event event =>
      by_cases hcall : ∃ bounded own line, event = .call bounded own line
      · obtain ⟨bounded, own, line, rfl⟩ := hcall
        simp only [ending?] at hends
        split at hends
        next fault hfault =>
          cases hends
          exact Fleet.strict_of_refused hfault
        next => cases hends
      · rw [s.ending?_of_event fun bounded own line heq => hcall ⟨bounded, own, line, heq⟩] at hends
        cases hends
  | poll own =>
      unfold ending? at hends
      cases hfind : s.waiting.find? (·.1 = own) with
      | none => simp [hfind] at hends
      | some found =>
          simp only [hfind] at hends
          obtain ⟨ending, hverdict, heq⟩ := Option.map_eq_some_iff.mp hends
          cases heq
          unfold Fleet.verdict? at hverdict
          split at hverdict
          · cases hverdict
          · split at hverdict <;> cases hverdict

namespace Exchange

section

variable {w w' : Exchange} {x : Step}

/-! ## What a step tells -/

/-- In strict mode no command is issued while another is pending. -/
theorem begin_eq_none {vehicle : VehicleId} {slot : SlotId}
    (hstrict : w.session.fleet.settings.strictCommands = true)
    (hpending : w.session.fleet.commands.current? vehicle = some slot) :
    w.session.fleet.commands.begin w.session.now w.session.fleet.settings.strictCommands vehicle =
      none := by
  rw [CommandTable.begin_eq_none_iff, CommandTable.isPending_eq_isSome, hpending]
  exact ⟨hstrict, rfl⟩

/-- **A command that is issued** cancels the pending one of the vehicle, and tells nobody else. -/
theorem Does.outcome?_of_opened (h : Does w x w') (hs : w.session.fleet.links.Sound)
    {vehicle : VehicleId} {newer : SlotId} (hopened : w.opened? x = some (vehicle, newer))
    (slot : SlotId) : w'.session.fleet.commands.outcome? slot =
      if w.session.fleet.commands.current? vehicle = some slot then some .cancelled
      else w.session.fleet.commands.outcome? slot := by
  have hcoherent : w.session.fleet.commands.Coherent := hs.coherent
  rcases h.commands_cases with ⟨own, opened, begun, hopens, hbegin, hcommands⟩ | ⟨hclosed, -⟩
  · rw [hopened] at hopens
    cases hopens
    have hbegun := hcoherent.outcome?_of_begin hbegin slot
    obtain ⟨rfl, -⟩ := hcoherent.of_begin hbegin
    rcases hcommands with hkept | hreleased
    · rw [hkept, hbegun]
    · rw [hreleased, CommandTable.outcome?_release]
      split
      next heq =>
        subst heq
        rw [if_neg (hcoherent.fresh vehicle).1, (hcoherent.fresh vehicle).2]
      next => exact hbegun
  · rw [hclosed] at hopened
    cases hopened

/-- How a step can tell the holder of a slot that its command ended. -/
inductive Tells (w w' : Exchange) (x : Step) (slot : SlotId) : Outcome → Prop
  | cancelled {vehicle : VehicleId}
      (pending : w.session.fleet.commands.current? vehicle = some slot)
      (asked : x.Cancels vehicle) : Tells w w' x slot .cancelled
  | preempted {vehicle : VehicleId} {newer : SlotId}
      (pending : w.session.fleet.commands.current? vehicle = some slot)
      (lenient : w.session.fleet.settings.strictCommands = false)
      (opened : w.opened? x = some (vehicle, newer)) : Tells w w' x slot .cancelled
  | completed {vehicle : VehicleId} {text : String}
      (pending : w.session.fleet.commands.current? vehicle = some slot)
      (answered : w'.session.fleet.commands = (w.session.fleet.commands.fulfill vehicle text).2) :
      Tells w w' x slot (.completed text)

/-- **Whoever is told an outcome** was told it before, or is told with the step. -/
theorem Does.tells (h : Does w x w') (hs : w.session.fleet.links.Sound) {slot : SlotId}
    {outcome : Outcome} (htold : w'.session.fleet.commands.outcome? slot = some outcome) :
    w.session.fleet.commands.outcome? slot = some outcome ∨ Tells w w' x slot outcome := by
  have hcoherent : w.session.fleet.commands.Coherent := hs.coherent
  rcases h.commands_cases with ⟨vehicle, newer, begun, hopened, hbegin, -⟩ |
    ⟨-, operations, hcommands, hplain⟩
  · rw [h.outcome?_of_opened hs hopened] at htold
    split at htold
    next hpending =>
      cases htold
      refine .inr (.preempted hpending ?_ hopened)
      by_contra hstrict
      rw [begin_eq_none (Bool.eq_true_of_not_eq_false hstrict) hpending] at hbegin
      cases hbegin
    next => exact .inl htold
  · rw [hcommands] at htold
    rcases CommandTable.exists_resolution_of_told hcoherent htold with
      hbefore | ⟨front, operation, back, vehicle, rfl, hentry, hends⟩
    · exact .inl hbefore
    · have hmem : operation ∈ front ++ operation :: back := by simp
      have hpending : w.session.fleet.commands.current? vehicle = some slot := by
        rcases CommandTable.begins_of_current_run hcoherent front hentry with
          hbefore | ⟨-, now, strict, hbegins⟩
        · exact hbefore
        · exact absurd (List.mem_append_left _ hbegins) (hplain.begins now strict vehicle)
      cases operation with
      | begin now strict own => exact absurd hmem (hplain.begins now strict own)
      | cancel own =>
          obtain ⟨rfl, rfl⟩ : own = vehicle ∧ Outcome.cancelled = outcome := by
            simpa [CommandTable.Operation.resolution?] using hends
          exact .inr (.cancelled hpending (hplain.cancels own hmem))
      | fulfill own text =>
          obtain ⟨rfl, rfl⟩ : own = vehicle ∧ Outcome.completed text = outcome := by
            simpa [CommandTable.Operation.resolution?] using hends
          rw [hplain.fulfills own text hmem] at hcommands
          exact .inr (.completed hpending hcommands)
      | wait | drop => cases hends

/-! ## Whose call is refused -/

/-- A call is refused for the pending command of its vehicle: nothing else changes, and the command
can be completed still. -/
structure Refused (w w' : Exchange) (id : CallId) (vehicle : VehicleId) (slot : SlotId) : Prop where
  results : w'.session.results = w.session.results ++ [(id, .error (.alreadyInProgress vehicle))]
  gone : w'.underway[id]? = none
  outbox : w'.session.fleet.outbox = w.session.fleet.outbox
  waiting : w'.session.waiting = w.session.waiting
  commands : w'.session.fleet.commands = w.session.fleet.commands
  able : ∀ text, (w'.session.fleet.commands.fulfill vehicle text).2.wait? slot =
    some (.completed text)

section

variable {vehicle : VehicleId} {slot : SlotId}

/-- A pending command can be completed. -/
theorem wait?_fulfill (hs : w.session.fleet.links.Sound)
    (hpending : w.session.fleet.commands.current? vehicle = some slot) (text : String) :
    (w.session.fleet.commands.fulfill vehicle text).2.wait? slot = some (.completed text) := by
  rw [CommandTable.fulfill_snd]
  exact hs.coherent.wait?_withdraw hpending _

/-- **A response that is complete** completes the pending command of the vehicle that owns its
source. -/
theorem wait?_of_delivered? (hs : w.session.fleet.links.Sound) {t : Turn} {d : Delivered}
    (hdelivered : w.session.delivered? t = some d)
    (howner : w.session.fleet.book.owner? d.source = some vehicle)
    (hpending : w.session.fleet.commands.current? vehicle = some slot) :
    (w.step (.turn t)).session.fleet.commands.wait? slot =
      some (.completed (Text.decodeLossy d.body)) := by
  have hcommands : (w.step (.turn t)).session.fleet.commands =
      (w.session.fleet.commands.fulfill vehicle (Text.decodeLossy d.body)).2 := by
    refine (Session.commands_of_delivered? hdelivered).2.trans ?_
    rw [Fleet.delivery, howner]
    rfl
  rw [hcommands]
  exact wait?_fulfill hs hpending _

variable (hs : w.session.fleet.links.Sound)
  (hstrict : w.session.fleet.settings.strictCommands = true)
  (hpending : w.session.fleet.commands.current? vehicle = some slot)

include hs hstrict hpending

/-- **A call that asks for a slot** is refused. -/
theorem refused_begin {id : CallId} {u : Underway} {destination : Source}
    (hcall : w.underway[id]? = some u) (hvehicle : u.vehicle = vehicle)
    (hstage : u.stage = .addressed destination) :
    Refused w (w.step (.begin id)) id vehicle slot := by
  obtain ⟨own, line, deadline, stage⟩ := u
  cases hvehicle
  cases hstage
  have hstep : w.step (.begin id) = ((w.update (·.observe (·.finish .rejected))).drop id).fail id
      (.alreadyInProgress own) := by
    show w.begin id = _
    unfold begin
    rw [hcall]
    dsimp only
    rw [begin_eq_none hstrict hpending]
  rw [hstep]
  exact ⟨rfl, (underway_drop w id id).trans (if_pos rfl), rfl, rfl, rfl, wait?_fulfill hs hpending⟩

/-- **A call that is made in one go** is refused, if it gets to ask for a slot. -/
theorem refused_call (bounded : Bool) (line : String)
    (hmem : vehicle ∈ w.session.fleet.registry) (hreaches : w.session.fleet.Reaches vehicle)
    (hnew : w.underway[w.session.next]? = none) :
    Refused w (w.step (.turn (.event (.call bounded vehicle line)))) w.session.next vehicle
      slot := by
  obtain ⟨destination, hpreferred⟩ := (Fleet.exists_preferred?_iff hs.agrees).mpr hreaches
  have hcall : w.session.fleet.call w.session.now vehicle line =
      (w.session.fleet.observe (·.finish .rejected), .error (.alreadyInProgress vehicle)) := by
    unfold Fleet.call
    rw [if_pos hmem, hpreferred]
    dsimp only
    rw [begin_eq_none hstrict hpending]
  have hbegin : w.session.begin bounded vehicle line =
      { w.session with
        fleet := w.session.fleet.observe (·.finish .rejected)
        next := w.session.next + 1
        results :=
          w.session.results ++ [(w.session.next, .error (.alreadyInProgress vehicle))] } := by
    unfold Session.begin
    rw [hcall]
  show Refused w { w with session := w.session.begin bounded vehicle line } _ _ _
  rw [hbegin]
  exact ⟨rfl, hnew, rfl, rfl, rfl, wait?_fulfill hs hpending⟩

end

/-- **A call is refused in strict mode only.** -/
theorem Does.refuses (h : Does w x w') {id : CallId} {vehicle : VehicleId}
    (hrefused : (id, .error (.alreadyInProgress vehicle)) ∈ w'.session.results) :
    (id, .error (.alreadyInProgress vehicle)) ∈ w.session.results ∨
      w.session.fleet.settings.strictCommands = true := by
  have hturn : ∀ t, (id, .error (.alreadyInProgress vehicle)) ∈ (w.session.turn t).results →
      (id, .error (.alreadyInProgress vehicle)) ∈ w.session.results ∨
        w.session.fleet.settings.strictCommands = true := by
    intro t hmem
    rw [(w.session.results_turn t "").1] at hmem
    rcases List.mem_append.mp hmem with hbefore | hnew
    · exact .inl hbefore
    · obtain ⟨⟨own, ending⟩, hends, heq⟩ := List.mem_map.mp hnew
      cases ending with
      | told outcome => cases heq
      | faulted fault =>
          cases heq
          exact .inr (w.session.strict_of_refused (Option.mem_toList.mp hends))
  cases h with
  | call bounded own line => exact hturn (.event (.call bounded own line)) hrefused
  | turn => exact hturn _ hrefused
  | busy call refused => exact .inr ((CommandTable.begin_eq_none_iff _ _ _ _).mp refused).1
  | unknown | unreached | failed | expired =>
      rcases List.mem_append.mp hrefused with hbefore | hnew
      · exact .inl hbefore
      · cases List.mem_singleton.mp hnew
  | found | addressed | begun | sent | left | idle => exact .inl hrefused

end

/-! ## Whole runs -/

/-- The slot that was opened last for a vehicle. -/
def latest? (vehicle : VehicleId) (opened : List (VehicleId × SlotId)) : Option SlotId :=
  (opened.filter (·.1 = vehicle)).getLast?.map (·.2)

theorem latest?_concat (vehicle own : VehicleId) (slot : SlotId)
    (opened : List (VehicleId × SlotId)) : latest? vehicle (opened ++ [(own, slot)]) =
      if own = vehicle then some slot else latest? vehicle opened := by
  unfold latest?
  rw [List.filter_append]
  by_cases heq : own = vehicle <;> simp [heq]

section

variable (config : Config) (algorithms : List Algorithm) (steps : List Step)

/-- **The pending command of a vehicle is the one that was issued last.** -/
theorem latest?_of_pending {vehicle : VehicleId} {slot : SlotId}
    (hpending : ((new config algorithms).run steps).session.fleet.commands.current? vehicle =
      some slot) : latest? vehicle ((new config algorithms).log opened? steps) = some slot := by
  induction steps using List.reverseRecOn with
  | nil => cases (CommandTable.current?_empty vehicle).symm.trans hpending
  | append_singleton earlier x ih =>
      rw [run_concat] at hpending
      rw [log_concat]
      rcases (does_step _ x).pending (sound_new config algorithms earlier) hpending with
        hopened | ⟨hbefore, hothers⟩
      · rw [hopened, Option.toList_some, latest?_concat, if_pos rfl]
      · cases hopened : opened? ((new config algorithms).run earlier) x with
        | none =>
            rw [Option.toList_none, List.append_nil]
            exact ih hbefore
        | some opened =>
            obtain ⟨own, newer⟩ := opened
            have hne : own ≠ vehicle := by
              rintro rfl
              exact hothers newer hopened
            rw [Option.toList_some, latest?_concat, if_neg hne]
            exact ih hbefore

/-- **In strict mode** a command is cancelled by somebody who asks for that. -/
theorem cancels_of_cancelled (hstrict : config.driver.strictCommands = true) {slot : SlotId}
    (hcancelled : ((new config algorithms).run steps).session.fleet.commands.outcome? slot =
      some .cancelled) : ∃ front x back vehicle, steps = front ++ x :: back ∧ x.Cancels vehicle ∧
        ((new config algorithms).run front).session.fleet.commands.current? vehicle =
          some slot := by
  induction steps using List.reverseRecOn with
  | nil => cases (CommandTable.outcome?_empty slot).symm.trans hcancelled
  | append_singleton earlier x ih =>
      rw [run_concat] at hcancelled
      rcases (does_step _ x).tells (sound_new config algorithms earlier) hcancelled with
        hbefore | htells
      · obtain ⟨front, y, back, vehicle, rfl, hcancels, hpending⟩ := ih hbefore
        exact ⟨front, y, back ++ [x], vehicle, by simp, hcancels, hpending⟩
      · cases htells with
        | cancelled pending asked => exact ⟨earlier, x, [], _, rfl, asked, pending⟩
        | preempted pending lenient =>
            rw [(identified_new config algorithms earlier).settings, hstrict] at lenient
            cases lenient

/-- **In lenient mode** no call is refused for another command. -/
theorem not_refused (hlenient : config.driver.strictCommands = false) (id : CallId)
    (vehicle : VehicleId) : (id, .error (.alreadyInProgress vehicle)) ∉
      ((new config algorithms).run steps).session.results := by
  induction steps using List.reverseRecOn with
  | nil => exact List.not_mem_nil
  | append_singleton earlier x ih =>
      rw [run_concat]
      intro hrefused
      rcases (does_step _ x).refuses hrefused with hbefore | hstrict
      · exact ih hbefore
      · rw [(identified_new config algorithms earlier).settings, hlenient] at hstrict
        cases hstrict

end

/-- What is so in strict mode.  A vehicle that has a pending command gets no other one: a call is
refused when it asks for a slot, and nothing else keeps it from getting there.  No command is
cancelled unless somebody asks for that. -/
structure StrictMode (start : Exchange) (steps : List Step) : Prop where
  /-- A call that asks for a slot is refused. -/
  refused_begin : ∀ (vehicle : VehicleId) (slot : SlotId),
    (start.run steps).session.fleet.commands.current? vehicle = some slot →
    ∀ (id : CallId) (u : Underway) (destination : Source),
      (start.run steps).underway[id]? = some u → u.vehicle = vehicle →
      u.stage = .addressed destination →
      Refused (start.run steps) ((start.run steps).step (.begin id)) id vehicle slot
  /-- A call gets to ask for a slot. -/
  reaches : ∀ (vehicle : VehicleId) (slot : SlotId), Undisturbed start steps vehicle →
    (start.run steps).session.fleet.commands.current? vehicle = some slot →
    vehicle ∈ (start.run steps).session.fleet.registry ∧
      ∃ destination, (start.run steps).session.fleet.preferred? vehicle = some destination
  /-- A call that is made in one go is refused. -/
  refused_call : ∀ (vehicle : VehicleId) (slot : SlotId), Undisturbed start steps vehicle →
    (start.run steps).session.fleet.commands.current? vehicle = some slot →
    ∀ bounded line, Refused (start.run steps)
      ((start.run steps).step (.turn (.event (.call bounded vehicle line))))
      (start.run steps).session.next vehicle slot
  /-- A command that counts as cancelled was pending when somebody cancelled the vehicle's. -/
  cancelled : ∀ slot, (start.run steps).session.fleet.commands.wait? slot = some .cancelled →
    ∃ front x back vehicle, steps = front ++ x :: back ∧ x.Cancels vehicle ∧
      (start.run front).session.fleet.commands.current? vehicle = some slot

/-- What is so in lenient mode.  No call is refused, and a command that is issued cancels all of its
vehicle that wait.  A response is for the command that was issued last. -/
structure LenientMode (start : Exchange) (steps : List Step) : Prop where
  /-- No call ended because another command was in progress. -/
  accepted : ∀ id vehicle,
    (id, .error (.alreadyInProgress vehicle)) ∉ (start.run steps).session.results
  /-- A command that is issued cancels all of its vehicle that were told nothing. -/
  preempts : ∀ x vehicle newer, (start.run steps).opened? x = some (vehicle, newer) →
    ∀ older : SlotId, (start.run steps).session.fleet.commands.slots[older]? =
        some ⟨vehicle, none⟩ →
      ((start.run steps).step x).session.fleet.commands.wait? older = some .cancelled
  /-- The pending command is the one that was issued last. -/
  latest : ∀ vehicle slot, (start.run steps).session.fleet.commands.current? vehicle = some slot →
    latest? vehicle (start.log opened? steps) = some slot
  /-- A response that is complete with a turn, handed over as a whole or with a packet that holds
  its last part, completes the pending command of the vehicle that owns its source. -/
  answers : ∀ vehicle slot t d, (start.run steps).session.delivered? t = some d →
    (start.run steps).session.fleet.book.owner? d.source = some vehicle →
    (start.run steps).session.fleet.commands.current? vehicle = some slot →
    ((start.run steps).step (.turn t)).session.fleet.commands.wait? slot =
      some (.completed (Text.decodeLossy d.body))
  /-- Whatever is completed with a step is the command that was issued last for its vehicle, and
  nobody else is told anything. -/
  completes : ∀ x slot text,
    ((start.run steps).step x).session.fleet.commands.wait? slot = some (.completed text) →
    (start.run steps).session.fleet.commands.wait? slot = some (.completed text) ∨
      ∃ vehicle, (start.run steps).session.fleet.commands.current? vehicle = some slot ∧
        latest? vehicle (start.log opened? steps) = some slot ∧
        ∀ other ≠ slot, ((start.run steps).step x).session.fleet.commands.wait? other =
          (start.run steps).session.fleet.commands.wait? other

theorem strictMode (config : Config) (algorithms : List Algorithm) (steps : List Step)
    (hstrict : config.driver.strictCommands = true) :
    StrictMode (new config algorithms) steps := by
  have hs := sound_new config algorithms steps
  have hset : ((new config algorithms).run steps).session.fleet.settings.strictCommands = true := by
    rw [(identified_new config algorithms steps).settings, hstrict]
  constructor
  case refused_begin =>
    intro vehicle slot hpending id u destination hcall hvehicle hstage
    exact refused_begin hs hset hpending hcall hvehicle hstage
  case reaches =>
    intro vehicle slot hundisturbed hpending
    obtain ⟨hmem, hreaches⟩ := (ready_run config algorithms hundisturbed).pending slot hpending
    exact ⟨hmem, (Fleet.exists_preferred?_iff hs.agrees).mpr hreaches⟩
  case refused_call =>
    intro vehicle slot hundisturbed hpending bounded line
    obtain ⟨hmem, hreaches⟩ := (ready_run config algorithms hundisturbed).pending slot hpending
    exact refused_call hs hset hpending bounded line hmem hreaches
      (numbered config algorithms steps).next_free.2
  case cancelled =>
    intro slot hcancelled
    have hcoherent : ((new config algorithms).run steps).session.fleet.commands.Coherent :=
      hs.coherent
    rw [hcoherent.wait?_eq_outcome?] at hcancelled
    exact cancels_of_cancelled config algorithms steps hstrict hcancelled

theorem lenientMode (config : Config) (algorithms : List Algorithm) (steps : List Step)
    (hlenient : config.driver.strictCommands = false) :
    LenientMode (new config algorithms) steps := by
  have hs := sound_new config algorithms steps
  have hcoherent : ((new config algorithms).run steps).session.fleet.commands.Coherent :=
    hs.coherent
  have hlater : ∀ x,
      (((new config algorithms).run steps).step x).session.fleet.commands.Coherent :=
    fun x => ((does_step _ x).sound hs).coherent
  constructor
  case accepted => exact not_refused config algorithms steps hlenient
  case preempts =>
    intro x vehicle newer hopened older hholds
    have hpending := (hcoherent.current_iff vehicle older).mpr hholds
    rw [(hlater x).wait?_eq_outcome?]
    exact ((does_step _ x).outcome?_of_opened hs hopened older).trans (if_pos hpending)
  case latest => exact fun vehicle slot => latest?_of_pending config algorithms steps
  case answers => exact fun vehicle slot t d => wait?_of_delivered? hs
  case completes =>
    intro x slot text htold
    rw [(hlater x).wait?_eq_outcome?] at htold
    rcases (does_step _ x).tells hs htold with hbefore | htells
    · exact .inl ((hcoherent.wait?_eq_outcome? slot).trans hbefore)
    · cases htells with
      | completed pending answered =>
          refine .inr ⟨_, pending, latest?_of_pending config algorithms steps pending, ?_⟩
          intro other hother
          rw [(hlater x).wait?_eq_outcome?, hcoherent.wait?_eq_outcome?, answered,
            CommandTable.fulfill_snd, CommandTable.outcome?, hcoherent.slots_withdraw, if_neg]
          · rfl
          · intro hentry
            exact hother (Option.some.inj (hentry.symm.trans pending))

end Exchange

open Exchange in
/-- **What a mode means.**  Calls are put through at the same time, and anything may happen
between their steps.  In strict mode a call to a vehicle with a pending command is refused, and no
command is cancelled unasked; in lenient mode no call is refused, the older command is cancelled,
and a response is for the newer one; in both the link takes the line of every call that comes to
wait, once. -/
theorem command_modes (config : Config) (algorithms : List Algorithm) (steps : List Exchange.Step) :
    let start := Exchange.new config algorithms
    (config.driver.strictCommands = true → StrictMode start steps) ∧
      (config.driver.strictCommands = false → LenientMode start steps) ∧ SentOnce start steps :=
  ⟨strictMode config algorithms steps, lenientMode config algorithms steps,
    sentOnce config algorithms steps⟩

/-- One command of a vehicle at a time. -/
private def oneAtATime : Config :=
  { Config.standard with driver := { Config.standard.driver with allowMultipleCommands := false } }

/-- Two calls to a vehicle get to ask for a slot, one after the other, and then both ask. -/
private def contested : List Exchange.Step :=
  [.turn (.event (.packet (.wireless "a") (.atRest 1))), .find false "01" "land",
    .find true "01" "hover", .address 0, .address 1, .begin 0, .send 0, .begin 1, .send 1]

/-- The vehicle answers, in one part. -/
private def answer : Turn :=
  .event (.packet (.wireless "a") (.commandResponse ⟨5, 0, 1, [0x6F, 0x6B]⟩))

/-- In strict mode the second call is refused, and so is a third.  In lenient mode the first command
is cancelled, and the vehicle answers the second. -/
theorem contested_modes :
    let strict := (Exchange.new oneAtATime []).run contested
    let lenient := (Exchange.new .standard []).run contested
    (oneAtATime.driver.strictCommands = true ∧
        Exchange.StrictMode (.new oneAtATime []) contested) ∧
      (Config.standard.driver.strictCommands = false ∧
        Exchange.LenientMode (.new .standard []) contested) ∧
      (strict.session.results = [(1, .error (.alreadyInProgress "01"))] ∧
        strict.session.fleet.outbox.sent = [⟨.wireless "a", CommandLine.packet "land"⟩] ∧
        Exchange.Refused strict (strict.step (.turn (.event (.call true "01" "rth"))))
          strict.session.next "01" 0) ∧
      lenient.session.results = [] ∧
        lenient.session.fleet.commands.wait? 0 = some .cancelled ∧
        lenient.session.fleet.outbox.sent = [⟨.wireless "a", CommandLine.packet "land"⟩,
          ⟨.wireless "a", CommandLine.packet "hover"⟩] ∧
        (lenient.step (.turn answer)).session.fleet.commands.wait? 1 = some (.completed "ok") := by
  have hstrict : oneAtATime.driver.strictCommands = true := by decide
  have hlenient : Config.standard.driver.strictCommands = false := by decide
  have hmode := (command_modes oneAtATime [] contested).1 hstrict
  have hother := (command_modes .standard [] contested).2.1 hlenient
  have hundisturbed : Exchange.Undisturbed (.new oneAtATime []) contested "01" := by
    intro front x back hsplit
    have hmem : x ∈ contested := hsplit ▸ List.mem_append_right front List.mem_cons_self
    simp only [contested, List.mem_cons, List.not_mem_nil, or_false] at hmem
    constructor
    · rintro rfl
      simp at hmem
    · rintro rfl
      simp at hmem
  have hpending : ((Exchange.new oneAtATime []).run contested).session.fleet.commands.current?
      "01" = some 0 := by decide +kernel
  refine ⟨⟨hstrict, hmode⟩, ⟨hlenient, hother⟩, ⟨by decide +kernel, by decide +kernel, ?_⟩,
    by decide +kernel, by decide +kernel, by decide +kernel, ?_⟩
  · exact hmode.refused_call "01" 0 hundisturbed hpending true "rth"
  · have htext : "ok" = Text.decodeLossy [0x6F, 0x6B] := by decide +kernel
    rw [htext]
    exact hother.answers "01" 1 answer ⟨.wireless "a", [0x6F, 0x6B], .ends "01" 1⟩
      (by decide +kernel) (by decide +kernel) (by decide +kernel)

end FleetLink
