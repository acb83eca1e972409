import FleetLink.Proofs.Session.Calls
import FleetLink.Replay

/-!
# When a command of a capture begins

A command of a capture is issued so that what follows in the capture finds it pending.  Its call has
begun if it has ended or holds a slot (`Begun`).  This module says **when that is so**: at once if
its vehicle is idle, and not at once otherwise, because whoever replays looks at the vehicle and not
at the slot, and takes the pending command of the vehicle for the one that was just issued.

So the second of two commands for a vehicle has not begun when the next record is applied, unless
time passes before that (`begun_iff`).  It does not preempt the first command, nor is it refused,
and a response that follows is the first one's.  It begins when time passes, when a command for an
idle vehicle is issued, or at the end (`begun_startQueued`).

## Main Statements

* `Reached` — what replaying comes to, record by record
* `Steady`, `steady_apply` — the calls are in order, and the queued ones have the next numbers
* `begun_startQueued` — all queued calls begin together
* `begun_iff` — whether a call has begun when the next record is applied
* `not_beginAtOnce` — two commands in a row
-/

namespace FleetLink

/-! ## Calls that begin one after the other -/

/-- The numbers of some commands come one after the other. -/
def Numbered (first : CallId) : List IssuedCommand → Prop
  | [] => True
  | c :: rest => c.id = first ∧ Numbered (first + 1) rest

theorem Numbered.concat {first : CallId} {queue : List IssuedCommand} {c : IssuedCommand}
    (h : Numbered first queue) (hid : c.id = first + queue.length) :
    Numbered first (queue ++ [c]) := by
  induction queue generalizing first with
  | nil => exact ⟨hid, trivial⟩
  | cons head rest ih =>
      refine ⟨h.1, ih h.2 ?_⟩
      rw [hid]
      exact Nat.add_right_comm first rest.length 1

namespace Session

/-- The call of a command has been made: it has a result, or it waits for its vehicle. -/
def Made (s : Session) (c : IssuedCommand) : Prop :=
  (∃ result, (c.id, result) ∈ s.results) ∨
    ∃ call, (c.id, call) ∈ s.waiting ∧ call.vehicle = c.vehicle

section

variable {s : Session} {c : IssuedCommand}

/-- A call that has been made is one of those whose numbers are given. -/
theorem Made.lt_next (h : s.Made c) (horderly : s.Orderly s.waiting) : c.id < s.next := by
  refine horderly.begun c.id ?_
  rcases h with ⟨result, hresult⟩ | ⟨call, hcall, -⟩
  · exact List.mem_append_right _ (List.mem_map_of_mem hresult)
  · exact List.mem_append_left _ (List.mem_map_of_mem hcall)

theorem Made.mono (h : s.Made c) {later : Session} (hwaiting : s.waiting ⊆ later.waiting)
    (hresults : s.results ⊆ later.results) : later.Made c := by
  rcases h with ⟨result, hresult⟩ | ⟨call, hcall, hvehicle⟩
  · exact .inl ⟨result, hresults hresult⟩
  · exact .inr ⟨call, hwaiting hcall, hvehicle⟩

theorem Made.settle (h : s.Made c) (hs : s.fleet.links.Sound) (horderly : s.Orderly s.waiting) :
    s.settle.Made c := by
  obtain ⟨-, -, hkept, hresults, -⟩ := orderly_settle hs.coherent horderly
  rcases h with ⟨result, hresult⟩ | ⟨call, hcall, hvehicle⟩
  · exact .inl ⟨result, hresults hresult⟩
  · rcases hkept _ hcall with hwaits | hended
    · exact .inr ⟨call, hwaits, hvehicle⟩
    · exact .inl hended

/-- A call that begins has been made, and those before it still have. -/
theorem made_begin (hs : s.fleet.links.Sound) (hid : c.id = s.next) :
    (s.begin true c.vehicle c.line).Made c ∧
      ∀ other, s.Made other → (s.begin true c.vehicle c.line).Made other := by
  obtain ⟨-, ⟨fault, hresults, hwaiting, -⟩ | ⟨hresults, hwaiting, -⟩⟩ :=
    begin_cases hs.coherent true c.vehicle c.line
  · refine ⟨.inl ⟨.error fault, by simp [hresults, hid]⟩, fun other h => h.mono ?_ ?_⟩
    · rw [hwaiting]
      exact fun _ => id
    · rw [hresults]
      exact List.subset_append_left _ _
  · refine ⟨.inr ⟨⟨c.vehicle, s.fleet.commands.next, some (s.fleet.deadline s.now)⟩,
      by simp [hwaiting, hid], rfl⟩, fun other h => h.mono ?_ ?_⟩
    · rw [hwaiting]
      exact List.subset_append_left _ _
    · rw [hresults]
      exact fun _ => id

/-- **Some calls begin,** one after the other. -/
theorem made_begins {queue : List IssuedCommand} (hs : s.fleet.links.Sound)
    (horderly : s.Orderly s.waiting) (hnumbered : Numbered s.next queue) :
    let later := queue.foldl (fun s c => s.begin true c.vehicle c.line) s
    later.fleet.links.Sound ∧ later.Orderly later.waiting ∧
      (∀ c, s.Made c → later.Made c) ∧ ∀ c ∈ queue, later.Made c := by
  induction queue generalizing s with
  | nil => exact ⟨hs, horderly, fun _ => id, by simp⟩
  | cons first rest ih =>
      obtain ⟨hfirst, hbefore⟩ := made_begin hs hnumbered.1
      have hnext : (s.begin true first.vehicle first.line).next = s.next + 1 :=
        (begin_cases hs.coherent true first.vehicle first.line).1
      obtain ⟨hsound, hrest, hkept, hall⟩ :=
        ih (s := s.begin true first.vehicle first.line)
          (sound_move hs (.event (.call true first.vehicle first.line)))
          (orderly_begin hs.coherent horderly true first.vehicle first.line)
          (hnext ▸ hnumbered.2)
      refine ⟨hsound, hrest, fun c hc => hkept c (hbefore c hc), fun c hc => ?_⟩
      rcases List.mem_cons.mp hc with rfl | hc
      · exact hkept c hfirst
      · exact hall c hc

end

end Session

namespace Replay

/-- What replaying a capture in a session comes to, record by record. -/
inductive Reached (session : Session) : Replay → Prop
  | new : Reached session (new session)
  | apply {r : Replay} (h : Reached session r) (record : CaptureRecord) :
      Reached session (r.apply record)

/-- The call of a command has begun: it has ended, or it waits and holds a slot for its vehicle. -/
def Begun (r : Replay) (c : IssuedCommand) : Prop :=
  (∃ result, (c.id, result) ∈ r.session.results) ∨
    ∃ call, (c.id, call) ∈ r.session.waiting ∧
      r.session.fleet.commands.vehicleOf? call.slot = some c.vehicle

/-- What every record keeps. -/
structure Steady (r : Replay) : Prop where
  sound : r.session.fleet.links.Sound
  orderly : r.session.Orderly r.session.waiting
  /-- The calls that have not begun will have the next numbers. -/
  numbered : Numbered r.session.next r.queued

section

variable {session : Session} {r : Replay} {c : IssuedCommand}

/-- Feeding the lines of a capture applies records. -/
theorem Reached.feed (h : Reached session r) (lines : List (Nat × String)) :
    Reached session (r.feed lines).1 := by
  fun_induction Replay.feed r lines with
  | case1 => exact h
  | case2 => exact h
  | case3 => exact h
  | case4 _ _ _ _ record _ _ ih => exact ih (h.apply record)

/-- Whoever waits holds a slot, so a call that has been made has begun. -/
theorem Steady.begun_iff_made (h : r.Steady) : r.Begun c ↔ r.session.Made c := by
  have hheld : ∀ call, (c.id, call) ∈ r.session.waiting →
      r.session.fleet.commands.vehicleOf? call.slot = some call.vehicle :=
    fun call hcall => (h.orderly.held _ _).mpr ⟨_, hcall, rfl, rfl⟩
  refine or_congr_right (exists_congr fun call => and_congr_right fun hcall => ?_)
  rw [hheld call hcall, Option.some.injEq]

/-- **All queued calls begin together,** and those that had begun before still have. -/
theorem begun_startQueued (h : r.Steady) :
    r.startQueued.Steady ∧ (∀ c ∈ r.queued, r.startQueued.Begun c) ∧
      ∀ c, r.Begun c → r.startQueued.Begun c := by
  obtain ⟨hsound, horderly, hkept, hall⟩ :=
    Session.made_begins h.sound h.orderly h.numbered
  have hsteady : r.startQueued.Steady :=
    ⟨Session.sound_move hsound .settle, (Session.orderly_settle hsound.coherent horderly).1,
      trivial⟩
  refine ⟨hsteady, fun c hc => ?_, fun c hc => ?_⟩
  · exact hsteady.begun_iff_made.mpr ((hall c hc).settle hsound horderly)
  · exact hsteady.begun_iff_made.mpr
      ((hkept c (h.begun_iff_made.mp hc)).settle hsound horderly)

/-- An event that is not about calls, and the end of those that can end. -/
theorem steady_step (h : r.Steady) (event : Event)
    (hcall : ∀ bounded vehicle line, event ≠ .call bounded vehicle line)
    (habandon : ∀ id, event ≠ .abandon id) :
    Steady { r with session := r.session.step event } ∧
      ∀ c, r.Begun c → Begun { r with session := r.session.step event } c := by
  obtain ⟨hwaiting, hresults, hnext, -⟩ := r.session.commands_apply hcall habandon
  have hsound : (r.session.apply event).fleet.links.Sound :=
    Session.sound_move h.sound (.event event)
  have horderly : (r.session.apply event).Orderly (r.session.apply event).waiting :=
    Session.orderly_move h.sound.coherent h.orderly (.event event)
  obtain ⟨hsettled, -, -, -, hsame⟩ := Session.orderly_settle hsound.coherent horderly
  have hsteady : Steady { r with session := r.session.step event } := by
    refine ⟨Session.sound_move hsound .settle, hsettled, ?_⟩
    show Numbered (r.session.apply event).settle.next r.queued
    rw [hsame, hnext]
    exact h.numbered
  refine ⟨hsteady, fun c hc => hsteady.begun_iff_made.mpr ?_⟩
  refine Session.Made.settle ((h.begun_iff_made.mp hc).mono ?_ ?_) hsound horderly
  · rw [hwaiting]
    exact fun _ => id
  · rw [hresults]
    exact fun _ => id

/-- When time passes, the queued calls begin first. -/
theorem begun_pause (h : r.Steady) (millis : Nat) :
    (r.pause millis).Steady ∧ (millis ≠ 0 → ∀ c ∈ r.queued, (r.pause millis).Begun c) ∧
      ∀ c, r.Begun c → (r.pause millis).Begun c := by
  unfold pause
  split
  next hzero => exact ⟨h, fun hne => absurd hzero hne, fun _ => id⟩
  next hne =>
    obtain ⟨hstarted, hall, hkept⟩ := begun_startQueued h
    obtain ⟨hsteady, hlater⟩ := steady_step hstarted (.advance millis) (by simp) (by simp)
    exact ⟨hsteady, fun _ c hc => hlater c (hall c hc), fun c hc => hlater c (hkept c hc)⟩

/-- The command that a record issues, when its turn has come. -/
def command (r : Replay) (vehicle : VehicleId) (line : String) : IssuedCommand :=
  ⟨r.session.next + r.queued.length, vehicle, line⟩

/-- A command joins the queue, and the queued calls begin if its vehicle is idle. -/
theorem issue_eq (r : Replay) (vehicle : VehicleId) (line : String) :
    r.issue vehicle line =
      let joined := { r with
        queued := r.queued ++ [r.command vehicle line]
        issued := r.issued ++ [r.command vehicle line] }
      if r.session.fleet.commands.isPending vehicle then joined else joined.startQueued := rfl

theorem Steady.joined (h : r.Steady) (vehicle : VehicleId) (line : String) :
    Steady { r with
      queued := r.queued ++ [r.command vehicle line]
      issued := r.issued ++ [r.command vehicle line] } :=
  ⟨h.sound, h.orderly, h.numbered.concat rfl⟩

theorem steady_act (h : r.Steady) (action : CaptureAction) : (r.act action).Steady := by
  cases action with
  | inbound source packet =>
      have hstep := (steady_step h (.packet source packet) (by simp) (by simp)).1
      exact ⟨hstep.sound, hstep.orderly, hstep.numbered⟩
  | command vehicle line =>
      rw [act, issue_eq]
      dsimp only
      split
      · exact h.joined vehicle line
      · exact (begun_startQueued (h.joined vehicle line)).1

/-- **Every record keeps the calls in order.** -/
theorem steady_apply (h : r.Steady) (record : CaptureRecord) : (r.apply record).Steady := by
  have hact := steady_act (begun_pause h (record.delay.getD 0).toNat).1 record.action
  exact ⟨hact.sound, hact.orderly, hact.numbered⟩

theorem Reached.steady {config : Config} {algorithms : List Algorithm}
    (hs : session.Reachable config algorithms) (h : Reached session r) : r.Steady := by
  induction h with
  | new => exact ⟨hs.sound, hs.orderly, trivial⟩
  | apply _ record ih => exact steady_apply ih record

/-- Whoever replays goes on at once when the vehicle is busy. -/
theorem not_begun_of_busy (h : r.Steady) {vehicle : VehicleId} (line : String)
    (hbusy : r.session.fleet.commands.isPending vehicle = true) :
    ¬ (r.issue vehicle line).Begun (r.command vehicle line) := by
  rw [issue_eq, if_pos hbusy, (h.joined vehicle line).begun_iff_made]
  intro hmade
  -- The number is none that is given yet.
  have hlt := hmade.lt_next h.orderly
  exact absurd hlt (Nat.not_lt.mpr (Nat.le_add_right _ _))

theorem begun_of_idle (h : r.Steady) {vehicle : VehicleId} (line : String)
    (hidle : r.session.fleet.commands.isPending vehicle = false) :
    (r.issue vehicle line).Begun (r.command vehicle line) := by
  rw [issue_eq, if_neg (by simp [hidle])]
  exact (begun_startQueued (h.joined vehicle line)).2.1 _ (by simp)

theorem issued_pause (r : Replay) (millis : Nat) : (r.pause millis).issued = r.issued := by
  unfold pause
  split <;> rfl

theorem issued_issue (r : Replay) (vehicle : VehicleId) (line : String) :
    (r.issue vehicle line).issued = r.issued ++ [r.command vehicle line] := by
  rw [issue_eq]
  dsimp only
  split <;> rfl

/-- A record with a command issues it when its time has come, and is counted. -/
theorem apply_of_command (r : Replay) {record : CaptureRecord} {vehicle : VehicleId} {line : String}
    (haction : record.action = .command vehicle line) :
    r.apply record =
      let issued := (r.pause (record.delay.getD 0).toNat).issue vehicle line
      { issued with records := issued.records + 1 } := by
  rw [apply, haction]
  rfl

section

variable {record : CaptureRecord} {vehicle : VehicleId} {line : String}

/-- A command for a busy vehicle has not begun when the next record is applied at once. -/
theorem not_begun_next (h : r.Steady) (haction : record.action = .command vehicle line)
    (hbusy : (r.pause (record.delay.getD 0).toNat).session.fleet.commands.isPending vehicle =
      true) :
    ¬ ((r.apply record).pause 0).Begun
      ((r.pause (record.delay.getD 0).toNat).command vehicle line) := by
  have hready : (r.pause (record.delay.getD 0).toNat).Steady := (begun_pause h _).1
  rw [show (r.apply record).pause 0 = r.apply record from if_pos rfl, r.apply_of_command haction]
  exact not_begun_of_busy hready line hbusy

/-- A command for an idle vehicle has begun by then, and so has any if time passes. -/
theorem begun_next (h : r.Steady) (haction : record.action = .command vehicle line) {millis : Nat}
    (hready : (r.pause (record.delay.getD 0).toNat).session.fleet.commands.isPending vehicle =
      false ∨ millis ≠ 0) :
    ((r.apply record).pause millis).Begun
      ((r.pause (record.delay.getD 0).toNat).command vehicle line) := by
  have hsteady : (r.pause (record.delay.getD 0).toNat).Steady := (begun_pause h _).1
  obtain ⟨-, hall, hkept⟩ := begun_pause (steady_apply h record) millis
  rw [r.apply_of_command haction] at hall hkept ⊢
  cases hpending :
      (r.pause (record.delay.getD 0).toNat).session.fleet.commands.isPending vehicle with
  | false => exact hkept _ (begun_of_idle hsteady line hpending)
  | true =>
      rw [hpending] at hready
      have hlater : millis ≠ 0 := hready.resolve_left Bool.noConfusion
      refine hall hlater _ ?_
      rw [issue_eq, if_pos hpending]
      simp

/-- **Whether a call has begun when the next record is applied.**  A command of a capture has begun
by then if its vehicle was idle when the command was issued, or if time passes before the next
record; otherwise it has not. -/
theorem begun_iff {config : Config} {algorithms : List Algorithm}
    (hs : session.Reachable config algorithms) (h : Reached session r)
    (haction : record.action = .command vehicle line) (following : CaptureRecord) :
    let ready := r.pause (record.delay.getD 0).toNat
    let next := (r.apply record).pause (following.delay.getD 0).toNat
    (r.apply record).issued = r.issued ++ [ready.command vehicle line] ∧
      (next.Begun (ready.command vehicle line) ↔
        ready.session.fleet.commands.isPending vehicle = false ∨
          (following.delay.getD 0).toNat ≠ 0) := by
  intro ready next
  constructor
  · rw [r.apply_of_command haction, ← r.issued_pause (record.delay.getD 0).toNat]
    exact ready.issued_issue vehicle line
  · refine ⟨fun hbegun => ?_, begun_next (h.steady hs) haction⟩
    by_contra hneither
    obtain ⟨hbusy, hzero⟩ := not_or.mp hneither
    rw [not_not] at hzero
    refine not_begun_next (h.steady hs) haction (by simpa using hbusy) ?_
    rw [← hzero]
    exact hbegun

end

end

end Replay

/-- Every command of a capture has begun when the next record is applied. -/
def BeginAtOnce (config : Config) (algorithms : List Algorithm) : Prop :=
  ∀ (session : Session) (r : Replay) (record following : CaptureRecord) (vehicle : VehicleId)
    (line : String),
    session.Reachable config algorithms → Replay.Reached session r →
    record.action = .command vehicle line →
    ((r.apply record).pause (following.delay.getD 0).toNat).Begun
      ((r.pause (record.delay.getD 0).toNat).command vehicle line)

/-- A record without a delay. -/
private def recorded (action : CaptureAction) : CaptureRecord := ⟨none, action⟩

/-- A vehicle reports its status and gets two commands in a row, and then a response arrives. -/
private def twoInARow : List CaptureRecord :=
  [recorded (.inbound (.wireless "a") (.atRest 1)),
    recorded (.command "01" "motoron"), recorded (.command "01" "land"),
    recorded (.inbound (.wireless "a") (.commandResponse ⟨1, 0, 1, [0x6F, 0x6B]⟩))]

/-- The standard configuration, with strict commands or without. -/
private def configured (strict : Bool) : Config :=
  { Config.standard with driver :=
      { Config.standard.driver with allowMultipleCommands := !strict } }

/-- How far a replay of the records has come. -/
private def played (strict : Bool) (records : List CaptureRecord) : Replay :=
  records.foldl Replay.apply (.new (.new (configured strict) []))

/-- A command for an idle vehicle has begun when the next record is applied. -/
theorem begun_first :
    let session := Session.new (configured false) []
    let r := played false (twoInARow.take 1)
    Replay.Reached session r ∧
      ((r.apply (recorded (.command "01" "motoron"))).pause 0).Begun ⟨0, "01", "motoron"⟩ := by
  intro session r
  have hreached : Replay.Reached session r := .apply .new _
  have hidle : r.session.fleet.commands.isPending "01" = false := by decide +kernel
  exact ⟨hreached, (Replay.begun_iff .new hreached rfl (recorded (.command "01" "land"))).2.mpr
    (.inl hidle)⟩

/-- **Two commands in a row.**  The second one begins too late, whether commands are strict or not:
it neither cancels the first nor is it refused, the response answers the first, and nobody answers
the second. -/
theorem not_beginAtOnce :
    (∀ strict, (played strict twoInARow).finish.reports.map (·.result) =
      [.ok "ok", .error (.timedOut "01" 30)]) ∧
      ∀ strict, ¬ BeginAtOnce (configured strict) [] := by
  refine ⟨by decide +kernel, fun strict hatonce => ?_⟩
  let r := played strict (twoInARow.take 2)
  let second := recorded (.command "01" "land")
  let following := recorded (.inbound (.wireless "a") (.commandResponse ⟨1, 0, 1, [0x6F, 0x6B]⟩))
  have hreached : Replay.Reached (.new (configured strict) []) r := .apply (.apply .new _) _
  have hbusy : (r.pause (second.delay.getD 0).toNat).session.fleet.commands.isPending "01" =
      true := by
    cases strict <;> decide +kernel
  exact Replay.not_begun_next (hreached.steady .new) rfl hbusy
    (hatonce _ r second following "01" "land" .new hreached rfl)

end FleetLink
