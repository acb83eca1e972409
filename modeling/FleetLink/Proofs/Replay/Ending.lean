import FleetLink.Proofs.Replay.Beginning
import FleetLink.Proofs.Session.Turns

/-!
# Every command of a capture ends

A replay issues the commands of a capture and goes on; what they come to is asked for when there are
no more records.  This module says that **every one of them has come to something by then**, in a
session of whatever history: a call that is queued begins, a call that waits has a time and is
waited for until that is over, and a call that ended keeps its result.

What carries this from record to record is kept in one place (`Tracked`).  A command is queued, or
its call has been made; the calls of the replay wait for a time only; and they have the numbers from
the session's next one on, in the order of the commands.  So what a command came to is found under
its number, and the reports stand in the order of the capture (`forall₂_reports`).

## Main Definitions

* `Session.Ended` — a call has a result
* `Session.Limited` — the calls of a replay wait for a time only
* `Replay.Tracked` — what is known of the commands that were issued

## Main Statements

* `Reached.reachable` — a replay goes through sessions that can be reached
* `tracked_apply` — what every record keeps
* `ended_outlast` — a call that is outlasted has ended
* `ended_finish` — every command of a capture has ended
* `forall₂_reports` — the reports, command by command
-/

namespace FleetLink

/-- The numbers of some commands are from the first one on. -/
theorem Numbered.le_of_mem {first : CallId} {queue : List IssuedCommand} {c : IssuedCommand}
    (h : Numbered first queue) (hc : c ∈ queue) : first ≤ c.id := by
  induction queue generalizing first with
  | nil => cases hc
  | cons head rest ih =>
      rcases List.mem_cons.mp hc with rfl | hrest
      · exact Nat.le_of_eq h.1.symm
      · exact Nat.le_of_succ_le (ih h.2 hrest)

/-- The commands are told by what they say and by the number that comes first. -/
theorem Numbered.eq_map {first : CallId} {queue : List IssuedCommand} (h : Numbered first queue) :
    queue = ((queue.map fun c => (c.vehicle, c.line)).zipIdx first).map
      fun c => ⟨c.2, c.1.1, c.1.2⟩ := by
  induction queue generalizing first with
  | nil => rfl
  | cons head rest ih =>
      rw [List.map_cons, List.zipIdx_cons, List.map_cons, ← ih h.2, ← h.1]

namespace Session

/-- A call has a result. -/
def Ended (s : Session) (id : CallId) : Prop := ∃ result, (id, result) ∈ s.results

/-- The calls that wait, of those with a number from the first one on, wait for a time only. -/
def Limited (s : Session) (first : CallId) : Prop :=
  ∀ w ∈ s.waiting, first ≤ w.1 → w.2.deadline.isSome = true

section

variable {s later : Session} {first : CallId}

/-! ## Calls that wait for a time -/

/-- When calls end, none is made, and none waits that did not before. -/
theorem waiting_settleCalls (s : Session) (calls : List (CallId × Call)) :
    (s.settleCalls calls).next = s.next ∧ (s.settleCalls calls).waiting ⊆ s.waiting ++ calls := by
  induction calls generalizing s with
  | nil => exact ⟨rfl, List.subset_append_left _ _⟩
  | cons own rest ih =>
      obtain ⟨id, call⟩ := own
      rw [settleCalls]
      cases s.fleet.finish? s.now call with
      | none =>
          obtain ⟨hnext, hwaiting⟩ := ih { s with waiting := s.waiting ++ [(id, call)] }
          refine ⟨hnext, List.Subset.trans hwaiting ?_⟩
          rw [List.append_assoc]
          exact List.Subset.refl _
      | some ended =>
          obtain ⟨hnext, hwaiting⟩ :=
            ih { s with fleet := ended.1, results := s.results ++ [(id, ended.2)] }
          refine ⟨hnext, List.Subset.trans hwaiting
            (List.append_subset.mpr ⟨List.subset_append_left _ _, ?_⟩)⟩
          exact List.Subset.trans (List.subset_cons_self _ _) (List.subset_append_right _ _)

theorem waiting_settle (s : Session) : s.settle.next = s.next ∧ s.settle.waiting ⊆ s.waiting :=
  waiting_settleCalls { s with waiting := [] } s.waiting

theorem Limited.of_subset (h : s.Limited first) (hwaiting : later.waiting ⊆ s.waiting) :
    later.Limited first := fun w hw => h w (hwaiting hw)

/-- A call that begins is bounded. -/
theorem Limited.begin (h : s.Limited first) (vehicle : VehicleId) (line : String) :
    (s.begin true vehicle line).Limited first := by
  unfold Session.begin
  rcases s.fleet.call s.now vehicle line with ⟨fleet, fault | slot⟩
  · exact h
  · intro w hw hfirst
    rcases List.mem_append.mp hw with hold | hnew
    · exact h w hold hfirst
    · rw [List.mem_singleton.mp hnew]
      rfl

theorem next_begin (s : Session) (vehicle : VehicleId) (line : String) :
    (s.begin true vehicle line).next = s.next + 1 := by
  unfold begin
  rcases s.fleet.call s.now vehicle line with ⟨fleet, fault | slot⟩ <;> rfl

/-- Some calls begin, one after the other, and are bounded. -/
theorem Limited.begins (h : s.Limited first) (queue : List IssuedCommand) :
    let later := queue.foldl (fun s c => s.begin true c.vehicle c.line) s
    later.Limited first ∧ later.next = s.next + queue.length := by
  induction queue generalizing s with
  | nil => exact ⟨h, rfl⟩
  | cons c rest ih =>
      obtain ⟨hlimited, hnext⟩ := ih (h.begin c.vehicle c.line)
      refine ⟨hlimited, hnext.trans ?_⟩
      rw [next_begin]
      exact Nat.add_right_comm s.next 1 rest.length

end

end Session

namespace Replay

variable {session : Session} {r : Replay} {config : Config} {algorithms : List Algorithm}

/-! ## Sessions that a replay goes through -/

theorem reachable_startQueued (h : r.session.Reachable config algorithms) :
    r.startQueued.session.Reachable config algorithms := by
  have hbegins := h.after (r.queued.map fun c => .event (.call true c.vehicle c.line))
  rw [Session.after, List.foldl_map] at hbegins
  exact hbegins.move .settle

theorem reachable_pause (h : r.session.Reachable config algorithms) (millis : Nat) :
    (r.pause millis).session.Reachable config algorithms := by
  unfold pause
  split
  · exact h
  · exact (reachable_startQueued h).run [.advance millis]

theorem reachable_act (h : r.session.Reachable config algorithms) (action : CaptureAction) :
    (r.act action).session.Reachable config algorithms := by
  cases action with
  | inbound source packet => exact h.run [.packet source packet]
  | command vehicle line =>
      rw [act, issue_eq]
      dsimp only
      split
      · exact h
      · exact reachable_startQueued h

/-- A replay goes through sessions that can be reached. -/
theorem Reached.reachable (hs : session.Reachable config algorithms) (h : Reached session r) :
    r.session.Reachable config algorithms := by
  induction h with
  | new => exact hs
  | apply _ record ih => exact reachable_act (reachable_pause ih _) record.action

/-! ## Commands that were issued -/

/-- What is known of the commands that a replay issued since it began in a session. -/
structure Tracked (session : Session) (r : Replay) : Prop where
  steady : r.Steady
  /-- A command is queued, or its call has been made. -/
  made : ∀ c ∈ r.issued, c ∈ r.queued ∨ r.session.Made c
  limited : r.session.Limited session.next
  /-- The numbers were given in the order of the commands, -/
  numbered : Numbered session.next r.issued
  /-- and the next command gets the next one. -/
  count : r.session.next + r.queued.length = session.next + r.issued.length

namespace Tracked

theorem new (hs : session.Reachable config algorithms) : Tracked session (.new session) where
  steady := Reached.new.steady hs
  made := fun _ => nofun
  limited w hw hfirst := by
    have hlt := hs.orderly.begun w.1 (List.mem_append_left _ (List.mem_map_of_mem hw))
    exact absurd hlt (Nat.not_lt.mpr hfirst)
  numbered := trivial
  count := rfl

/-- **When the queued calls begin,** no command is left whose call has not been made. -/
theorem startQueued (h : Tracked session r) :
    Tracked session r.startQueued ∧ ∀ c ∈ r.issued, r.startQueued.session.Made c := by
  obtain ⟨hsteady, hqueued, hkept⟩ := begun_startQueued h.steady
  have hmade : ∀ c ∈ r.issued, r.startQueued.session.Made c := by
    intro c hc
    refine hsteady.begun_iff_made.mp ?_
    rcases h.made c hc with hwaits | hmade
    · exact hqueued c hwaits
    · exact hkept c (h.steady.begun_iff_made.mpr hmade)
  obtain ⟨hlimited, hnext⟩ := h.limited.begins r.queued
  obtain ⟨hsame, hwaiting⟩ := Session.waiting_settle
    (r.queued.foldl (fun s c => s.begin true c.vehicle c.line) r.session)
  refine ⟨⟨hsteady, fun c hc => .inr (hmade c hc), hlimited.of_subset hwaiting, h.numbered, ?_⟩,
    hmade⟩
  exact (hsame.trans hnext).trans h.count

/-- An event that is not about calls. -/
theorem step (h : Tracked session r) (event : Event)
    (hcall : ∀ bounded vehicle line, event ≠ .call bounded vehicle line)
    (habandon : ∀ id, event ≠ .abandon id) :
    Tracked session { r with session := r.session.step event } := by
  obtain ⟨hsteady, hkept⟩ := steady_step h.steady event hcall habandon
  obtain ⟨hwaiting, -, hnext, -⟩ := r.session.commands_apply hcall habandon
  obtain ⟨hsame, hsettled⟩ := (r.session.apply event).waiting_settle
  refine ⟨hsteady, fun c hc => (h.made c hc).imp_right fun hmade => ?_,
    h.limited.of_subset (hwaiting ▸ hsettled), h.numbered, ?_⟩
  · exact hsteady.begun_iff_made.mp (hkept c (h.steady.begun_iff_made.mpr hmade))
  · show (r.session.apply event).settle.next + r.queued.length = _
    rw [hsame, hnext]
    exact h.count

theorem pause (h : Tracked session r) (millis : Nat) : Tracked session (r.pause millis) := by
  unfold Replay.pause
  split
  · exact h
  · exact h.startQueued.1.step (.advance millis) (by simp) (by simp)

/-- A command joins the queue, under the number that it will have. -/
theorem joined (h : Tracked session r) (vehicle : VehicleId) (line : String) :
    Tracked session { r with
      queued := r.queued ++ [r.command vehicle line]
      issued := r.issued ++ [r.command vehicle line] } where
  steady := h.steady.joined vehicle line
  made c hc := by
    rcases List.mem_append.mp hc with hold | hnew
    · exact (h.made c hold).imp_left (List.mem_append_left _)
    · exact .inl (List.mem_append_right _ hnew)
  limited := h.limited
  numbered := h.numbered.concat h.count
  count := by
    rw [List.length_append, List.length_append]
    exact congrArg (· + 1) h.count

/-- **Every record keeps track of the commands.** -/
theorem apply (h : Tracked session r) (record : CaptureRecord) :
    Tracked session (r.apply record) := by
  have hready := h.pause (record.delay.getD 0).toNat
  have hacted : Tracked session ((r.pause (record.delay.getD 0).toNat).act record.action) := by
    cases record.action with
    | inbound source packet =>
        have hstep := hready.step (.packet source packet) (by simp) (by simp)
        exact { hstep with
          steady := ⟨hstep.steady.sound, hstep.steady.orderly, hstep.steady.numbered⟩ }
    | command vehicle line =>
        rw [act, issue_eq]
        dsimp only
        split
        · exact hready.joined vehicle line
        · exact (hready.joined vehicle line).startQueued.1
  exact { hacted with
    steady := ⟨hacted.steady.sound, hacted.steady.orderly, hacted.steady.numbered⟩ }

end Tracked

theorem Reached.applies (h : Reached session r) (records : List CaptureRecord) :
    Reached session (records.foldl Replay.apply r) := by
  induction records generalizing r with
  | nil => exact h
  | cons record later ih => exact ih (h.apply record)

theorem Reached.tracked (hs : session.Reachable config algorithms) (h : Reached session r) :
    Tracked session r := by
  induction h with
  | new => exact .new hs
  | apply _ record ih => exact ih.apply record

end Replay

/-! ## Waiting for calls -/

namespace Session

variable {s : Session} {config : Config} {algorithms : List Algorithm}

theorem Reachable.outlast (hs : s.Reachable config algorithms) (call : Call) :
    (Replay.outlast s call).Reachable config algorithms := by
  unfold Replay.outlast
  split
  · exact hs
  · exact hs.run [.advance _]

theorem Ended.mono {id : CallId} (h : s.Ended id) {later : Session}
    (hresults : s.results ⊆ later.results) : later.Ended id :=
  h.imp fun _ hresult => hresults hresult

/-- While a call is outlasted, results are kept, and the calls that wait go on waiting or end. -/
theorem Reachable.kept_outlast (hs : s.Reachable config algorithms) (call : Call) :
    s.results ⊆ (Replay.outlast s call).results ∧ ∀ w ∈ s.waiting,
      w ∈ (Replay.outlast s call).waiting ∨ (Replay.outlast s call).Ended w.1 := by
  unfold Replay.outlast
  split
  · exact ⟨fun _ => id, fun _ => .inl⟩
  next time _ =>
    have hlater : (s.apply (.advance (time - s.now))).Reachable config algorithms :=
      hs.move (.event (.advance (time - s.now)))
    obtain ⟨-, -, hkept, hresults, -⟩ := orderly_settle hlater.sound.coherent hlater.orderly
    exact ⟨hresults, hkept⟩

/-- **A call that is outlasted has ended.** -/
theorem Reachable.ended_outlast (hs : s.Reachable config algorithms) {w : CallId × Call}
    (hw : w ∈ s.waiting) (hlimited : w.2.deadline.isSome = true) :
    (Replay.outlast s w.2).Ended w.1 := by
  refine ((hs.kept_outlast w.2).2 w hw).resolve_left fun hwaits => ?_
  obtain ⟨time, htime⟩ := Option.isSome_iff_exists.mp hlimited
  simp only [Replay.outlast, htime] at hwaits
  have hlater : (s.apply (.advance (time - s.now))).Reachable config algorithms :=
    hs.move (.event (.advance (time - s.now)))
  have hquiet := (turns_eq_settle hlater.sound.coherent hlater.orderly).2
  have hleft := ((Fleet.finish?_eq_none_iff _ _ _).mp (hquiet w hwaits)).2
  -- The clock is at the end of the call's time, or behind it.
  have hnow : (s.apply (.advance (time - s.now))).settle.now = s.now + (time - s.now) :=
    now_settleCalls { s.apply (.advance (time - s.now)) with waiting := [] } _
  rw [htime, Option.any_some, hnow, decide_eq_false_iff_not] at hleft
  omega

/-- Calls are outlasted one after the other, and then all of them have ended that wait for a time
only. -/
theorem Reachable.ended_outlasts (hs : s.Reachable config algorithms)
    {calls : List (CallId × Call)} {id : CallId}
    (h : s.Ended id ∨ ∃ call, (id, call) ∈ s.waiting ∧ (id, call) ∈ calls ∧
      call.deadline.isSome = true) :
    (calls.foldl (fun s w => Replay.outlast s w.2) s).Ended id := by
  induction calls generalizing s with
  | nil => exact h.resolve_right fun ⟨_, _, hnone, _⟩ => List.not_mem_nil hnone
  | cons first rest ih =>
      obtain ⟨hresults, hkept⟩ := hs.kept_outlast first.2
      refine ih (hs.outlast first.2) ?_
      rcases h with hended | ⟨call, hwaits, hmem, hlimited⟩
      · exact .inl (hended.mono hresults)
      · rcases List.mem_cons.mp hmem with rfl | hlater
        · exact .inl (hs.ended_outlast hwaits hlimited)
        · exact (hkept _ hwaits).symm.imp_right fun hstill => ⟨call, hstill, hlater, hlimited⟩

end Session

namespace Replay

variable {session : Session} {r : Replay} {config : Config} {algorithms : List Algorithm}

/-- **Every command of a capture has ended** when its calls were waited for. -/
theorem ended_finish (hs : session.Reachable config algorithms) (h : Reached session r) :
    ∀ c ∈ r.issued, r.finish.session.Ended c.id := by
  intro c hc
  obtain ⟨hstarted, hmade⟩ := (h.tracked hs).startQueued
  have hreach : r.startQueued.session.Reachable config algorithms :=
    reachable_startQueued (h.reachable hs)
  refine hreach.ended_outlasts ((hmade c hc).imp_right fun ⟨call, hcall, _⟩ => ?_)
  exact ⟨call, hcall, hcall, hstarted.limited _ hcall (hstarted.numbered.le_of_mem hc)⟩

/-- **The reports,** command by command.  Each tells of its command, and what its call came to. -/
theorem forall₂_reports (hended : ∀ c ∈ r.issued, r.session.Ended c.id) :
    List.Forall₂ (fun c report => report.vehicle = c.vehicle ∧ report.line = c.line ∧
      (c.id, report.result) ∈ r.session.results) r.issued r.reports := by
  unfold reports
  generalize r.issued = issued at hended ⊢
  induction issued with
  | nil => exact .nil
  | cons c rest ih =>
      obtain ⟨hown, hrest⟩ := List.forall_mem_cons.mp hended
      obtain ⟨result, hresult⟩ := hown
      have hfound : (r.session.results.find? (·.1 = c.id)).isSome = true := by
        rw [List.find?_isSome]
        exact ⟨_, hresult, decide_eq_true rfl⟩
      obtain ⟨found, hfind⟩ := Option.isSome_iff_exists.mp hfound
      have hid : found.1 = c.id := by simpa using List.find?_some hfind
      rw [List.filterMap_cons_some (b := ⟨c.vehicle, c.line, found.2⟩) (by rw [hfind]; rfl)]
      refine .cons ⟨rfl, rfl, ?_⟩ (ih hrest)
      rw [← hid]
      exact List.mem_of_find?_eq_some hfind

end Replay

end FleetLink
