import Mathlib.Data.List.Perm.Subperm
import FleetLink.Proofs.Session.Moves

/-!
# Calls that wait

A session keeps the calls that wait, and the command table the slots that are held.  They are two
views of one thing: **every call that waits holds a slot of its own, and no slot is held by anybody
else** (`Orderly`).  So no slot outlives its call, whichever way the call ends.

Between moves a slot may be resolved and its call still wait.  Once every call that can end
has ended, the calls that wait are exactly those whose slot is the pending command of their
vehicle (`orderly_settle`).

## Main Statements

* `CommandTable.vehicleOf?` — for whom a slot is held, and what the operations do to that
* `Session.Orderly` — the calls that wait and the slots that are held are the same
* `orderly_move`, `Reachable.orderly` — in every session
* `orderly_settle` — which calls wait after all have ended that can; the others have a result
-/

namespace FleetLink

namespace CommandTable

/-- The vehicle that a slot was opened for, as long as somebody holds the slot. -/
def vehicleOf? (t : CommandTable) (slot : SlotId) : Option VehicleId :=
  t.slots[slot]?.map (·.vehicle)

variable {t : CommandTable}

theorem vehicleOf?_withdraw (t : CommandTable) (vehicle : VehicleId) (outcome : Outcome)
    (slot : SlotId) : (t.withdraw vehicle outcome).vehicleOf? slot = t.vehicleOf? slot := by
  unfold vehicleOf?
  rw [slots_withdraw]
  split
  · rw [Option.map_map]
    rfl
  · rfl

theorem vehicleOf?_release (t : CommandTable) (slot other : SlotId) :
    (t.release slot).vehicleOf? other = if slot = other then none else t.vehicleOf? other := by
  unfold vehicleOf?
  rw [slots_release]
  split <;> rfl

theorem Coherent.vehicleOf?_begin (h : Coherent t) {now : Nat} {strict : Bool}
    {vehicle : VehicleId} {slot : SlotId} {begun : CommandTable}
    (hbegin : t.begin now strict vehicle = some (slot, begun)) (other : SlotId) :
    begun.vehicleOf? other = if t.next = other then some vehicle else t.vehicleOf? other := by
  obtain ⟨-, -, -, hslots⟩ := h.of_begin hbegin
  unfold vehicleOf?
  rw [hslots]
  split
  · rfl
  · split
    -- The command that makes room is cancelled, and its slot is still held.
    next hentry =>
      rw [(h.current_iff vehicle other).mp hentry]
      rfl
    next => rfl

/-- Nobody holds a slot whose number is still to be given. -/
theorem Coherent.vehicleOf?_next (h : Coherent t) : t.vehicleOf? t.next = none := by
  unfold vehicleOf?
  cases hslot : t.slots[t.next]? with
  | none => rfl
  | some held => exact absurd (h.lt_next t.next held hslot) (Nat.lt_irrefl _)

/-- A slot that is held and was told nothing is the pending command of its vehicle. -/
theorem Coherent.current?_of_wait? (h : Coherent t) {vehicle : VehicleId} {slot : SlotId}
    (hheld : t.vehicleOf? slot = some vehicle) (hwait : t.wait? slot = none) :
    t.current? vehicle = some slot := by
  rw [h.current_iff]
  rw [h.wait?_eq_outcome?, outcome?] at hwait
  obtain ⟨⟨own, outcome⟩, hslot, rfl⟩ := Option.map_eq_some_iff.mp hheld
  rw [hslot] at hwait ⊢
  obtain rfl : outcome = none := hwait
  rfl

end CommandTable

/-- **How a call begins**: it takes the next slot for its vehicle, or it ends at once and no slot is
held for it. -/
theorem Fleet.call_cases {f : Fleet} (h : f.commands.Coherent) (now : Nat) (vehicle : VehicleId)
    (line : String) :
    (∃ g fault, f.call now vehicle line = (g, .error fault) ∧
      ∀ slot, g.commands.vehicleOf? slot = f.commands.vehicleOf? slot) ∨
    ∃ g, f.call now vehicle line = (g, .ok f.commands.next) ∧
      ∀ slot, g.commands.vehicleOf? slot =
        if f.commands.next = slot then some vehicle else f.commands.vehicleOf? slot := by
  unfold call
  split
  · cases f.preferred? vehicle with
    | none => exact .inl ⟨f, _, rfl, fun _ => rfl⟩
    | some destination =>
        cases hbegin : f.commands.begin now f.settings.strictCommands vehicle with
        | none => exact .inl ⟨_, _, rfl, fun _ => rfl⟩
        | some begun =>
            obtain ⟨slot, commands⟩ := begun
            have hheld := h.vehicleOf?_begin hbegin
            obtain ⟨rfl, -⟩ := h.of_begin hbegin
            dsimp only
            cases f.outbox.send? destination (CommandLine.packet line) with
            | some outbox => exact .inr ⟨_, rfl, hheld⟩
            | none =>
                refine .inl ⟨_, _, rfl, fun other => ?_⟩
                -- The slot that was taken is let go, and nobody held it before.
                show (commands.release f.commands.next).vehicleOf? other = _
                rw [CommandTable.vehicleOf?_release, hheld]
                split
                next hnew => rw [← hnew, h.vehicleOf?_next]
                next => rfl
  · exact .inl ⟨f, _, rfl, fun _ => rfl⟩

namespace Session

/-- When these calls wait, the calls of a session are in order: no number is given twice, and a slot
is held exactly if it is the own slot of one of them. -/
structure Orderly (s : Session) (calls : List (CallId × Call)) : Prop where
  begun : ∀ id ∈ calls.map (·.1) ++ s.results.map (·.1), id < s.next
  once : (calls.map (·.1) ++ s.results.map (·.1)).Nodup
  own : (calls.map (·.2.slot)).Nodup
  held : ∀ slot vehicle, s.fleet.commands.vehicleOf? slot = some vehicle ↔
    ∃ w ∈ calls, w.2.slot = slot ∧ w.2.vehicle = vehicle

/-- What a call waits for is the pending command of its vehicle. -/
def Pending (s : Session) (call : Call) : Prop :=
  s.fleet.commands.current? call.vehicle = some call.slot

section

variable {s : Session} {calls : List (CallId × Call)}

/-- No two calls hold one slot, so the other calls can be told by theirs. -/
theorem Orderly.mem_others_iff (h : s.Orderly calls) {front rest : List (CallId × Call)}
    {gone : CallId × Call} (hsplit : calls = front ++ gone :: rest) {w : CallId × Call} :
    w ∈ front ++ rest ↔ w ∈ calls ∧ gone.2.slot ≠ w.2.slot := by
  have hown := h.own
  rw [hsplit, List.map_append, List.map_cons, List.nodup_middle, List.nodup_cons,
    ← List.map_append] at hown
  rw [hsplit, List.mem_append, List.mem_append, List.mem_cons]
  constructor
  · intro hw
    refine ⟨hw.imp_right .inr, fun heq => hown.1 (heq ▸ List.mem_map_of_mem ?_)⟩
    exact List.mem_append.mpr hw
  · rintro ⟨hw | rfl | hw, hne⟩
    · exact .inl hw
    · exact absurd rfl hne
    · exact .inr hw

/-- The numbers of the calls that wait and of those that ended, when one call ends or is given up:
they are the same in another order, or there is one less. -/
theorem numbers_subperm {front rest : List (CallId × Call)} {gone : CallId × Call}
    {before after : List CallId} (hresults : after = before ∨ after = before ++ [gone.1]) :
    ((front ++ rest).map (·.1) ++ after).Subperm
      ((front ++ gone :: rest).map (·.1) ++ before) := by
  have hfront : ((front ++ gone :: rest).map (·.1)).Perm
      (gone.1 :: (front ++ rest).map (·.1)) := by
    simp
  refine List.Subperm.trans ?_ (hfront.append_right before).symm.subperm
  rcases hresults with rfl | rfl
  · exact (List.sublist_cons_self _ _).subperm
  · rw [← List.append_assoc]
    exact (List.perm_append_singleton _ _).subperm

/-- A call ends, one way or another, and lets its slot go. -/
theorem Orderly.release (h : s.Orderly calls) {front rest : List (CallId × Call)}
    {gone : CallId × Call} (hsplit : calls = front ++ gone :: rest) {left : Session}
    (hcommands : left.fleet.commands = s.fleet.commands.release gone.2.slot)
    (hnext : left.next = s.next)
    (hresults : left.results.map (·.1) = s.results.map (·.1) ∨
      left.results.map (·.1) = s.results.map (·.1) ++ [gone.1]) :
    left.Orderly (front ++ rest) := by
  have hnumbers : ((front ++ rest).map (·.1) ++ left.results.map (·.1)).Subperm
      (calls.map (·.1) ++ s.results.map (·.1)) := by
    rw [hsplit]
    exact numbers_subperm hresults
  refine ⟨fun id hid => ?_, ?_, ?_, fun slot vehicle => ?_⟩
  · rw [hnext]
    exact h.begun id (hnumbers.subset hid)
  · obtain ⟨sub, hperm, hsub⟩ := hnumbers
    exact hperm.nodup_iff.mp (h.once.sublist hsub)
  · have hsub : (front ++ rest).Sublist calls := by
      rw [hsplit]
      exact (List.sublist_cons_self gone rest).append_left front
    exact h.own.sublist (hsub.map _)
  · rw [hcommands, CommandTable.vehicleOf?_release, Option.ite_none_left_eq_some, h.held]
    simp only [h.mem_others_iff hsplit]
    constructor
    · rintro ⟨hslot, w, hw, rfl, hvehicle⟩
      exact ⟨w, ⟨hw, hslot⟩, rfl, hvehicle⟩
    · rintro ⟨w, ⟨hw, hslot⟩, rfl, hvehicle⟩
      exact ⟨hslot, w, hw, rfl, hvehicle⟩

/-- Nothing happens to the calls and for whom slots are held. -/
theorem Orderly.of_same (h : s.Orderly calls) {left : Session} (hnext : left.next = s.next)
    (hresults : left.results = s.results)
    (hheld : ∀ slot, left.fleet.commands.vehicleOf? slot = s.fleet.commands.vehicleOf? slot) :
    left.Orderly calls := by
  refine ⟨?_, ?_, h.own, fun slot vehicle => ?_⟩
  · rw [hnext, hresults]
    exact h.begun
  · rw [hresults]
    exact h.once
  · rw [hheld, h.held]

/-! ## Calls that end -/

/-- One call: it waits on, for the pending command of its vehicle, or it ends and lets its
slot go. -/
theorem finish?_cases (hcoherent : s.fleet.commands.Coherent) {call : Call}
    (hheld : s.fleet.commands.vehicleOf? call.slot = some call.vehicle) :
    (s.fleet.finish? s.now call = none ∧ s.Pending call) ∨
    ∃ fleet result, s.fleet.finish? s.now call = some (fleet, result) ∧
      fleet.commands = s.fleet.commands.release call.slot := by
  cases hfinish : s.fleet.finish? s.now call with
  | some ended =>
      obtain ⟨fleet, result⟩ := ended
      have hlinks := s.fleet.links_finish? s.now call hfinish
      exact .inr ⟨fleet, result, rfl, congrArg (·.commands) hlinks⟩
  | none =>
      refine .inl ⟨rfl, hcoherent.current?_of_wait? hheld ?_⟩
      unfold Fleet.finish? at hfinish
      cases hwait : s.fleet.commands.wait? call.slot with
      | none => rfl
      | some outcome =>
          rw [hwait] at hfinish
          cases hfinish

/-- **Ending every call that can end**, of some that are looked at in turn: the calls stay in order,
those that wait on wait for the pending command of their vehicle, and the others have a result. -/
theorem orderly_settleCalls (hcoherent : s.fleet.commands.Coherent)
    (h : s.Orderly (s.waiting ++ calls)) (hpending : ∀ w ∈ s.waiting, s.Pending w.2) :
    let left := s.settleCalls calls
    left.Orderly left.waiting ∧ (∀ w ∈ left.waiting, left.Pending w.2) ∧
      (∀ w ∈ s.waiting ++ calls, w ∈ left.waiting ∨ ∃ result, (w.1, result) ∈ left.results) ∧
      s.results ⊆ left.results ∧ left.next = s.next := by
  induction calls generalizing s with
  | nil =>
      rw [List.append_nil] at h ⊢
      exact ⟨h, hpending, fun w hw => .inl hw, fun _ => id, rfl⟩
  | cons first rest ih =>
      obtain ⟨id, call⟩ := first
      have hheld : s.fleet.commands.vehicleOf? call.slot = some call.vehicle :=
        (h.held _ _).mpr ⟨(id, call), by simp, rfl, rfl⟩
      rw [settleCalls]
      rcases finish?_cases hcoherent hheld with ⟨hfinish, hcall⟩ | ⟨fleet, result, hfinish, hleft⟩
      · rw [hfinish]
        dsimp only
        have hassoc : s.waiting ++ (id, call) :: rest = s.waiting ++ [(id, call)] ++ rest := by simp
        rw [hassoc] at h ⊢
        refine ih hcoherent (h.of_same rfl rfl fun _ => rfl) fun w hw => ?_
        rcases List.mem_append.mp hw with hw | hw
        · exact hpending w hw
        · obtain rfl := List.mem_singleton.mp hw
          exact hcall
      · rw [hfinish]
        dsimp only
        have hended : Orderly { s with fleet := fleet, results := s.results ++ [(id, result)] }
            (s.waiting ++ rest) :=
          h.release rfl hleft rfl (.inr (by simp))
        have hstill : ∀ w ∈ s.waiting,
            Pending { s with fleet := fleet, results := s.results ++ [(id, result)] } w.2 := by
          intro w hw
          show fleet.commands.current? w.2.vehicle = some w.2.slot
          rw [hleft, hcoherent.current?_release, if_neg]
          · exact hpending w hw
          · rw [hpending w hw, Option.some.injEq]
            have hothers := List.mem_append_left rest hw
            exact ((h.mem_others_iff rfl).mp hothers).2.symm
        have hnow : fleet.commands.Coherent := by
          rw [hleft]
          exact hcoherent.release call.slot
        obtain ⟨horderly, hpend, hkept, hresults, hnext⟩ := ih hnow hended hstill
        refine ⟨horderly, hpend, fun w hw => ?_, ?_, hnext⟩
        · rw [List.mem_append, List.mem_cons] at hw
          rcases hw with hw | rfl | hw
          · exact hkept w (List.mem_append_left _ hw)
          · exact .inr ⟨result, hresults (by simp)⟩
          · exact hkept w (List.mem_append_right _ hw)
        · exact fun r hr => hresults (List.mem_append_left _ hr)

theorem orderly_settle (hcoherent : s.fleet.commands.Coherent) (h : s.Orderly s.waiting) :
    s.settle.Orderly s.settle.waiting ∧ (∀ w ∈ s.settle.waiting, s.settle.Pending w.2) ∧
      (∀ w ∈ s.waiting, w ∈ s.settle.waiting ∨ ∃ result, (w.1, result) ∈ s.settle.results) ∧
      s.results ⊆ s.settle.results ∧ s.settle.next = s.next :=
  orderly_settleCalls (s := { s with waiting := [] }) hcoherent
    (h.of_same rfl rfl fun _ => rfl) (by simp)

/-! ## Calls that begin -/

theorem fleet_begin (s : Session) (bounded : Bool) (vehicle : VehicleId) (line : String) :
    (s.begin bounded vehicle line).fleet = (s.fleet.call s.now vehicle line).1 := by
  unfold begin
  rcases s.fleet.call s.now vehicle line with ⟨fleet, fault | slot⟩ <;> rfl

/-- **A call begins** under the next number, and waits or has ended at once. -/
theorem begin_cases (hcoherent : s.fleet.commands.Coherent) (bounded : Bool)
    (vehicle : VehicleId) (line : String) :
    (s.begin bounded vehicle line).next = s.next + 1 ∧
    ((∃ fault, (s.begin bounded vehicle line).results = s.results ++ [(s.next, .error fault)] ∧
        (s.begin bounded vehicle line).waiting = s.waiting ∧
        ∀ slot, (s.begin bounded vehicle line).fleet.commands.vehicleOf? slot =
          s.fleet.commands.vehicleOf? slot) ∨
      (s.begin bounded vehicle line).results = s.results ∧
        (s.begin bounded vehicle line).waiting =
          s.waiting ++ [(s.next, ⟨vehicle, s.fleet.commands.next,
            if bounded then some (s.fleet.deadline s.now) else none⟩)] ∧
        ∀ slot, (s.begin bounded vehicle line).fleet.commands.vehicleOf? slot =
          if s.fleet.commands.next = slot then some vehicle
          else s.fleet.commands.vehicleOf? slot) := by
  unfold begin
  rcases Fleet.call_cases hcoherent s.now vehicle line with
    ⟨g, fault, hcall, hheld⟩ | ⟨g, hcall, hheld⟩
  · rw [hcall]
    exact ⟨rfl, .inl ⟨fault, rfl, rfl, hheld⟩⟩
  · rw [hcall]
    exact ⟨rfl, .inr ⟨rfl, rfl, hheld⟩⟩

/-- The next number is given to a call. -/
theorem Orderly.numbers_succ (h : s.Orderly calls) {ids : List CallId}
    (hperm : ids.Perm (s.next :: (calls.map (·.1) ++ s.results.map (·.1)))) :
    (∀ id ∈ ids, id < s.next + 1) ∧ ids.Nodup := by
  have hnew : s.next ∉ calls.map (·.1) ++ s.results.map (·.1) :=
    fun hmem => Nat.lt_irrefl _ (h.begun _ hmem)
  refine ⟨fun id hid => ?_, hperm.nodup_iff.mpr (List.nodup_cons.mpr ⟨hnew, h.once⟩)⟩
  rcases List.mem_cons.mp (hperm.mem_iff.mp hid) with rfl | hold
  · exact Nat.lt_succ_self _
  · exact Nat.lt_succ_of_lt (h.begun id hold)

/-- A call ends at once. -/
theorem Orderly.refuse (h : s.Orderly calls) {left : Session} {result : CallResult}
    (hnext : left.next = s.next + 1) (hresults : left.results = s.results ++ [(s.next, result)])
    (hheld : ∀ slot, left.fleet.commands.vehicleOf? slot = s.fleet.commands.vehicleOf? slot) :
    left.Orderly calls := by
  have hperm : (calls.map (·.1) ++ left.results.map (·.1)).Perm
      (s.next :: (calls.map (·.1) ++ s.results.map (·.1))) := by
    rw [hresults, List.map_append, ← List.append_assoc]
    exact List.perm_append_singleton _ _
  obtain ⟨hbegun, honce⟩ := h.numbers_succ hperm
  refine ⟨hnext ▸ hbegun, honce, h.own, fun slot vehicle => ?_⟩
  rw [hheld, h.held]

/-- A call waits, for a slot that nobody held before. -/
theorem Orderly.enlist (h : s.Orderly calls) {left : Session} {call : Call}
    (hnext : left.next = s.next + 1) (hresults : left.results = s.results)
    (hfree : s.fleet.commands.vehicleOf? call.slot = none)
    (hheld : ∀ slot, left.fleet.commands.vehicleOf? slot =
      if call.slot = slot then some call.vehicle else s.fleet.commands.vehicleOf? slot) :
    left.Orderly (calls ++ [(s.next, call)]) := by
  have hperm : ((calls ++ [(s.next, call)]).map (·.1) ++ left.results.map (·.1)).Perm
      (s.next :: (calls.map (·.1) ++ s.results.map (·.1))) := by
    rw [hresults]
    simp
  obtain ⟨hbegun, honce⟩ := h.numbers_succ hperm
  have hunlike : ∀ w ∈ calls, call.slot ≠ w.2.slot := by
    intro w hw heq
    rw [heq, (h.held _ _).mpr ⟨w, hw, rfl, rfl⟩] at hfree
    cases hfree
  refine ⟨hnext ▸ hbegun, honce, ?_, fun slot vehicle => ?_⟩
  · rw [List.map_append, List.nodup_append]
    refine ⟨h.own, List.nodup_singleton _, fun slot hslot new hnew => ?_⟩
    obtain ⟨w, hw, rfl⟩ := List.mem_map.mp hslot
    obtain rfl := List.mem_singleton.mp hnew
    exact (hunlike w hw).symm
  · simp only [hheld, List.mem_append, List.mem_singleton, or_and_right, exists_or,
      exists_eq_left]
    split
    next hslot =>
      -- The slot is the new call's, and no other's.
      have hothers : ¬ ∃ w ∈ calls, w.2.slot = slot ∧ w.2.vehicle = vehicle := by
        rintro ⟨w, hw, hown, -⟩
        exact hunlike w hw (hslot.trans hown.symm)
      simp [hothers, hslot]
    next hslot => simp [h.held, hslot]

/-- A call that begins takes a number that was not given, and a slot that nobody holds. -/
theorem orderly_begin (hcoherent : s.fleet.commands.Coherent) (h : s.Orderly s.waiting)
    (bounded : Bool) (vehicle : VehicleId) (line : String) :
    (s.begin bounded vehicle line).Orderly (s.begin bounded vehicle line).waiting := by
  obtain ⟨hnext, ⟨fault, hresults, hwaiting, hheld⟩ | ⟨hresults, hwaiting, hheld⟩⟩ :=
    begin_cases hcoherent bounded vehicle line
  · rw [hwaiting]
    exact h.refuse hnext hresults hheld
  · rw [hwaiting]
    exact h.enlist hnext hresults hcoherent.vehicleOf?_next hheld

/-! ## Moves -/

/-- Numbers are given once, so the calls but the one with a number are all but one call. -/
theorem filter_others {front rest : List (CallId × Call)} {gone : CallId × Call}
    (honce : ((front ++ gone :: rest).map (·.1)).Nodup) :
    (front ++ gone :: rest).filter (·.1 ≠ gone.1) = front ++ rest := by
  rw [List.map_append, List.map_cons, List.nodup_middle, List.nodup_cons,
    ← List.map_append] at honce
  have hkeep : ∀ w ∈ front ++ rest, decide (w.1 ≠ gone.1) = true := fun w hw =>
    decide_eq_true fun heq => honce.1 (heq ▸ List.mem_map_of_mem hw)
  rw [List.filter_append, List.filter_cons_of_neg (by simp), ← List.filter_append,
    List.filter_eq_self.mpr hkeep]

/-- And the one with the number is that one. -/
theorem find?_gone {front rest : List (CallId × Call)} {gone : CallId × Call}
    (honce : ((front ++ gone :: rest).map (·.1)).Nodup) :
    (front ++ gone :: rest).find? (·.1 = gone.1) = some gone := by
  rw [List.map_append, List.map_cons, List.nodup_middle, List.nodup_cons,
    ← List.map_append] at honce
  have hbefore : front.find? (·.1 = gone.1) = none := by
    rw [List.find?_eq_none]
    intro w hw heq
    have hnumber : w.1 = gone.1 := of_decide_eq_true heq
    exact honce.1 (hnumber ▸ List.mem_map_of_mem (List.mem_append_left rest hw))
  rw [List.find?_append, hbefore, Option.none_or, List.find?_cons_of_pos (by simp)]

/-- The call with a number, and the others. -/
theorem Orderly.split_of_find? (h : s.Orderly s.waiting) {id : CallId} {gone : CallId × Call}
    (hfind : s.waiting.find? (·.1 = id) = some gone) :
    gone.1 = id ∧ ∃ front rest, s.waiting = front ++ gone :: rest ∧
      s.waiting.filter (·.1 ≠ id) = front ++ rest := by
  obtain ⟨hgone, front, rest, hsplit, -⟩ := List.find?_eq_some_iff_append.mp hfind
  obtain rfl : gone.1 = id := by simpa using hgone
  have honce := (List.nodup_append.mp h.once).1
  rw [hsplit] at honce ⊢
  exact ⟨rfl, front, rest, rfl, filter_others honce⟩

/-- Whoever waits for a call gives it up. -/
theorem orderly_abandon (h : s.Orderly s.waiting) (id : CallId) :
    (s.abandon id).Orderly (s.abandon id).waiting := by
  unfold abandon
  cases hfind : s.waiting.find? (·.1 = id) with
  | none => exact h
  | some gone =>
      obtain ⟨-, front, rest, hsplit, hothers⟩ := h.split_of_find? hfind
      dsimp only
      rw [hothers]
      exact h.release hsplit rfl rfl (.inl rfl)

/-- All other events leave the calls alone, and end a command at most. -/
theorem commands_apply (s : Session) {event : Event}
    (hcall : ∀ bounded vehicle line, event ≠ .call bounded vehicle line)
    (habandon : ∀ id, event ≠ .abandon id) :
    (s.apply event).waiting = s.waiting ∧ (s.apply event).results = s.results ∧
      (s.apply event).next = s.next ∧
      ((s.apply event).fleet.commands = s.fleet.commands ∨
        ∃ vehicle outcome, (s.apply event).fleet.commands =
          s.fleet.commands.withdraw vehicle outcome) := by
  have hdelivery : ∀ source body, s.fleet.commands.run (s.fleet.delivery source body) =
      s.fleet.commands ∨ ∃ vehicle outcome,
        s.fleet.commands.run (s.fleet.delivery source body) =
          s.fleet.commands.withdraw vehicle outcome := by
    intro source body
    unfold Fleet.delivery
    cases s.fleet.book.owner? source with
    | none => exact .inl rfl
    | some vehicle => exact .inr ⟨vehicle, _, CommandTable.fulfill_snd _ _ _⟩
  cases event with
  | call bounded vehicle line => exact absurd rfl (hcall bounded vehicle line)
  | abandon id => exact absurd rfl (habandon id)
  | packet source packet =>
      refine ⟨rfl, rfl, rfl, ?_⟩
      have hreceive := congrArg (·.commands) (s.fleet.links_receive s.now source packet)
      show (s.fleet.receive s.now source packet).1.links.commands = _ ∨ ∃ vehicle outcome,
        (s.fleet.receive s.now source packet).1.links.commands = _
      rw [hreceive]
      cases packet.arrival? s.now source with
      | none => exact .inl rfl
      | some x =>
          dsimp only [Option.elim_some]
          unfold Fleet.deliveries
          split
          · exact hdelivery _ _
          · exact .inl rfl
  | response source body =>
      have hdeliver := congrArg (·.commands) (s.fleet.links_deliver source body)
      refine ⟨rfl, rfl, rfl, ?_⟩
      show (s.fleet.deliver source body).2.links.commands = _ ∨ ∃ vehicle outcome,
        (s.fleet.deliver source body).2.links.commands = _
      rw [hdeliver]
      exact hdelivery source body
  | fulfill vehicle text =>
      exact ⟨rfl, rfl, rfl, .inr ⟨vehicle, _, CommandTable.fulfill_snd _ _ _⟩⟩
  | cancel vehicle | forget vehicle =>
      exact ⟨rfl, rfl, rfl, .inr ⟨vehicle, _, CommandTable.cancel_snd _ _⟩⟩
  | identify index =>
      exact ⟨rfl, rfl, rfl, .inl (congrArg (·.commands) (s.fleet.links_identify index))⟩
  | meet index =>
      exact ⟨rfl, rfl, rfl, .inl (congrArg (·.commands) (s.fleet.links_meet index))⟩
  | register | unregister | setLink | subscribe | drain | advance =>
      exact ⟨rfl, rfl, rfl, .inl rfl⟩

/-- **The calls are in order** after every move. -/
theorem orderly_move (hcoherent : s.fleet.commands.Coherent) (h : s.Orderly s.waiting) (m : Move) :
    (s.move m).Orderly (s.move m).waiting := by
  cases m with
  | settle => exact (orderly_settle hcoherent h).1
  | event event =>
      by_cases hcall : ∃ bounded vehicle line, event = .call bounded vehicle line
      · obtain ⟨bounded, vehicle, line, rfl⟩ := hcall
        exact orderly_begin hcoherent h bounded vehicle line
      · by_cases habandon : ∃ id, event = .abandon id
        · obtain ⟨id, rfl⟩ := habandon
          exact orderly_abandon h id
        · obtain ⟨hwaiting, hresults, hnext, hcommands⟩ := s.commands_apply
            (fun bounded vehicle line heq => hcall ⟨bounded, vehicle, line, heq⟩)
            (fun id heq => habandon ⟨id, heq⟩)
          show (s.apply event).Orderly (s.apply event).waiting
          rw [hwaiting]
          refine h.of_same hnext hresults fun slot => ?_
          rcases hcommands with hsame | ⟨vehicle, outcome, hended⟩
          · rw [hsame]
          · rw [hended, CommandTable.vehicleOf?_withdraw]

/-- In every session the slots that are held are those of the calls that wait. -/
theorem Reachable.orderly {config : Config} {algorithms : List Algorithm}
    (h : s.Reachable config algorithms) : s.Orderly s.waiting := by
  induction h with
  | new =>
      constructor
      case held => simp [Session.new, Fleet.new, CommandTable.vehicleOf?, CommandTable.empty]
      all_goals simp [Session.new]
  | move hreach m ih => exact orderly_move hreach.sound.coherent ih m

end

end Session

end FleetLink
