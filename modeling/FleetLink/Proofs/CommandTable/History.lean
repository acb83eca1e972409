import FleetLink.Proofs.CommandTable.Coherence

/-!
# Histories of a command table

Commands are issued, answered, cancelled, waited for and let go in any order, for any vehicles.
This module says what can be known of a table from its history alone: **which slot got which
outcome, and when.**

The argument follows one slot.  An operation can do four things to it (`SlotChange`): nothing, open
it, resolve it, or close it.  Only a slot that its vehicle's entry points at is resolved, and a slot
that was resolved is never pointed at again, because new entries only point at new slots.  So a slot
is resolved at most once, and by the operation that met it as the entry of its vehicle.

## Main Statements

* `Operation`, `step`, `run` — what can happen to a table
* `Resolves` — an operation of a history met a slot as its vehicle's entry and gave it an outcome
* `slotChange_step` — what an operation does to a slot
* `Coherent.run` — the table and the slots agree after every history
* `run_law` — entries, outcomes and answers after every history
-/

namespace FleetLink.CommandTable

/-- What can happen to a table. -/
inductive Operation where
  /-- A command is issued for a vehicle. -/
  | begin (now : Nat) (strict : Bool) (vehicle : VehicleId)
  /-- A vehicle answers. -/
  | fulfill (vehicle : VehicleId) (text : String)
  /-- The command of a vehicle is cancelled. -/
  | cancel (vehicle : VehicleId)
  /-- The holder of a slot looks whether its command has ended, and lets the slot go if so. -/
  | wait (slot : SlotId)
  /-- The holder of a slot lets it go. -/
  | drop (slot : SlotId)
  deriving DecidableEq, Repr

namespace Operation

/-- The outcome that an operation has for the pending command of a vehicle, if it ends it. -/
def resolution? (operation : Operation) (vehicle : VehicleId) : Option Outcome :=
  match operation with
  | .fulfill other text => if other = vehicle then some (.completed text) else none
  | .cancel other => if other = vehicle then some .cancelled else none
  | .begin _ strict other => if other = vehicle ∧ strict = false then some .cancelled else none
  | .wait _ | .drop _ => none

/-- The vehicle that an operation is about. -/
def vehicle? (operation : Operation) (t : CommandTable) : Option VehicleId :=
  match operation with
  | .begin _ _ vehicle | .fulfill vehicle _ | .cancel vehicle => some vehicle
  | .wait slot | .drop slot => t.slots[slot]?.map (·.vehicle)

end Operation

/-- The table after an operation.  A refused command changes nothing, and nothing is what a holder
does that finds its command pending. -/
def step (t : CommandTable) : Operation → CommandTable
  | .begin now strict vehicle =>
    match t.begin now strict vehicle with
    | some (_, begun) => begun
    | none => t
  | .fulfill vehicle text => (t.fulfill vehicle text).2
  | .cancel vehicle => (t.cancel vehicle).2
  | .wait slot =>
    match t.wait? slot with
    | some _ => t.release slot
    | none => t
  | .drop slot => t.release slot

/-- The table after some operations, one after the other. -/
def run (t : CommandTable) (history : List Operation) : CommandTable := history.foldl step t

theorem run_append (t : CommandTable) (first second : List Operation) :
    t.run (first ++ second) = (t.run first).run second := by
  simp [run, List.foldl_append]

theorem run_take_succ (t : CommandTable) {history : List Operation} {k : Nat}
    {operation : Operation} (h : history[k]? = some operation) :
    t.run (history.take (k + 1)) = (t.run (history.take k)).step operation := by
  rw [List.take_add_one, h]
  simp [run]

/-- The `k`-th operation of a history found a slot as the entry of its vehicle and gave it an
outcome. -/
def Resolves (history : List Operation) (k : Nat) (slot : SlotId) (outcome : Outcome) : Prop :=
  ∃ vehicle operation, history[k]? = some operation ∧
    (empty.run (history.take k)).current? vehicle = some slot ∧
    operation.resolution? vehicle = some outcome

/-! ## One operation -/

namespace Coherent

variable {t : CommandTable}

theorem step (h : Coherent t) (operation : Operation) : Coherent (t.step operation) := by
  cases operation with
  | begin now strict vehicle =>
      simp only [CommandTable.step]
      cases hbegin : t.begin now strict vehicle with
      | none => exact h
      | some begun => exact h.begin hbegin
  | fulfill vehicle text => exact h.fulfill vehicle text
  | cancel vehicle => exact h.cancel vehicle
  | wait slot =>
      simp only [CommandTable.step]
      cases t.wait? slot with
      | none => exact h
      | some outcome => exact h.release slot
  | drop slot => exact h.release slot

/-- The table and the slots agree after every history. -/
theorem run (h : Coherent t) (history : List Operation) : Coherent (t.run history) := by
  induction history generalizing t with
  | nil => exact h
  | cons operation history ih => exact ih (h.step operation)

end Coherent

/-- What an operation can do to a slot. -/
inductive SlotChange (t : CommandTable) (operation : Operation) (slot : SlotId) : Prop where
  /-- Nothing, and the operation ends no command that has the slot. -/
  | kept (same : (t.step operation).slots[slot]? = t.slots[slot]?)
      (unresolved : ∀ vehicle, t.current? vehicle = some slot →
        operation.resolution? vehicle = none)
  /-- Open it for a new command. -/
  | opened (vehicle : VehicleId) (new : slot = t.next)
      (open_ : (t.step operation).slots[slot]? = some ⟨vehicle, none⟩)
  /-- Resolve it as the entry of its vehicle. -/
  | resolved (vehicle : VehicleId) (outcome : Outcome) (entry : t.current? vehicle = some slot)
      (ends : operation.resolution? vehicle = some outcome)
      (told : (t.step operation).slots[slot]? = some ⟨vehicle, some outcome⟩)
  /-- Close it, without ending a command. -/
  | closed (gone : (t.step operation).slots[slot]? = none)
      (unresolved : ∀ vehicle, operation.resolution? vehicle = none)

section

variable {t : CommandTable}

/-- A withdrawal resolves the slot that the vehicle's entry points at and keeps the others. -/
private theorem slotChange_of_withdraw (h : Coherent t) (operation : Operation)
    (vehicle : VehicleId) (outcome : Outcome)
    (hstep : t.step operation = t.withdraw vehicle outcome)
    (hres : ∀ other, operation.resolution? other = if vehicle = other then some outcome else none)
    (slot : SlotId) : SlotChange t operation slot := by
  have hslots := h.slots_withdraw vehicle outcome slot
  by_cases hentry : t.current? vehicle = some slot
  · rw [if_pos hentry] at hslots
    exact .resolved vehicle outcome hentry (by rw [hres, if_pos rfl]) (by rw [hstep, hslots])
  · rw [if_neg hentry] at hslots
    refine .kept (by rw [hstep, hslots]) fun other hother => ?_
    rw [hres, if_neg]
    rintro rfl
    exact hentry hother

/-- Letting a slot go closes it and keeps the others. -/
private theorem slotChange_of_release (operation : Operation) (own : SlotId)
    (hstep : t.step operation = t.release own)
    (hres : ∀ vehicle, operation.resolution? vehicle = none) (slot : SlotId) :
    SlotChange t operation slot := by
  have hslots := slots_release t own slot
  by_cases hown : own = slot
  · rw [if_pos hown] at hslots
    exact .closed (by rw [hstep, hslots]) hres
  · rw [if_neg hown] at hslots
    exact .kept (by rw [hstep, hslots]) fun vehicle _ => hres vehicle

/-- **What an operation does to a slot.** -/
theorem slotChange_step (h : Coherent t) (operation : Operation) (slot : SlotId) :
    SlotChange t operation slot := by
  cases operation with
  | begin now strict vehicle =>
      cases hbegin : t.begin now strict vehicle with
      | none =>
          have hrefused := (begin_eq_none_iff t now strict vehicle).mp hbegin
          exact .kept (by simp [CommandTable.step, hbegin])
            fun other _ => by simp [Operation.resolution?, hrefused.1]
      | some done =>
          obtain ⟨new, begun⟩ := done
          have hstep : t.step (.begin now strict vehicle) = begun := by
            simp [CommandTable.step, hbegin]
          obtain ⟨-, -, -, hslots⟩ := h.of_begin hbegin
          have hslot := hslots slot
          by_cases hnew : t.next = slot
          · rw [if_pos hnew] at hslot
            exact .opened vehicle hnew.symm (by rw [hstep, hslot])
          · rw [if_neg hnew] at hslot
            by_cases hentry : t.current? vehicle = some slot
            -- A command in front of another one was issued in lenient mode.
            · have hstrict : strict = false := by
                rw [← Bool.not_eq_true]
                intro hstrict
                have hpending : t.isPending vehicle = true := by
                  rw [isPending_eq_isSome, hentry]
                  rfl
                rw [(begin_eq_none_iff t now strict vehicle).mpr ⟨hstrict, hpending⟩] at hbegin
                cases hbegin
              rw [if_pos hentry] at hslot
              exact .resolved vehicle .cancelled hentry (by simp [Operation.resolution?, hstrict])
                (by rw [hstep, hslot])
            · rw [if_neg hentry] at hslot
              refine .kept (by rw [hstep, hslot]) fun other hother => ?_
              have hne : vehicle ≠ other := by
                rintro rfl
                exact hentry hother
              simp [Operation.resolution?, hne]
  | fulfill vehicle text =>
      exact slotChange_of_withdraw h (.fulfill vehicle text) vehicle (.completed text)
        (fulfill_snd t vehicle text) (fun _ => rfl) slot
  | cancel vehicle =>
      exact slotChange_of_withdraw h (.cancel vehicle) vehicle .cancelled (cancel_snd t vehicle)
        (fun _ => rfl) slot
  | wait own =>
      cases hwait : t.wait? own with
      | none => exact .kept (by simp [CommandTable.step, hwait]) fun _ _ => rfl
      | some outcome =>
          exact slotChange_of_release (.wait own) own (by simp [CommandTable.step, hwait])
            (fun _ => rfl) slot
  | drop own => exact slotChange_of_release (.drop own) own rfl (fun _ => rfl) slot

theorem next_le_next_step (h : Coherent t) (operation : Operation) :
    t.next ≤ (t.step operation).next := by
  cases operation with
  | begin now strict vehicle =>
      simp only [CommandTable.step]
      cases hbegin : t.begin now strict vehicle with
      | none => exact Nat.le_refl _
      | some begun =>
          obtain ⟨-, hnext, -, -⟩ := h.of_begin hbegin
          rw [hnext]
          exact Nat.le_succ _
  | fulfill vehicle text =>
      rw [CommandTable.step, fulfill_snd]
      exact Nat.le_of_eq (next_withdraw t vehicle _).symm
  | cancel vehicle =>
      rw [CommandTable.step, cancel_snd]
      exact Nat.le_of_eq (next_withdraw t vehicle _).symm
  | wait slot =>
      simp only [CommandTable.step]
      cases t.wait? slot with
      | none => exact Nat.le_refl _
      | some outcome => exact Nat.le_of_eq (next_release t slot).symm
  | drop slot => exact Nat.le_of_eq (next_release t slot).symm

/-- Whatever a holder was told it is told by the operation, or was told before. -/
theorem outcome?_of_step (h : Coherent t) {operation : Operation} {slot : SlotId}
    {outcome : Outcome} (htold : (t.step operation).outcome? slot = some outcome) :
    t.outcome? slot = some outcome ∨
      ∃ vehicle, t.current? vehicle = some slot ∧ operation.resolution? vehicle = some outcome := by
  unfold outcome? at htold ⊢
  cases slotChange_step h operation slot with
  | kept same => exact .inl (by rw [← same]; exact htold)
  | opened vehicle new open_ =>
      rw [open_] at htold
      cases htold
  | resolved vehicle given entry ends told =>
      rw [told] at htold
      cases htold
      exact .inr ⟨vehicle, entry, ends⟩
  | closed gone =>
      rw [gone] at htold
      cases htold

/-- The same after some operations: one of them met the slot as the entry of its vehicle. -/
theorem exists_resolution_of_told (h : Coherent t) {operations : List Operation} {slot : SlotId}
    {outcome : Outcome} (htold : (t.run operations).outcome? slot = some outcome) :
    t.outcome? slot = some outcome ∨
      ∃ front operation back vehicle, operations = front ++ operation :: back ∧
        (t.run front).current? vehicle = some slot ∧
        operation.resolution? vehicle = some outcome := by
  induction operations generalizing t with
  | nil => exact .inl htold
  | cons operation later ih =>
      rcases ih (h.step operation) htold with hstep | ⟨front, ends, back, vehicle, hsplit, hends⟩
      · rcases outcome?_of_step h hstep with hbefore | ⟨vehicle, hentry, hends⟩
        · exact .inl hbefore
        · exact .inr ⟨[], operation, later, vehicle, rfl, hentry, hends⟩
      · exact .inr ⟨operation :: front, ends, back, vehicle, by rw [hsplit]; rfl, hends⟩

/-- Whoever was told a text after some operations was told it before, or one of them hands
it out. -/
theorem fulfills_of_told (h : Coherent t) {operations : List Operation} {slot : SlotId}
    {text : String} (htold : (t.run operations).outcome? slot = some (.completed text)) :
    t.outcome? slot = some (.completed text) ∨
      ∃ vehicle, .fulfill vehicle text ∈ operations := by
  rcases exists_resolution_of_told h htold with
    hbefore | ⟨front, operation, back, vehicle, rfl, -, hends⟩
  · exact .inl hbefore
  -- Of all operations only one ends a command with a text.
  · refine .inr ⟨vehicle, List.mem_append_right front (List.mem_cons.mpr (.inl ?_))⟩
    cases operation with
    | fulfill own given => simp_all [Operation.resolution?]
    | begin | cancel | wait | drop => simp [Operation.resolution?] at hends

/-- An operation that ends a command tells the holder of its slot. -/
theorem slots_step_of_resolution (h : Coherent t) {operation : Operation} {vehicle : VehicleId}
    {slot : SlotId} {outcome : Outcome} (hentry : t.current? vehicle = some slot)
    (hres : operation.resolution? vehicle = some outcome) :
    (t.step operation).slots[slot]? = some ⟨vehicle, some outcome⟩ := by
  cases slotChange_step h operation slot with
  | kept same unresolved =>
      rw [unresolved vehicle hentry] at hres
      cases hres
  | opened other new open_ =>
      -- No entry points at a slot that is still to come.
      rw [new] at hentry
      exact absurd (h.current_lt_next hentry) (Nat.lt_irrefl _)
  | resolved other given entry ends told =>
      have hv := h.vehicle_unique hentry entry
      subst hv
      rw [hres] at ends
      cases ends
      exact told
  | closed gone unresolved =>
      rw [unresolved vehicle] at hres
      cases hres

/-- An entry that was not there before is made for a new slot, when a command is issued for the
vehicle. -/
theorem begins_of_pending (h : Coherent t) {operation : Operation} {vehicle : VehicleId}
    {p : PendingCommand} (hp : (t.step operation).pending[vehicle]? = some p) :
    t.pending[vehicle]? = some p ∨
      p.slot = t.next ∧ ∃ strict, operation = .begin p.since strict vehicle := by
  cases operation with
  | begin now strict own =>
      simp only [CommandTable.step] at hp
      cases hbegin : t.begin now strict own with
      | none =>
          rw [hbegin] at hp
          exact .inl hp
      | some done =>
          obtain ⟨slot, begun⟩ := done
          obtain ⟨-, -, hpending, -⟩ := h.of_begin hbegin
          rw [hbegin] at hp
          dsimp only at hp
          rw [hpending] at hp
          split at hp
          next hown =>
            subst hown
            cases hp
            exact .inr ⟨rfl, strict, rfl⟩
          next => exact .inl hp
  | fulfill own text =>
      rw [CommandTable.step, fulfill_snd, pending_withdraw] at hp
      exact .inl (Option.ite_none_left_eq_some.mp hp).2
  | cancel own =>
      rw [CommandTable.step, cancel_snd, pending_withdraw] at hp
      exact .inl (Option.ite_none_left_eq_some.mp hp).2
  | wait own =>
      simp only [CommandTable.step] at hp
      cases hwait : t.wait? own with
      | none =>
          rw [hwait] at hp
          exact .inl hp
      | some outcome =>
          rw [hwait] at hp
          dsimp only at hp
          rw [pending_release] at hp
          exact .inl (Option.ite_none_left_eq_some.mp hp).2
  | drop own =>
      rw [CommandTable.step, pending_release] at hp
      exact .inl (Option.ite_none_left_eq_some.mp hp).2

/-- A slot that nobody holds any more is not opened again. -/
theorem free_of_step (h : Coherent t) (operation : Operation) {slot : SlotId} (hold : slot < t.next)
    (hfree : t.slots[slot]? = none) : (t.step operation).slots[slot]? = none := by
  cases slotChange_step h operation slot with
  | kept same => rw [same, hfree]
  | opened vehicle new => exact absurd hold (Nat.not_lt.mpr (Nat.le_of_eq new.symm))
  | resolved vehicle outcome entry =>
      rw [(h.current_iff vehicle slot).mp entry] at hfree
      cases hfree
  | closed gone => exact gone

/-- A table is for a vehicle what another one is: the entry is the same, and so are the vehicle's
slots with their outcomes. -/
def SameFor (vehicle : VehicleId) (t other : CommandTable) : Prop :=
  other.pending[vehicle]? = t.pending[vehicle]? ∧
    ∀ (slot : SlotId) (outcome : Option Outcome),
      other.slots[slot]? = some ⟨vehicle, outcome⟩ ↔ t.slots[slot]? = some ⟨vehicle, outcome⟩

theorem SameFor.refl (vehicle : VehicleId) (t : CommandTable) : SameFor vehicle t t :=
  ⟨rfl, fun _ _ => Iff.rfl⟩

theorem sameFor_withdraw (h : Coherent t) {own vehicle : VehicleId} (outcome : Outcome)
    (hne : own ≠ vehicle) : SameFor vehicle t (t.withdraw own outcome) := by
  refine ⟨by rw [pending_withdraw, if_neg hne], fun slot told => ?_⟩
  rw [h.slots_withdraw]
  split
  next hentry =>
    rw [(h.current_iff own slot).mp hentry]
    simp [hne]
  next => rfl

theorem sameFor_release {own : SlotId} {vehicle : VehicleId}
    (hne : t.slots[own]?.map (·.vehicle) ≠ some vehicle) : SameFor vehicle t (t.release own) := by
  refine ⟨by rw [pending_release, if_neg fun hboth => hne hboth.1], fun slot told => ?_⟩
  rw [slots_release]
  split
  next hown =>
    subst hown
    constructor
    · intro habsent
      cases habsent
    · intro hs
      exact absurd (by rw [hs]; rfl) hne
  next => rfl

theorem sameFor_begin (h : Coherent t) {now : Nat} {strict : Bool} {own vehicle : VehicleId}
    {slot : SlotId} {begun : CommandTable} (hbegin : t.begin now strict own = some (slot, begun))
    (hne : own ≠ vehicle) : SameFor vehicle t begun := by
  obtain ⟨-, -, hpending, hslots⟩ := h.of_begin hbegin
  refine ⟨by rw [hpending, if_neg hne], fun other outcome => ?_⟩
  rw [hslots]
  split
  next hnew =>
    subst hnew
    constructor
    · intro hopened
      exact absurd (congrArg CommandSlot.vehicle (Option.some.inj hopened)) hne
    · intro hs
      exact absurd (h.lt_next _ _ hs) (Nat.lt_irrefl _)
  next =>
    split
    next hentry =>
      rw [(h.current_iff own other).mp hentry]
      simp [hne]
    next => rfl

/-- A vehicle that an operation is not about keeps its entry and its slots as they are. -/
theorem sameFor_step (h : Coherent t) {operation : Operation} {vehicle : VehicleId}
    (hother : operation.vehicle? t ≠ some vehicle) : SameFor vehicle t (t.step operation) := by
  have hne : ∀ {own : VehicleId}, operation.vehicle? t = some own → own ≠ vehicle := by
    rintro own hown rfl
    exact hother hown
  cases operation with
  | begin now strict own =>
      simp only [CommandTable.step]
      cases hbegin : t.begin now strict own with
      | none => exact SameFor.refl vehicle t
      | some done => exact sameFor_begin h hbegin (hne rfl)
  | fulfill own text =>
      rw [CommandTable.step, fulfill_snd]
      exact sameFor_withdraw h _ (hne rfl)
  | cancel own =>
      rw [CommandTable.step, cancel_snd]
      exact sameFor_withdraw h _ (hne rfl)
  | wait own =>
      simp only [CommandTable.step]
      cases t.wait? own with
      | none => exact SameFor.refl vehicle t
      | some outcome => exact sameFor_release hother
  | drop own => exact sameFor_release hother

end

/-! ## Whole histories -/

section

variable {history : List Operation}

/-- An operation that meets a slot as its vehicle's entry and ends the command tells the holder. -/
theorem Resolves.outcome? {k : Nat} {slot : SlotId} {outcome : Outcome}
    (hres : Resolves history k slot outcome) :
    (empty.run (history.take (k + 1))).outcome? slot = some outcome := by
  obtain ⟨vehicle, operation, hop, hentry, hends⟩ := hres
  have h : Coherent (empty.run (history.take k)) := coherent_empty.run _
  rw [run_take_succ empty hop, CommandTable.outcome?, slots_step_of_resolution h hentry hends]
  rfl

/-- Whatever a holder is told it was told by an operation of the history. -/
theorem exists_resolves {k : Nat} {slot : SlotId} {outcome : Outcome}
    (htold : (empty.run (history.take k)).outcome? slot = some outcome) :
    ∃ j < k, Resolves history j slot outcome := by
  induction k with
  | zero => simp [run] at htold
  | succ k ih =>
      have h : Coherent (empty.run (history.take k)) := coherent_empty.run _
      cases hop : history[k]? with
      | none =>
          rw [List.take_add_one, hop, Option.toList_none, List.append_nil] at htold
          obtain ⟨j, hj, hres⟩ := ih htold
          exact ⟨j, Nat.lt_succ_of_lt hj, hres⟩
      | some operation =>
          rw [run_take_succ empty hop] at htold
          rcases outcome?_of_step h htold with hbefore | ⟨vehicle, hentry, hends⟩
          · obtain ⟨j, hj, hres⟩ := ih hbefore
            exact ⟨j, Nat.lt_succ_of_lt hj, hres⟩
          · exact ⟨k, Nat.lt_succ_self k, vehicle, operation, hop, hentry, hends⟩

/-- An entry that was not there before some operations is made for a new slot by one of them. -/
theorem begins_of_pending_run {t : CommandTable} (h : Coherent t) (later : List Operation)
    {vehicle : VehicleId} {p : PendingCommand} (hp : (t.run later).pending[vehicle]? = some p) :
    t.pending[vehicle]? = some p ∨
      t.next ≤ p.slot ∧ ∃ strict, .begin p.since strict vehicle ∈ later := by
  induction later generalizing t with
  | nil => exact .inl hp
  | cons operation later ih =>
      rcases ih (h.step operation) hp with hstep | ⟨hnew, strict, hmem⟩
      · rcases begins_of_pending h hstep with hbefore | ⟨hslot, strict, hbegin⟩
        · exact .inl hbefore
        · exact .inr ⟨Nat.le_of_eq hslot.symm, strict, hbegin ▸ List.mem_cons_self⟩
      · have hle := Nat.le_trans (next_le_next_step h operation) hnew
        exact .inr ⟨hle, strict, List.mem_cons_of_mem _ hmem⟩

/-- The same for the slot alone. -/
theorem begins_of_current_run {t : CommandTable} (h : Coherent t) (later : List Operation)
    {vehicle : VehicleId} {slot : SlotId} (hentry : (t.run later).current? vehicle = some slot) :
    t.current? vehicle = some slot ∨
      t.next ≤ slot ∧ ∃ now strict, .begin now strict vehicle ∈ later := by
  obtain ⟨p, hp, rfl⟩ := Option.map_eq_some_iff.mp hentry
  rcases begins_of_pending_run h later hp with hbefore | ⟨hnew, strict, hmem⟩
  · exact .inl (Option.map_eq_some_iff.mpr ⟨p, hbefore, rfl⟩)
  · exact .inr ⟨hnew, p.since, strict, hmem⟩

/-- An entry that points at an old slot has pointed at it all the while. -/
theorem current?_of_run {t : CommandTable} (h : Coherent t) (later : List Operation)
    {vehicle : VehicleId} {slot : SlotId} (hlt : slot < t.next)
    (hentry : (t.run later).current? vehicle = some slot) : t.current? vehicle = some slot := by
  rcases begins_of_current_run h later hentry with hbefore | ⟨hnew, -⟩
  · exact hbefore
  · exact absurd hlt (Nat.not_lt.mpr hnew)

/-- A slot that nobody holds any more stays so. -/
theorem free_of_run {t : CommandTable} (h : Coherent t) (later : List Operation) {slot : SlotId}
    (hold : slot < t.next) (hfree : t.slots[slot]? = none) :
    slot < (t.run later).next ∧ (t.run later).slots[slot]? = none := by
  induction later generalizing t with
  | nil => exact ⟨hold, hfree⟩
  | cons operation later ih =>
      exact ih (h.step operation) (Nat.lt_of_lt_of_le hold (next_le_next_step h operation))
        (free_of_step h operation hold hfree)

/-- A slot that was resolved is nobody's entry any more, so it is not resolved again. -/
theorem Resolves.not_later {j k : Nat} {slot : SlotId} {outcome other : Outcome}
    (hfirst : Resolves history j slot outcome) (hlt : j < k) : ¬ Resolves history k slot other := by
  rintro ⟨vehicle, operation, -, hentry, -⟩
  have h : Coherent (empty.run (history.take (j + 1))) := coherent_empty.run _
  have htold := hfirst.outcome?
  rw [CommandTable.outcome?, Option.bind_eq_some_iff] at htold
  obtain ⟨s, hs, houtcome⟩ := htold
  -- Had the slot been an entry later, it would have been one right after it was resolved.
  obtain ⟨d, rfl⟩ : ∃ d, k = j + 1 + d := ⟨k - (j + 1), by omega⟩
  rw [List.take_add, run_append] at hentry
  have hearlier := current?_of_run h _ (h.lt_next slot s hs) hentry
  rw [h.current_iff, hs] at hearlier
  cases hearlier
  cases houtcome

/-- **A slot is resolved at most once.** -/
theorem Resolves.unique {j k : Nat} {slot : SlotId} {outcome other : Outcome}
    (hfirst : Resolves history j slot outcome) (hsecond : Resolves history k slot other) :
    j = k ∧ outcome = other := by
  rcases Nat.lt_trichotomy j k with hlt | rfl | hlt
  · exact absurd hsecond (hfirst.not_later hlt)
  · have hsame := hfirst.outcome?.symm.trans hsecond.outcome?
    exact ⟨rfl, Option.some.inj hsame⟩
  · exact absurd hfirst (hsecond.not_later hlt)

/-- A slot is told an outcome at some time exactly when some operation resolved it so. -/
theorem told_iff_resolves (slot : SlotId) (outcome : Outcome) :
    (∃ k, (empty.run (history.take k)).outcome? slot = some outcome) ↔
      ∃ k, Resolves history k slot outcome := by
  constructor
  · rintro ⟨k, htold⟩
    obtain ⟨j, -, hres⟩ := exists_resolves htold
    exact ⟨j, hres⟩
  · rintro ⟨k, hres⟩
    exact ⟨k + 1, hres.outcome?⟩

/-- What completes a command is a response to the vehicle whose entry the slot is. -/
theorem resolves_completed_iff (k : Nat) (slot : SlotId) (text : String) :
    Resolves history k slot (.completed text) ↔
      ∃ vehicle, history[k]? = some (.fulfill vehicle text) ∧
        (empty.run (history.take k)).current? vehicle = some slot := by
  constructor
  · rintro ⟨vehicle, operation, hop, hentry, hends⟩
    cases operation with
    | fulfill own told =>
        simp only [Operation.resolution?, Option.ite_none_right_eq_some, Option.some.injEq,
          Outcome.completed.injEq] at hends
        obtain ⟨rfl, rfl⟩ := hends
        exact ⟨own, hop, hentry⟩
    | _ => simp [Operation.resolution?] at hends
  · rintro ⟨vehicle, hop, hentry⟩
    exact ⟨vehicle, _, hop, hentry, by simp [Operation.resolution?]⟩

/-- What cancels a command is a cancellation, or a newer command in lenient mode. -/
theorem resolves_cancelled_iff (k : Nat) (slot : SlotId) :
    Resolves history k slot .cancelled ↔
      ∃ vehicle, (history[k]? = some (.cancel vehicle) ∨
          ∃ now, history[k]? = some (.begin now false vehicle)) ∧
        (empty.run (history.take k)).current? vehicle = some slot := by
  constructor
  · rintro ⟨vehicle, operation, hop, hentry, hends⟩
    cases operation with
    | cancel own =>
        simp only [Operation.resolution?, Option.ite_none_right_eq_some] at hends
        obtain ⟨rfl, -⟩ := hends
        exact ⟨own, .inl hop, hentry⟩
    | begin now strict own =>
        simp only [Operation.resolution?, Option.ite_none_right_eq_some] at hends
        obtain ⟨⟨rfl, rfl⟩, -⟩ := hends
        exact ⟨own, .inr ⟨now, hop⟩, hentry⟩
    | _ => simp [Operation.resolution?] at hends
  · rintro ⟨vehicle, hop | ⟨now, hop⟩, hentry⟩
    · exact ⟨vehicle, _, hop, hentry, by simp [Operation.resolution?]⟩
    · exact ⟨vehicle, _, hop, hentry, by simp [Operation.resolution?]⟩

end

/-- **The law of the command table.**  After every history of commands issued, responses,
cancellations, waits and slots let go, for any vehicles in any order:

A slot that is held is unresolved exactly when it is the entry of its vehicle, every entry belongs
to exactly one such slot, the pending commands are as many as these slots, and whoever waits finds
what it was told and nothing else.

A slot is told that its command completed with a text exactly when a response with the text met it
as the entry of its vehicle, and that it was cancelled exactly when a cancellation did, or a newer
command in lenient mode; and it is told something at most once.

A response and a cancellation are taken exactly when the vehicle has an entry; a command is refused
exactly when it is strict and the vehicle has an entry, and changes nothing then; and no operation
changes the entry or a slot of a vehicle that it is not about. -/
theorem run_law (history : List Operation) :
    let t := empty.run history
    let before := fun k => empty.run (history.take k)
    ((∀ (slot : SlotId) (s : CommandSlot), t.slots[slot]? = some s →
        (s.outcome = none ↔ t.current? s.vehicle = some slot)) ∧
      (∀ (vehicle : VehicleId) (p : PendingCommand), t.pending[vehicle]? = some p →
        ∀ slot : SlotId, t.slots[slot]? = some ⟨vehicle, none⟩ ↔ slot = p.slot) ∧
      t.count = (t.slots.toList.countP fun entry => entry.2.outcome.isNone) ∧
      ∀ slot : SlotId, t.wait? slot = t.outcome? slot) ∧
    ((∀ (slot : SlotId) (text : String),
        (∃ k, (before k).outcome? slot = some (.completed text)) ↔
          ∃ k vehicle, history[k]? = some (.fulfill vehicle text) ∧
            (before k).current? vehicle = some slot) ∧
      (∀ slot : SlotId,
        (∃ k, (before k).outcome? slot = some .cancelled) ↔
          ∃ k vehicle, (history[k]? = some (.cancel vehicle) ∨
              ∃ now, history[k]? = some (.begin now false vehicle)) ∧
            (before k).current? vehicle = some slot) ∧
      ∀ (slot : SlotId) (j k : Nat) (first second : Outcome),
        Resolves history j slot first → Resolves history k slot second →
          j = k ∧ first = second) ∧
    ((∀ (vehicle : VehicleId) (text : String),
        (t.fulfill vehicle text).1 = t.isPending vehicle) ∧
      (∀ vehicle : VehicleId, (t.cancel vehicle).1 = t.isPending vehicle) ∧
      (∀ (now : Nat) (strict : Bool) (vehicle : VehicleId),
        t.begin now strict vehicle = none ↔ strict = true ∧ t.isPending vehicle = true) ∧
      (∀ (now : Nat) (vehicle : VehicleId), t.isPending vehicle = true →
        t.step (.begin now true vehicle) = t) ∧
      ∀ (operation : Operation) (vehicle : VehicleId), operation.vehicle? t ≠ some vehicle →
        SameFor vehicle t (t.step operation)) := by
  intro t before
  have h : Coherent t := coherent_empty.run history
  refine ⟨⟨?_, ?_, h.count_eq_countP, h.wait?_eq_outcome?⟩, ⟨?_, ?_, ?_⟩,
    h.fulfill_fst, cancel_fst t, begin_eq_none_iff t, ?_, ?_⟩
  · intro slot s hs
    exact h.outcome_eq_none_iff hs
  · intro vehicle p hp slot
    rw [← h.current_iff, current?, hp, Option.map_some, Option.some.injEq]
    exact eq_comm
  · intro slot text
    rw [told_iff_resolves]
    exact exists_congr fun k => resolves_completed_iff k slot text
  · intro slot
    rw [told_iff_resolves]
    exact exists_congr fun k => resolves_cancelled_iff k slot
  · intro slot j k first second hfirst hsecond
    exact hfirst.unique hsecond
  · intro now vehicle hpending
    have hrefused := (begin_eq_none_iff t now true vehicle).mpr ⟨rfl, hpending⟩
    simp only [CommandTable.step, hrefused]
  · intro operation vehicle hother
    exact sameFor_step h hother

end FleetLink.CommandTable
