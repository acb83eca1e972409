import FleetLink.CommandTable

/-!
# The command table and the slots agree

A pending command stands in two places: the table points from its vehicle to a slot, and whoever
issued it holds that slot and waits.  This module says what each operation does to either place, and
that **the two never part**: the table points at exactly the slots that are held and not resolved.

Three things meet here.  A preempted slot loses its entry to a newer slot of the same vehicle; a
slot that is let go late must not take the newer slot's entry with it; and a vehicle's id is used
again for every command.  All three come down to one equivalence, `Coherent.current_iff`, which
every operation restores, and to slots being numbered upwards.

## Main Statements

* `pending_enter`, `slots_resolve`, … — each step, seen from the table and from the slots
* `Coherent` — the table and the slots agree
* `Coherent.begin`, `Coherent.fulfill`, `Coherent.cancel`, `Coherent.release` — they still do
* `Coherent.wait?_eq_outcome?` — nobody is told of a cancellation that did not happen
* `Coherent.count_eq_countP` — the pending commands are as many as the unresolved slots
-/

namespace FleetLink

universe u v

/-- Nothing changes when what is not there is taken out. -/
theorem erase_of_getElem?_eq_none {α : Type u} {β : Type v} {cmp : α → α → Ordering}
    [Std.TransCmp cmp] [Std.LawfulEqCmp cmp] {entries : Std.ExtTreeMap α β cmp} {key : α}
    (hnone : entries[key]? = none) : entries.erase key = entries := by
  refine Std.ExtTreeMap.ext_getElem? fun other => ?_
  rw [Std.ExtTreeMap.getElem?_erase]
  split
  next heq => rw [← Std.LawfulEqCmp.eq_of_compare heq, hnone]
  next => rfl

namespace CommandTable

/-! ## The steps, seen from the table and from the slots -/

@[simp] theorem current?_empty (vehicle : VehicleId) : empty.current? vehicle = none := by
  simp [current?, empty]

@[simp] theorem slots_empty (slot : SlotId) : empty.slots[slot]? = none := by
  simp [empty]

theorem isPending_eq_isSome (t : CommandTable) (vehicle : VehicleId) :
    t.isPending vehicle = (t.current? vehicle).isSome := by
  rw [Bool.eq_iff_iff, isPending, decide_eq_true_iff, current?, Option.isSome_map,
    Std.ExtTreeMap.mem_iff_isSome_getElem?]

theorem pending_enter (t : CommandTable) (now : Nat) (vehicle other : VehicleId) :
    (t.enter now vehicle).2.pending[other]? =
      if vehicle = other then some ⟨t.next, now⟩ else t.pending[other]? := by
  simp [enter, Std.ExtTreeMap.getElem?_insert]

theorem current?_enter (t : CommandTable) (now : Nat) (vehicle other : VehicleId) :
    (t.enter now vehicle).2.current? other =
      if vehicle = other then some t.next else t.current? other := by
  unfold current?
  rw [pending_enter]
  split <;> rfl

theorem slots_enter (t : CommandTable) (now : Nat) (vehicle : VehicleId) (slot : SlotId) :
    (t.enter now vehicle).2.slots[slot]? =
      if t.next = slot then some ⟨vehicle, none⟩ else t.slots[slot]? := by
  simp [enter, Std.ExtTreeMap.getElem?_insert]

theorem pending_remove (t : CommandTable) (vehicle other : VehicleId) :
    (t.remove vehicle).2.pending[other]? =
      if vehicle = other then none else t.pending[other]? := by
  simp [remove, Std.ExtTreeMap.getElem?_erase]

theorem current?_remove (t : CommandTable) (vehicle other : VehicleId) :
    (t.remove vehicle).2.current? other = if vehicle = other then none else t.current? other := by
  unfold current?
  rw [pending_remove]
  split <;> rfl

@[simp] theorem slots_remove (t : CommandTable) (vehicle : VehicleId) :
    (t.remove vehicle).2.slots = t.slots := rfl

@[simp] theorem next_remove (t : CommandTable) (vehicle : VehicleId) :
    (t.remove vehicle).2.next = t.next := rfl

@[simp] theorem pending_resolve (t : CommandTable) (slot : SlotId) (outcome : Outcome) :
    (t.resolve slot outcome).2.pending = t.pending := by
  unfold resolve
  split <;> rfl

@[simp] theorem next_resolve (t : CommandTable) (slot : SlotId) (outcome : Outcome) :
    (t.resolve slot outcome).2.next = t.next := by
  unfold resolve
  split <;> rfl

theorem slots_resolve (t : CommandTable) (slot other : SlotId) (outcome : Outcome) :
    (t.resolve slot outcome).2.slots[other]? =
      if slot = other then t.slots[slot]?.map fun s => { s with outcome := some outcome }
      else t.slots[other]? := by
  unfold resolve
  cases h : t.slots[slot]? with
  | none =>
      by_cases hs : slot = other
      · subst hs
        simp [h]
      · simp [hs]
  | some s => simp [Std.ExtTreeMap.getElem?_insert]

/-! ## The operations, seen from the table and from the slots -/

/-- What a response and a cancellation have in common: the pending command of a vehicle leaves the
table, and the holder of its slot is told the outcome. -/
def withdraw (t : CommandTable) (vehicle : VehicleId) (outcome : Outcome) : CommandTable :=
  match t.current? vehicle with
  | none => (t.remove vehicle).2
  | some slot => ((t.remove vehicle).2.resolve slot outcome).2

theorem fulfill_snd (t : CommandTable) (vehicle : VehicleId) (text : String) :
    (t.fulfill vehicle text).2 = t.withdraw vehicle (.completed text) := by
  unfold fulfill withdraw
  simp only [remove]
  cases t.current? vehicle <;> rfl

theorem cancel_snd (t : CommandTable) (vehicle : VehicleId) :
    (t.cancel vehicle).2 = t.withdraw vehicle .cancelled := by
  unfold cancel withdraw
  simp only [remove]
  cases t.current? vehicle <;> rfl

theorem cancel_fst (t : CommandTable) (vehicle : VehicleId) :
    (t.cancel vehicle).1 = t.isPending vehicle := by
  rw [isPending_eq_isSome]
  unfold cancel
  simp only [remove]
  cases t.current? vehicle <;> rfl

@[simp] theorem next_withdraw (t : CommandTable) (vehicle : VehicleId) (outcome : Outcome) :
    (t.withdraw vehicle outcome).next = t.next := by
  unfold withdraw
  split <;> simp

theorem pending_withdraw (t : CommandTable) (vehicle other : VehicleId) (outcome : Outcome) :
    (t.withdraw vehicle outcome).pending[other]? =
      if vehicle = other then none else t.pending[other]? := by
  unfold withdraw
  split <;> simp [pending_remove]

theorem current?_withdraw (t : CommandTable) (vehicle other : VehicleId) (outcome : Outcome) :
    (t.withdraw vehicle outcome).current? other =
      if vehicle = other then none else t.current? other := by
  unfold current?
  rw [pending_withdraw]
  split <;> rfl

theorem slots_withdraw (t : CommandTable) (vehicle : VehicleId) (outcome : Outcome)
    (slot : SlotId) :
    (t.withdraw vehicle outcome).slots[slot]? =
      if t.current? vehicle = some slot then
        t.slots[slot]?.map fun s => { s with outcome := some outcome }
      else t.slots[slot]? := by
  unfold withdraw
  cases t.current? vehicle with
  | none => simp
  | some own =>
      simp only [slots_resolve, slots_remove, Option.some.injEq]
      split
      next h => rw [h]
      next => rfl

/-- Nothing is withdrawn from a vehicle that has no pending command. -/
theorem withdraw_of_current?_eq_none {t : CommandTable} {vehicle : VehicleId}
    (hnone : t.current? vehicle = none) (outcome : Outcome) : t.withdraw vehicle outcome = t := by
  have hpending : t.pending.erase vehicle = t.pending :=
    erase_of_getElem?_eq_none (Option.map_eq_none_iff.mp hnone)
  unfold withdraw
  rw [hnone]
  show { t with pending := t.pending.erase vehicle } = t
  rw [hpending]

@[simp] theorem next_removeOwn (t : CommandTable) (slot : SlotId) :
    (t.removeOwn slot).next = t.next := by
  unfold removeOwn
  split
  · rfl
  · split <;> rfl

@[simp] theorem slots_removeOwn (t : CommandTable) (slot : SlotId) :
    (t.removeOwn slot).slots = t.slots := by
  unfold removeOwn
  split
  · rfl
  · split <;> rfl

theorem next_release (t : CommandTable) (slot : SlotId) : (t.release slot).next = t.next :=
  next_removeOwn t slot

theorem slots_release (t : CommandTable) (slot other : SlotId) :
    (t.release slot).slots[other]? = if slot = other then none else t.slots[other]? := by
  simp [release, close, Std.ExtTreeMap.getElem?_erase]

/-- Letting a slot go takes the entry of its vehicle along only if it is the slot's own. -/
theorem pending_release (t : CommandTable) (slot : SlotId) (other : VehicleId) :
    (t.release slot).pending[other]? =
      if t.slots[slot]?.map (·.vehicle) = some other ∧ t.current? other = some slot then none
      else t.pending[other]? := by
  show (t.removeOwn slot).pending[other]? = _
  unfold removeOwn
  cases t.slots[slot]? with
  | none => simp
  | some s =>
      by_cases hv : s.vehicle = other
      · subst hv
        by_cases howned : t.current? s.vehicle = some slot
        · simp [howned]
        · simp [howned]
      · by_cases howned : t.current? s.vehicle = some slot
        · simp [howned, hv, Std.ExtTreeMap.getElem?_erase]
        · simp [howned, hv]

/-- Letting a slot go leaves the entries of others. -/
theorem pending_release_of_ne (t : CommandTable) {slot : SlotId} {vehicle : VehicleId}
    {p : PendingCommand} (hp : t.pending[vehicle]? = some p) (hne : p.slot ≠ slot) :
    (t.release slot).pending[vehicle]? = some p := by
  rw [pending_release, if_neg, hp]
  rintro ⟨-, hentry⟩
  rw [current?, hp] at hentry
  exact hne (Option.some.inj hentry)

/-- Letting a slot go takes its own entry out of the table. -/
theorem current?_removeOwn {t : CommandTable} {slot : SlotId}
    (hentries : ∀ vehicle, t.current? vehicle = some slot → t.slots[slot]? = some ⟨vehicle, none⟩)
    (other : VehicleId) : (t.removeOwn slot).current? other =
      if t.current? other = some slot then none else t.current? other := by
  have hpending : (t.removeOwn slot).pending[other]? = _ := pending_release t slot other
  unfold current? at hpending ⊢
  rw [hpending]
  by_cases hentry : t.current? other = some slot
  · have hs := hentries other hentry
    unfold current? at hentry
    simp [hentry, hs]
  · unfold current? at hentry
    simp [hentry]

/-! ## Coherence -/

/-- The table points at exactly the slots that are held and not resolved, each from its own vehicle,
and no slot has a number that is still to be given. -/
structure Coherent (t : CommandTable) : Prop where
  lt_next : ∀ (slot : SlotId) (s : CommandSlot), t.slots[slot]? = some s → slot < t.next
  current_iff : ∀ (vehicle : VehicleId) (slot : SlotId),
    t.current? vehicle = some slot ↔ t.slots[slot]? = some ⟨vehicle, none⟩

theorem coherent_empty : Coherent empty where
  lt_next := by simp
  current_iff := by simp

namespace Coherent

variable {t : CommandTable} {vehicle : VehicleId} {slot : SlotId}

theorem current_lt_next (h : Coherent t) (hentry : t.current? vehicle = some slot) :
    slot < t.next :=
  h.lt_next slot _ ((h.current_iff vehicle slot).mp hentry)

/-- No two vehicles have the same pending slot. -/
theorem vehicle_unique (h : Coherent t) {other : VehicleId}
    (hentry : t.current? vehicle = some slot) (hother : t.current? other = some slot) :
    vehicle = other := by
  rw [h.current_iff] at hentry hother
  rw [hentry] at hother
  cases hother
  rfl

/-- A slot that is held is unresolved exactly when the table points at it. -/
theorem outcome_eq_none_iff (h : Coherent t) {s : CommandSlot} (hs : t.slots[slot]? = some s) :
    s.outcome = none ↔ t.current? s.vehicle = some slot := by
  rw [h.current_iff, hs, Option.some.injEq]
  constructor
  · intro hnone
    rw [← hnone]
  · intro hsome
    rw [hsome]

/-- **Nobody who waits finds a command gone without a word.**  What the holder of a slot finds is
what it was told. -/
theorem wait?_eq_outcome? (h : Coherent t) (slot : SlotId) : t.wait? slot = t.outcome? slot := by
  unfold wait? outcome?
  cases hs : t.slots[slot]? with
  | none => rfl
  | some s =>
      cases houtcome : s.outcome with
      | some outcome => simp [houtcome]
      | none =>
          have hentry := (h.outcome_eq_none_iff hs).mp houtcome
          simp [houtcome, hentry]

/-- A pending command that is withdrawn had nothing told to its holder, and now has. -/
theorem slots_withdraw (h : Coherent t) (vehicle : VehicleId) (outcome : Outcome) (slot : SlotId) :
    (t.withdraw vehicle outcome).slots[slot]? =
      if t.current? vehicle = some slot then some ⟨vehicle, some outcome⟩
      else t.slots[slot]? := by
  rw [CommandTable.slots_withdraw]
  split
  next hentry =>
    rw [(h.current_iff vehicle slot).mp hentry]
    rfl
  next => rfl

theorem withdraw (h : Coherent t) (vehicle : VehicleId) (outcome : Outcome) :
    Coherent (t.withdraw vehicle outcome) where
  lt_next := by
    intro slot s hs
    rw [next_withdraw]
    rw [h.slots_withdraw] at hs
    split at hs
    next hentry => exact h.current_lt_next hentry
    next => exact h.lt_next slot s hs
  current_iff := by
    intro other slot
    rw [current?_withdraw, h.slots_withdraw]
    by_cases hv : vehicle = other
    · subst hv
      by_cases hentry : t.current? vehicle = some slot
      · simp [hentry]
      · rw [if_pos rfl, if_neg hentry, ← h.current_iff]
        simp [hentry]
    · rw [if_neg hv]
      by_cases hentry : t.current? vehicle = some slot
      -- The slot was the withdrawn one's, so it is not the other vehicle's.
      · have hother : t.current? other ≠ some slot := fun hother =>
          hv (h.vehicle_unique hentry hother)
        simp [hentry, hother]
      · rw [if_neg hentry, h.current_iff]

/-- As long as a command is pending, the holder of its slot finds nothing. -/
theorem wait?_of_current (h : Coherent t) (hentry : t.current? vehicle = some slot) :
    t.wait? slot = none := by
  rw [h.wait?_eq_outcome?, outcome?, (h.current_iff vehicle slot).mp hentry]
  rfl

/-- When it is withdrawn, the holder finds the outcome. -/
theorem wait?_withdraw (h : Coherent t) (hentry : t.current? vehicle = some slot)
    (outcome : Outcome) : (t.withdraw vehicle outcome).wait? slot = some outcome := by
  rw [(h.withdraw vehicle outcome).wait?_eq_outcome?, outcome?, h.slots_withdraw, if_pos hentry]
  rfl

theorem fulfill (h : Coherent t) (vehicle : VehicleId) (text : String) :
    Coherent (t.fulfill vehicle text).2 := by
  rw [fulfill_snd]
  exact h.withdraw vehicle _

/-- A response is taken exactly when a command is pending. -/
theorem fulfill_fst (h : Coherent t) (vehicle : VehicleId) (text : String) :
    (t.fulfill vehicle text).1 = t.isPending vehicle := by
  rw [isPending_eq_isSome]
  unfold CommandTable.fulfill
  simp only [remove]
  cases hentry : t.current? vehicle with
  | none => rfl
  | some slot =>
      have hs := (h.current_iff vehicle slot).mp hentry
      simp [resolve, hs]

theorem cancel (h : Coherent t) (vehicle : VehicleId) : Coherent (t.cancel vehicle).2 := by
  rw [cancel_snd]
  exact h.withdraw vehicle _

theorem current?_release (h : Coherent t) (slot : SlotId) (other : VehicleId) :
    (t.release slot).current? other =
      if t.current? other = some slot then none else t.current? other :=
  current?_removeOwn (fun vehicle => (h.current_iff vehicle slot).mp) other

theorem release (h : Coherent t) (slot : SlotId) : Coherent (t.release slot) where
  lt_next := by
    intro other s hs
    rw [next_release]
    rw [slots_release] at hs
    split at hs
    · cases hs
    · exact h.lt_next other s hs
  current_iff := by
    intro vehicle other
    rw [h.current?_release, slots_release]
    by_cases hslot : slot = other
    · subst hslot
      by_cases hentry : t.current? vehicle = some slot <;> simp [hentry]
    · rw [if_neg hslot, ← h.current_iff]
      by_cases hentry : t.current? vehicle = some slot
      · simp [hentry, hslot]
      · simp [hentry]

/-- A new command takes the next number and the entry of its vehicle. -/
theorem of_begin (h : Coherent t) {now : Nat} {strict : Bool} {begun : CommandTable}
    (hbegin : t.begin now strict vehicle = some (slot, begun)) :
    slot = t.next ∧ begun.next = t.next + 1 ∧
      (∀ other, begun.pending[other]? =
        if vehicle = other then some ⟨t.next, now⟩ else t.pending[other]?) ∧
      ∀ other, begun.slots[other]? =
        if t.next = other then some ⟨vehicle, none⟩
        else if t.current? vehicle = some other then some ⟨vehicle, some .cancelled⟩
        else t.slots[other]? := by
  have hpending := pending_enter t now vehicle
  have hslots := slots_enter t now vehicle
  unfold CommandTable.begin at hbegin
  split at hbegin
  · cases hbegin
  · simp only [show (t.enter now vehicle).1 = t.current? vehicle from rfl] at hbegin
    cases hentry : t.current? vehicle with
    | none =>
        simp only [hentry, Option.some.injEq, Prod.mk.injEq] at hbegin
        obtain ⟨rfl, rfl⟩ := hbegin
        exact ⟨rfl, rfl, hpending, by simpa using hslots⟩
    | some replaced =>
        simp only [hentry, Option.some.injEq, Prod.mk.injEq] at hbegin
        obtain ⟨rfl, rfl⟩ := hbegin
        refine ⟨rfl, by simp [enter], by simpa using hpending, ?_⟩
        -- The replaced slot is not the new one, whose number was still to be given.
        have hlt : replaced < t.next := h.current_lt_next hentry
        have hs := (h.current_iff vehicle replaced).mp hentry
        intro other
        rw [slots_resolve, hslots, hslots]
        by_cases hreplaced : replaced = other
        · subst hreplaced
          rw [if_pos rfl, if_neg (Nat.ne_of_gt hlt), hs]
          simp [Nat.ne_of_gt hlt]
        · simp [hreplaced]

theorem current?_of_begin (h : Coherent t) {now : Nat} {strict : Bool} {begun : CommandTable}
    (hbegin : t.begin now strict vehicle = some (slot, begun)) (other : VehicleId) :
    begun.current? other = if vehicle = other then some t.next else t.current? other := by
  obtain ⟨-, -, hpending, -⟩ := h.of_begin hbegin
  unfold current?
  rw [hpending]
  split <;> rfl

theorem begin (h : Coherent t) {now : Nat} {strict : Bool} {begun : CommandTable}
    (hbegin : t.begin now strict vehicle = some (slot, begun)) : Coherent begun := by
  obtain ⟨rfl, hnext, -, hslots⟩ := h.of_begin hbegin
  have hentries := h.current?_of_begin hbegin
  constructor
  · intro other s hs
    rw [hnext]
    rw [hslots] at hs
    split at hs
    next heq =>
      rw [← heq]
      exact Nat.lt_succ_self _
    next =>
      split at hs
      next hentry => exact Nat.lt_succ_of_lt (h.current_lt_next hentry)
      next => exact Nat.lt_succ_of_lt (h.lt_next other s hs)
  · intro other third
    rw [hentries, hslots]
    by_cases hthird : t.next = third
    · subst hthird
      have hfresh : t.current? other ≠ some t.next := fun hentry =>
        Nat.lt_irrefl _ (h.current_lt_next hentry)
      by_cases hv : vehicle = other <;> simp [hv, hfresh]
    · rw [if_neg hthird]
      by_cases hv : vehicle = other
      · subst hv
        by_cases hentry : t.current? vehicle = some third
        · simp [hentry, hthird]
        · rw [if_pos rfl, if_neg hentry, ← h.current_iff]
          simp [hentry, hthird]
      · rw [if_neg hv]
        by_cases hentry : t.current? vehicle = some third
        · have hother : t.current? other ≠ some third := fun hother =>
            hv (h.vehicle_unique hentry hother)
          simp [hentry, hother]
        · rw [if_neg hentry, h.current_iff]

end Coherent

/-- In strict mode a command is refused exactly while another is pending; in lenient mode never. -/
theorem begin_eq_none_iff (t : CommandTable) (now : Nat) (strict : Bool) (vehicle : VehicleId) :
    t.begin now strict vehicle = none ↔ strict = true ∧ t.isPending vehicle = true := by
  rw [← Bool.and_eq_true]
  unfold CommandTable.begin
  split
  next h => simp only [h]
  next h =>
    dsimp only
    split <;> simp [h]

/-! ## Counting -/

/-- The pending commands are as many as their slots. -/
theorem Coherent.count_eq_length {t : CommandTable} (h : Coherent t) {slots : List SlotId}
    (honce : slots.Nodup)
    (hentries : ∀ slot, slot ∈ slots ↔ ∃ vehicle, t.current? vehicle = some slot) :
    t.count = slots.length := by
  have hpending : (t.pending.toList.map fun entry => entry.2.slot).Nodup := by
    refine List.pairwise_map.mpr (Std.ExtTreeMap.distinct_keys_toList.imp_of_mem ?_)
    intro first second hfirst hsecond hne heq
    rw [Std.ExtTreeMap.mem_toList_iff_getElem?_eq_some] at hfirst hsecond
    have hentry : t.current? first.1 = some first.2.slot := by simp [current?, hfirst]
    have hother : t.current? second.1 = some first.2.slot := by simp [current?, hsecond, heq]
    exact hne (Std.compare_eq_iff_eq.mpr (h.vehicle_unique hentry hother))
  have hsame : List.Perm (t.pending.toList.map fun entry => entry.2.slot) slots := by
    refine (List.perm_ext_iff_of_nodup hpending honce).mpr fun slot => ?_
    rw [hentries, List.mem_map]
    constructor
    · rintro ⟨⟨vehicle, p⟩, hmem, rfl⟩
      rw [Std.ExtTreeMap.mem_toList_iff_getElem?_eq_some] at hmem
      exact ⟨vehicle, Option.map_eq_some_iff.mpr ⟨p, hmem, rfl⟩⟩
    · rintro ⟨vehicle, hentry⟩
      obtain ⟨p, hp, rfl⟩ := Option.map_eq_some_iff.mp hentry
      exact ⟨(vehicle, p), Std.ExtTreeMap.mem_toList_iff_getElem?_eq_some.mpr hp, rfl⟩
  have hlength := hsame.length_eq
  rw [List.length_map, Std.ExtTreeMap.length_toList] at hlength
  exact hlength

/-- The pending commands are as many as the slots that are held and not resolved. -/
theorem Coherent.count_eq_countP {t : CommandTable} (h : Coherent t) :
    t.count = t.slots.toList.countP fun entry => entry.2.outcome.isNone := by
  have honce : ((t.slots.toList.filter fun entry => entry.2.outcome.isNone).map
      fun entry => entry.1).Nodup := by
    refine List.pairwise_map.mpr
      (List.Pairwise.filter _ (Std.ExtTreeMap.distinct_keys_toList.imp ?_))
    intro first second hne heq
    exact hne (Std.compare_eq_iff_eq.mpr heq)
  rw [List.countP_eq_length_filter, ← List.length_map fun entry => entry.1]
  refine h.count_eq_length honce fun slot => ?_
  rw [List.mem_map]
  constructor
  · rintro ⟨⟨slot, s⟩, hmem, rfl⟩
    rw [List.mem_filter, Std.ExtTreeMap.mem_toList_iff_getElem?_eq_some] at hmem
    obtain ⟨hs, hnone⟩ := hmem
    exact ⟨s.vehicle, (h.outcome_eq_none_iff hs).mp (Option.isNone_iff_eq_none.mp hnone)⟩
  · rintro ⟨vehicle, hentry⟩
    have hs := (h.current_iff vehicle slot).mp hentry
    exact ⟨(slot, ⟨vehicle, none⟩),
      by simp [Std.ExtTreeMap.mem_toList_iff_getElem?_eq_some, hs], rfl⟩

end CommandTable

end FleetLink
