import FleetLink.Proofs.CommandTable.History

/-!
# The two sections of an operation

The lock of a command table is held for less than a whole operation.  Whoever takes a command
out of the table tells its holder afterwards, and whoever lets a slot go closes it
afterwards.  An operation is thus made of two sections.  The first works on the table
(`locked`), and leaves an errand for the second (`Errand`); one right after the other, they
are the operation (`conclude_locked`).

## Main Statements

* `locked`, `Errand` — the two sections of an operation
* `conclude_locked` — one after the other they are the operation
* `entry_of_locked`, `letsGo_of_locked` — which operations leave which errands
* `slots_locked` — the slots after a locked section
* `Errand.outcome?_of_perform`, `Errand.closes_of_perform` — the slots after an errand
-/

namespace FleetLink.CommandTable

/-! ## Two sections -/

/-- What is left to do of an operation after its locked section. -/
inductive Errand where
  /-- The holder of a slot is told how its command ended. -/
  | tell (slot : SlotId) (outcome : Outcome)
  /-- A slot is closed. -/
  | close (slot : SlotId)
  deriving DecidableEq, Repr

namespace Errand

/-- The slot that an errand is about. -/
def slot : Errand → SlotId
  | tell slot _ | close slot => slot

/-- The second section of an operation. -/
def perform (t : CommandTable) : Errand → CommandTable
  | tell slot outcome => (t.resolve slot outcome).2
  | close slot => t.close slot

end Errand

/-- The locked section of ending a command: its entry leaves the table, and the holder of the slot
is to be told the outcome. -/
def takeOut (t : CommandTable) (vehicle : VehicleId) (outcome : Outcome) :
    Option Errand × CommandTable :=
  ((t.remove vehicle).1.map (.tell · outcome), (t.remove vehicle).2)

/-- The locked section of letting a slot go that somebody holds. -/
def letGo (t : CommandTable) (slot : SlotId) : Option Errand × CommandTable :=
  match t.slots[slot]? with
  | none => (none, t)
  | some _ => (some (.close slot), t.removeOwn slot)

/-- The locked section of an operation, and what it leaves to do.  Whoever waits lets the slot go
when it was told something. -/
def locked (t : CommandTable) : Operation → Option Errand × CommandTable
  | .begin now strict vehicle =>
    if strict && t.isPending vehicle then (none, t)
    else ((t.enter now vehicle).1.map (.tell · .cancelled), (t.enter now vehicle).2)
  | .fulfill vehicle text => t.takeOut vehicle (.completed text)
  | .cancel vehicle => t.takeOut vehicle .cancelled
  | .wait slot => if (t.outcome? slot).isSome then t.letGo slot else (none, t)
  | .drop slot => t.letGo slot

/-- What becomes of the table when an errand, if there is one, is run at once. -/
def conclude (left : Option Errand × CommandTable) : CommandTable :=
  left.1.elim left.2 (·.perform left.2)

/-- Letting go of what nobody holds changes nothing. -/
theorem release_of_free {t : CommandTable} {slot : SlotId} (hslot : t.slots[slot]? = none) :
    t.release slot = t := by
  have hslots := erase_of_getElem?_eq_none hslot
  simp [release, removeOwn, close, hslot, hslots]

theorem conclude_letGo (t : CommandTable) (slot : SlotId) :
    conclude (t.letGo slot) = t.release slot := by
  unfold letGo
  split
  next hfree => exact (release_of_free hfree).symm
  next => rfl

/-- **The two sections, one after the other, are the operation.** -/
theorem conclude_locked {t : CommandTable} (h : Coherent t) (operation : Operation) :
    conclude (t.locked operation) = t.step operation := by
  cases operation with
  | begin now strict vehicle =>
      simp only [locked, CommandTable.step, CommandTable.begin]
      by_cases hrefused : (strict && t.isPending vehicle) = true
      · rw [if_pos hrefused, if_pos hrefused]
        rfl
      · rw [if_neg hrefused, if_neg hrefused]
        cases (t.enter now vehicle).1 <;> rfl
  | fulfill vehicle text =>
      simp only [locked, takeOut, CommandTable.step, CommandTable.fulfill]
      cases (t.remove vehicle).1 <;> rfl
  | cancel vehicle =>
      simp only [locked, takeOut, CommandTable.step, CommandTable.cancel]
      cases (t.remove vehicle).1 <;> rfl
  | wait slot =>
      simp only [locked, CommandTable.step, h.wait?_eq_outcome?]
      cases t.outcome? slot with
      | none => rfl
      | some outcome => exact conclude_letGo t slot
  | drop slot => exact conclude_letGo t slot

/-! ### What a locked section leaves, and what it does to the slots -/

/-- Only the operation that met a slot as the entry of its vehicle goes and tells its holder. -/
theorem entry_of_locked (t : CommandTable) {operation : Operation} {slot : SlotId}
    {outcome : Outcome} (hleft : (t.locked operation).1 = some (.tell slot outcome)) :
    ∃ vehicle, t.current? vehicle = some slot ∧ operation.resolution? vehicle = some outcome := by
  have hletGo : ∀ own, (t.letGo own).1 ≠ some (.tell slot outcome) := by
    intro own
    unfold letGo
    split <;> simp
  cases operation with
  | begin now strict vehicle =>
      simp only [locked] at hleft
      split at hleft
      next => cases hleft
      next hgranted =>
        obtain ⟨replaced, hentry, heq⟩ := Option.map_eq_some_iff.mp hleft
        cases heq
        refine ⟨vehicle, hentry, ?_⟩
        have hpending : t.isPending vehicle = true := by
          rw [isPending_eq_isSome, show t.current? vehicle = some slot from hentry]
          rfl
        have hlenient : strict = false := by simpa [hpending] using hgranted
        simp [Operation.resolution?, hlenient]
  | fulfill vehicle text =>
      obtain ⟨own, hentry, heq⟩ := Option.map_eq_some_iff.mp hleft
      cases heq
      exact ⟨vehicle, hentry, by simp [Operation.resolution?]⟩
  | cancel vehicle =>
      obtain ⟨own, hentry, heq⟩ := Option.map_eq_some_iff.mp hleft
      cases heq
      exact ⟨vehicle, hentry, by simp [Operation.resolution?]⟩
  | wait own =>
      simp only [locked] at hleft
      split at hleft
      next => exact absurd hleft (hletGo own)
      next => cases hleft
  | drop own => exact absurd hleft (hletGo own)

/-- Only whoever lets a slot go closes it: its holder wants no outcome, or has one. -/
theorem letsGo_of_locked (t : CommandTable) {operation : Operation} {slot : SlotId}
    (hleft : (t.locked operation).1 = some (.close slot)) :
    operation = .drop slot ∨ operation = .wait slot ∧ (t.outcome? slot).isSome := by
  have hletGo : ∀ {own}, (t.letGo own).1 = some (.close slot) → own = slot := by
    intro own hown
    unfold letGo at hown
    split at hown <;> cases hown
    rfl
  cases operation with
  | begin now strict vehicle =>
      simp only [locked] at hleft
      split at hleft
      next => cases hleft
      next =>
        obtain ⟨replaced, -, heq⟩ := Option.map_eq_some_iff.mp hleft
        cases heq
  | fulfill vehicle text | cancel vehicle =>
      obtain ⟨own, -, heq⟩ := Option.map_eq_some_iff.mp hleft
      cases heq
  | wait own =>
      simp only [locked] at hleft
      split at hleft
      next htold =>
        obtain rfl := hletGo hleft
        exact .inr ⟨rfl, htold⟩
      next => cases hleft
  | drop own => exact .inl (by rw [hletGo hleft])

@[simp] theorem slots_letGo (t : CommandTable) (slot : SlotId) :
    (t.letGo slot).2.slots = t.slots := by
  unfold letGo
  split
  · rfl
  · exact slots_removeOwn t slot

@[simp] theorem next_letGo (t : CommandTable) (slot : SlotId) : (t.letGo slot).2.next = t.next := by
  unfold letGo
  split
  · rfl
  · exact next_removeOwn t slot

/-- A locked section leaves the slots as they are, except that it may open a new one. -/
theorem slots_locked (t : CommandTable) (operation : Operation) (slot : SlotId) :
    (t.locked operation).2.slots[slot]? = t.slots[slot]? ∨
      slot = t.next ∧ ∃ vehicle, (t.locked operation).2.slots[slot]? = some ⟨vehicle, none⟩ := by
  cases operation with
  | begin now strict vehicle =>
      simp only [locked]
      split
      next => exact .inl rfl
      next =>
        rw [slots_enter]
        split
        next hnew => exact .inr ⟨hnew.symm, vehicle, rfl⟩
        next => exact .inl rfl
  | fulfill vehicle text | cancel vehicle => exact .inl rfl
  | wait own =>
      simp only [locked]
      split
      next => exact .inl (by rw [slots_letGo])
      next => exact .inl rfl
  | drop own => exact .inl (by rw [locked, slots_letGo])

theorem next_le_next_locked (t : CommandTable) (operation : Operation) :
    t.next ≤ (t.locked operation).2.next := by
  cases operation with
  | begin now strict vehicle =>
      simp only [locked]
      split
      next => exact Nat.le_refl _
      next => exact Nat.le_succ _
  | fulfill vehicle text | cancel vehicle => exact Nat.le_refl _
  | wait own =>
      simp only [locked]
      split
      next => exact Nat.le_of_eq (next_letGo t own).symm
      next => exact Nat.le_refl _
  | drop own => exact Nat.le_of_eq (next_letGo t own).symm

/-! ### What an errand does -/

namespace Errand

variable {t : CommandTable} (errand : Errand)

theorem pending_perform : (errand.perform t).pending = t.pending := by
  cases errand with
  | tell slot outcome => exact pending_resolve t slot outcome
  | close slot => rfl

theorem next_perform : (errand.perform t).next = t.next := by
  cases errand with
  | tell slot outcome => exact next_resolve t slot outcome
  | close slot => rfl

/-- Whatever a holder was told, the errand was to tell it, or it was told before. -/
theorem outcome?_of_perform {slot : SlotId} {outcome : Outcome}
    (htold : (errand.perform t).outcome? slot = some outcome) :
    t.outcome? slot = some outcome ∨ errand = .tell slot outcome := by
  cases errand with
  | tell own told =>
      simp only [perform, outcome?, slots_resolve] at htold
      by_cases hown : own = slot
      · subst hown
        rw [if_pos rfl] at htold
        obtain ⟨held, hheld, houtcome⟩ := Option.bind_eq_some_iff.mp htold
        obtain ⟨before, -, rfl⟩ := Option.map_eq_some_iff.mp hheld
        cases houtcome
        exact .inr rfl
      · rw [if_neg hown] at htold
        exact .inl htold
  | close own =>
      simp only [perform, outcome?, CommandTable.close, Std.ExtTreeMap.getElem?_erase] at htold
      split at htold
      next => cases htold
      next => exact .inl htold

/-- A slot that is held no more was the one to close. -/
theorem closes_of_perform {slot : SlotId} {held : CommandSlot}
    (hbefore : t.slots[slot]? = some held) (hafter : (errand.perform t).slots[slot]? = none) :
    errand = .close slot := by
  cases errand with
  | tell own told =>
      simp only [perform, slots_resolve] at hafter
      split at hafter
      next hown =>
        rw [hown, hbefore] at hafter
        cases hafter
      next =>
        rw [hbefore] at hafter
        cases hafter
  | close own =>
      simp only [perform, CommandTable.close, Std.ExtTreeMap.getElem?_erase] at hafter
      split at hafter
      next hown => rw [Std.LawfulEqCmp.eq_of_compare hown]
      next =>
        rw [hbefore] at hafter
        cases hafter

end Errand

end FleetLink.CommandTable
