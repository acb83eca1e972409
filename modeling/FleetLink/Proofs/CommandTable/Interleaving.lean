import Mathlib.Logic.ExistsUnique
import FleetLink.Proofs.CommandTable.Resolvers

/-!
# Histories of operations that interleave

Sections of any operations on a command table follow each other in any order.  This module says what
can be known of the table from the history of the sections alone.

**A slot that was told something is spent**: no entry points at it and no operation is about to tell
it anything, and that stays so (`Spent`), because an errand stems from an operation that met the
slot as an entry, and new entries are made for new slots.  Hence a slot is told something once.

**An errand belongs to the section that left it** (`errand_since`).  What a response is answered is
found when its errand is run, maybe long after; the slot is still the one that the locked section
met, and if nobody holds it any more then its holder let it go in between (`dropped_between`).

## Main Statements

* `Consistent.pending_letGo` — a slot that is let go takes its own entry along and nobody else's
* `Tells`, `Tells.unique` — the holder of a slot is told something, and only once
* `Shared.answer?` — what a response is answered, and when
* `interleaving_law` — slots, outcomes and answers after every history
-/

namespace FleetLink.CommandTable

namespace Shared

/-! ## What a section does -/

/-- An errand leaves the entries as they are. -/
theorem pending_finish (s : Shared) (place : Nat) :
    (s.step (.finish place)).table.pending = s.table.pending := by
  cases herrand : s.errands[place]? with
  | none => rw [table_finish_of_none herrand]
  | some errand => rw [table_finish herrand, errand.pending_perform]

theorem next_finish (s : Shared) (place : Nat) :
    (s.step (.finish place)).table.next = s.table.next := by
  cases herrand : s.errands[place]? with
  | none => rw [table_finish_of_none herrand]
  | some errand => rw [table_finish herrand, errand.next_perform]

/-- Whatever a holder was told, a section tells it, or it was told before. -/
theorem outcome?_of_step {s : Shared} {part : Section} {slot : SlotId} {outcome : Outcome}
    (htold : (s.step part).table.outcome? slot = some outcome) :
    s.table.outcome? slot = some outcome ∨
      ∃ place, part = .finish place ∧ s.errands[place]? = some (.tell slot outcome) := by
  cases part with
  | locked operation =>
      refine .inl ?_
      have hafter : ((s.table.locked operation).2.slots[slot]?.bind (·.outcome)) = some outcome :=
        htold
      rcases slots_locked s.table operation slot with hsame | ⟨-, vehicle, hopened⟩
      · rw [hsame] at hafter
        exact hafter
      -- A slot is opened with nothing told.
      · rw [hopened] at hafter
        cases hafter
  | finish place =>
      cases herrand : s.errands[place]? with
      | none =>
          rw [table_finish_of_none herrand] at htold
          exact .inl htold
      | some errand =>
          rw [table_finish herrand] at htold
          rcases errand.outcome?_of_perform htold with hbefore | rfl
          · exact .inl hbefore
          · exact .inr ⟨place, rfl, herrand⟩

/-- A slot that is held no more was closed, by whoever let it go. -/
theorem closes_of_step {s : Shared} {part : Section} {slot : SlotId} {held : CommandSlot}
    (hbefore : s.table.slots[slot]? = some held)
    (hafter : (s.step part).table.slots[slot]? = none) :
    ∃ place, part = .finish place ∧ s.errands[place]? = some (.close slot) := by
  cases part with
  | locked operation =>
      have hgone : (s.table.locked operation).2.slots[slot]? = none := hafter
      rcases slots_locked s.table operation slot with hsame | ⟨-, vehicle, hopened⟩
      · rw [hsame, hbefore] at hgone
        cases hgone
      · rw [hopened] at hgone
        cases hgone
  | finish place =>
      cases herrand : s.errands[place]? with
      | none =>
          rw [table_finish_of_none herrand, hbefore] at hafter
          cases hafter
      | some errand =>
          rw [table_finish herrand] at hafter
          obtain rfl := errand.closes_of_perform hbefore hafter
          exact ⟨place, rfl, herrand⟩

namespace Consistent

variable {s : Shared}

/-- **A slot that is let go takes its own entry along and nobody else's.** -/
theorem pending_letGo (h : s.Consistent) (slot : SlotId) (vehicle : VehicleId) :
    (s.table.letGo slot).2.pending[vehicle]? =
      if s.table.current? vehicle = some slot then none else s.table.pending[vehicle]? := by
  unfold CommandTable.letGo
  split
  next hfree =>
    rw [if_neg]
    intro hentry
    rw [(h.entry hentry).1] at hfree
    cases hfree
  next =>
    show (s.table.release slot).pending[vehicle]? = _
    rw [pending_release]
    by_cases hentry : s.table.current? vehicle = some slot
    · simp [hentry, (h.entry hentry).1]
    · simp [hentry]

/-- A holder that was told something finds its entry gone, and takes nothing away. -/
theorem pending_wait (h : s.Consistent) (slot : SlotId) (vehicle : VehicleId) :
    (s.table.locked (.wait slot)).2.pending[vehicle]? = s.table.pending[vehicle]? := by
  simp only [CommandTable.locked]
  split
  next htold =>
    rw [h.pending_letGo, if_neg]
    intro hentry
    rw [outcome?, (h.entry hentry).1] at htold
    cases htold
  next => rfl

/-- A slot that is held and that nobody is letting go is one of three things: the entry of its
vehicle, or told something, or about to be told something by one operation. -/
theorem resolver_cases (h : s.Consistent) {slot : SlotId} {held : CommandSlot}
    (hheld : s.table.slots[slot]? = some held) (hopen : ¬ s.Closing slot) :
    ((∀ vehicle, s.table.current? vehicle = some slot ↔ vehicle = held.vehicle) ∧
        held.outcome = none ∧ ∀ place, ¬ s.Telling place slot) ∨
      ((∀ vehicle, s.table.current? vehicle ≠ some slot) ∧
        held.outcome ≠ none ∧ ∀ place, ¬ s.Telling place slot) ∨
      ((∀ vehicle, s.table.current? vehicle ≠ some slot) ∧
        held.outcome = none ∧ ∃! place, s.Telling place slot) := by
  have hentry : ∀ {vehicle}, s.table.current? vehicle = some slot →
      vehicle = held.vehicle ∧ held.outcome = none := by
    intro vehicle hentry
    have heq := hheld.symm.trans (h.entry hentry).1
    cases heq
    exact ⟨rfl, rfl⟩
  by_cases htelling : ∃ place, s.Telling place slot
  · obtain ⟨place, htell⟩ := htelling
    obtain ⟨hentries, hnone⟩ := h.taken htell
    exact .inr (.inr ⟨hentries, hnone held hheld, place, htell, fun other hother =>
      h.once hother htell⟩)
  have hsilent : ∀ place, ¬ s.Telling place slot := fun place htell => htelling ⟨place, htell⟩
  by_cases hnone : held.outcome = none
  · rcases h.awaited hheld hnone hopen with hown | htell
    · refine .inl ⟨fun vehicle => ⟨fun hother => (hentry hother).1, ?_⟩, hnone, hsilent⟩
      rintro rfl
      exact hown
    · exact absurd htell htelling
  · exact .inr (.inl ⟨fun vehicle hother => hnone (hentry hother).2, hnone, hsilent⟩)

/-- An entry that was not there before points at a new slot. -/
theorem current?_locked (h : s.Consistent) {operation : Operation} {vehicle : VehicleId}
    {slot : SlotId} (hentry : (s.table.locked operation).2.current? vehicle = some slot) :
    s.table.current? vehicle = some slot ∨ slot = s.table.next := by
  have hkept : ∀ {t : CommandTable}, t.pending[vehicle]? = s.table.pending[vehicle]? →
      t.current? vehicle = some slot → s.table.current? vehicle = some slot := by
    intro t hsame hafter
    rw [current?, hsame] at hafter
    exact hafter
  have hletGo : ∀ {own}, (s.table.letGo own).2.current? vehicle = some slot →
      s.table.current? vehicle = some slot := by
    intro own hafter
    rw [current?, h.pending_letGo] at hafter
    split at hafter
    next => cases hafter
    next => exact hafter
  cases operation with
  | begin now strict own =>
      simp only [CommandTable.locked] at hentry
      split at hentry
      next => exact .inl hentry
      next =>
        rw [current?_enter] at hentry
        split at hentry
        next => exact .inr (Option.some.inj hentry).symm
        next => exact .inl hentry
  | fulfill own text | cancel own =>
      refine .inl ?_
      simp only [CommandTable.locked, CommandTable.takeOut, current?_remove] at hentry
      exact (Option.ite_none_left_eq_some.mp hentry).2
  | wait own => exact .inl (hkept (h.pending_wait own vehicle) hentry)
  | drop own => exact .inl (hletGo hentry)

end Consistent

/-! ## Spent slots -/

/-- Nobody is going to tell the holder of a slot anything any more. -/
structure Spent (s : Shared) (slot : SlotId) : Prop where
  lt_next : slot < s.table.next
  no_entry : ∀ vehicle, s.table.current? vehicle ≠ some slot
  no_telling : ∀ place, ¬ s.Telling place slot

/-- A spent slot stays spent. -/
theorem Spent.step {s : Shared} {slot : SlotId} (hspent : s.Spent slot) (h : s.Consistent)
    (part : Section) : (s.step part).Spent slot := by
  cases part with
  | locked operation =>
      constructor
      case lt_next =>
        exact Nat.lt_of_lt_of_le hspent.lt_next (next_le_next_locked s.table operation)
      case no_entry =>
        intro vehicle hentry
        rcases h.current?_locked hentry with hbefore | hnew
        · exact hspent.no_entry vehicle hbefore
        · exact Nat.ne_of_lt hspent.lt_next hnew
      case no_telling =>
        rintro place ⟨outcome, herrand⟩
        rcases h.errands_proceed_eq_some.mp herrand with ⟨-, hleft⟩ | hbefore
        · obtain ⟨vehicle, hentry, -⟩ := entry_of_locked s.table hleft
          exact hspent.no_entry vehicle hentry
        · exact hspent.no_telling place ⟨outcome, hbefore⟩
  | finish place =>
      constructor
      case lt_next =>
        rw [next_finish]
        exact hspent.lt_next
      case no_entry =>
        intro vehicle
        rw [current?, pending_finish]
        exact hspent.no_entry vehicle
      case no_telling =>
        intro other htell
        exact hspent.no_telling other ((telling_finish s).mp htell).2

theorem Spent.run {s : Shared} {slot : SlotId} (hspent : s.Spent slot) (h : s.Consistent)
    (parts : List Section) :
    (s.run parts).Spent slot := by
  induction parts generalizing s with
  | nil => exact hspent
  | cons part parts ih => exact ih (hspent.step h part) (h.step part)

/-! ## What a response is answered -/

/-- What a response is answered, if its operation is over with a section, and where it began: false
if the vehicle has no entry, and else whether the holder was still there to be told. -/
def answer? (s : Shared) : Section → Option (Nat × Bool)
  | .locked (.fulfill vehicle _) =>
    if (s.table.current? vehicle).isNone then some (s.time, false) else none
  | .locked _ => none
  | .finish place =>
    match s.errands[place]? with
    | some (.tell slot (.completed text)) =>
      some (place, (s.table.resolve slot (.completed text)).1)
    | _ => none

/-- **One after the other, the two sections answer what the operation answers.** -/
theorem answer?_fulfill {s : Shared} (h : s.Consistent) (vehicle : VehicleId) (text : String) :
    (s.answer? (.locked (.fulfill vehicle text))).or
        ((s.step (.locked (.fulfill vehicle text))).answer? (.finish s.time)) =
      some (s.time, (s.table.fulfill vehicle text).1) := by
  have herrands : (s.step (.locked (.fulfill vehicle text))).errands[s.time]? =
      (s.table.current? vehicle).map (.tell · (.completed text)) := by
    show (s.proceed (s.table.takeOut vehicle (.completed text))).errands[s.time]? = _
    rw [h.errands_proceed, if_pos rfl]
    rfl
  cases hentry : s.table.current? vehicle with
  | none => simp [answer?, fulfill, remove, hentry]
  | some slot =>
      rw [hentry] at herrands
      simp only [answer?, herrands, hentry]
      simp [fulfill, remove, hentry, step, proceed, CommandTable.locked, takeOut]

/-! ## Whole histories -/

/-- What there is before a section of a history. -/
def before (history : List Section) (k : Nat) : Shared := start.run (history.take k)

section

variable {history : List Section} {i j k l : Nat} {slot : SlotId} {outcome : Outcome}

theorem consistent_before (history : List Section) (k : Nat) : (before history k).Consistent :=
  consistent_start.run _

theorem before_succ {part : Section} (hpart : history[k]? = some part) :
    before history (k + 1) = (before history k).step part := by
  rw [before, List.take_add_one, hpart]
  simp [run, before]

theorem before_succ_of_none (hpart : history[k]? = none) :
    before history (k + 1) = before history k := by
  rw [before, List.take_add_one, hpart, Option.toList_none, List.append_nil, before]

theorem before_add (history : List Section) (i d : Nat) :
    before history (i + d) = (before history i).run ((history.drop i).take d) := by
  simp [before, run, List.take_add, List.foldl_append]

theorem time_run (s : Shared) (history : List Section) :
    (s.run history).time = s.time + history.length := by
  induction history generalizing s with
  | nil => rfl
  | cons part history ih =>
      have hstep : (s.step part).time = s.time + 1 := by cases part <;> rfl
      show ((s.step part).run history).time = _
      rw [ih, hstep, List.length_cons]
      omega

/-- The places of a history are numbered as the table numbers them. -/
theorem time_before {part : Section} (hpart : history[k]? = some part) :
    (before history k).time = k := by
  have hlt : k < history.length := (List.getElem?_eq_some_iff.mp hpart).1
  rw [before, time_run, List.length_take, Nat.min_eq_left (Nat.le_of_lt hlt)]
  exact Nat.zero_add k

/-- An errand was there before, or the section left it. -/
theorem errand_of_succ {errand : Errand}
    (herrand : (before history (i + 1)).errands[k]? = some errand) :
    (before history i).errands[k]? = some errand ∨
      k = i ∧ ∃ operation, history[i]? = some (.locked operation) ∧
        ((before history i).table.locked operation).1 = some errand := by
  cases hpart : history[i]? with
  | none =>
      rw [before_succ_of_none hpart] at herrand
      exact .inl herrand
  | some part =>
      rw [before_succ hpart] at herrand
      cases part with
      | locked operation =>
          rcases (consistent_before history i).errands_proceed_eq_some.mp herrand with
            ⟨htime, hleft⟩ | hold
          · exact .inr ⟨htime.trans (time_before hpart), operation, rfl, hleft⟩
          · exact .inl hold
      | finish place => exact .inl ((errands_finish _).mp herrand).2

/-- **An errand belongs to the section that left it.** -/
theorem errand_began {errand : Errand} (herrand : (before history i).errands[k]? = some errand) :
    k < i ∧ ∃ operation, history[k]? = some (.locked operation) ∧
      ((before history k).table.locked operation).1 = some errand := by
  induction i with
  | zero => simp [before, run, start] at herrand
  | succ i ih =>
      rcases errand_of_succ herrand with hold | ⟨rfl, hleft⟩
      · exact ⟨Nat.lt_succ_of_lt (ih hold).1, (ih hold).2⟩
      · exact ⟨Nat.lt_succ_self k, hleft⟩

/-- It has been there ever since. -/
theorem errand_since {errand : Errand} (herrand : (before history i).errands[k]? = some errand)
    (hkj : k < j) (hji : j ≤ i) : (before history j).errands[k]? = some errand := by
  obtain ⟨d, rfl⟩ := Nat.le.dest hji
  clear hji
  induction d with
  | zero => exact herrand
  | succ d ih =>
      rcases errand_of_succ herrand with hold | ⟨rfl, -⟩
      · exact ih hold
      · exact absurd hkj (Nat.not_lt.mpr (Nat.le_add_right j d))

/-! ### Being told something -/

/-- At a place of a history the holder of a slot is told how its command ended. -/
def Tells (history : List Section) (k : Nat) (slot : SlotId) (outcome : Outcome) : Prop :=
  ∃ place, history[k]? = some (.finish place) ∧
    (before history k).errands[place]? = some (.tell slot outcome)

/-- Once the holder was told, the slot is spent. -/
theorem Tells.spent (htells : Tells history k slot outcome) :
    (before history (k + 1)).Spent slot := by
  obtain ⟨place, hpart, herrand⟩ := htells
  have h := consistent_before history k
  have htaken := h.taken ⟨outcome, herrand⟩
  rw [before_succ hpart]
  constructor
  case lt_next =>
    rw [next_finish]
    exact (h.numbered herrand).2
  case no_entry =>
    intro vehicle
    rw [current?, pending_finish]
    exact htaken.1 vehicle
  case no_telling =>
    intro other htell
    obtain ⟨hne, hold⟩ := (telling_finish _).mp htell
    exact hne (h.once ⟨outcome, herrand⟩ hold)

theorem spent_of_le (hspent : (before history i).Spent slot) (hij : i ≤ j) :
    (before history j).Spent slot := by
  obtain ⟨d, rfl⟩ := Nat.le.dest hij
  rw [before_add]
  exact hspent.run (consistent_before history i) _

theorem Tells.not_later {other : Outcome} (hfirst : Tells history j slot outcome) (hlt : j < k) :
    ¬ Tells history k slot other := by
  rintro ⟨place, -, herrand⟩
  exact (spent_of_le hfirst.spent hlt).no_telling place ⟨other, herrand⟩

/-- **The holder of a slot is told something at most once.** -/
theorem Tells.unique {other : Outcome} (hfirst : Tells history j slot outcome)
    (hsecond : Tells history k slot other) : j = k ∧ outcome = other := by
  rcases Nat.lt_trichotomy j k with hlt | rfl | hlt
  · exact absurd hsecond (hfirst.not_later hlt)
  · obtain ⟨place, hpart, herrand⟩ := hfirst
    obtain ⟨place', hpart', herrand'⟩ := hsecond
    rw [hpart] at hpart'
    cases hpart'
    rw [herrand] at herrand'
    cases herrand'
    exact ⟨rfl, rfl⟩
  · exact absurd hfirst (hsecond.not_later hlt)

/-- Whatever a holder finds it was told. -/
theorem exists_tells (htold : (before history k).table.outcome? slot = some outcome) :
    ∃ j < k, Tells history j slot outcome := by
  induction k with
  | zero => simp [before, run, start, outcome?] at htold
  | succ k ih =>
      have hearlier : (before history k).table.outcome? slot = some outcome →
          ∃ j < k + 1, Tells history j slot outcome := fun hold => by
        obtain ⟨j, hj, htells⟩ := ih hold
        exact ⟨j, Nat.lt_succ_of_lt hj, htells⟩
      cases hpart : history[k]? with
      | none =>
          rw [before_succ_of_none hpart] at htold
          exact hearlier htold
      | some part =>
          rw [before_succ hpart] at htold
          rcases outcome?_of_step htold with hold | ⟨place, rfl, herrand⟩
          · exact hearlier hold
          · exact ⟨k, Nat.lt_succ_self k, place, hpart, herrand⟩

/-! ### Being answered -/

/-- Who lets a slot go that nobody told anything does not want to be told. -/
theorem dropped_of_closes {place : Nat}
    (hclose : (before history k).errands[place]? = some (.close slot))
    (hnone : (before history place).table.outcome? slot = none) :
    history[place]? = some (.locked (.drop slot)) := by
  obtain ⟨-, operation, hbegan, hleft⟩ := errand_began hclose
  rcases letsGo_of_locked _ hleft with rfl | ⟨-, htold⟩
  · exact hbegan
  · rw [hnone] at htold
    cases htold

/-- A slot that is held no more was closed in between. -/
theorem closed_between {held : CommandSlot} (hik : i ≤ k)
    (hheld : (before history i).table.slots[slot]? = some held)
    (hgone : (before history k).table.slots[slot]? = none) :
    ∃ j place, i ≤ j ∧ j < k ∧ history[j]? = some (.finish place) ∧
      (before history j).errands[place]? = some (.close slot) := by
  obtain ⟨d, rfl⟩ := Nat.le.dest hik
  clear hik
  induction d with
  | zero =>
      rw [Nat.add_zero, hheld] at hgone
      cases hgone
  | succ d ih =>
      cases hlast : (before history (i + d)).table.slots[slot]? with
      | none =>
          obtain ⟨j, place, hij, hjd, hclosed⟩ := ih hlast
          exact ⟨j, place, hij, Nat.lt_succ_of_lt hjd, hclosed⟩
      | some last =>
          cases hpart : history[i + d]? with
          | none =>
              rw [← Nat.add_assoc, before_succ_of_none hpart, hlast] at hgone
              cases hgone
          | some part =>
              rw [← Nat.add_assoc, before_succ hpart] at hgone
              obtain ⟨place, rfl, herrand⟩ := closes_of_step hlast hgone
              exact ⟨i + d, place, Nat.le_add_right i d, Nat.lt_succ_self _, hpart, herrand⟩

theorem outcome?_resolve {t : CommandTable} (htold : (t.resolve slot outcome).1 = true) :
    (t.resolve slot outcome).2.outcome? slot = some outcome := by
  cases hslot : t.slots[slot]? with
  | none => simp [resolve, hslot] at htold
  | some held => simp [outcome?, slots_resolve, hslot]

theorem free_of_resolve {t : CommandTable} (hmissed : (t.resolve slot outcome).1 = false) :
    t.slots[slot]? = none := by
  cases hslot : t.slots[slot]? with
  | none => rfl
  | some held => simp [resolve, hslot] at hmissed

/-- A response is answered at once that nobody waits for; any other one is answered when its errand
is run, about the slot that it met as the entry. -/
theorem answer?_cases {vehicle : VehicleId} {text : String} {part : Section} {answer : Bool}
    (hbegan : history[k]? = some (.locked (.fulfill vehicle text)))
    (hpart : history[l]? = some part)
    (hanswer : (before history l).answer? part = some (k, answer)) :
    ((before history k).table.current? vehicle = none ∧ answer = false) ∨
      ∃ slot, part = .finish k ∧ (before history k).table.current? vehicle = some slot ∧
        (before history l).errands[k]? = some (.tell slot (.completed text)) ∧
        answer = ((before history l).table.resolve slot (.completed text)).1 := by
  cases part with
  | locked operation =>
      refine .inl ?_
      cases operation with
      | fulfill other told =>
          simp only [answer?, time_before hpart, Option.ite_none_right_eq_some, Option.some.injEq,
            Prod.mk.injEq] at hanswer
          obtain ⟨hnone, rfl, rfl⟩ := hanswer
          rw [hbegan] at hpart
          cases hpart
          exact ⟨Option.isNone_iff_eq_none.mp hnone, rfl⟩
      | begin | cancel | wait | drop => cases hanswer
  | finish place =>
      refine .inr ?_
      simp only [answer?] at hanswer
      split at hanswer
      next slot told herrand =>
        simp only [Option.some.injEq, Prod.mk.injEq] at hanswer
        obtain ⟨rfl, rfl⟩ := hanswer
        obtain ⟨-, operation, hbegan', hleft⟩ := errand_began herrand
        rw [hbegan] at hbegan'
        cases hbegan'
        obtain ⟨own, hentry, hends⟩ := entry_of_locked _ hleft
        simp only [Operation.resolution?, Option.ite_none_right_eq_some, Option.some.injEq,
          Outcome.completed.injEq] at hends
        obtain ⟨rfl, rfl⟩ := hends
        exact ⟨slot, rfl, hentry, herrand, rfl⟩
      next => cases hanswer

/-- A slot that was an entry when an operation went to tell its holder, and is not held any more
when it comes to it, was dropped in between. -/
theorem dropped_between {vehicle : VehicleId}
    (hentry : (before history k).table.current? vehicle = some slot)
    (herrand : (before history l).errands[k]? = some (.tell slot outcome))
    (hgone : (before history l).table.slots[slot]? = none) :
    ∃ i j, k < i ∧ i < j ∧ j < l ∧ history[i]? = some (.locked (.drop slot)) ∧
      history[j]? = some (.finish i) := by
  obtain ⟨hheld, hopen⟩ := (consistent_before history k).entry hentry
  obtain ⟨hkl, operation, hbegan, hleft⟩ := errand_began herrand
  obtain ⟨j, place, hkj, hjl, hfinish, hclose⟩ := closed_between (Nat.le_of_lt hkl) hheld hgone
  obtain ⟨hplace, -, -, hcloses⟩ := errand_began hclose
  -- When the slot was an entry nobody was closing it.
  have hlater : k < place := by
    rcases Nat.lt_trichotomy k place with hlt | rfl | hlt
    · exact hlt
    · have htell := errand_since herrand hplace (Nat.le_of_lt hjl)
      rw [hclose] at htell
      cases htell
    · exact absurd ⟨place, errand_since hclose hlt hkj⟩ hopen
  have htelling := errand_since herrand hlater (Nat.le_of_lt (Nat.lt_trans hplace hjl))
  have hnone : (before history place).table.outcome? slot = none := by
    cases hslot : (before history place).table.slots[slot]? with
    | none => rw [outcome?, hslot]; rfl
    | some held =>
        rw [outcome?, hslot]
        exact ((consistent_before history place).taken ⟨outcome, htelling⟩).2 held hslot
  exact ⟨place, j, hlater, hplace, hjl, dropped_of_closes hclose hnone, hfinish⟩

end

end Shared

open Shared in
/-- **The law of the command table, when operations interleave.**  After every history of locked
sections and errands, of any operations, for any vehicles, in any order:

A slot is held until its holder has let it go.  A slot that is held and that nobody is letting go is
one of three things.  It is the entry of its vehicle and of no other; or its holder was told
something; or exactly one operation is about to tell the holder something.

The holder of a slot is told something at most once, and finds nothing that it was not told.

Whoever drops a slot takes the entry out of the table that points at the slot, if there is one, and
leaves all others; whoever was told something leaves them all, and so does every errand.

A response that is answered with true has told its text to the holder of the slot that its locked
section met as the entry of the vehicle.  One that is answered with false met no entry, or the
holder of the slot that it met dropped it in between. -/
theorem interleaving_law (history : List Section) :
    let s := start.run history
    ((∀ (slot : SlotId) (held : CommandSlot) (i k : Nat), i ≤ k →
        (before history i).table.slots[slot]? = some held →
        (before history k).table.slots[slot]? = none →
          ∃ j place, i ≤ j ∧ j < k ∧ history[j]? = some (.finish place) ∧
            (before history j).errands[place]? = some (.close slot)) ∧
      ∀ (slot : SlotId) (held : CommandSlot), s.table.slots[slot]? = some held →
        ¬ s.Closing slot →
        ((∀ vehicle, s.table.current? vehicle = some slot ↔ vehicle = held.vehicle) ∧
            held.outcome = none ∧ ∀ place, ¬ s.Telling place slot) ∨
          ((∀ vehicle, s.table.current? vehicle ≠ some slot) ∧
            held.outcome ≠ none ∧ ∀ place, ¬ s.Telling place slot) ∨
          ((∀ vehicle, s.table.current? vehicle ≠ some slot) ∧
            held.outcome = none ∧ ∃! place, s.Telling place slot)) ∧
    ((∀ (slot : SlotId) (j k : Nat) (first second : Outcome),
        Tells history j slot first → Tells history k slot second → j = k ∧ first = second) ∧
      ∀ (slot : SlotId) (k : Nat) (outcome : Outcome),
        (before history k).table.outcome? slot = some outcome →
          ∃ j < k, Tells history j slot outcome) ∧
    ((∀ (slot : SlotId) (vehicle : VehicleId),
        (s.step (.locked (.drop slot))).table.pending[vehicle]? =
          if s.table.current? vehicle = some slot then none else s.table.pending[vehicle]?) ∧
      (∀ (slot : SlotId) (vehicle : VehicleId),
        (s.step (.locked (.wait slot))).table.pending[vehicle]? = s.table.pending[vehicle]?) ∧
      ∀ place, (s.step (.finish place)).table.pending = s.table.pending) ∧
    ∀ (k l : Nat) (vehicle : VehicleId) (text : String) (part : Section) (answer : Bool),
      history[k]? = some (.locked (.fulfill vehicle text)) → history[l]? = some part →
      (before history l).answer? part = some (k, answer) →
      (answer = true → ∃ slot, (before history k).table.current? vehicle = some slot ∧
        (before history (l + 1)).table.outcome? slot = some (.completed text)) ∧
      (answer = false → (before history k).table.current? vehicle = none ∨
        ∃ slot, (before history k).table.current? vehicle = some slot ∧
          ∃ i j, k < i ∧ i < j ∧ j < l ∧ history[i]? = some (.locked (.drop slot)) ∧
            history[j]? = some (.finish i)) := by
  intro s
  have h : s.Consistent := consistent_start.run history
  refine ⟨⟨fun slot held i k => closed_between, fun slot held => h.resolver_cases⟩,
    ⟨fun slot j k first second => Tells.unique, fun slot k outcome => exists_tells⟩,
    ⟨h.pending_letGo, h.pending_wait, pending_finish s⟩, ?_⟩
  intro k l vehicle text part answer hbegan hpart hanswer
  rcases answer?_cases hbegan hpart hanswer with ⟨hnone, rfl⟩ | ⟨slot, rfl, hentry, herrand, rfl⟩
  · exact ⟨nofun, fun _ => .inl hnone⟩
  · refine ⟨fun htold => ⟨slot, hentry, ?_⟩, fun hmissed => .inr ⟨slot, hentry, ?_⟩⟩
    · rw [before_succ hpart, table_finish herrand]
      exact outcome?_resolve htold
    · exact dropped_between hentry herrand (free_of_resolve hmissed)

/-- A command is issued and answered, and its slot is let go before the answer is told. -/
private def missed : List Section :=
  [.locked (.begin 0 false "01"), .locked (.fulfill "01" "done"), .locked (.drop 0), .finish 2,
    .finish 1]

/-- The response is answered with false, although it met the entry. -/
theorem missed_dropped_between :
    (Shared.before missed 4).answer? (.finish 1) = some (1, false) ∧
      ∃ slot, (Shared.before missed 1).table.current? "01" = some slot ∧
        ∃ i j, 1 < i ∧ i < j ∧ j < 4 ∧ missed[i]? = some (.locked (.drop slot)) ∧
          missed[j]? = some (.finish i) := by
  have hanswer : (Shared.before missed 4).answer? (.finish 1) = some (1, false) := by
    decide +kernel
  have hentry : (Shared.before missed 1).table.current? "01" ≠ none := by decide +kernel
  have hlaw := (interleaving_law missed).2.2.2 1 4 "01" "done" (.finish 1) false rfl rfl hanswer
  rcases hlaw.2 rfl with hnone | hdropped
  · exact absurd hnone hentry
  · exact ⟨hanswer, hdropped⟩

end FleetLink.CommandTable
