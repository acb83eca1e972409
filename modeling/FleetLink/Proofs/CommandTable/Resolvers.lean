import FleetLink.Proofs.CommandTable.Sections

/-!
# Where the resolver of a slot is

Between the two sections of an operation others may work on the table, also for the same vehicle.

**Any number of operations may be under way.**  Which thread performs one does not matter: an
operation is known by the place in the history where its first section stands, and its second
section comes at any later place, or never.  These are more histories than threads can make, since
the holder of a slot may let it go here before the operation that opened it is over.

**Where the resolver of a slot is.**  A slot that is held and told nothing can be told something by
one party only.  As long as the table points at the slot, that is whoever takes it out of the table;
then it is that operation, until it has run its errand.  Nobody else gets at the slot, because
entries are only ever made for new slots (`Shared.Consistent`).

## Main Statements

* `Section`, `Shared.step`, `Shared.run` — operations that interleave
* `Shared.Consistent` — one party can tell the holder of a slot
* `Consistent.takeOut`, `enter`, `letGo`, `tell`, `close` — each kind of section keeps it so
* `Consistent.step`, `Consistent.run` — whatever the sections are
-/

namespace FleetLink.CommandTable

/-! ## Operations that interleave -/

/-- A section of an operation. -/
inductive Section where
  /-- An operation begins, with its locked section. -/
  | locked (operation : Operation)
  /-- The operation whose locked section stands at a place of the history runs its errand. -/
  | finish (place : Nat)
  deriving DecidableEq, Repr

/-- A table, and the operations that are under way. -/
structure Shared where
  table : CommandTable
  /-- How many sections there were. -/
  time : Nat
  /-- What is left to do, by the places at which the operations began. -/
  errands : Std.ExtTreeMap Nat Errand

namespace Shared

/-- Nothing happened yet. -/
def start : Shared := ⟨.empty, 0, ∅⟩

/-- A locked section is over, and left an errand or none. -/
def proceed (s : Shared) (left : Option Errand × CommandTable) : Shared :=
  ⟨left.2, s.time + 1, left.1.elim s.errands (s.errands.insert s.time)⟩

/-- The table and the operations under way after a section. -/
def step (s : Shared) : Section → Shared
  | .locked operation => s.proceed (s.table.locked operation)
  | .finish place =>
    ⟨s.errands[place]?.elim s.table (·.perform s.table), s.time + 1, s.errands.erase place⟩

/-- The same after some sections, one after the other. -/
def run (s : Shared) (history : List Section) : Shared := history.foldl step s

theorem errands_finish (s : Shared) {place other : Nat} {errand : Errand} :
    (s.step (.finish place)).errands[other]? = some errand ↔
      place ≠ other ∧ s.errands[other]? = some errand := by
  simp [step, Std.ExtTreeMap.getElem?_erase]

theorem table_finish {s : Shared} {place : Nat} {errand : Errand}
    (herrand : s.errands[place]? = some errand) :
    (s.step (.finish place)).table = errand.perform s.table := by
  simp [step, herrand]

theorem table_finish_of_none {s : Shared} {place : Nat} (hnone : s.errands[place]? = none) :
    (s.step (.finish place)).table = s.table := by
  simp [step, hnone]

/-- The operation that began at a place is about to tell the holder of a slot how its command
ended. -/
def Telling (s : Shared) (place : Nat) (slot : SlotId) : Prop :=
  ∃ outcome, s.errands[place]? = some (Errand.tell slot outcome)

/-- The holder of a slot is letting it go. -/
def Closing (s : Shared) (slot : SlotId) : Prop :=
  ∃ place : Nat, s.errands[place]? = some (Errand.close slot)

theorem telling_finish (s : Shared) {place other : Nat} {slot : SlotId} :
    (s.step (.finish place)).Telling other slot ↔ place ≠ other ∧ s.Telling other slot := by
  unfold Telling
  simp only [errands_finish, exists_and_left]

/-- An errand that is run was no other one. -/
theorem closing_of_finish {s : Shared} {place : Nat} {slot : SlotId}
    (hclosing : (s.step (.finish place)).Closing slot) : s.Closing slot := by
  obtain ⟨other, hclose⟩ := hclosing
  exact ⟨other, ((errands_finish s).mp hclose).2⟩

theorem closing_finish {s : Shared} {place : Nat} {slot : SlotId}
    (hother : s.errands[place]? ≠ some (.close slot)) (hclosing : s.Closing slot) :
    (s.step (.finish place)).Closing slot := by
  obtain ⟨other, hclose⟩ := hclosing
  refine ⟨other, (errands_finish s).mpr ⟨?_, hclose⟩⟩
  rintro rfl
  exact hother hclose

/-- **One party can tell the holder of a slot**: the slot is the entry of its vehicle, or was told
something, or one operation is about to tell it. -/
structure Consistent (s : Shared) : Prop where
  lt_next : ∀ {slot : SlotId} {held : CommandSlot}, s.table.slots[slot]? = some held →
    slot < s.table.next
  numbered : ∀ {place : Nat} {errand : Errand}, s.errands[place]? = some errand →
    place < s.time ∧ errand.slot < s.table.next
  /-- The slot of an entry is held, and was told nothing. -/
  entry : ∀ {vehicle : VehicleId} {slot : SlotId}, s.table.current? vehicle = some slot →
    s.table.slots[slot]? = some ⟨vehicle, none⟩ ∧ ¬ s.Closing slot
  /-- Whoever is about to tell a slot something took its entry. -/
  taken : ∀ {place : Nat} {slot : SlotId}, s.Telling place slot →
    (∀ vehicle, s.table.current? vehicle ≠ some slot) ∧
      ∀ held, s.table.slots[slot]? = some held → held.outcome = none
  once : ∀ {place other : Nat} {slot : SlotId}, s.Telling place slot → s.Telling other slot →
    place = other
  /-- Nobody waits for nothing. -/
  awaited : ∀ {slot : SlotId} {held : CommandSlot}, s.table.slots[slot]? = some held →
    held.outcome = none → ¬ s.Closing slot →
      s.table.current? held.vehicle = some slot ∨ ∃ place, s.Telling place slot

theorem consistent_start : Consistent start where
  lt_next := by simp [start]
  numbered := by simp [start]
  entry := by simp [start]
  taken := by simp [start, Telling]
  once := by simp [start, Telling]
  awaited := by simp [start]

/-! ### Locked sections -/

/-- A new entry goes where the old one was, so that might as well be taken away before. -/
theorem enter_remove (t : CommandTable) (now : Nat) (vehicle : VehicleId) :
    ((t.remove vehicle).2.enter now vehicle).2 = (t.enter now vehicle).2 := by
  have hpending : (t.pending.erase vehicle).insert vehicle ⟨t.next, now⟩ =
      t.pending.insert vehicle ⟨t.next, now⟩ := by
    refine Std.ExtTreeMap.ext_getElem? fun other => ?_
    rw [Std.ExtTreeMap.getElem?_insert, Std.ExtTreeMap.getElem?_insert,
      Std.ExtTreeMap.getElem?_erase]
    split <;> rfl
  simp only [enter, remove, hpending]

namespace Consistent

variable {s : Shared}

theorem errands_time (h : s.Consistent) : s.errands[s.time]? = none := by
  cases hold : s.errands[s.time]? with
  | none => rfl
  | some errand => exact absurd (h.numbered hold).1 (Nat.lt_irrefl _)

/-- The errand that a locked section leaves is a new one. -/
theorem errands_proceed (h : s.Consistent) (left : Option Errand × CommandTable) (place : Nat) :
    (s.proceed left).errands[place]? = if s.time = place then left.1 else s.errands[place]? := by
  unfold proceed
  cases left.1 with
  | none =>
      split
      next htime =>
        show s.errands[place]? = none
        rw [← htime, h.errands_time]
      next => rfl
  | some errand => simp [Std.ExtTreeMap.getElem?_insert]

theorem errands_proceed_eq_some (h : s.Consistent) {left : Option Errand × CommandTable}
    {place : Nat} {errand : Errand} :
    (s.proceed left).errands[place]? = some errand ↔
      (place = s.time ∧ left.1 = some errand) ∨ s.errands[place]? = some errand := by
  rw [h.errands_proceed]
  by_cases htime : s.time = place
  · subst htime
    simp [h.errands_time]
  · simp [htime, Ne.symm htime]

theorem telling_proceed (h : s.Consistent) (left : Option Errand × CommandTable) {place : Nat}
    {slot : SlotId} : (s.proceed left).Telling place slot ↔
      (place = s.time ∧ ∃ outcome, left.1 = some (.tell slot outcome)) ∨ s.Telling place slot := by
  unfold Telling
  simp only [h.errands_proceed_eq_some, exists_or, exists_and_left]

theorem closing_proceed (h : s.Consistent) (left : Option Errand × CommandTable) {slot : SlotId} :
    (s.proceed left).Closing slot ↔ left.1 = some (.close slot) ∨ s.Closing slot := by
  unfold Closing
  simp only [h.errands_proceed_eq_some, exists_or, exists_eq_left]

/-- Whoever takes an entry out of the table goes and tells the holder of its slot. -/
theorem telling_takeOut (h : s.Consistent) {vehicle : VehicleId} {outcome : Outcome} {place : Nat}
    {slot : SlotId} : (s.proceed (s.table.takeOut vehicle outcome)).Telling place slot ↔
      (place = s.time ∧ s.table.current? vehicle = some slot) ∨ s.Telling place slot := by
  have hleft : (∃ told, (s.table.takeOut vehicle outcome).1 = some (.tell slot told)) ↔
      s.table.current? vehicle = some slot := by
    constructor
    · rintro ⟨told, hleft⟩
      obtain ⟨own, hentry, heq⟩ := Option.map_eq_some_iff.mp hleft
      cases heq
      exact hentry
    · intro hentry
      exact ⟨outcome, Option.map_eq_some_iff.mpr ⟨slot, hentry, rfl⟩⟩
  rw [h.telling_proceed, hleft]

theorem closing_takeOut (h : s.Consistent) {vehicle : VehicleId} {outcome : Outcome}
    {slot : SlotId} :
    (s.proceed (s.table.takeOut vehicle outcome)).Closing slot ↔ s.Closing slot := by
  simp [h.closing_proceed, CommandTable.takeOut]

/-- The entry of a vehicle is taken out of the table, to tell the holder of its slot an outcome. -/
theorem takeOut (h : s.Consistent) (vehicle : VehicleId) (outcome : Outcome) :
    (s.proceed (s.table.takeOut vehicle outcome)).Consistent := by
  have hcurrent : ∀ {other slot}, (s.table.remove vehicle).2.current? other = some slot →
      vehicle ≠ other ∧ s.table.current? other = some slot := by
    intro other slot hentry
    rw [current?_remove] at hentry
    exact Option.ite_none_left_eq_some.mp hentry
  constructor
  case lt_next => exact h.lt_next
  case numbered =>
    intro place errand herrand
    rcases h.errands_proceed_eq_some.mp herrand with ⟨rfl, hnew⟩ | hold
    · obtain ⟨slot, hentry, rfl⟩ := Option.map_eq_some_iff.mp hnew
      exact ⟨Nat.lt_succ_self _, h.lt_next (h.entry hentry).1⟩
    · exact ⟨Nat.lt_succ_of_lt (h.numbered hold).1, (h.numbered hold).2⟩
  case entry =>
    intro other slot hentry
    rw [h.closing_takeOut]
    exact h.entry (hcurrent hentry).2
  case taken =>
    intro place slot htell
    rcases h.telling_takeOut.mp htell with ⟨-, hentry⟩ | hold
    · have hslot := (h.entry hentry).1
      refine ⟨fun other hother => ?_, fun held hheld => ?_⟩
      · obtain ⟨hne, hother⟩ := hcurrent hother
        rw [(h.entry hother).1] at hslot
        cases hslot
        exact hne rfl
      · obtain rfl := Option.some.inj (hheld.symm.trans hslot)
        rfl
    · exact ⟨fun other hother => (h.taken hold).1 other (hcurrent hother).2, (h.taken hold).2⟩
  case once =>
    intro place other slot hfirst hsecond
    rcases h.telling_takeOut.mp hfirst with ⟨rfl, hentry⟩ | hold
    · rcases h.telling_takeOut.mp hsecond with ⟨rfl, -⟩ | hold
      · rfl
      · exact absurd hentry ((h.taken hold).1 vehicle)
    · rcases h.telling_takeOut.mp hsecond with ⟨rfl, hentry⟩ | hold'
      · exact absurd hentry ((h.taken hold).1 vehicle)
      · exact h.once hold hold'
  case awaited =>
    intro slot held hheld hnone hopen
    rw [h.closing_takeOut] at hopen
    rcases h.awaited hheld hnone hopen with hentry | ⟨place, hold⟩
    · by_cases hvehicle : vehicle = held.vehicle
      · exact .inr ⟨s.time, h.telling_takeOut.mpr (.inl ⟨rfl, by rw [hvehicle, hentry]⟩)⟩
      · refine .inl ?_
        show (s.table.remove vehicle).2.current? held.vehicle = some slot
        rw [current?_remove, if_neg hvehicle, hentry]
    · exact .inr ⟨place, h.telling_takeOut.mpr (.inr hold)⟩

/-- A new slot is opened for a vehicle that has no entry. -/
theorem enter (h : s.Consistent) (now : Nat) {vehicle : VehicleId}
    (hfree : s.table.current? vehicle = none) :
    Consistent { s with table := (s.table.enter now vehicle).2 } := by
  have hcurrent := current?_enter s.table now vehicle
  have hslots := slots_enter s.table now vehicle
  constructor
  case lt_next =>
    intro slot held hheld
    rw [hslots] at hheld
    split at hheld
    next hnew => exact hnew ▸ Nat.lt_succ_self _
    next => exact Nat.lt_succ_of_lt (h.lt_next hheld)
  case numbered =>
    intro place errand herrand
    exact ⟨(h.numbered herrand).1, Nat.lt_succ_of_lt (h.numbered herrand).2⟩
  case entry =>
    intro other slot hentry
    rw [hcurrent] at hentry
    split at hentry
    next hvehicle =>
      obtain rfl := Option.some.inj hentry
      refine ⟨by rw [hslots, if_pos rfl, hvehicle], ?_⟩
      rintro ⟨place, hclose⟩
      exact Nat.lt_irrefl _ (h.numbered hclose).2
    next =>
      obtain ⟨hslot, hopen⟩ := h.entry hentry
      exact ⟨by rw [hslots, if_neg (Nat.ne_of_gt (h.lt_next hslot)), hslot], hopen⟩
  case taken =>
    rintro place slot ⟨outcome, herrand⟩
    have hlt : slot < s.table.next := (h.numbered herrand).2
    obtain ⟨hentries, hheld⟩ := h.taken ⟨outcome, herrand⟩
    refine ⟨fun other hother => ?_, fun held hslot => ?_⟩
    · rw [hcurrent] at hother
      split at hother
      next => exact Nat.ne_of_gt hlt (Option.some.inj hother)
      next => exact hentries other hother
    · rw [hslots, if_neg (Nat.ne_of_gt hlt)] at hslot
      exact hheld held hslot
  case once => exact h.once
  case awaited =>
    intro slot held hheld hnone hopen
    rw [hslots] at hheld
    split at hheld
    next hnew =>
      obtain rfl := Option.some.inj hheld
      exact .inl (by rw [hcurrent, if_pos rfl, hnew])
    next =>
      refine (h.awaited hheld hnone hopen).imp_left fun hentry => ?_
      have hne : vehicle ≠ held.vehicle := by
        rintro rfl
        rw [hfree] at hentry
        cases hentry
      rw [hcurrent, if_neg hne, hentry]

/-- A section that leaves the table as it is. -/
theorem idle (h : s.Consistent) : (s.proceed (none, s.table)).Consistent where
  lt_next := h.lt_next
  numbered := fun herrand => ⟨Nat.lt_succ_of_lt (h.numbered herrand).1, (h.numbered herrand).2⟩
  entry := h.entry
  taken := h.taken
  once := h.once
  awaited := h.awaited

/-- The holder of a slot lets it go. -/
theorem letGo (h : s.Consistent) (slot : SlotId) : (s.proceed (s.table.letGo slot)).Consistent := by
  unfold CommandTable.letGo
  split
  next => exact h.idle
  next gone hgone =>
    have hcurrent : ∀ {other x}, (s.table.removeOwn slot).current? other = some x ↔
        x ≠ slot ∧ s.table.current? other = some x := by
      intro other x
      rw [current?_removeOwn fun vehicle hentry => (h.entry hentry).1]
      by_cases hentry : s.table.current? other = some slot
      · simp [hentry, eq_comm]
      · rw [if_neg hentry]
        exact ⟨fun hx => ⟨fun heq => hentry (heq ▸ hx), hx⟩, And.right⟩
    have hslots : (s.table.removeOwn slot).slots = s.table.slots := slots_removeOwn _ _
    have htelling : ∀ {place x},
        (s.proceed (some (.close slot), s.table.removeOwn slot)).Telling place x ↔
          s.Telling place x := by
      simp [h.telling_proceed]
    have hclosing : ∀ {x},
        (s.proceed (some (.close slot), s.table.removeOwn slot)).Closing x ↔
          slot = x ∨ s.Closing x := by
      simp [h.closing_proceed]
    constructor
    case lt_next =>
      intro x held hheld
      exact (next_removeOwn s.table slot).symm ▸ h.lt_next (hslots ▸ hheld)
    case numbered =>
      intro place errand herrand
      show place < s.time + 1 ∧ errand.slot < (s.table.removeOwn slot).next
      rw [next_removeOwn]
      rcases h.errands_proceed_eq_some.mp herrand with ⟨rfl, hnew⟩ | hold
      · cases hnew
        exact ⟨Nat.lt_succ_self _, h.lt_next hgone⟩
      · exact ⟨Nat.lt_succ_of_lt (h.numbered hold).1, (h.numbered hold).2⟩
    case entry =>
      intro other x hentry
      obtain ⟨hne, hold⟩ := hcurrent.mp hentry
      obtain ⟨hx, hopen⟩ := h.entry hold
      refine ⟨hslots ▸ hx, fun hclose => ?_⟩
      rcases hclosing.mp hclose with hsame | hclose
      · exact hne hsame.symm
      · exact hopen hclose
    case taken =>
      intro place x htell
      obtain ⟨hentries, hheld⟩ := h.taken (htelling.mp htell)
      exact ⟨fun other hother => hentries other (hcurrent.mp hother).2,
        fun held hx => hheld held (hslots ▸ hx)⟩
    case once =>
      intro place other x hfirst hsecond
      exact h.once (htelling.mp hfirst) (htelling.mp hsecond)
    case awaited =>
      intro x held hheld hnone hopen
      rw [hclosing, not_or] at hopen
      rcases h.awaited (hslots ▸ hheld) hnone hopen.2 with hentry | ⟨place, hold⟩
      · exact .inl (hcurrent.mpr ⟨Ne.symm hopen.1, hentry⟩)
      · exact .inr ⟨place, htelling.mpr hold⟩

/-- **Locked sections** keep it so that one party can tell the holder of a slot. -/
theorem locked (h : s.Consistent) (operation : Operation) :
    (s.proceed (s.table.locked operation)).Consistent := by
  cases operation with
  | begin now strict vehicle =>
      simp only [CommandTable.locked]
      split
      next => exact h.idle
      next =>
        have htaken := h.takeOut vehicle .cancelled
        have hfree : (s.table.remove vehicle).2.current? vehicle = none := by
          rw [current?_remove, if_pos rfl]
        rw [← enter_remove]
        exact htaken.enter now hfree
  | fulfill vehicle text => exact h.takeOut vehicle (.completed text)
  | cancel vehicle => exact h.takeOut vehicle .cancelled
  | wait slot =>
      simp only [CommandTable.locked]
      split
      next => exact h.letGo slot
      next => exact h.idle
  | drop slot => exact h.letGo slot

/-! ### Errands -/

/-- An operation that left no errand is over. -/
theorem finish_of_none (h : s.Consistent) {place : Nat} (hnone : s.errands[place]? = none) :
    (s.step (.finish place)).Consistent := by
  have hstep : s.step (.finish place) = s.proceed (none, s.table) := by
    have herrands := erase_of_getElem?_eq_none hnone
    simp [step, proceed, hnone, herrands]
  rw [hstep]
  exact h.idle

/-- The holder of a slot is told how its command ended. -/
theorem tell (h : s.Consistent) {place : Nat} {slot : SlotId} {outcome : Outcome}
    (herrand : s.errands[place]? = some (.tell slot outcome)) :
    (s.step (.finish place)).Consistent := by
  have htable : (s.step (.finish place)).table = (s.table.resolve slot outcome).2 :=
    table_finish herrand
  have hcurrent : ∀ vehicle,
      (s.step (.finish place)).table.current? vehicle = s.table.current? vehicle := by
    intro vehicle
    rw [htable, current?, pending_resolve, current?]
  have hslots : ∀ x, (s.step (.finish place)).table.slots[x]? = if slot = x then
      s.table.slots[slot]?.map fun held => { held with outcome := some outcome }
      else s.table.slots[x]? := fun x => by rw [htable, slots_resolve]
  -- Only this operation is about to tell the slot something.
  have htelling : ∀ {other x}, (s.step (.finish place)).Telling other x ↔
      slot ≠ x ∧ s.Telling other x := by
    intro other x
    rw [telling_finish]
    refine and_congr_left fun htell => not_congr ⟨?_, ?_⟩
    · rintro rfl
      obtain ⟨told, hold⟩ := htell
      rw [herrand] at hold
      cases hold
      rfl
    · rintro rfl
      exact h.once ⟨outcome, herrand⟩ htell
  have hclosing : ∀ {x}, (s.step (.finish place)).Closing x ↔ s.Closing x :=
    ⟨closing_of_finish, closing_finish (by simp [herrand])⟩
  constructor
  case lt_next =>
    intro x held hheld
    rw [htable, next_resolve]
    rw [hslots] at hheld
    split at hheld
    next heq =>
      obtain ⟨before, hbefore, -⟩ := Option.map_eq_some_iff.mp hheld
      exact heq ▸ h.lt_next hbefore
    next => exact h.lt_next hheld
  case numbered =>
    intro other errand hleft
    have hold := h.numbered ((errands_finish s).mp hleft).2
    rw [htable, next_resolve]
    exact ⟨Nat.lt_succ_of_lt hold.1, hold.2⟩
  case entry =>
    intro vehicle x hentry
    rw [hcurrent] at hentry
    obtain ⟨hx, hopen⟩ := h.entry hentry
    have hne : slot ≠ x := by
      rintro rfl
      exact (h.taken ⟨outcome, herrand⟩).1 vehicle hentry
    rw [hslots, if_neg hne, hclosing]
    exact ⟨hx, hopen⟩
  case taken =>
    intro other x htell
    obtain ⟨hne, hold⟩ := htelling.mp htell
    simp only [hcurrent, hslots, if_neg hne]
    exact h.taken hold
  case once =>
    intro first second x hfirst hsecond
    exact h.once (htelling.mp hfirst).2 (htelling.mp hsecond).2
  case awaited =>
    intro x held hheld hnone hopen
    rw [hclosing] at hopen
    rw [hslots] at hheld
    split at hheld
    next =>
      obtain ⟨before, -, rfl⟩ := Option.map_eq_some_iff.mp hheld
      cases hnone
    next hne =>
      rw [hcurrent]
      rcases h.awaited hheld hnone hopen with hentry | ⟨other, hold⟩
      · exact .inl hentry
      · exact .inr ⟨other, htelling.mpr ⟨hne, hold⟩⟩

/-- A slot is closed. -/
theorem close (h : s.Consistent) {place : Nat} {slot : SlotId}
    (herrand : s.errands[place]? = some (.close slot)) :
    (s.step (.finish place)).Consistent := by
  have htable : (s.step (.finish place)).table = s.table.close slot := table_finish herrand
  have hslots : ∀ {x held}, (s.step (.finish place)).table.slots[x]? = some held ↔
      slot ≠ x ∧ s.table.slots[x]? = some held := by
    intro x held
    rw [htable]
    simp [CommandTable.close, Std.ExtTreeMap.getElem?_erase]
  have htelling : ∀ {other x}, (s.step (.finish place)).Telling other x ↔ s.Telling other x := by
    intro other x
    rw [telling_finish, and_iff_right_iff_imp]
    rintro ⟨told, hold⟩ rfl
    rw [herrand] at hold
    cases hold
  have hclosing : ∀ {x}, slot ≠ x → s.Closing x → (s.step (.finish place)).Closing x :=
    fun hne => closing_finish (by simp [herrand, hne])
  constructor
  case lt_next =>
    intro x held hheld
    rw [htable]
    exact h.lt_next (hslots.mp hheld).2
  case numbered =>
    intro other errand hleft
    have hold := h.numbered ((errands_finish s).mp hleft).2
    rw [htable]
    exact ⟨Nat.lt_succ_of_lt hold.1, hold.2⟩
  case entry =>
    intro vehicle x hentry
    rw [htable] at hentry
    obtain ⟨hx, hopen⟩ := h.entry hentry
    have hne : slot ≠ x := by
      rintro rfl
      exact hopen ⟨place, herrand⟩
    exact ⟨hslots.mpr ⟨hne, hx⟩, fun hclose => hopen (closing_of_finish hclose)⟩
  case taken =>
    intro other x htell
    obtain ⟨hentries, hheld⟩ := h.taken (htelling.mp htell)
    rw [htable]
    exact ⟨hentries, fun held hx => hheld held (hslots.mp (htable ▸ hx)).2⟩
  case once =>
    intro first second x hfirst hsecond
    exact h.once (htelling.mp hfirst) (htelling.mp hsecond)
  case awaited =>
    intro x held hheld hnone hopen
    obtain ⟨hne, hbefore⟩ := hslots.mp hheld
    rw [htable]
    rcases h.awaited hbefore hnone (fun hclose => hopen (hclosing hne hclose)) with
      hentry | ⟨other, hold⟩
    · exact .inl hentry
    · exact .inr ⟨other, htelling.mpr hold⟩

/-- **Every section** keeps it so that one party can tell the holder of a slot. -/
theorem step (h : s.Consistent) (part : Section) : (s.step part).Consistent := by
  cases part with
  | locked operation => exact h.locked operation
  | finish place =>
      cases herrand : s.errands[place]? with
      | none => exact h.finish_of_none herrand
      | some errand =>
          cases errand with
          | tell slot outcome => exact h.tell herrand
          | close slot => exact h.close herrand

theorem run (h : s.Consistent) (history : List Section) : (s.run history).Consistent := by
  induction history generalizing s with
  | nil => exact h
  | cons part history ih => exact ih (h.step part)

end Consistent

end Shared

end FleetLink.CommandTable
