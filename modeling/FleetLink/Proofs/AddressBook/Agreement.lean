import FleetLink.AddressBook

/-!
# The two maps of an address book agree

A book holds the addresses of each vehicle and the owner of each source, and both are written for
every claim.  This module proves that **no history tells them apart**: whatever claims were made,
accepted or refused, and whatever vehicles were forgotten, a vehicle has an address on a medium
exactly when it owns the source that the two make.

Only one step could break this.  A claim that is accepted writes a source which, by the checks in
front of it, is either nobody's or the claimant's own.  The second cannot be: a claimant that owned
the source would have had the address already.  So the source was free, and nothing is overwritten.

## Main Statements

* `Agrees` — the two maps say the same
* `Agrees.step`, `Agrees.run` — what every change preserves, and so every history
* `Agrees.owner?_run` — a source stays with its owner until the owner is forgotten
* `run_agreement` — agreement and what it means for whoever asks the book
-/

namespace FleetLink.AddressBook

/-- What can happen to a book. -/
inductive Change where
  /-- A vehicle is seen at a source. -/
  | record (vehicle : VehicleId) (source : Source)
  /-- The addresses of a vehicle are dropped. -/
  | forget (vehicle : VehicleId)
  deriving DecidableEq, Repr

/-- The book after a change.  A refused claim changes nothing. -/
def step (book : AddressBook) : Change → AddressBook
  | .record vehicle source =>
    match book.record vehicle source with
    | .ok (_, written) => written
    | .error _ => book
  | .forget vehicle => book.forget vehicle

/-- The book after some changes, one after the other. -/
def run (book : AddressBook) (changes : List Change) : AddressBook := changes.foldl step book

/-! ## Reading a changed book -/

theorem address?_eq_bind (book : AddressBook) (vehicle : VehicleId) (medium : String) :
    book.address? vehicle medium = book.byVehicle[vehicle]?.bind (·[medium]?) := by
  unfold address? addresses
  cases book.byVehicle[vehicle]? <;> simp

@[simp] theorem address?_empty (vehicle : VehicleId) (medium : String) :
    empty.address? vehicle medium = none := by
  simp [address?]

theorem addresses_write (book : AddressBook) (vehicle other : VehicleId) (source : Source) :
    (book.write vehicle source).addresses other =
      if vehicle = other then (book.addresses vehicle).insert source.medium source.address
      else book.addresses other := by
  simp only [addresses, write, Std.ExtTreeMap.getElem?_insert, Std.compare_eq_iff_eq]
  split <;> rfl

/-- A written claim gives its vehicle one more address. -/
theorem address?_write (book : AddressBook) (vehicle other : VehicleId) (source : Source)
    (medium : String) :
    (book.write vehicle source).address? other medium =
      if vehicle = other ∧ source.medium = medium then some source.address
      else book.address? other medium := by
  unfold address?
  rw [addresses_write]
  by_cases hv : vehicle = other
  · subst hv
    simp [Std.ExtTreeMap.getElem?_insert]
  · simp [hv]

/-- A written claim gives its source an owner. -/
theorem owner?_write (book : AddressBook) (vehicle : VehicleId) (source other : Source) :
    (book.write vehicle source).owner? other =
      if source = other then some vehicle else book.owner? other := by
  simp [owner?, write, Std.ExtTreeMap.getElem?_insert]

/-- **A claim is answered by the claimant's addresses and the owner of the source.**  Two books that
agree on these give one answer, and agree on them again. -/
theorem record_congr {book other : AddressBook} {vehicle : VehicleId} {source : Source}
    (haddress : ∀ medium, other.address? vehicle medium = book.address? vehicle medium)
    (howner : other.owner? source = book.owner? source) :
    (∃ fault, book.record vehicle source = .error fault ∧
        other.record vehicle source = .error fault) ∨
      ∃ recorded written written', book.record vehicle source = .ok (recorded, written) ∧
        other.record vehicle source = .ok (recorded, written') ∧
        (∀ medium, written'.address? vehicle medium = written.address? vehicle medium) ∧
        written'.owner? source = written.owner? source := by
  have hwrite : (∀ medium, (other.write vehicle source).address? vehicle medium =
        (book.write vehicle source).address? vehicle medium) ∧
      (other.write vehicle source).owner? source = (book.write vehicle source).owner? source := by
    refine ⟨fun medium => ?_, ?_⟩
    · rw [address?_write, address?_write, haddress]
    · rw [owner?_write, owner?_write, howner]
  unfold record
  rw [haddress, howner]
  cases book.address? vehicle source.medium with
  | some existing =>
      dsimp only
      split
      · exact .inr ⟨_, book, other, rfl, rfl, haddress, howner⟩
      · exact .inl ⟨_, rfl, rfl⟩
  | none =>
      cases book.owner? source with
      | none => exact .inr ⟨_, _, _, rfl, rfl, hwrite⟩
      | some owner =>
          dsimp only
          split
          · exact .inr ⟨_, _, _, rfl, rfl, hwrite⟩
          · exact .inl ⟨_, rfl, rfl⟩

/-- What a claim that is accepted leaves alone: the addresses of the others, and other sources. -/
theorem record_frame {book written : AddressBook} {vehicle : VehicleId} {source : Source}
    {recorded : Recorded} (ok : book.record vehicle source = .ok (recorded, written)) :
    (∀ other ≠ vehicle, ∀ medium, written.address? other medium = book.address? other medium) ∧
      ∀ other ≠ source, written.owner? other = book.owner? other := by
  have hwrite : (∀ other ≠ vehicle, ∀ medium,
        (book.write vehicle source).address? other medium = book.address? other medium) ∧
      ∀ other ≠ source, (book.write vehicle source).owner? other = book.owner? other := by
    refine ⟨fun other hne medium => ?_, fun other hne => ?_⟩
    · rw [address?_write, if_neg fun hboth => hne hboth.1.symm]
    · rw [owner?_write, if_neg (Ne.symm hne)]
  unfold record at ok
  split at ok
  · split at ok
    · cases ok
      exact ⟨fun _ _ _ => rfl, fun _ _ => rfl⟩
    · cases ok
  · split at ok
    · split at ok
      · cases ok
        exact hwrite
      · cases ok
    · cases ok
      exact hwrite

/-- A forgotten vehicle has no address; the others keep theirs. -/
theorem address?_forget (book : AddressBook) (vehicle other : VehicleId) (medium : String) :
    (book.forget vehicle).address? other medium =
      if vehicle = other then none else book.address? other medium := by
  simp only [address?, addresses, forget, Std.ExtTreeMap.getElem?_erase, Std.compare_eq_iff_eq]
  split <;> simp

/-- The sources at which a forgotten vehicle was known have no owner; the others keep theirs. -/
theorem owner?_forget (book : AddressBook) (vehicle : VehicleId) (source : Source) :
    (book.forget vehicle).owner? source =
      if book.address? vehicle source.medium = some source.address then none
      else book.owner? source := by
  simp only [owner?, forget, lists, Std.ExtTreeMap.getElem?_filter', address?]
  by_cases h : (book.addresses vehicle)[source.medium]? = some source.address
  · cases book.bySource[source]? with
    | none => simp [h]
    | some owner => simp [h]
  · cases book.bySource[source]? with
    | none => simp [h]
    | some owner => simp [h]

/-! ## Agreement -/

/-- The two maps of a book say the same, and no vehicle stands in the forward map without an
address. -/
structure Agrees (book : AddressBook) : Prop where
  address_iff_owner : ∀ vehicle source,
    book.address? vehicle source.medium = some source.address ↔ book.owner? source = some vehicle
  known_ne_empty : ∀ (vehicle : VehicleId) (known : Addresses),
    book.byVehicle[vehicle]? = some known → known.isEmpty = false

theorem agrees_empty : Agrees empty where
  address_iff_owner := by simp
  known_ne_empty := by simp [empty]

namespace Agrees

variable {book : AddressBook} {vehicle : VehicleId} {source : Source}

/-- A vehicle in the forward map has an address. -/
theorem exists_address (h : Agrees book) {known : Addresses}
    (hknown : book.byVehicle[vehicle]? = some known) :
    ∃ medium address,
      known[medium]? = some address ∧ book.address? vehicle medium = some address := by
  have hsome := h.known_ne_empty vehicle known hknown
  rw [Std.ExtTreeMap.isEmpty_eq_false_iff, Std.ExtTreeMap.eq_empty_iff_forall_not_mem] at hsome
  obtain ⟨medium, hmedium⟩ := Classical.not_forall.mp hsome
  rw [Std.ExtTreeMap.mem_iff_isSome_getElem?, Classical.not_not] at hmedium
  obtain ⟨address, haddress⟩ := Option.isSome_iff_exists.mp hmedium
  refine ⟨medium, address, haddress, ?_⟩
  rw [address?_eq_bind, hknown]
  exact haddress

/-- A vehicle in the forward map owns a source. -/
theorem exists_owner (h : Agrees book) (hmem : vehicle ∈ book.byVehicle) :
    ∃ source, book.owner? source = some vehicle := by
  obtain ⟨known, hknown⟩ := Option.isSome_iff_exists.mp
    (Std.ExtTreeMap.mem_iff_isSome_getElem?.mp hmem)
  obtain ⟨medium, address, -, haddress⟩ := h.exists_address hknown
  exact ⟨⟨medium, address⟩, (h.address_iff_owner vehicle ⟨medium, address⟩).mp haddress⟩

/-- **A book is what its vehicles' addresses say.** -/
theorem eq_of_address? {other : AddressBook} (h : Agrees book) (hother : Agrees other)
    (hsame : ∀ vehicle medium, other.address? vehicle medium = book.address? vehicle medium) :
    other = book := by
  have hbind : ∀ (vehicle : VehicleId) (medium : String),
      other.byVehicle[vehicle]?.bind (·[medium]?) = book.byVehicle[vehicle]?.bind (·[medium]?) := by
    intro vehicle medium
    rw [← address?_eq_bind, ← address?_eq_bind, hsame]
  have hvehicles : other.byVehicle = book.byVehicle := by
    apply Std.ExtTreeMap.ext_getElem?
    intro vehicle
    cases hknown : book.byVehicle[vehicle]? with
    | none =>
        cases hown : other.byVehicle[vehicle]? with
        | none => rfl
        | some own =>
            obtain ⟨medium, address, haddress, -⟩ := hother.exists_address hown
            have hcontra := hbind vehicle medium
            rw [hown, hknown, Option.bind_some, haddress] at hcontra
            cases hcontra
    | some known =>
        cases hown : other.byVehicle[vehicle]? with
        | none =>
            obtain ⟨medium, address, haddress, -⟩ := h.exists_address hknown
            have hcontra := hbind vehicle medium
            rw [hown, hknown, Option.bind_some, haddress] at hcontra
            cases hcontra
        | some own =>
            congr 1
            apply Std.ExtTreeMap.ext_getElem?
            intro medium
            have hmedium := hbind vehicle medium
            rwa [hown, hknown, Option.bind_some, Option.bind_some] at hmedium
  have hsources : other.bySource = book.bySource := by
    apply Std.ExtTreeMap.ext_getElem?
    intro source
    apply Option.ext
    intro vehicle
    show other.owner? source = some vehicle ↔ book.owner? source = some vehicle
    rw [← h.address_iff_owner, ← hother.address_iff_owner, hsame]
  cases other
  cases book
  cases hvehicles
  cases hsources
  rfl

/-- A source at which a vehicle without an address on the medium may be recorded is nobody's: its
owner would have the address. -/
theorem owner?_eq_none (h : Agrees book) (unknown : book.address? vehicle source.medium = none)
    (own : ∀ owner, book.owner? source = some owner → owner = vehicle) :
    book.owner? source = none := by
  rw [Option.eq_none_iff_forall_ne_some]
  intro owner howner
  have hv : owner = vehicle := own owner howner
  subst hv
  rw [← h.address_iff_owner, unknown] at howner
  cases howner

/-- Writing a free source for a vehicle without an address on its medium keeps the maps in step. -/
theorem write (h : Agrees book) (unknown : book.address? vehicle source.medium = none)
    (free : book.owner? source = none) : Agrees (book.write vehicle source) where
  address_iff_owner := by
    intro other s
    rw [address?_write, owner?_write]
    by_cases hs : source = s
    · subst hs
      by_cases hv : vehicle = other
      · simp [hv]
      -- A second owner of the source that was free.
      · have hnone : book.address? other source.medium ≠ some source.address := by
          rw [Ne, h.address_iff_owner, free]
          simp
        simp [hv, hnone]
    · rw [if_neg hs, ← h.address_iff_owner]
      by_cases hm : vehicle = other ∧ source.medium = s.medium
      -- Another address on the medium on which the vehicle had none.
      · have hne : source.address ≠ s.address := by
          intro ha
          exact hs (by cases source; cases s; simp_all)
        obtain ⟨rfl, hmedium⟩ := hm
        rw [if_pos ⟨rfl, hmedium⟩, ← hmedium, unknown]
        simp [hne]
      · rw [if_neg hm]
  known_ne_empty := by
    intro other known hknown
    rw [AddressBook.write, Std.ExtTreeMap.getElem?_insert] at hknown
    split at hknown
    · cases hknown
      simp
    · exact h.known_ne_empty other known hknown

/-- Clearing a vehicle clears its half of both maps and nothing else. -/
theorem forget (h : Agrees book) (vehicle : VehicleId) : Agrees (book.forget vehicle) where
  address_iff_owner := by
    intro other s
    rw [address?_forget, owner?_forget]
    by_cases hs : book.address? vehicle s.medium = some s.address
    · rw [if_pos hs]
      by_cases hv : vehicle = other
      · simp [hv]
      · have howner : book.owner? s = some vehicle := (h.address_iff_owner vehicle s).mp hs
        rw [if_neg hv, h.address_iff_owner, howner]
        simp [hv]
    · rw [if_neg hs]
      by_cases hv : vehicle = other
      · subst hv
        rw [if_pos rfl, ← h.address_iff_owner]
        simp [hs]
      · rw [if_neg hv, h.address_iff_owner]
  known_ne_empty := by
    intro other known hknown
    rw [AddressBook.forget, Std.ExtTreeMap.getElem?_erase] at hknown
    split at hknown
    · cases hknown
    · exact h.known_ne_empty other known hknown

/-- A claim keeps the maps in step, whether it is accepted or refused. -/
theorem record (h : Agrees book) {recorded : Recorded} {written : AddressBook}
    (ok : book.record vehicle source = .ok (recorded, written)) : Agrees written := by
  unfold AddressBook.record at ok
  cases hknown : book.address? vehicle source.medium with
  | some existing =>
      simp only [hknown] at ok
      split at ok
      · cases ok
        exact h
      · cases ok
  | none =>
      cases howner : book.owner? source with
      | none =>
          simp only [hknown, howner] at ok
          cases ok
          exact h.write hknown howner
      | some owner =>
          simp only [hknown, howner] at ok
          split at ok
          next hv =>
            cases ok
            -- The claimant owns the source, but then it would have had the address.
            refine h.write hknown (h.owner?_eq_none hknown fun other hother => ?_)
            rw [howner] at hother
            cases hother
            exact hv
          · cases ok

/-- Every change keeps the maps in step. -/
theorem step (h : Agrees book) (change : Change) : Agrees (book.step change) := by
  cases change with
  | forget vehicle => exact h.forget vehicle
  | record vehicle source =>
      simp only [AddressBook.step]
      cases hr : book.record vehicle source with
      | ok done => exact h.record hr
      | error fault => exact h

/-- Every history keeps the maps in step. -/
theorem run (h : Agrees book) (changes : List Change) : Agrees (book.run changes) := by
  induction changes generalizing book with
  | nil => exact h
  | cons change changes ih => exact ih (h.step change)

/-- A source stays with its owner until the owner is forgotten. -/
theorem owner?_step (h : Agrees book) {change : Change} (howner : book.owner? source = some vehicle)
    (hkept : change ≠ .forget vehicle) : (book.step change).owner? source = some vehicle := by
  cases change with
  | forget other =>
      have hne : other ≠ vehicle := fun hother => hkept (by rw [hother])
      -- The source is listed for its owner only, and so it is not freed with another vehicle.
      have hunlisted : book.address? other source.medium ≠ some source.address := by
        rw [Ne, h.address_iff_owner, howner, Option.some.injEq]
        exact hne.symm
      show (book.forget other).owner? source = some vehicle
      rw [owner?_forget, if_neg hunlisted, howner]
  | record claimant claimed =>
      unfold AddressBook.step AddressBook.record
      dsimp only
      cases book.address? claimant claimed.medium with
      | some existing =>
          by_cases hsame : existing = claimed.address
          · simpa [hsame] using howner
          · simpa [hsame] using howner
      | none =>
          cases hclaimed : book.owner? claimed with
          | none =>
              have hne : claimed ≠ source := by
                rintro rfl
                rw [howner] at hclaimed
                cases hclaimed
              simp only [owner?_write, hne, if_false, howner]
          | some owner =>
              -- A claim to a source that has an owner is written only if it is the owner's own.
              by_cases hown : owner = claimant
              · simp only [hown, if_true, owner?_write]
                split
                next hsource =>
                  rw [← hown, ← hclaimed, hsource, howner]
                next => exact howner
              · simpa [hown] using howner

theorem owner?_run (h : Agrees book) {changes : List Change}
    (howner : book.owner? source = some vehicle) (hkept : .forget vehicle ∉ changes) :
    (book.run changes).owner? source = some vehicle := by
  induction changes generalizing book with
  | nil => exact howner
  | cons change changes ih =>
      rw [List.mem_cons, not_or] at hkept
      exact ih (h.step change) (h.owner?_step howner (Ne.symm hkept.1)) hkept.2

end Agrees

/-! ## What agreement means for whoever asks -/

namespace Agrees

variable {book : AddressBook}

/-- The preferred source of a vehicle is its address on the first medium on which it has one, and
leads back to it. -/
theorem preferred? (h : Agrees book) {media : List String} {vehicle : VehicleId} {source : Source}
    (hpreferred : book.preferred? media vehicle = some source) :
    ∃ before after, media = before ++ source.medium :: after ∧
      (∀ medium ∈ before, book.address? vehicle medium = none) ∧
      book.address? vehicle source.medium = some source.address ∧
      book.owner? source = some vehicle := by
  unfold AddressBook.preferred? at hpreferred
  rw [List.findSome?_eq_some_iff] at hpreferred
  obtain ⟨before, medium, after, hmedia, hfound, hbefore⟩ := hpreferred
  rw [Option.map_eq_some_iff] at hfound
  obtain ⟨address, haddress, rfl⟩ := hfound
  refine ⟨before, after, hmedia, ?_, haddress, ?_⟩
  · intro earlier hearlier
    simpa using hbefore earlier hearlier
  · exact (h.address_iff_owner vehicle ⟨medium, address⟩).mp haddress

end Agrees

/-- **The two maps of a book never disagree.**  After any claims and any forgetting, in any order, a
vehicle has an address on a medium exactly when the source that the two make leads to the vehicle,
and no vehicle is left in the forward map without an address.  So no source belongs to two vehicles,
a source is resolved to a vehicle exactly when it is listed among the vehicle's addresses, and the
source that a vehicle is reached at is the one on the first preferred medium on which it has an
address, and is resolved to it. -/
theorem run_agreement (changes : List Change) :
    let book := empty.run changes
    (∀ (vehicle : VehicleId) (medium address : String),
      (∃ known : Addresses, book.byVehicle[vehicle]? = some known ∧ known[medium]? = some address) ↔
        book.bySource[(⟨medium, address⟩ : Source)]? = some vehicle) ∧
    (∀ (vehicle : VehicleId) (known : Addresses),
      book.byVehicle[vehicle]? = some known → known.isEmpty = false) ∧
    (∀ (source : Source) (first second : VehicleId),
      book.address? first source.medium = some source.address →
      book.address? second source.medium = some source.address → first = second) ∧
    (∀ (source : Source) (vehicle : VehicleId),
      book.owner? source = some vehicle ↔
        (book.addresses vehicle)[source.medium]? = some source.address) ∧
    (∀ (media : List String) (vehicle : VehicleId) (source : Source),
      book.preferred? media vehicle = some source →
      ∃ before after, media = before ++ source.medium :: after ∧
        (∀ medium ∈ before, book.address? vehicle medium = none) ∧
        book.address? vehicle source.medium = some source.address ∧
        book.owner? source = some vehicle) := by
  intro book
  have h : Agrees book := agrees_empty.run changes
  refine ⟨?_, h.known_ne_empty, ?_, ?_, ?_⟩
  · intro vehicle medium address
    have hbind := address?_eq_bind book vehicle medium
    have hiff := h.address_iff_owner vehicle ⟨medium, address⟩
    rw [hbind, Option.bind_eq_some_iff] at hiff
    exact hiff
  · intro source first second hfirst hsecond
    rw [h.address_iff_owner] at hfirst hsecond
    rw [hfirst] at hsecond
    exact Option.some.inj hsecond
  · intro source vehicle
    exact (h.address_iff_owner vehicle source).symm
  · intro media vehicle source hpreferred
    exact h.preferred? hpreferred

end FleetLink.AddressBook
