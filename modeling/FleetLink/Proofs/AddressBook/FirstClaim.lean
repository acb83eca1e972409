import FleetLink.Proofs.AddressBook.Agreement

/-!
# The first claim wins

Vehicles claim addresses by being seen at them.  This module proves that **what an accepted claim
settles stays settled** until the claimant is forgotten: its address on the medium and the owner of
the source.  Whatever else is claimed meanwhile, and whoever else is forgotten, every claim that
goes against it is refused, with the words that name what is in the way.

Two rules can refuse a claim, and both may apply at once.  The claimant's own address is looked at
first, so a vehicle that has another address on the medium is told of that one, and only a vehicle
without any is told whose the source is.  What a claim is answered is worked out once (`Answered`),
from what the two maps say; everything else is read off from that.

## Main Statements

* `Answered`, `Agrees.answered` — the four answers to a claim, and when each is given
* `Holds`, `Agrees.holds` — what an owned source means for every claim against it
* `Agrees.record_forgotten` — a forgotten vehicle's addresses are free
* `first_claim_wins` — all of that, after every history
-/

namespace FleetLink.AddressBook

variable {book : AddressBook} {vehicle : VehicleId} {source : Source}

/-! ## The answers to a claim -/

/-- What the book answers a vehicle that is seen at a source. -/
inductive Answered (book : AddressBook) (vehicle : VehicleId) (source : Source) :
    Except AddressFault (Recorded × AddressBook) → Prop
  /-- The source is the vehicle's own. -/
  | unchanged (owned : book.owner? source = some vehicle) :
      Answered book vehicle source (.ok (.unchanged, book))
  /-- The vehicle has another address on the medium. -/
  | conflict (existing : String) (has : book.address? vehicle source.medium = some existing)
      (differs : existing ≠ source.address) :
      Answered book vehicle source
        (.error (.conflict vehicle source.medium existing source.address))
  /-- The vehicle has no address on the medium, and the source is another vehicle's. -/
  | inUse (owner : VehicleId) (lacks : book.address? vehicle source.medium = none)
      (owned : book.owner? source = some owner) (differs : owner ≠ vehicle) :
      Answered book vehicle source (.error (.inUse source.medium source.address owner vehicle))
  /-- The vehicle has no address on the medium, and the source is nobody's. -/
  | new (lacks : book.address? vehicle source.medium = none) (free : book.owner? source = none) :
      Answered book vehicle source (.ok (.new, book.write vehicle source))

/-- **Every claim gets one of the four answers.** -/
theorem Agrees.answered (h : Agrees book) (vehicle : VehicleId) (source : Source) :
    Answered book vehicle source (book.record vehicle source) := by
  unfold AddressBook.record
  cases hknown : book.address? vehicle source.medium with
  | some existing =>
      by_cases hsame : existing = source.address
      · have howned : book.owner? source = some vehicle := by
          rw [← h.address_iff_owner, hknown, hsame]
        simpa [hsame] using Answered.unchanged howned
      · simpa [hsame] using Answered.conflict existing hknown hsame
  | none =>
      cases howner : book.owner? source with
      | none => exact .new hknown howner
      | some owner =>
          -- The owner of a source has it as its address, and the claimant has none.
          have hother : owner ≠ vehicle := by
            rintro rfl
            rw [← h.address_iff_owner, hknown] at howner
            cases howner
          simpa [hother] using Answered.inUse owner hknown howner hother

/-- A claim adds to the book exactly if the vehicle has no address on the medium and the source is
nobody's. -/
theorem Agrees.record_eq_new_iff (h : Agrees book) :
    (∃ written, book.record vehicle source = .ok (.new, written)) ↔
      book.address? vehicle source.medium = none ∧ book.owner? source = none := by
  have hanswered := h.answered vehicle source
  generalize book.record vehicle source = answer at hanswered ⊢
  cases hanswered with
  | unchanged owned => simp [owned]
  | conflict existing has differs => simp [has]
  | inUse owner lacks owned differs => simp [owned]
  | new lacks free => simp [lacks, free]

/-- A claim is refused exactly if the vehicle has another address on the medium or the source is
another vehicle's. -/
theorem Agrees.record_eq_error_iff (h : Agrees book) :
    (∃ fault, book.record vehicle source = .error fault) ↔
      (∃ address, book.address? vehicle source.medium = some address ∧
        address ≠ source.address) ∨
      ∃ owner, book.owner? source = some owner ∧ owner ≠ vehicle := by
  have hanswered := h.answered vehicle source
  generalize book.record vehicle source = answer at hanswered ⊢
  cases hanswered with
  | unchanged owned => simp [owned, (h.address_iff_owner vehicle source).mpr owned]
  | conflict existing has differs => simp [has, differs]
  | inUse owner lacks owned differs => simp [owned, differs]
  | new lacks free => simp [lacks, free]

/-- **A claim that adds nothing changes nothing,** be it refused or known already. -/
theorem Agrees.step_of_not_new (h : Agrees book)
    (hnew : ∀ written, book.record vehicle source ≠ .ok (.new, written)) :
    book.step (.record vehicle source) = book := by
  have hanswered := h.answered vehicle source
  simp only [AddressBook.step]
  generalize book.record vehicle source = answer at hanswered hnew ⊢
  cases hanswered with
  | unchanged owned => rfl
  | conflict existing has differs => rfl
  | inUse owner lacks owned differs => rfl
  | new lacks free => exact absurd rfl (hnew _)

/-- A vehicle whose claim is accepted owns the source. -/
theorem Agrees.owner?_of_record (h : Agrees book) {recorded : Recorded} {written : AddressBook}
    (accepted : book.record vehicle source = .ok (recorded, written)) :
    written.owner? source = some vehicle := by
  have hanswered := h.answered vehicle source
  rw [accepted] at hanswered
  cases hanswered with
  | unchanged owned => exact owned
  | new lacks free => rw [owner?_write, if_pos rfl]

/-! ## A source that is owned -/

/-- A source belongs to a vehicle, and the book defends it. -/
structure Holds (book : AddressBook) (vehicle : VehicleId) (source : Source) : Prop where
  address : book.address? vehicle source.medium = some source.address
  owner : book.owner? source = some vehicle
  /-- Seeing the vehicle there again is nothing new. -/
  repeated : book.record vehicle source = .ok (.unchanged, book)
  /-- The vehicle cannot move. -/
  elsewhere : ∀ address, address ≠ source.address →
    book.record vehicle ⟨source.medium, address⟩ =
      .error (.conflict vehicle source.medium source.address address)
  /-- A vehicle that is known elsewhere on the medium is told so. -/
  settled : ∀ other existing, other ≠ vehicle →
    book.address? other source.medium = some existing →
      existing ≠ source.address ∧
        book.record other source =
          .error (.conflict other source.medium existing source.address)
  /-- A vehicle that is not known on the medium is told whose the source is. -/
  newcomer : ∀ other, other ≠ vehicle → book.address? other source.medium = none →
    book.record other source = .error (.inUse source.medium source.address vehicle other)

/-- Whoever owns a source holds it. -/
theorem Agrees.holds (h : Agrees book) (howner : book.owner? source = some vehicle) :
    Holds book vehicle source := by
  have haddress : book.address? vehicle source.medium = some source.address :=
    (h.address_iff_owner vehicle source).mpr howner
  refine ⟨haddress, howner, ?_, ?_, ?_, ?_⟩
  · have hanswered := h.answered vehicle source
    generalize book.record vehicle source = answer at hanswered ⊢
    cases hanswered with
    | unchanged owned => rfl
    | conflict existing has differs =>
        rw [haddress] at has
        exact absurd (Option.some.inj has).symm differs
    | inUse owner lacks owned differs => simp [haddress] at lacks
    | new lacks free => simp [haddress] at lacks
  · intro address hne
    simp [AddressBook.record, haddress, hne.symm]
  · intro other existing hother hexisting
    -- Were the two addresses one, the source would have two owners.
    have hne : existing ≠ source.address := by
      rintro rfl
      rw [h.address_iff_owner, howner] at hexisting
      exact hother (Option.some.inj hexisting).symm
    refine ⟨hne, ?_⟩
    simp [AddressBook.record, hexisting, hne]
  · intro other hother hlacks
    simp [AddressBook.record, hlacks, howner, hother.symm]

/-! ## Forgetting -/

/-- **The addresses of a forgotten vehicle are free:** whoever has no address on the medium can be
recorded there. -/
theorem Agrees.record_forgotten (h : Agrees book) {medium address : String} {claimant : VehicleId}
    (had : book.address? vehicle medium = some address)
    (lacks : (book.forget vehicle).address? claimant medium = none) :
    (book.forget vehicle).record claimant ⟨medium, address⟩ =
      .ok (.new, (book.forget vehicle).write claimant ⟨medium, address⟩) := by
  have hfree : (book.forget vehicle).owner? ⟨medium, address⟩ = none := by
    rw [owner?_forget, if_pos had]
  have hanswered := (h.forget vehicle).answered claimant ⟨medium, address⟩
  generalize (book.forget vehicle).record claimant ⟨medium, address⟩ = answer at hanswered ⊢
  cases hanswered with
  | unchanged owned => simp [hfree] at owned
  | conflict existing has differs => simp [lacks] at has
  | inUse owner _ owned differs => simp [hfree] at owned
  | new lacks free => rfl

/-- A forgotten vehicle has no addresses; the others have theirs. -/
theorem addresses_forget (book : AddressBook) (vehicle other : VehicleId) :
    (book.forget vehicle).addresses other =
      if vehicle = other then ∅ else book.addresses other := by
  simp only [addresses, forget, Std.ExtTreeMap.getElem?_erase, Std.compare_eq_iff_eq]
  split <;> rfl

/-- A forgotten vehicle owns nothing; the others own what they did. -/
theorem Agrees.owner?_forget_iff (h : Agrees book) {owner : VehicleId} :
    (book.forget vehicle).owner? source = some owner ↔
      owner ≠ vehicle ∧ book.owner? source = some owner := by
  rw [← (h.forget vehicle).address_iff_owner, address?_forget, ← h.address_iff_owner]
  by_cases hv : vehicle = owner
  · simp [hv]
  · simp [hv, Ne.symm hv]

/-- As many addresses are cleared as there are media on which the vehicle has one. -/
theorem exists_media (book : AddressBook) (vehicle : VehicleId) :
    ∃ media : List String, media.Nodup ∧
      (∀ medium, medium ∈ media ↔ ∃ address, book.address? vehicle medium = some address) ∧
      book.cleared vehicle = media.length := by
  refine ⟨(book.addresses vehicle).keys, Std.ExtTreeMap.nodup_keys, ?_, ?_⟩
  · intro medium
    rw [Std.ExtTreeMap.mem_keys, Std.ExtTreeMap.mem_iff_isSome_getElem?, Option.isSome_iff_exists]
    rfl
  · rw [cleared, Std.ExtTreeMap.length_keys]

/-! ## The law -/

/-- **The first claim wins.**  After every history of claims and forgettings:

A vehicle whose claim to a source was accepted, and that was not forgotten since, holds the source:
it has the address, it owns the source, it is told so when it is seen there again, it cannot be
recorded at another address of the medium, and no other vehicle can be recorded there, which is told
of its own address on the medium if it has one and of the owner if not.

A claim is new exactly if its vehicle has no address on the medium and its source has no owner, and
every other claim leaves the book as it was.

With a forgotten vehicle as many addresses go as it has media.  Each of them can then be recorded
for any vehicle without an address on that medium, and the other vehicles keep their addresses and
their sources. -/
theorem first_claim_wins (history : List Change) :
    let book := empty.run history
    (∀ (before after : List Change) (vehicle : VehicleId) (source : Source) (recorded : Recorded)
        (written : AddressBook),
      history = before ++ .record vehicle source :: after →
      (empty.run before).record vehicle source = .ok (recorded, written) →
      .forget vehicle ∉ after → Holds book vehicle source) ∧
    (∀ (vehicle : VehicleId) (source : Source),
      ((∃ written, book.record vehicle source = .ok (.new, written)) ↔
        book.address? vehicle source.medium = none ∧ book.owner? source = none) ∧
      ((∀ written, book.record vehicle source ≠ .ok (.new, written)) →
        book.step (.record vehicle source) = book)) ∧
    ∀ vehicle : VehicleId,
      let left := book.step (.forget vehicle)
      (∃ media : List String, media.Nodup ∧
        (∀ medium, medium ∈ media ↔ ∃ address, book.address? vehicle medium = some address) ∧
        book.cleared vehicle = media.length) ∧
      (∀ (medium address : String) (claimant : VehicleId),
        book.address? vehicle medium = some address → left.address? claimant medium = none →
          left.record claimant ⟨medium, address⟩ =
            .ok (.new, left.write claimant ⟨medium, address⟩)) ∧
      (∀ other, left.addresses other = if vehicle = other then ∅ else book.addresses other) ∧
      ∀ (source : Source) (owner : VehicleId),
        left.owner? source = some owner ↔ owner ≠ vehicle ∧ book.owner? source = some owner := by
  intro book
  have h : Agrees book := agrees_empty.run history
  refine ⟨?_, fun vehicle source => ⟨h.record_eq_new_iff, h.step_of_not_new⟩, ?_⟩
  · intro before after vehicle source recorded written hsplit accepted hkept
    have hbefore : Agrees (empty.run before) := agrees_empty.run before
    have hstep : (empty.run before).step (.record vehicle source) = written := by
      simp only [step, accepted]
    have hbook : book = written.run after := by
      simp only [book, hsplit, run, List.foldl_append, List.foldl_cons]
      rw [← hstep]
      rfl
    have howner : book.owner? source = some vehicle := by
      rw [hbook]
      exact (hbefore.record accepted).owner?_run (hbefore.owner?_of_record accepted) hkept
    exact h.holds howner
  · intro vehicle left
    refine ⟨exists_media book vehicle, ?_, ?_, ?_⟩
    · intro medium address claimant had lacks
      exact h.record_forgotten had lacks
    · intro other
      exact addresses_forget book vehicle other
    · intro source owner
      exact h.owner?_forget_iff

/-- Another vehicle is seen at the source, the owner is seen elsewhere, and the other vehicle is
forgotten: the source stays where it was. -/
theorem holds_contested :
    let source : Source := ⟨"radio", "a"⟩
    let later := [.record "02" source, .record "01" ⟨"radio", "b"⟩, .forget "02"]
    (∃ written, empty.record "01" source = .ok (.new, written)) ∧
      .forget "01" ∉ later ∧ Holds (empty.run (.record "01" source :: later)) "01" source := by
  intro source later
  have accepted : empty.record "01" source = .ok (.new, empty.write "01" source) := by
    simp [record]
  have hkept : .forget "01" ∉ later := by decide
  exact ⟨⟨_, accepted⟩, hkept,
    (first_claim_wins _).1 [] later "01" source .new _ rfl accepted hkept⟩

end FleetLink.AddressBook
