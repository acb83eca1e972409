import FleetLink.Proofs.Session.Answers

/-!
# What forgetting leaves

A vehicle that is forgotten has no pending command, no address and no source (`forgotten`).  One
thing is left: **the responses on their way from its sources stay where they are,** because the
assembler keeps them by source and is not told.

So a response can reach back over the forgetting.  It is then completed by whatever its source sends
next of it, and handed to whoever has claimed the source by that time, be it another vehicle.  This
happens only to a response that was on its way: if a source had no buffer when its vehicle was
forgotten, all parts of whatever it completes later arrive later, too (`told_after_forgetting`).

## Main Statements

* `forgotten` — what is dropped, and what is not
* `told_after_forgetting` — the parts of a text that is told after a vehicle was forgotten
* `not_forgottenForGood` — half a response outlives its vehicle
-/

namespace FleetLink

/-- **A vehicle that is forgotten** has no command, no address and no source any more.  The other
vehicles have theirs, and the responses on their way are as they were. -/
theorem Session.forgotten {s : Session} (hs : s.fleet.links.Sound) (vehicle : VehicleId) :
    let left := (s.move (.event (.forget vehicle))).fleet
    (∀ other, left.commands.current? other =
      if vehicle = other then none else s.fleet.commands.current? other) ∧
    (∀ slot, s.fleet.commands.current? vehicle = some slot →
      left.commands.outcome? slot = some .cancelled) ∧
    (∀ source other, left.book.owner? source = some other ↔
      vehicle ≠ other ∧ s.fleet.book.owner? source = some other) ∧
    left.assembler = s.fleet.assembler := by
  intro left
  have hcommands : left.commands = s.fleet.commands.withdraw vehicle .cancelled :=
    CommandTable.cancel_snd s.fleet.commands vehicle
  have hcoherent : s.fleet.commands.Coherent := hs.coherent
  have hagrees : s.fleet.book.Agrees := hs.agrees
  refine ⟨fun other => ?_, fun slot hentry => ?_, fun source other => ?_, rfl⟩
  · rw [hcommands, CommandTable.current?_withdraw]
  · rw [hcommands, CommandTable.outcome?, hcoherent.slots_withdraw, if_pos hentry]
    rfl
  -- The maps agree, and in the one by vehicle it is plain what is erased.
  · show (s.fleet.book.forget vehicle).owner? source = some other ↔ _
    rw [← (hagrees.forget vehicle).address_iff_owner, AddressBook.address?_forget]
    by_cases hv : vehicle = other
    · simp [hv]
    · rw [if_neg hv, hagrees.address_iff_owner]
      exact (and_iff_right hv).symm

/-- Nothing that was received from a source of a vehicle before the vehicle was forgotten is part of
a text that is told later. -/
def ForgottenForGood (config : Config) (algorithms : List Algorithm) : Prop :=
  ∀ (before later : List Move) (m : Move) (vehicle : VehicleId) (slot : SlotId) (text : String)
    (x : Arrival),
    let start := Session.new config algorithms
    let moves := before ++ .event (.forget vehicle) :: later
    (start.after before).fleet.book.owner? x.source = some vehicle →
    (start.after moves).Tells m slot text →
    m.arrival? (start.after moves).now = some x →
    start.parts moves x <:+ (start.after before).arrivals (.event (.forget vehicle) :: later) ++ [x]

/-- **The parts of a text that is told after a vehicle was forgotten** all arrived since, if no
response was on its way from their source; otherwise the response may be the one that was on its
way, and consists of what its buffer held and of what arrived since. -/
theorem told_after_forgetting {config : Config} {algorithms : List Algorithm}
    {before later : List Move} {m : Move} {vehicle : VehicleId} {slot : SlotId} {text : String}
    {x : Arrival} :
    let start := Session.new config algorithms
    let moves := before ++ .event (.forget vehicle) :: later
    (start.after moves).Tells m slot text →
    m.arrival? (start.after moves).now = some x →
    Spells (.ofSettings config.reassembly) x (start.parts moves x) text ∧
    start.Reach before (.event (.forget vehicle) :: later) x ∧
    ((start.after before).fleet.assembler.buffer? x.source = none →
      start.parts moves x <:+
        (start.after before).arrivals (.event (.forget vehicle) :: later) ++ [x]) := by
  intro start moves htells harrives
  have hsound : start.fleet.links.Sound := Fleet.sound_new config algorithms
  obtain ⟨owner, -, hanswers⟩ := htells.answers (Session.sound_after hsound moves)
  cases hanswers with
  | part y body arrives _ answer reads =>
      obtain rfl : y = x := Option.some.inj (arrives.symm.trans harrives)
      obtain ⟨hchunk, hspells⟩ := Session.spells_of_part hsound rfl answer
      have hreach : start.Reach before (.event (.forget vehicle) :: later) y :=
        Session.reach hsound rfl hchunk before _
      exact ⟨reads ▸ hspells, hreach, hreach.since_of_unopened⟩
  | whole | given => cases harrives

/-- A vehicle reports its status from the source that two vehicles have one after the other. -/
private def surfaces (index : UInt32) : Move := .event (.packet (.wireless "a") (.atRest index))

/-- One of the two parts of a response arrives from there. -/
private def sends (index : UInt8) (body : List UInt8) : Move :=
  .event (.packet (.wireless "a") (.commandResponse ⟨1, index, 2, body⟩))

/-- Two vehicles have a source one after the other, with nothing on its way between them. -/
theorem told_to_successor :
    let start := Session.new .standard []
    let later := [surfaces 2, .event (.call true "02" "land"), sends 1 [0x6B]]
    let moves := [surfaces 1] ++ .event (.forget "01") :: later
    let x : Arrival := ⟨0, .wireless "a", false, ⟨1, 0, 2, [0x6F]⟩⟩
    (start.after moves).Tells (sends 0 [0x6F]) 0 "ok" ∧
      Spells (.ofSettings Config.standard.reassembly) x (start.parts moves x) "ok" ∧
      start.parts moves x <:+
        (start.after [surfaces 1]).arrivals (.event (.forget "01") :: later) ++ [x] := by
  intro start later moves x
  have htells : (start.after moves).Tells (sends 0 [0x6F]) 0 "ok" :=
    ⟨by decide +kernel, by decide +kernel⟩
  have harrives : (sends 0 [0x6F]).arrival? (start.after moves).now = some x := by decide +kernel
  have hunopened : (start.after [surfaces 1]).fleet.assembler.buffer? x.source = none := by
    decide +kernel
  obtain ⟨hspells, -, hsince⟩ := @told_after_forgetting .standard [] [surfaces 1] later
    (sends 0 [0x6F]) "01" 0 "ok" x htells harrives
  exact ⟨htells, hspells, hsince hunopened⟩

/-- **Half a response outlives its vehicle.**  It arrives before the vehicle is forgotten, another
vehicle claims the source and is told to land, and the answer to that is both halves. -/
theorem not_forgottenForGood :
    let start := Session.new .standard []
    let later := [surfaces 2, .event (.call true "02" "land")]
    let moves := [surfaces 1, sends 0 [0x6F, 0x6C, 0x64, 0x20], .event (.forget "01")] ++ later
    (start.after moves).Tells (sends 1 [0x6E, 0x65, 0x77]) 0 "old new" ∧
      ¬ ForgottenForGood .standard [] := by
  intro start later moves
  have htells : (start.after moves).Tells (sends 1 [0x6E, 0x65, 0x77]) 0 "old new" :=
    ⟨by decide +kernel, by decide +kernel⟩
  refine ⟨htells, fun hforgotten => ?_⟩
  have hsuffix := hforgotten (moves.take 2) later (sends 1 [0x6E, 0x65, 0x77]) "01" 0 "old new"
    ⟨0, .wireless "a", false, ⟨1, 1, 2, [0x6E, 0x65, 0x77]⟩⟩ (by decide +kernel) htells
    (by decide +kernel)
  exact absurd hsuffix (by decide +kernel)

end FleetLink
