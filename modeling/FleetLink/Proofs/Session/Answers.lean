import FleetLink.Proofs.Assembler.Provenance
import FleetLink.Proofs.Session.Moves

/-!
# What answers a command

Whoever waits for a command is told a text at most once.  This module says where the text comes
from, and **how old its parts can be**.

A text comes from a move that is there to hand it out (`Tells.answers`): the last part of a response
arrives, a complete response is handed over, or the text comes from elsewhere.  In the first case
the text is what the parts of the response say, and these are the end of what reached the assembler
since a buffer was opened for their source (`parts`, `Spells`).

**The assembler knows nothing of commands.**  A response that is on its way when a command is issued
goes on, and whoever issued the command is told all of it, with the parts that were there before.
So a text need not be younger than the command that it answers.  It is if nothing was on its way
from the source when the command was issued (`Reach`), and otherwise it is made of what was on its
way and of what arrived since.

## Main Statements

* `Tells`, `Tells.answers` — the move that tells the holder of a slot a text
* `OpensSlot`, `exists_opensSlot` — the call that a slot was opened for
* `parts`, `Spells`, `spells_of_part` — what a text is made of
* `Reach`, `reach` — whether a response reaches back over a cut of the moves
* `answered_since_opened` — how old the parts of an answer can be
-/

namespace FleetLink

namespace Session

/-- A move tells the holder of a slot a text. -/
structure Tells (s : Session) (m : Move) (slot : SlotId) (text : String) : Prop where
  untold : s.fleet.commands.outcome? slot = none
  told : (s.move m).fleet.commands.outcome? slot = some (.completed text)

/-- A move opens a slot for a vehicle: nobody held it, and then it is the pending command. -/
structure OpensSlot (s : Session) (m : Move) (vehicle : VehicleId) (slot : SlotId) : Prop where
  new : s.fleet.commands.slots[slot]? = none
  pending : (s.move m).fleet.commands.current? vehicle = some slot

/-- What reached the assembler since the buffer was opened in which an arrival completes a response,
after some moves, and that arrival.  The session is the one that the moves begin with. -/
def parts (s : Session) (moves : List Move) (x : Arrival) : List Arrival :=
  s.fleet.assembler.stretch x.source [] (s.arrivals moves ++ [x])

end Session

/-- A text is what the parts of a response say, the last of which is given. -/
def Spells (limits : AssemblyLimits) (x : Arrival) (parts : List Arrival) (text : String) : Prop :=
  ∃ body, Assembler.body limits x.source x.compressed
      (assembled x.chunk.total (heard x.source parts)) = .ok body ∧
    text = Text.decodeLossy body

namespace Session

/-- A response that an arrival completes, seen from a cut of the moves before it. -/
inductive Reach (s : Session) (before later : List Move) (x : Arrival) : Prop
  /-- All of it arrives after the cut. -/
  | after (since : s.parts (before ++ later) x <:+ (s.after before).arrivals later ++ [x])
  /-- It is on its way at the cut, and made of what its buffer holds there and what
  arrives since. -/
  | across (b : AssemblyBuffer) (held : List Arrival)
      (buffered : (s.after before).fleet.assembler.buffer? x.source = some b)
      (holds : Assembler.Holds b x.source held)
      (whole : s.parts (before ++ later) x = held ++ ((s.after before).arrivals later ++ [x]))

section

variable {s : Session} {m : Move} {vehicle : VehicleId} {slot : SlotId} {text : String}

/-- **Where a text comes from.**  The slot is the pending command of a vehicle, and the move hands
the text to that. -/
theorem Tells.answers (hs : s.fleet.links.Sound) (h : s.Tells m slot text) :
    ∃ vehicle, s.fleet.commands.current? vehicle = some slot ∧ s.Answers vehicle text m := by
  obtain ⟨changes, operations, hmove, hattributed⟩ := links_move s m
  have hcommands : (s.move m).fleet.commands = s.fleet.commands.run operations :=
    congrArg (·.commands) hmove
  have htold := h.told
  rw [hcommands] at htold
  have hcoherent : s.fleet.commands.Coherent := hs.coherent
  have huntold : s.fleet.commands.outcome? slot ≠ some (.completed text) := by
    rw [h.untold]
    exact Option.some_ne_none _ |>.symm
  rcases CommandTable.fulfills_of_told hcoherent htold with hbefore | ⟨vehicle, hmem⟩
  · exact absurd hbefore huntold
  · obtain ⟨rfl, hanswers⟩ := hattributed.fulfills vehicle text hmem
    have hstep : (s.fleet.commands.step (.fulfill vehicle text)).outcome? slot =
        some (.completed text) := htold
    rcases CommandTable.outcome?_of_step hcoherent hstep with hbefore | ⟨owner, hentry, hends⟩
    · exact absurd hbefore huntold
    · have howner : vehicle = owner := by
        by_contra hne
        simp [CommandTable.Operation.resolution?, hne] at hends
      exact ⟨vehicle, howner ▸ hentry, hanswers⟩

/-- **A slot is opened by a call.** -/
theorem exists_opensSlot (hs : s.fleet.links.Sound) {moves : List Move}
    (hbefore : s.fleet.commands.current? vehicle ≠ some slot)
    (hentry : (s.after moves).fleet.commands.current? vehicle = some slot) :
    ∃ before bounded line later,
      moves = before ++ .event (.call bounded vehicle line) :: later ∧
      (s.after before).OpensSlot (.event (.call bounded vehicle line)) vehicle slot := by
  induction moves using List.reverseRecOn with
  | nil => exact absurd hentry hbefore
  | append_singleton moves m ih =>
      by_cases hearlier : (s.after moves).fleet.commands.current? vehicle = some slot
      · obtain ⟨before, bounded, line, later, rfl, hopens⟩ := ih hearlier
        exact ⟨before, bounded, line, later ++ [m], by simp, hopens⟩
      · rw [after_concat] at hentry
        obtain ⟨changes, operations, hmove, hattributed⟩ := links_move (s.after moves) m
        have hcommands : ((s.after moves).move m).fleet.commands =
            (s.after moves).fleet.commands.run operations := congrArg (·.commands) hmove
        have hcoherent : (s.after moves).fleet.commands.Coherent := (sound_after hs moves).coherent
        have hrun := hentry
        rw [hcommands] at hrun
        rcases CommandTable.begins_of_current_run hcoherent operations hrun with
          hthere | ⟨hnew, now, strict, hmem⟩
        · exact absurd hthere hearlier
        · obtain ⟨bounded, line, rfl⟩ := hattributed.begins now strict vehicle hmem
          refine ⟨moves, bounded, line, [], rfl, ?_, hentry⟩
          -- Nobody holds a slot whose number is still to come.
          cases hslot : (s.after moves).fleet.commands.slots[slot]? with
          | none => rfl
          | some held => exact absurd (hcoherent.lt_next slot held hslot) (Nat.not_lt.mpr hnew)

/-- **A response and a cut of the moves.** -/
theorem reach (hs : s.fleet.links.Sound) {x : Arrival}
    (hunopened : s.fleet.assembler.buffer? x.source = none) (hsound : x.chunk.IsSound)
    (before later : List Move) : s.Reach before later x := by
  have hcut : Assembler.Distinct (s.after before).fleet.assembler :=
    (sound_after hs before).distinct
  have hparts : s.parts (before ++ later) x =
      (s.after before).fleet.assembler.stretch x.source
        (s.fleet.assembler.stretch x.source [] (s.arrivals before))
        ((s.after before).arrivals later ++ [x]) := by
    rw [parts, arrivals_append, List.append_assoc, Assembler.stretch_append, assembler_after]
  cases hb : (s.after before).fleet.assembler.buffer? x.source with
  | none =>
      refine .after ?_
      rw [hparts]
      exact Assembler.stretch_suffix_of_unopened hcut hb _ ⟨x, by simp, rfl, hsound⟩
  | some b =>
      have hholds : Assembler.Holds b x.source
          (s.fleet.assembler.stretch x.source [] (s.arrivals before)) := by
        rw [assembler_after] at hb
        exact Assembler.holds_run hs.distinct hunopened [] (s.arrivals before) b hb
      rcases Assembler.stretch_cut (s.after before).fleet.assembler x.source
        (s.fleet.assembler.stretch x.source [] (s.arrivals before))
        ((s.after before).arrivals later ++ [x]) with hafter | hwhole
      · exact .after (by rw [hparts]; exact hafter)
      · exact .across b _ hb hholds (by rw [hparts, hwhole])

/-- Nothing on its way at the cut, and all of the response arrives after it. -/
theorem Reach.since_of_unopened {before later : List Move} {x : Arrival}
    (h : s.Reach before later x)
    (hunopened : (s.after before).fleet.assembler.buffer? x.source = none) :
    s.parts (before ++ later) x <:+ (s.after before).arrivals later ++ [x] := by
  cases h with
  | after since => exact since
  | across b held buffered =>
      rw [hunopened] at buffered
      cases buffered

/-- **A text is what the parts say.** -/
theorem spells_of_part (hs : s.fleet.links.Sound) {moves : List Move} {x : Arrival}
    {body : List UInt8} (hunopened : s.fleet.assembler.buffer? x.source = none)
    (hreply : (s.after moves).fleet.assembler.reply x = .ok (some body)) :
    x.chunk.IsSound ∧
      Spells s.fleet.assembler.limits x (s.parts moves x) (Text.decodeLossy body) := by
  rw [assembler_after] at hreply
  have hdistinct : Assembler.Distinct s.fleet.assembler := hs.distinct
  obtain ⟨hsound, hbody⟩ :=
    Assembler.body_eq_of_reply hdistinct hunopened [] (s.arrivals moves) hreply
  exact ⟨hsound, body, hbody, rfl⟩

end

end Session

/-- Whatever a holder of a slot is told is younger than the slot: all parts of it arrived since. -/
def AnsweredAfresh (config : Config) (algorithms : List Algorithm) : Prop :=
  ∀ (before later : List Move) (opening m : Move) (vehicle : VehicleId) (slot : SlotId)
    (text : String) (x : Arrival),
    let start := Session.new config algorithms
    let moves := before ++ opening :: later
    (start.after before).OpensSlot opening vehicle slot →
    (start.after moves).Tells m slot text →
    m.arrival? (start.after moves).now = some x →
    start.parts moves x <:+ (start.after before).arrivals (opening :: later) ++ [x]

/-- **How old the parts of an answer can be.**  Whenever the holder of a slot is told a text, there
was a call that the slot was opened for, and it is the pending command of the vehicle that is
answered.  A text that comes in parts is what the parts say.  All of them arrived since the slot was
opened, if the source had no buffer then; otherwise the response may be the one that was on its way,
and consists of what its buffer held and of what arrived since. -/
theorem answered_since_opened {config : Config} {algorithms : List Algorithm} {moves : List Move}
    {m : Move} {slot : SlotId} {text : String}
    (h : ((Session.new config algorithms).after moves).Tells m slot text) :
    let start := Session.new config algorithms
    ∃ before bounded vehicle line later,
      moves = before ++ .event (.call bounded vehicle line) :: later ∧
      (start.after before).OpensSlot (.event (.call bounded vehicle line)) vehicle slot ∧
      (start.after moves).Answers vehicle text m ∧
      ∀ x ∈ m.arrival? (start.after moves).now,
        Spells (.ofSettings config.reassembly) x (start.parts moves x) text ∧
        start.Reach before (.event (.call bounded vehicle line) :: later) x := by
  intro start
  have hsound : start.fleet.links.Sound := Fleet.sound_new config algorithms
  obtain ⟨vehicle, hentry, hanswers⟩ := h.answers (Session.sound_after hsound moves)
  have hidle : start.fleet.commands.current? vehicle ≠ some slot := by
    show CommandTable.empty.current? vehicle ≠ some slot
    simp [CommandTable.current?, CommandTable.empty]
  obtain ⟨before, bounded, line, later, rfl, hopens⟩ :=
    Session.exists_opensSlot hsound hidle hentry
  refine ⟨before, bounded, vehicle, line, later, rfl, hopens, hanswers, fun x hx => ?_⟩
  cases hanswers with
  | part y body arrives owner answer reads =>
      obtain rfl : y = x := Option.some.inj (arrives.symm.trans hx)
      obtain ⟨hchunk, hspells⟩ := Session.spells_of_part hsound rfl answer
      exact ⟨reads ▸ hspells, Session.reach hsound rfl hchunk before _⟩
  | whole | given => cases hx

/-- The vehicle reports its status. -/
private def reports : Move := .event (.packet (.wireless "a") (.atRest 1))

/-- The vehicle is told to land. -/
private def ordered : Move := .event (.call true "01" "land")

/-- One of the two parts of a response arrives. -/
private def half (index : UInt8) (body : List UInt8) : Move :=
  .event (.packet (.wireless "a") (.commandResponse ⟨1, index, 2, body⟩))

/-- A command that was issued while nothing was on its way, and both parts of its answer. -/
theorem answered_in_halves :
    let start := Session.new .standard []
    let moves := [reports, ordered, half 1 [0x6B]]
    (start.after moves).Tells (half 0 [0x6F]) 0 "ok" ∧
      ∃ before bounded vehicle line later,
        moves = before ++ .event (.call bounded vehicle line) :: later ∧
        (start.after before).OpensSlot (.event (.call bounded vehicle line)) vehicle 0 ∧
        (start.after moves).Answers vehicle "ok" (half 0 [0x6F]) ∧
        ∀ x ∈ (half 0 [0x6F]).arrival? (start.after moves).now,
          Spells (.ofSettings Config.standard.reassembly) x (start.parts moves x) "ok" ∧
          start.Reach before (.event (.call bounded vehicle line) :: later) x := by
  intro start moves
  have htells : (start.after moves).Tells (half 0 [0x6F]) 0 "ok" :=
    ⟨by decide +kernel, by decide +kernel⟩
  exact ⟨htells, answered_since_opened htells⟩

/-- **An old part answers a new command.**  The first half of a response arrives before the vehicle
is told to land, the second half after it, and whoever waits is told both. -/
theorem not_answeredAfresh :
    let start := Session.new .standard []
    let moves := [reports, half 0 [0x6F, 0x6C, 0x64, 0x20], ordered]
    (start.after moves).Tells (half 1 [0x6E, 0x65, 0x77]) 0 "old new" ∧
      ¬ AnsweredAfresh .standard [] := by
  intro start moves
  have htells : (start.after moves).Tells (half 1 [0x6E, 0x65, 0x77]) 0 "old new" :=
    ⟨by decide +kernel, by decide +kernel⟩
  refine ⟨htells, fun hafresh => ?_⟩
  have hopens : (start.after (moves.take 2)).OpensSlot ordered "01" 0 :=
    ⟨by decide +kernel, by decide +kernel⟩
  have hsuffix := hafresh (moves.take 2) [] ordered (half 1 [0x6E, 0x65, 0x77]) "01" 0 "old new"
    ⟨0, .wireless "a", false, ⟨1, 1, 2, [0x6E, 0x65, 0x77]⟩⟩ hopens htells (by decide +kernel)
  exact absurd hsuffix (by decide +kernel)

end FleetLink
