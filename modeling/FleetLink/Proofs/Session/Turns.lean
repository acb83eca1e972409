import FleetLink.Proofs.Session.Calls
import FleetLink.Proofs.Session.Identities

/-!
# Turns

Those who wait for calls look at them one by one, and what else happens may happen between any two
looks.  A turn is an event or one look at one call (`Turn`).  Turns are finer than moves: to end
every call that can end is to look at each call that waits (`turns_eq_settle`).

**Nothing is left to do** when no call that waits could end if it was looked at (`Quiet`).  Then a
call waits for one thing only, its slot is the pending command of its vehicle, and its time is not
over.

## Main Statements

* `Turn`, `Session.turn`, `Session.turns` — what can happen, and what it comes to
* `Session.InOrder` — what every session keeps, time limits among it
* `InOrder.turn`, `InOrder.turns` — whatever happens, if calls are bounded
* `Session.Quiet`, `InOrder.pending_of_quiet` — what a call waits for when nothing is left to do
* `turns_eq_settle`, `exists_turns_of_run` — what is done in moves is done in turns
-/

namespace FleetLink

/-- What can happen to a session at a time, when calls are looked at one by one. -/
inductive Turn where
  /-- An event, and no call ends. -/
  | event (event : Event)
  /-- Whoever waits for a call looks at it. -/
  | poll (id : CallId)

namespace Fleet

/-- A call does not end as long as its holder finds nothing and its time is not over. -/
theorem finish?_eq_none_iff (f : Fleet) (now : Nat) (call : Call) :
    f.finish? now call = none ↔
      f.commands.wait? call.slot = none ∧ call.deadline.any (· ≤ now) = false := by
  unfold finish?
  cases f.commands.wait? call.slot with
  | some outcome => simp
  | none => cases call.deadline.any (· ≤ now) <;> simp

/-- A call does not end because another one lets its slot go. -/
theorem waits_of_release {f g : Fleet} (hcoherent : f.commands.Coherent) {now : Nat} {call : Call}
    {other : SlotId} (hcommands : g.commands = f.commands.release other) (hne : other ≠ call.slot)
    (hwaits : f.finish? now call = none) : g.finish? now call = none := by
  rw [finish?_eq_none_iff] at hwaits ⊢
  have hsame : g.commands.wait? call.slot = f.commands.wait? call.slot := by
    rw [hcommands, (hcoherent.release other).wait?_eq_outcome?, hcoherent.wait?_eq_outcome?,
      CommandTable.outcome?, CommandTable.outcome?, CommandTable.slots_release, if_neg hne]
  rw [hsame]
  exact hwaits

end Fleet

namespace Session

/-- A call that is looked at ends if it can. -/
def poll (s : Session) (id : CallId) : Session :=
  match s.waiting.find? (·.1 = id) with
  | none => s
  | some (_, call) =>
    match s.fleet.finish? s.now call with
    | none => s
    | some (fleet, result) =>
      { s with
        fleet := fleet
        waiting := s.waiting.filter (·.1 ≠ id)
        results := s.results ++ [(id, result)] }

/-- The session after a turn. -/
def turn (s : Session) : Turn → Session
  | .event event => s.apply event
  | .poll id => s.poll id

/-- The session after some turns, one after the other. -/
def turns (s : Session) (happenings : List Turn) : Session := happenings.foldl turn s

/-- What there is to see at some turns, one after the other.  Given is what there is to see at a
turn, before it is taken. -/
def log {α : Type*} (look : Session → Turn → Option α) (s : Session) : List Turn → List α
  | [] => []
  | t :: later => (look s t).toList ++ (s.turn t).log look later

/-- No call that waits ends when it is looked at. -/
def Quiet (s : Session) : Prop := ∀ w ∈ s.waiting, s.fleet.finish? s.now w.2 = none

section

variable {s : Session} {config : Config}

theorem turns_append (s : Session) (first second : List Turn) :
    s.turns (first ++ second) = (s.turns first).turns second := by
  simp [turns, List.foldl_append]

/-! ## One turn -/

/-- **A call that is looked at** waits on, or it ends and has a result. -/
theorem poll_cases (h : s.Orderly s.waiting) (id : CallId) :
    s.poll id = s ∨
    ∃ front call rest fleet result, s.waiting = front ++ (id, call) :: rest ∧
      s.fleet.finish? s.now call = some (fleet, result) ∧
      s.poll id =
        { s with
          fleet := fleet
          waiting := front ++ rest
          results := s.results ++ [(id, result)] } := by
  unfold poll
  cases hfind : s.waiting.find? (·.1 = id) with
  | none => exact .inl rfl
  | some gone =>
      obtain ⟨own, call⟩ := gone
      obtain ⟨rfl, front, rest, hsplit, hothers⟩ := h.split_of_find? hfind
      dsimp only
      cases hfinish : s.fleet.finish? s.now call with
      | none => exact .inl rfl
      | some ended =>
          obtain ⟨fleet, result⟩ := ended
          exact .inr ⟨front, call, rest, fleet, result, hsplit, hfinish, by rw [← hothers]⟩

/-- Whoever looks at a call lets its slot go at most. -/
theorem links_poll (s : Session) (id : CallId) : ∃ slots : List SlotId,
    (s.poll id).fleet.links = s.fleet.links.after [] [] (slots.map .drop) := by
  unfold poll
  cases s.waiting.find? (·.1 = id) with
  | none => exact ⟨[], rfl⟩
  | some found =>
      obtain ⟨own, call⟩ := found
      dsimp only
      cases hfinish : s.fleet.finish? s.now call with
      | none => exact ⟨[], rfl⟩
      | some ended => exact ⟨[call.slot], s.fleet.links_finish? s.now call hfinish⟩

theorem links_turn (s : Session) (t : Turn) : ∃ changes arrivals operations,
    (s.turn t).fleet.links = s.fleet.links.after changes arrivals operations := by
  cases t with
  | event event =>
      obtain ⟨changes, operations, hmove, -⟩ := links_move s (.event event)
      exact ⟨changes, _, operations, hmove⟩
  | poll id =>
      obtain ⟨slots, hpoll⟩ := links_poll s id
      exact ⟨[], [], _, hpoll⟩

theorem sound_turn (h : s.fleet.links.Sound) (t : Turn) : (s.turn t).fleet.links.Sound := by
  obtain ⟨changes, arrivals, operations, hturn⟩ := links_turn s t
  rw [hturn]
  exact h.after changes arrivals operations

theorem sound_turns (h : s.fleet.links.Sound) (happenings : List Turn) :
    (s.turns happenings).fleet.links.Sound := by
  induction happenings generalizing s with
  | nil => exact h
  | cons t later ih => exact ih (sound_turn h t)

theorem commands_turn (s : Session) (t : Turn) : ∃ operations,
    (s.turn t).fleet.commands = s.fleet.commands.run operations := by
  obtain ⟨changes, arrivals, operations, hturn⟩ := links_turn s t
  exact ⟨operations, congrArg (·.commands) hturn⟩

theorem commands_turns (s : Session) (happenings : List Turn) : ∃ operations,
    (s.turns happenings).fleet.commands = s.fleet.commands.run operations := by
  induction happenings generalizing s with
  | nil => exact ⟨[], rfl⟩
  | cons t later ih =>
      obtain ⟨first, hfirst⟩ := commands_turn s t
      obtain ⟨second, hsecond⟩ := ih (s.turn t)
      refine ⟨first ++ second, ?_⟩
      rw [CommandTable.run_append, ← hfirst]
      exact hsecond

/-- Whoever looks at a call works on the commands at most. -/
theorem poll_eq (s : Session) (id : CallId) : ∃ commands count,
    (s.poll id).fleet = { s.fleet with commands := commands }.observe count := by
  unfold poll
  cases s.waiting.find? (·.1 = id) with
  | none => exact ⟨s.fleet.commands, fun metrics => metrics, rfl⟩
  | some found =>
      obtain ⟨own, call⟩ := found
      dsimp only
      cases hfinish : s.fleet.finish? s.now call with
      | none => exact ⟨s.fleet.commands, fun metrics => metrics, rfl⟩
      | some ended => exact Fleet.finish?_eq hfinish

theorem naming_poll (s : Session) (id : CallId) : (s.poll id).fleet.naming = s.fleet.naming := by
  obtain ⟨commands, count, hpoll⟩ := s.poll_eq id
  rw [hpoll]
  rfl

theorem identified_turn (h : s.fleet.Identified config) (t : Turn) :
    (s.turn t).fleet.Identified config := by
  cases t with
  | event event => exact identified_move h (.event event)
  | poll id => exact h.of_naming (s.naming_poll id)

theorem identified_turns (h : s.fleet.Identified config) (happenings : List Turn) :
    (s.turns happenings).fleet.Identified config := by
  induction happenings generalizing s with
  | nil => exact h
  | cons t later ih => exact ih (identified_turn h t)

theorem orderly_turn (hcoherent : s.fleet.commands.Coherent) (h : s.Orderly s.waiting) (t : Turn) :
    (s.turn t).Orderly (s.turn t).waiting := by
  cases t with
  | event event => exact orderly_move hcoherent h (.event event)
  | poll id =>
      show (s.poll id).Orderly (s.poll id).waiting
      rcases poll_cases h id with hsame | ⟨front, call, rest, fleet, result, hsplit, hfinish, hpoll⟩
      · rw [hsame]
        exact h
      · rw [hpoll]
        have hleft := congrArg (·.commands) (s.fleet.links_finish? s.now call hfinish)
        exact h.release hsplit hleft rfl (.inr (by simp))

/-! ## Time limits -/

/-- As long as a call's slot is the pending command of its vehicle, the call waits no longer than
configured, counted from when the command was issued. -/
def InTime (s : Session) (w : CallId × Call) : Prop :=
  ∀ p, s.fleet.commands.pending[w.2.vehicle]? = some p → p.slot = w.2.slot →
    w.2.deadline = some (s.fleet.deadline p.since)

/-- No call has a slot whose number is still to be given. -/
theorem Orderly.slot_lt_next (hcoherent : s.fleet.commands.Coherent) (h : s.Orderly s.waiting)
    {w : CallId × Call} (hw : w ∈ s.waiting) : w.2.slot < s.fleet.commands.next := by
  have hheld := (h.held w.2.slot w.2.vehicle).mpr ⟨w, hw, rfl, rfl⟩
  obtain ⟨held, hslot, -⟩ := Option.map_eq_some_iff.mp hheld
  exact hcoherent.lt_next _ _ hslot

/-- What happens to the commands does not move the deadlines. -/
theorem InTime.of_run (hcoherent : s.fleet.commands.Coherent) (horderly : s.Orderly s.waiting)
    {w : CallId × Call} (hw : w ∈ s.waiting) (h : s.InTime w) {left : Session}
    {operations : List CommandTable.Operation}
    (hcommands : left.fleet.commands = s.fleet.commands.run operations)
    (hsettings : left.fleet.settings = s.fleet.settings) : left.InTime w := by
  intro p hp hslot
  -- The slot of a call that waits is an old one, so its entry is not new either.
  have hold : s.fleet.commands.pending[w.2.vehicle]? = some p := by
    rw [hcommands] at hp
    rcases CommandTable.begins_of_pending_run hcoherent operations hp with hbefore | ⟨hnew, -⟩
    · exact hbefore
    · have hlt := horderly.slot_lt_next hcoherent hw
      exact absurd (hslot ▸ hnew) (Nat.not_le.mpr hlt)
  have hdeadline : left.fleet.deadline p.since = s.fleet.deadline p.since := by
    rw [Fleet.deadline, Fleet.deadline, hsettings]
  rw [hdeadline]
  exact h p hold hslot

/-- A turn that is no call makes none, and has none wait that did not before. -/
theorem waiting_turn (s : Session) {t : Turn}
    (hcall : ∀ bounded vehicle line, t ≠ .event (.call bounded vehicle line)) :
    (s.turn t).next = s.next ∧ (s.turn t).waiting ⊆ s.waiting := by
  cases t with
  | poll id =>
      show (s.poll id).next = s.next ∧ (s.poll id).waiting ⊆ s.waiting
      unfold poll
      cases s.waiting.find? (·.1 = id) with
      | none => exact ⟨rfl, List.Subset.refl _⟩
      | some found =>
          dsimp only
          cases s.fleet.finish? s.now found.2 with
          | none => exact ⟨rfl, List.Subset.refl _⟩
          | some ended => exact ⟨rfl, List.filter_sublist.subset⟩
  | event event =>
      show (s.apply event).next = s.next ∧ (s.apply event).waiting ⊆ s.waiting
      by_cases habandon : ∃ id, event = .abandon id
      · obtain ⟨id, rfl⟩ := habandon
        show (s.abandon id).next = s.next ∧ (s.abandon id).waiting ⊆ s.waiting
        unfold abandon
        cases s.waiting.find? (·.1 = id) with
        | none => exact ⟨rfl, List.Subset.refl _⟩
        | some gone => exact ⟨rfl, List.filter_sublist.subset⟩
      · obtain ⟨hwaiting, -, hnext, -⟩ := s.commands_apply
          (fun bounded vehicle line heq => hcall bounded vehicle line (congrArg Turn.event heq))
          (fun id heq => habandon ⟨id, heq⟩)
        rw [hwaiting]
        exact ⟨hnext, List.Subset.refl _⟩

/-- The new call of a vehicle is in time. -/
theorem inTime_begin (hcoherent : s.fleet.commands.Coherent) (vehicle : VehicleId) (line : String) :
    (s.begin true vehicle line).InTime (s.next, ⟨vehicle, s.fleet.commands.next,
      some (s.fleet.deadline s.now)⟩) := by
  intro p hp hslot
  obtain ⟨slot, operations, hbegin, hprefix⟩ := links_begin s true vehicle line
  have hcommands : (s.begin true vehicle line).fleet.commands = s.fleet.commands.run operations :=
    congrArg (·.commands) hbegin
  have hsettings : (s.begin true vehicle line).fleet.settings = s.fleet.settings :=
    congrArg (·.1) (s.naming_begin true vehicle line)
  have hsince : p.since = s.now := by
    rw [hcommands] at hp
    rcases CommandTable.begins_of_pending_run hcoherent operations hp with
      hbefore | ⟨-, strict, hmem⟩
    · have hentry := hcoherent.current_lt_next (Option.map_eq_some_iff.mpr ⟨p, hbefore, rfl⟩)
      exact absurd hslot (Nat.ne_of_lt hentry)
    · have hboth := hprefix.subset hmem
      simp only [List.mem_cons, List.not_mem_nil, or_false, reduceCtorEq,
        CommandTable.Operation.begin.injEq] at hboth
      exact hboth.1
  rw [Fleet.deadline, Fleet.deadline, hsettings, hsince]

/-! ## What every session keeps -/

/-- Ids are made as configured, the parts of the links agree, the calls that wait hold the slots,
and they wait no longer than configured. -/
structure InOrder (config : Config) (s : Session) : Prop where
  identified : s.fleet.Identified config
  sound : s.fleet.links.Sound
  orderly : s.Orderly s.waiting
  inTime : ∀ w ∈ s.waiting, s.InTime w

theorem inOrder_new (config : Config) (algorithms : List Algorithm) :
    (new config algorithms).InOrder config where
  identified := Fleet.identified_new config algorithms
  sound := Fleet.sound_new config algorithms
  orderly := Reachable.new.orderly
  inTime := fun _ hw => absurd hw List.not_mem_nil

namespace InOrder

/-- **Every turn keeps it so**, if the calls that are made are bounded. -/
theorem turn (h : s.InOrder config) {t : Turn}
    (hbounded : ∀ vehicle line, t ≠ .event (.call false vehicle line)) :
    (s.turn t).InOrder config := by
  have hcoherent : s.fleet.commands.Coherent := h.sound.coherent
  have hidentified := identified_turn h.identified t
  have hsettings : (s.turn t).fleet.settings = s.fleet.settings :=
    hidentified.settings.trans h.identified.settings.symm
  obtain ⟨changes, arrivals, operations, hlinks⟩ := links_turn s t
  have hcommands : (s.turn t).fleet.commands = s.fleet.commands.run operations :=
    congrArg (·.commands) hlinks
  have hold : ∀ w ∈ s.waiting, (s.turn t).InTime w := fun w hw =>
    (h.inTime w hw).of_run hcoherent h.orderly hw hcommands hsettings
  refine ⟨hidentified, hlinks ▸ h.sound.after changes arrivals operations,
    orderly_turn hcoherent h.orderly t, ?_⟩
  -- Only a call that is made has a deadline that was not there before.
  by_cases hcall : ∃ bounded vehicle line, t = .event (.call bounded vehicle line)
  · obtain ⟨bounded, vehicle, line, rfl⟩ := hcall
    have hlimited : bounded = true := by
      cases bounded with
      | true => rfl
      | false => exact absurd rfl (hbounded vehicle line)
    subst hlimited
    obtain ⟨-, ⟨-, -, hwaiting, -⟩ | ⟨-, hwaiting, -⟩⟩ := begin_cases hcoherent true vehicle line
    · exact fun w hw => hold w (hwaiting ▸ hw)
    · intro w hw
      have hmem : w ∈ (s.begin true vehicle line).waiting := hw
      rw [hwaiting, List.mem_append, List.mem_singleton] at hmem
      rcases hmem with hmem | rfl
      · exact hold w hmem
      · exact inTime_begin hcoherent vehicle line
  · obtain ⟨-, hsubset⟩ := s.waiting_turn fun bounded vehicle line heq =>
      hcall ⟨bounded, vehicle, line, heq⟩
    exact fun w hw => hold w (hsubset hw)

theorem turns (h : s.InOrder config) {happenings : List Turn}
    (hbounded : ∀ t ∈ happenings, ∀ vehicle line, t ≠ .event (.call false vehicle line)) :
    (s.turns happenings).InOrder config := by
  induction happenings generalizing s with
  | nil => exact h
  | cons t later ih =>
      exact ih (h.turn (hbounded t List.mem_cons_self))
        fun other hother => hbounded other (List.mem_cons_of_mem t hother)

/-! ## When nothing is left to do -/

/-- **What a call waits for, when nothing is left to do**: its slot is the pending command of its
vehicle, and is younger than a call may be. -/
theorem pending_of_quiet (h : s.InOrder config) (hquiet : s.Quiet) {w : CallId × Call}
    (hw : w ∈ s.waiting) : ∃ p, s.fleet.commands.pending[w.2.vehicle]? = some p ∧
      p.slot = w.2.slot ∧ s.now < p.since + config.driver.commandTimeout.toNat * 1000 := by
  have hheld := (h.orderly.held w.2.slot w.2.vehicle).mpr ⟨w, hw, rfl, rfl⟩
  have hnone := hquiet w hw
  rcases finish?_cases h.sound.coherent hheld with ⟨-, hpending⟩ | ⟨fleet, result, hfinish, -⟩
  · obtain ⟨p, hp, hslot⟩ := Option.map_eq_some_iff.mp hpending
    refine ⟨p, hp, hslot, ?_⟩
    have hdeadline := h.inTime w hw p hp hslot
    have hleft := ((s.fleet.finish?_eq_none_iff s.now w.2).mp hnone).2
    rw [hdeadline, Option.any_some, decide_eq_false_iff_not, Fleet.deadline,
      h.identified.settings] at hleft
    exact Nat.lt_of_not_le hleft
  · rw [hnone] at hfinish
    cases hfinish

end InOrder

/-! ## Moves are turns -/

/-- Ending every call that can end, of some that are looked at in turn, is looking at each, and then
none of them could end. -/
theorem turns_polls {calls : List (CallId × Call)} (hcoherent : s.fleet.commands.Coherent)
    (h : s.Orderly (s.waiting ++ calls)) (hquiet : s.Quiet) :
    Session.turns { s with waiting := s.waiting ++ calls } (calls.map (Turn.poll ·.1)) =
        s.settleCalls calls ∧
      (s.settleCalls calls).Quiet := by
  induction calls generalizing s with
  | nil =>
      rw [List.append_nil]
      exact ⟨rfl, hquiet⟩
  | cons first rest ih =>
      obtain ⟨id, call⟩ := first
      have honce := (List.nodup_append.mp h.once).1
      have hfind := find?_gone honce
      show (poll { s with waiting := s.waiting ++ (id, call) :: rest } id).turns
        (rest.map (Turn.poll ·.1)) = _ ∧ _
      rw [settleCalls]
      cases hfinish : s.fleet.finish? s.now call with
      | none =>
          have hpoll : poll { s with waiting := s.waiting ++ (id, call) :: rest } id =
              { s with waiting := s.waiting ++ [(id, call)] ++ rest } := by
            unfold poll
            rw [hfind]
            dsimp only
            rw [hfinish, List.append_assoc, List.singleton_append]
          rw [hpoll]
          refine ih (s := { s with waiting := s.waiting ++ [(id, call)] }) hcoherent ?_ ?_
          · have hassoc : s.waiting ++ (id, call) :: rest = s.waiting ++ [(id, call)] ++ rest := by
              simp
            exact (hassoc ▸ h).of_same rfl rfl fun _ => rfl
          · intro w hw
            rcases List.mem_append.mp hw with hw | hw
            · exact hquiet w hw
            · obtain rfl := List.mem_singleton.mp hw
              exact hfinish
      | some ended =>
          obtain ⟨fleet, result⟩ := ended
          have hleft : fleet.commands = s.fleet.commands.release call.slot :=
            congrArg (·.commands) (s.fleet.links_finish? s.now call hfinish)
          have hpoll : poll { s with waiting := s.waiting ++ (id, call) :: rest } id =
              { s with
                fleet := fleet
                waiting := s.waiting ++ rest
                results := s.results ++ [(id, result)] } := by
            unfold poll
            rw [hfind]
            dsimp only
            rw [hfinish]
            dsimp only
            rw [filter_others honce]
          rw [hpoll]
          refine ih (s := { s with fleet := fleet, results := s.results ++ [(id, result)] }) ?_
            (h.release rfl hleft rfl (.inr (by simp))) ?_
          · rw [hleft]
            exact hcoherent.release call.slot
          -- Those that wait on have other slots than the call that ended.
          · intro w hw
            have hother := (h.mem_others_iff rfl).mp (List.mem_append_left rest hw)
            exact Fleet.waits_of_release hcoherent hleft hother.2 (hquiet w hw)

/-- **Ending every call that can end is looking at each call that waits**, and then nothing is left
to do. -/
theorem turns_eq_settle (hcoherent : s.fleet.commands.Coherent) (h : s.Orderly s.waiting) :
    s.turns (s.waiting.map (Turn.poll ·.1)) = s.settle ∧ s.settle.Quiet :=
  turns_polls (s := { s with waiting := [] }) hcoherent (h.of_same rfl rfl fun _ => rfl)
    (by simp [Quiet])

/-- A run of events is made of turns, with no other events, and ends when nothing is left to do. -/
theorem exists_turns_of_run (hsound : s.fleet.links.Sound) (horderly : s.Orderly s.waiting)
    (hquiet : s.Quiet) (events : List Event) :
    ∃ happenings, s.turns happenings = s.run events ∧
      (∀ event, .event event ∈ happenings → event ∈ events) ∧ (s.run events).Quiet := by
  induction events generalizing s with
  | nil => exact ⟨[], rfl, by simp, hquiet⟩
  | cons event events ih =>
      have happlied := sound_move hsound (.event event)
      have hordered := orderly_move hsound.coherent horderly (.event event)
      obtain ⟨hpolls, hdone⟩ := turns_eq_settle happlied.coherent hordered
      obtain ⟨later, hlater, hevents, hend⟩ := ih (s := s.step event)
        (sound_move happlied .settle) (orderly_settle happlied.coherent hordered).1 hdone
      refine ⟨.event event :: ((s.apply event).waiting.map (Turn.poll ·.1) ++ later), ?_, ?_, hend⟩
      · show (s.apply event).turns _ = _
        have hstep : (s.apply event).turns ((s.apply event).waiting.map (Turn.poll ·.1)) =
            s.step event := hpolls
        rw [turns_append, hstep, hlater, run_cons]
      · intro other hmem
        rcases List.mem_cons.mp hmem with hsame | hrest
        · cases hsame
          exact List.mem_cons_self
        · rcases List.mem_append.mp hrest with hpoll | hmore
          · obtain ⟨w, -, heq⟩ := List.mem_map.mp hpoll
            cases heq
          · exact List.mem_cons_of_mem _ (hevents other hmore)

end

end Session

end FleetLink
