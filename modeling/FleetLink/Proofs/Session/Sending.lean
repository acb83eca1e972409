import Mathlib.Data.List.Induction
import FleetLink.Proofs.Session.Exchange

/-!
# Lines are sent once

Calls are put through at the same time, and the link takes their lines in any order.  This module
proves that **what the link took are the lines of the calls that came to wait**: of each of them one
packet, and nothing else.  The packet goes to the source that its vehicle was reached at when the
call asked, and at that moment the source led back to the vehicle.

**A call is sent once** because it leaves with that: its number is not among those of the calls that
are put through any more, and it is not given again (`Numbered`).  What its packet holds was to see
before, at the steps that made the call, told it the source and opened its slot (`Known`).

## Main Statements

* `Does.sends`, `Does.waits`, `Does.of_sent` — a line is sent, and its call waits
* `Does.comes` — which calls are being put through
* `Does.known_or_new` — a call was put through before, or it starts at this step
* `Numbered`, `Numbered.step` — which numbers calls have
* `Known`, `Traced`, `Traced.step` — what was to see of a call
* `SentOnce`, `sentOnce` — all that was sent
-/

namespace FleetLink

/-- What the link takes is sent last. -/
theorem Outbox.sent_of_send? {o sending : Outbox} {destination : Source} {packet : Packet}
    (hsend : o.send? destination packet = some sending) :
    sending.sent = o.sent ++ [⟨destination, packet⟩] := by
  unfold send? at hsend
  split at hsend
  · cases hsend
  · cases hsend
    rfl

namespace Fleet

section

variable (f : Fleet) (now : Nat)

/-! ## What is sent -/

theorem outbox_receive (source : Source) (packet : Packet) :
    (f.receive now source packet).1.outbox = f.outbox := by
  obtain ⟨count, hreceive⟩ := f.receive_eq_handle now source packet
  rw [hreceive]
  show ((f.observe (·.receive packet.kind)).handle now source packet).1.outbox =
    (f.observe (·.receive packet.kind)).outbox
  generalize f.observe (·.receive packet.kind) = g
  have hchunk : ∀ compressed chunk, (g.takeChunk now source compressed chunk).1.outbox =
      g.outbox := by
    intro compressed chunk
    obtain ⟨assembler, commands, count, htake⟩ := g.takeChunk_eq now source compressed chunk
    rw [htake]
    rfl
  cases packet with
  | status report => exact (g.within_takeStatus now source report).outbox
  | algorithmData data => exact (g.within_takeData source data).outbox
  | commandResponse chunk => exact hchunk false chunk
  | compressedCommandResponse chunk => exact hchunk true chunk
  | prearmStatus | commandRequest | missionInfo | other => rfl

/-- A call that gets a slot and keeps it has sent its line. -/
theorem sent_call (vehicle : VehicleId) (line : String) :
    (f.call now vehicle line).1.outbox.sent =
        f.outbox.sent ++ (f.sends? now vehicle line).toList ∧
      ∀ slot, (f.call now vehicle line).2 = .ok slot →
        ∃ destination, f.preferred? vehicle = some destination ∧
          f.sends? now vehicle line = some ⟨destination, CommandLine.packet line⟩ := by
  unfold sends? call
  split
  · cases hpreferred : f.preferred? vehicle with
    | none => simp
    | some destination =>
        dsimp only
        cases f.commands.begin now f.settings.strictCommands vehicle with
        | none => simp [observe]
        | some begun =>
            obtain ⟨slot, commands⟩ := begun
            dsimp only
            cases hsend : f.outbox.send? destination (CommandLine.packet line) with
            | none => simp [observe]
            | some outbox => simp [Outbox.sent_of_send? hsend]
  · simp

end

end Fleet

namespace Session

/-- A turn that is no call sends nothing. -/
theorem outbox_turn (s : Session) {t : Turn}
    (hcall : ∀ bounded vehicle line, t ≠ .event (.call bounded vehicle line)) :
    (s.turn t).fleet.outbox.sent = s.fleet.outbox.sent := by
  cases t with
  | poll id =>
      obtain ⟨commands, count, hpoll⟩ := s.poll_eq id
      have houtbox := congrArg (·.outbox.sent) hpoll
      exact houtbox
  | event event =>
      cases event with
      | call bounded vehicle line => exact absurd rfl (hcall bounded vehicle line)
      | packet source packet =>
          exact congrArg (·.sent) (s.fleet.outbox_receive s.now source packet)
      | response source body =>
          obtain ⟨commands, count, hdeliver⟩ := s.fleet.deliver_eq source body
          have houtbox := congrArg (·.outbox.sent) hdeliver
          exact houtbox
      | identify index => exact congrArg (·.sent) (s.fleet.within_identify index).outbox
      | meet index => exact congrArg (·.sent) (s.fleet.within_meet index ⟨"", ""⟩).outbox
      | abandon id =>
          obtain ⟨commands, habandon⟩ := s.abandon_eq id
          have houtbox := congrArg (·.outbox.sent) habandon
          exact houtbox
      | _ => rfl

/-- **A call that is made in one go** takes a number.  It waits exactly if its line is sent, and
then it has a slot. -/
theorem outbox_begin (s : Session) (bounded : Bool) (vehicle : VehicleId) (line : String) :
    (s.begin bounded vehicle line).fleet.outbox.sent =
        s.fleet.outbox.sent ++ (s.fleet.sends? s.now vehicle line).toList ∧
      (s.begin bounded vehicle line).next = s.next + 1 ∧
      (s.fleet.sends? s.now vehicle line = none ∧
          (s.begin bounded vehicle line).waiting = s.waiting ∨
        ∃ destination slot deadline, s.fleet.preferred? vehicle = some destination ∧
          s.fleet.opens? s.now vehicle = some slot ∧
          s.fleet.sends? s.now vehicle line = some ⟨destination, CommandLine.packet line⟩ ∧
          (s.begin bounded vehicle line).waiting =
            s.waiting ++ [(s.next, ⟨vehicle, slot, deadline⟩)]) := by
  obtain ⟨hsent, hkept⟩ := s.fleet.sent_call s.now vehicle line
  rw [fleet_begin]
  refine ⟨hsent, ?_⟩
  have hopens := s.fleet.call_opens s.now vehicle line
  unfold begin
  rcases hcall : s.fleet.call s.now vehicle line with ⟨fleet, fault | slot⟩
  · refine ⟨rfl, .inl ⟨?_, rfl⟩⟩
    rw [Fleet.sends?, hcall]
  · obtain ⟨destination, hpreferred, hsends⟩ := hkept slot (by rw [hcall])
    rw [hcall] at hopens
    obtain ⟨-, -, fault, hfault⟩ |
      ⟨own, begun, hopened, -, ⟨hslot, -⟩ | ⟨⟨fault, hfault⟩, -⟩⟩ := hopens
    · cases hfault
    · cases hslot
      exact ⟨rfl, .inr ⟨destination, slot, _, hpreferred, hopened, hsends, rfl⟩⟩
    · cases hfault

end Session

namespace Exchange

variable {w w' : Exchange} {x : Step}

/-! ## One step -/

/-- The call that asks with a step which source its vehicle is reached at, and the vehicle. -/
def asks? (w : Exchange) : Step → Option (CallId × VehicleId)
  | .turn (.event (.call _ vehicle _)) => some (w.session.next, vehicle)
  | .address id =>
    match w.underway[id]? with
    | some ⟨vehicle, _, _, .found⟩ => some (id, vehicle)
    | _ => none
  | _ => none

/-- The call that asks with a step, its vehicle, and the source that the vehicle is reached at. -/
def reached? (w : Exchange) (x : Step) : Option (CallId × VehicleId × Source) :=
  (w.asks? x).bind fun asked =>
    (w.session.fleet.preferred? asked.2).map fun destination => (asked.1, asked.2, destination)

theorem of_reached? {id : CallId} {vehicle : VehicleId} {destination : Source}
    (hreached : w.reached? x = some (id, vehicle, destination)) :
    w.asks? x = some (id, vehicle) ∧ w.session.fleet.preferred? vehicle = some destination := by
  obtain ⟨⟨asker, asked⟩, hasks, hfound⟩ := Option.bind_eq_some_iff.mp hreached
  obtain ⟨own, hpreferred, heq⟩ := Option.map_eq_some_iff.mp hfound
  cases heq
  exact ⟨hasks, hpreferred⟩

/-- **What is sent with a step** is the line of a call. -/
theorem Does.sends (h : Does w x w') :
    w'.session.fleet.outbox.sent =
      w.session.fleet.outbox.sent ++ ((w.sent? x).map (·.2)).toList := by
  cases h with
  | call bounded vehicle line =>
      refine (w.session.outbox_begin bounded vehicle line).1.trans ?_
      cases hsends : w.session.fleet.sends? w.session.now vehicle line <;> simp [sent?, hsends]
  | turn plain =>
      rw [(w.silent_turn plain).2.2]
      exact (w.session.outbox_turn plain).trans (List.append_nil _).symm
  | @sent id vehicle line deadline destination slot outbox call taken =>
      have hsent : w.sent? (.send id) = some (id, ⟨destination, CommandLine.packet line⟩) := by
        simp [sent?, call, taken]
      rw [hsent]
      exact Outbox.sent_of_send? taken
  | @failed id vehicle line deadline destination slot call down =>
      have hnone : w.sent? (.send id) = none := by simp [sent?, call, down]
      rw [hnone]
      exact (List.append_nil _).symm
  | idle _ _ unsent => simp [unsent]
  | found | unknown | addressed | unreached | begun | busy | expired | left =>
      exact (List.append_nil _).symm

/-- Why a call is being put through after a step, and what there was to see of it. -/
inductive Comes (w : Exchange) (x : Step) (id : CallId) : Underway → Prop
  | stayed {u : Underway} (before : w.underway[id]? = some u) : Comes w x id u
  | made {vehicle : VehicleId} {line : String} {deadline : Option Nat}
      (made : w.made? x = some (id, vehicle, line))
      (registered : vehicle ∈ w.session.fleet.registry) :
      Comes w x id ⟨vehicle, line, deadline, .found⟩
  | addressed {vehicle : VehicleId} {line : String} {deadline : Option Nat} {destination : Source}
      (before : w.underway[id]? = some ⟨vehicle, line, deadline, .found⟩)
      (reached : w.reached? x = some (id, vehicle, destination)) :
      Comes w x id ⟨vehicle, line, deadline, .addressed destination⟩
  | begun {vehicle : VehicleId} {line : String} {deadline : Option Nat} {destination : Source}
      {slot : SlotId}
      (before : w.underway[id]? = some ⟨vehicle, line, deadline, .addressed destination⟩)
      (opened : w.opened? x = some (vehicle, slot)) :
      Comes w x id ⟨vehicle, line, deadline, .sending destination slot⟩

theorem underway_put (w : Exchange) (own id : CallId) (u : Underway) :
    (w.put own u).underway[id]? = if own = id then some u else w.underway[id]? := by
  simp [put, Std.ExtTreeMap.getElem?_insert]

theorem underway_drop (w : Exchange) (own id : CallId) :
    (w.drop own).underway[id]? = if own = id then none else w.underway[id]? := by
  simp [drop, Std.ExtTreeMap.getElem?_erase]

/-- Whoever is being put through after somebody was dropped was so before. -/
theorem of_underway_drop {own id : CallId} {u : Underway}
    (hu : (w.drop own).underway[id]? = some u) : w.underway[id]? = some u := by
  rw [underway_drop] at hu
  exact (Option.ite_none_left_eq_some.mp hu).2

/-- **Which calls are being put through** after a step. -/
theorem Does.comes (h : Does w x w') {id : CallId} {u : Underway}
    (hu : w'.underway[id]? = some u) : w.Comes x id u := by
  cases h with
  | call | turn | unknown | idle => exact .stayed hu
  | found registered =>
      rw [underway_put] at hu
      split at hu
      next heq =>
        cases hu
        exact .made (congrArg (fun own => some (own, _, _)) heq) registered
      next => exact .stayed hu
  | @addressed own vehicle line deadline destination call reached =>
      rw [underway_put] at hu
      split at hu
      next heq =>
        cases hu
        cases heq
        exact .addressed call (by simp [reached?, asks?, call, reached])
      next => exact .stayed hu
  | @begun own vehicle line deadline destination slot commands call opens =>
      rw [underway_put] at hu
      split at hu
      next heq =>
        cases hu
        cases heq
        exact .begun call (by simp [opened?, call, opens])
      next => exact .stayed hu
  | unreached | busy | failed | expired | left => exact .stayed (of_underway_drop hu)
  | @sent own =>
      have hdropped : (w.drop own).underway[id]? = some u := hu
      exact .stayed (of_underway_drop hdropped)

/-- **A call that waits after a step** waited before, or its line is sent with the step. -/
theorem Does.waits (h : Does w x w') {id : CallId} {call : Call}
    (hw : (id, call) ∈ w'.session.waiting) :
    (id, call) ∈ w.session.waiting ∨
      ∃ line destination, w.sent? x = some (id, ⟨destination, CommandLine.packet line⟩) ∧
        ((∃ deadline, w.underway[id]? =
            some ⟨call.vehicle, line, deadline, .sending destination call.slot⟩) ∨
          w.made? x = some (id, call.vehicle, line) ∧
            w.reached? x = some (id, call.vehicle, destination) ∧
            w.opened? x = some (call.vehicle, call.slot)) := by
  cases h with
  | call bounded vehicle line =>
      obtain ⟨-, -, ⟨-, hwaiting⟩ |
        ⟨destination, slot, deadline, hpreferred, hopens, hsends, hwaiting⟩⟩ :=
          w.session.outbox_begin bounded vehicle line
      · exact .inl (hwaiting ▸ hw)
      · rcases List.mem_append.mp (hwaiting ▸ hw) with hbefore | hnew
        · exact .inl hbefore
        · cases List.mem_singleton.mp hnew
          exact .inr ⟨line, destination, by simp [sent?, hsends],
            .inr ⟨rfl, by simp [reached?, asks?, hpreferred], by simp [opened?, hopens]⟩⟩
  | turn plain => exact .inl ((w.session.waiting_turn plain).2 hw)
  | @sent own vehicle line deadline destination slot outbox call taken =>
      rcases List.mem_append.mp hw with hbefore | hnew
      · exact .inl hbefore
      · cases List.mem_singleton.mp hnew
        exact .inr ⟨line, destination, by simp [sent?, call, taken], .inl ⟨deadline, call⟩⟩
  | found | unknown | addressed | unreached | begun | busy | failed | expired | left | idle =>
      exact .inl hw

/-- **A call whose line is sent** waits then.  It is made with that step, or it was put through up
to then and is no more. -/
theorem Does.of_sent (h : Does w x w') {id : CallId} {p : SentPacket}
    (hsent : w.sent? x = some (id, p)) :
    (∃ call, (id, call) ∈ w'.session.waiting) ∧
      (id = w.session.next ∧ w'.session.next = id + 1 ∧ w'.underway = w.underway ∨
        w'.session.next = w.session.next ∧ w.underway[id]? ≠ none ∧ w'.underway[id]? = none) := by
  cases h with
  | call bounded vehicle line =>
      obtain ⟨hsends, rfl⟩ : w.session.fleet.sends? w.session.now vehicle line = some p ∧
          w.session.next = id := by
        simpa [sent?] using hsent
      obtain ⟨-, hnext, ⟨hnone, -⟩ | ⟨destination, slot, deadline, -, -, -, hwaiting⟩⟩ :=
        w.session.outbox_begin bounded vehicle line
      · rw [hnone] at hsends
        cases hsends
      · refine ⟨⟨⟨vehicle, slot, deadline⟩, ?_⟩, .inl ⟨rfl, hnext, rfl⟩⟩
        show _ ∈ (w.session.begin bounded vehicle line).waiting
        rw [hwaiting]
        simp
  | turn plain =>
      rw [(w.silent_turn plain).2.2] at hsent
      cases hsent
  | @sent own vehicle line deadline destination slot outbox call taken =>
      obtain rfl : own = id := by
        simp only [sent?, call, taken, Option.map_some, Option.some.injEq, Prod.mk.injEq] at hsent
        exact hsent.1
      refine ⟨⟨_, List.mem_append_right _ (List.mem_singleton_self _)⟩, .inr ⟨rfl, ?_, ?_⟩⟩
      · rw [call]
        exact Option.some_ne_none _
      · exact (underway_drop w own own).trans (if_pos rfl)
  | @failed own vehicle line deadline destination slot call down =>
      simp [sent?, call, down] at hsent
  | idle _ _ unsent =>
      rw [unsent] at hsent
      cases hsent
  | found | unknown | addressed | unreached | begun | busy | expired | left => cases hsent

/-- A call that is made has the next number. -/
theorem Does.next (h : Does w x w') :
    w.session.next ≤ w'.session.next ∧
      ∀ id vehicle line, w.made? x = some (id, vehicle, line) →
        id = w.session.next ∧ w'.session.next = w.session.next + 1 := by
  cases h with
  | call bounded vehicle line =>
      obtain ⟨-, hnext, -⟩ := w.session.outbox_begin bounded vehicle line
      refine ⟨Nat.le_of_lt (Nat.lt_of_lt_of_eq (Nat.lt_succ_self _) hnext.symm), ?_⟩
      rintro id other text ⟨⟩
      exact ⟨rfl, hnext⟩
  | turn plain =>
      refine ⟨Nat.le_of_eq (w.session.waiting_turn plain).1.symm, fun id vehicle line hmade => ?_⟩
      rw [(w.silent_turn plain).1] at hmade
      cases hmade
  | found | unknown =>
      refine ⟨Nat.le_succ _, ?_⟩
      rintro id vehicle line ⟨⟩
      exact ⟨rfl, rfl⟩
  | idle unmade =>
      refine ⟨Nat.le_refl _, fun id vehicle line hmade => ?_⟩
      rw [unmade] at hmade
      cases hmade
  | addressed | unreached | begun | busy | sent | failed | expired | left =>
      exact ⟨Nat.le_refl _, fun id vehicle line hmade => by cases hmade⟩

/-- A call that is being put through was so before, or it has the next number. -/
theorem Does.known_or_new (h : Does w x w') {id : CallId} {u : Underway}
    (hu : w'.underway[id]? = some u) :
    (∃ before, w.underway[id]? = some before) ∨ id = w.session.next ∧ id < w'.session.next := by
  cases h.comes hu with
  | stayed before => exact .inl ⟨_, before⟩
  | made made =>
      obtain ⟨rfl, hstep⟩ := h.next.2 _ _ _ made
      exact .inr ⟨rfl, hstep ▸ Nat.lt_succ_self _⟩
  | addressed before | begun before => exact .inl ⟨_, before⟩

/-! ## Numbers -/

/-- The calls that are put through and those whose lines were sent have different numbers, and the
next number is new. -/
structure Numbered (w : Exchange) (ids : List CallId) : Prop where
  once : ids.Nodup
  sent : ∀ id ∈ ids, id < w.session.next ∧ w.underway[id]? = none
  underway : ∀ id u, w.underway[id]? = some u → id < w.session.next

namespace Numbered

variable {ids : List CallId}

/-- The next number is nobody's. -/
theorem next_free (h : w.Numbered ids) :
    w.session.next ∉ ids ∧ w.underway[w.session.next]? = none := by
  refine ⟨fun hmem => Nat.lt_irrefl _ (h.sent _ hmem).1, ?_⟩
  exact Option.eq_none_iff_forall_not_mem.mpr fun u hu => Nat.lt_irrefl _ (h.underway _ u hu)

/-- No call that had its line sent is put through again. -/
theorem kept (h : w.Numbered ids) (hdoes : Does w x w') : w'.Numbered ids where
  once := h.once
  sent := by
    intro id hid
    obtain ⟨hlt, hgone⟩ := h.sent id hid
    refine ⟨Nat.lt_of_lt_of_le hlt hdoes.next.1,
      Option.eq_none_iff_forall_not_mem.mpr fun u hu => ?_⟩
    rcases hdoes.known_or_new hu with ⟨before, hbefore⟩ | ⟨rfl, -⟩
    · rw [hgone] at hbefore
      cases hbefore
    · exact Nat.lt_irrefl _ hlt
  underway := by
    intro id u hu
    rcases hdoes.known_or_new hu with ⟨before, hbefore⟩ | ⟨-, hlt⟩
    · exact Nat.lt_of_lt_of_le (h.underway id before hbefore) hdoes.next.1
    · exact hlt

/-- A call whose line is sent had none sent before, and is put through no more. -/
theorem of_sent (h : w.Numbered ids) (hdoes : Does w x w') {id : CallId} {p : SentPacket}
    (hsent : w.sent? x = some (id, p)) :
    id ∉ ids ∧ id < w'.session.next ∧ w'.underway[id]? = none := by
  obtain ⟨-, ⟨rfl, hstep, hsame⟩ | ⟨hsame, hthere, hgone⟩⟩ := hdoes.of_sent hsent
  · exact ⟨h.next_free.1, hstep ▸ Nat.lt_succ_self _, hsame ▸ h.next_free.2⟩
  · obtain ⟨u, hu⟩ := Option.ne_none_iff_exists'.mp hthere
    exact ⟨fun hmem => hthere (h.sent id hmem).2, hsame ▸ h.underway id u hu, hgone⟩

/-- **Every step keeps it so.** -/
theorem step (h : w.Numbered ids) (hdoes : Does w x w') :
    w'.Numbered (ids ++ ((w.sent? x).map (·.1)).toList) := by
  have hkept := h.kept hdoes
  cases hsent : w.sent? x with
  | none => simpa using hkept
  | some sent =>
      obtain ⟨id, p⟩ := sent
      obtain ⟨hnew, hlt, hgone⟩ := h.of_sent hdoes hsent
      refine ⟨?_, ?_, hkept.underway⟩
      · refine List.nodup_append.mpr ⟨h.once, List.nodup_singleton id, ?_⟩
        rintro other hother own hown rfl
        cases List.mem_singleton.mp hown
        exact hnew hother
      · intro other hother
        rcases List.mem_append.mp hother with hold | hlast
        · exact hkept.sent other hold
        · cases List.mem_singleton.mp hlast
          exact ⟨hlt, hgone⟩

end Numbered

/-! ## Whole runs -/

/-- What was to see of a call that has come to a stage: it was made, asked for the source of its
vehicle, and got a slot. -/
structure Known (start : Exchange) (steps : List Step) (id : CallId) (vehicle : VehicleId)
    (line : String) (stage : Stage) : Prop where
  made : (id, vehicle, line) ∈ start.log made? steps
  reached : ∀ destination, stage.destination? = some destination →
    (id, vehicle, destination) ∈ start.log reached? steps
  opened : ∀ slot, stage.slot? = some slot → (vehicle, slot) ∈ start.log opened? steps

theorem Known.append {start : Exchange} {steps : List Step} {id : CallId} {vehicle : VehicleId}
    {line : String} {stage : Stage} (h : Known start steps id vehicle line stage)
    (later : List Step) : Known start (steps ++ later) id vehicle line stage where
  made := by
    rw [log_append]
    exact List.mem_append_left _ h.made
  reached := by
    intro destination hdestination
    rw [log_append]
    exact List.mem_append_left _ (h.reached destination hdestination)
  opened := by
    intro slot hslot
    rw [log_append]
    exact List.mem_append_left _ (h.opened slot hslot)

/-- Everything is known of the calls that are put through and of those that wait, whose lines were
sent. -/
structure Traced (start : Exchange) (steps : List Step) : Prop where
  underway : ∀ id u, (start.run steps).underway[id]? = some u →
    Known start steps id u.vehicle u.line u.stage
  waiting : ∀ id call, (id, call) ∈ (start.run steps).session.waiting → ∃ line destination,
    Known start steps id call.vehicle line (.sending destination call.slot) ∧
      (id, ⟨destination, CommandLine.packet line⟩) ∈ start.log sent? steps

theorem Traced.step {start : Exchange} {steps : List Step} (h : Traced start steps) (x : Step) :
    Traced start (steps ++ [x]) where
  underway := by
    intro id u hu
    rw [run_concat] at hu
    cases (does_step (start.run steps) x).comes hu with
    | stayed before => exact (h.underway id u before).append [x]
    | made made =>
        exact ⟨(start.mem_log_concat).mpr (.inr made), fun _ hnone => (by cases hnone),
          fun _ hnone => (by cases hnone)⟩
    | addressed before reached =>
        have hknown := (h.underway id _ before).append [x]
        refine ⟨hknown.made, ?_, fun _ hnone => (by cases hnone)⟩
        rintro _ ⟨⟩
        exact (start.mem_log_concat).mpr (.inr reached)
    | begun before opened =>
        have hknown := (h.underway id _ before).append [x]
        refine ⟨hknown.made, hknown.reached, ?_⟩
        rintro _ ⟨⟩
        exact (start.mem_log_concat).mpr (.inr opened)
  waiting := by
    intro id call hcall
    rw [run_concat] at hcall
    rcases (does_step (start.run steps) x).waits hcall with
      hbefore | ⟨line, destination, hsent, ⟨deadline, hunderway⟩ | ⟨hmade, hreached, hopened⟩⟩
    · obtain ⟨line, destination, hknown, hsent⟩ := h.waiting id call hbefore
      exact ⟨line, destination, hknown.append [x], (start.mem_log_concat).mpr (.inl hsent)⟩
    · exact ⟨line, destination, (h.underway id _ hunderway).append [x],
        (start.mem_log_concat).mpr (.inr hsent)⟩
    · refine ⟨line, destination, ⟨(start.mem_log_concat).mpr (.inr hmade), ?_, ?_⟩,
        (start.mem_log_concat).mpr (.inr hsent)⟩
      · rintro _ ⟨⟩
        exact (start.mem_log_concat).mpr (.inr hreached)
      · rintro _ ⟨⟩
        exact (start.mem_log_concat).mpr (.inr hopened)

theorem traced (config : Config) (algorithms : List Algorithm) (steps : List Step) :
    Traced (new config algorithms) steps := by
  induction steps using List.reverseRecOn with
  | nil =>
      constructor
      · exact fun id u hu => absurd hu (by simp [run])
      · exact fun id call hcall => absurd hcall List.not_mem_nil
  | append_singleton earlier x ih => exact ih.step x

theorem numbered (config : Config) (algorithms : List Algorithm) (steps : List Step) :
    ((new config algorithms).run steps).Numbered
      (((new config algorithms).log sent? steps).map (·.1)) := by
  induction steps using List.reverseRecOn with
  | nil =>
      exact ⟨List.nodup_nil, fun id hid => absurd hid List.not_mem_nil,
        fun id u hu => absurd hu (by simp [run])⟩
  | append_singleton earlier x ih =>
      rw [run_concat, log_concat, List.map_append]
      have hstep := ih.step (does_step _ x)
      cases hsent : sent? ((new config algorithms).run earlier) x with
      | none => simpa [hsent] using hstep
      | some sent => simpa [hsent] using hstep

theorem outbox_run (start : Exchange) (steps : List Step) :
    (start.run steps).session.fleet.outbox.sent =
      start.session.fleet.outbox.sent ++ (start.log sent? steps).map (·.2) := by
  induction steps generalizing start with
  | nil => exact (List.append_nil _).symm
  | cons x later ih =>
      show ((start.step x).run later).session.fleet.outbox.sent = _
      rw [ih, (start.does_step x).sends, log, List.map_append, List.append_assoc]
      cases start.sent? x <;> rfl

/-- Calls that are made have different numbers, and the next number is new. -/
theorem nodup_made (start : Exchange) (steps : List Step) :
    ((start.log made? steps).map (·.1)).Nodup ∧
      ∀ id ∈ (start.log made? steps).map (·.1), id < (start.run steps).session.next := by
  induction steps using List.reverseRecOn with
  | nil => exact ⟨List.nodup_nil, fun id hid => absurd hid List.not_mem_nil⟩
  | append_singleton earlier x ih =>
      obtain ⟨honce, hlt⟩ := ih
      obtain ⟨hnext, hmade⟩ := (does_step (start.run earlier) x).next
      rw [run_concat, log_concat, List.map_append]
      cases hmakes : made? (start.run earlier) x with
      | none => exact ⟨by simpa using honce, fun id hid =>
          Nat.lt_of_lt_of_le (hlt id (by simpa using hid)) hnext⟩
      | some made =>
          obtain ⟨id, vehicle, line⟩ := made
          obtain ⟨rfl, hstep⟩ := hmade id vehicle line hmakes
          constructor
          · refine List.nodup_append.mpr ⟨honce, List.nodup_singleton _, ?_⟩
            rintro other hother own hown rfl
            cases List.mem_singleton.mp hown
            exact Nat.lt_irrefl _ (hlt _ hother)
          · intro other hother
            rcases List.mem_append.mp hother with hold | hlast
            · exact Nat.lt_of_lt_of_le (hlt other hold) hnext
            · cases List.mem_singleton.mp hlast
              exact hstep ▸ Nat.lt_succ_self _

/-- What the link took are the lines of the calls that came to wait, of each of them one. -/
structure SentOnce (start : Exchange) (steps : List Step) : Prop where
  /-- The link took one packet with each step that sends a line, and nothing else. -/
  outbox : (start.run steps).session.fleet.outbox.sent = (start.log sent? steps).map (·.2)
  /-- No call has its line sent twice. -/
  once : ((start.log sent? steps).map (·.1)).Nodup
  /-- No two calls have the same number. -/
  numbered : ((start.log made? steps).map (·.1)).Nodup
  /-- A call whose line was sent came to wait. -/
  waits : ∀ id p, (id, p) ∈ start.log sent? steps → ∃ front back call,
    steps = front ++ back ∧ (id, call) ∈ (start.run front).session.waiting
  /-- A call that came to wait was made, got its slot, and had its line sent: to the source that its
  vehicle was reached at when the call asked, and that led back to the vehicle. -/
  sent : ∀ front back id call, steps = front ++ back →
    (id, call) ∈ (start.run front).session.waiting → ∃ line destination,
      (id, ⟨destination, .commandRequest (Text.encode line)⟩) ∈ start.log sent? steps ∧
      (id, call.vehicle, line) ∈ start.log made? steps ∧
      (call.vehicle, call.slot) ∈ start.log opened? steps ∧
      ∃ earlier x later, steps = earlier ++ x :: later ∧
        (start.run earlier).asks? x = some (id, call.vehicle) ∧
        (start.run earlier).session.fleet.preferred? call.vehicle = some destination ∧
        (start.run earlier).session.fleet.book.owner? destination = some call.vehicle

/-- **What the link took** are the lines of the calls that came to wait. -/
theorem sentOnce (config : Config) (algorithms : List Algorithm) (steps : List Step) :
    SentOnce (new config algorithms) steps where
  outbox := outbox_run (new config algorithms) steps
  once := (numbered config algorithms steps).once
  numbered := (nodup_made (new config algorithms) steps).1
  waits := by
    intro id p hsent
    obtain ⟨front, x, back, rfl, hlook⟩ := (mem_log _).mp hsent
    obtain ⟨⟨call, hcall⟩, -⟩ := (does_step _ x).of_sent hlook
    exact ⟨front ++ [x], back, call, by simp, by rwa [run_concat]⟩
  sent := by
    rintro front back id call rfl hcall
    obtain ⟨line, destination, hknown, hsent⟩ :=
      (traced config algorithms front).waiting id call hcall
    have hall := hknown.append back
    refine ⟨line, destination, ?_, hall.made, hall.opened _ rfl, ?_⟩
    · rw [log_append]
      exact List.mem_append_left _ hsent
    · obtain ⟨earlier, x, later, hsteps, hlook⟩ := (mem_log _).mp (hall.reached _ rfl)
      obtain ⟨hasks, hpreferred⟩ := of_reached? hlook
      obtain ⟨-, -, -, -, -, howner⟩ :=
        (sound_new config algorithms earlier).agrees.preferred? hpreferred
      exact ⟨earlier, x, later, hsteps, hasks, hpreferred, howner⟩

end Exchange

end FleetLink
