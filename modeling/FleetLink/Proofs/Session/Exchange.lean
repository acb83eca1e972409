import FleetLink.Proofs.Fleet.Places
import FleetLink.Proofs.Session.Accounting

/-!
# Calls that are put through

A call that is made looks four times at what others work on, too: whether its vehicle is in the
registry, which source the vehicle is reached at, whether there is a slot for it, and whether the
link takes its line.  In a session the four are one event.  Here **anything may happen between
them**: they are steps of their own, of any number of calls at a time (`Exchange.Step`), next to the
turns of the session.  A call whose line is on the way to the link can also be given up, by its
holder or because its time is over.

Putting a call through without a pause is what the event does (`putThrough_eq_begin`).

**What a step can do** is said once, with all that has to be there for it (`Does`).  Of the commands
it says little more: a step opens a slot, and that is told in front (`opened?`), or it issues no
command at all (`Does.commands_cases`).

## Main Statements

* `Stage`, `Underway`, `Exchange` — calls that do not wait yet
* `Exchange.Step`, `Exchange.step`, `Exchange.run` — what can happen
* `putThrough_eq_begin`, `run_turns` — a call that is put through without a pause, and turns alone
* `Does`, `does_step` — what a step can do
* `opened?`, `sent?` — the slot that a step opens, and the packet that it sends
* `Does.sound`, `Does.commands_cases` — what every step keeps, and what it does to the commands
-/

namespace FleetLink

/-- How far a call has come that does not wait yet. -/
inductive Stage where
  /-- Its vehicle is in the registry. -/
  | found
  /-- The vehicle can be reached. -/
  | addressed (destination : Source)
  /-- The call has a slot, and its line is on the way to the link. -/
  | sending (destination : Source) (slot : SlotId)
  deriving DecidableEq, Repr

/-- The source to reach the vehicle at, once the call asked for it. -/
def Stage.destination? : Stage → Option Source
  | found => none
  | addressed destination | sending destination _ => some destination

/-- The slot of the call, once it has one. -/
def Stage.slot? : Stage → Option SlotId
  | found | addressed _ => none
  | sending _ slot => some slot

/-- A call that does not wait yet. -/
structure Underway where
  vehicle : VehicleId
  line : String
  /-- When its time is over, if it is bounded. -/
  deadline : Option Nat
  stage : Stage
  deriving DecidableEq, Repr

/-- A session and the calls that are being put through. -/
structure Exchange where
  session : Session
  underway : Std.ExtTreeMap CallId Underway

namespace Exchange

/-- Nothing happened yet. -/
def new (config : Config) (algorithms : List Algorithm) : Exchange := ⟨.new config algorithms, ∅⟩

@[simp] theorem underway_new (config : Config) (algorithms : List Algorithm) (id : CallId) :
    (new config algorithms).underway[id]? = none := Std.ExtTreeMap.getElem?_empty

/-- What can happen. -/
inductive Step where
  /-- A turn of the session. -/
  | turn (t : Turn)
  /-- A call is made, and its vehicle is looked for in the registry. -/
  | find (bounded : Bool) (vehicle : VehicleId) (line : String)
  /-- A call asks for the source to reach its vehicle at. -/
  | address (id : CallId)
  /-- A call asks for a slot. -/
  | begin (id : CallId)
  /-- The link takes the line of a call, or is down. -/
  | send (id : CallId)
  /-- A call looks at the clock while its line is on the way. -/
  | expire (id : CallId)
  /-- Whoever made a call gives it up while its line is on the way. -/
  | leave (id : CallId)

/-- A step cancels the pending command of a vehicle. -/
def Step.Cancels (x : Step) (vehicle : VehicleId) : Prop :=
  x = .turn (.event (.cancel vehicle)) ∨ x = .turn (.event (.forget vehicle))

variable (w : Exchange)

/-- Changes the fleet. -/
def update (change : Fleet → Fleet) : Exchange := { w with session := w.session.update change }

/-- A call is put on. -/
def put (id : CallId) (u : Underway) : Exchange :=
  { w with underway := w.underway.insert id u }

/-- A call is no longer being put through. -/
def drop (id : CallId) : Exchange := { w with underway := w.underway.erase id }

/-- A call has ended with a fault. -/
def fail (id : CallId) (fault : CallFault) : Exchange :=
  { w with session := { w.session with results := w.session.results ++ [(id, .error fault)] } }

/-- A call gets its number, and goes on if its vehicle is registered. -/
def find (bounded : Bool) (vehicle : VehicleId) (line : String) : Exchange :=
  let id := w.session.next
  let numbered : Exchange := { w with session := { w.session with next := id + 1 } }
  if vehicle ∈ w.session.fleet.registry then
    numbered.put id ⟨vehicle, line,
      if bounded then some (w.session.fleet.deadline w.session.now) else none, .found⟩
  else numbered.fail id (.unknownVehicle vehicle)

/-- A call learns the source to reach its vehicle at, or ends because there is none. -/
def address (id : CallId) : Exchange :=
  match w.underway[id]? with
  | some ⟨vehicle, line, deadline, .found⟩ =>
    match w.session.fleet.preferred? vehicle with
    | some destination => w.put id ⟨vehicle, line, deadline, .addressed destination⟩
    | none => (w.drop id).fail id (.noKnownAddress vehicle)
  | _ => w

/-- A call takes a slot for its command, or ends because it may not take the place of another. -/
def begin (id : CallId) : Exchange :=
  match w.underway[id]? with
  | some ⟨vehicle, line, deadline, .addressed destination⟩ =>
    let f := w.session.fleet
    match f.commands.begin w.session.now f.settings.strictCommands vehicle with
    | some (slot, commands) =>
      (w.update ({ · with commands := commands })).put id
        ⟨vehicle, line, deadline, .sending destination slot⟩
    | none =>
      ((w.update (·.observe (·.finish .rejected))).drop id).fail id (.alreadyInProgress vehicle)
  | _ => w

/-- A call waits once the link took its line; without a link it gives its slot up and ends. -/
def send (id : CallId) : Exchange :=
  match w.underway[id]? with
  | some ⟨vehicle, line, deadline, .sending destination slot⟩ =>
    match w.session.fleet.outbox.send? destination (CommandLine.packet line) with
    | some outbox =>
      let left := (w.update ({ · with outbox := outbox })).drop id
      { left with session :=
          { left.session with
            waiting := left.session.waiting ++ [(id, ⟨vehicle, slot, deadline⟩)] } }
    | none =>
      ((w.update fun f => { f with commands := f.commands.release slot }.observe
        (·.finish .sendFailed)).drop id).fail id (.linkDown destination)
  | _ => w

/-- A call whose time is over gives its slot up and ends. -/
def expire (id : CallId) : Exchange :=
  match w.underway[id]? with
  | some ⟨vehicle, _, deadline, .sending _ slot⟩ =>
    if deadline.any (· ≤ w.session.now) then
      ((w.update fun f => { f with commands := f.commands.release slot }.observe
        (·.finish .timeout)).drop id).fail id
          (.timedOut vehicle w.session.fleet.settings.commandTimeout.toNat)
    else w
  | _ => w

/-- A call is given up by whoever made it, and its slot with it. -/
def leave (id : CallId) : Exchange :=
  match w.underway[id]? with
  | some ⟨_, _, _, .sending _ slot⟩ =>
    (w.update fun f => { f with commands := f.commands.release slot }).drop id
  | _ => w

/-- What there is after a step. -/
def step : Step → Exchange
  | .turn t => { w with session := w.session.turn t }
  | .find bounded vehicle line => w.find bounded vehicle line
  | .address id => w.address id
  | .begin id => w.begin id
  | .send id => w.send id
  | .expire id => w.expire id
  | .leave id => w.leave id

/-- What there is after some steps, one after the other. -/
def run (steps : List Step) : Exchange := steps.foldl step w

/-- What there is to see at some steps, one after the other.  Given is what there is to see at a
step, before it is taken. -/
def log {α : Type*} (look : Exchange → Step → Option α) (w : Exchange) : List Step → List α
  | [] => []
  | x :: later => (look w x).toList ++ (w.step x).log look later

theorem run_append (first second : List Step) :
    w.run (first ++ second) = (w.run first).run second := by
  simp [run, List.foldl_append]

theorem run_concat (steps : List Step) (x : Step) : w.run (steps ++ [x]) = (w.run steps).step x :=
  w.run_append steps [x]

theorem log_append {α : Type*} (look : Exchange → Step → Option α) (first second : List Step) :
    w.log look (first ++ second) = w.log look first ++ (w.run first).log look second := by
  induction first generalizing w with
  | nil => rfl
  | cons x first ih =>
      rw [List.cons_append, log, ih, log, List.append_assoc]
      rfl

theorem log_concat {α : Type*} (look : Exchange → Step → Option α) (steps : List Step) (x : Step) :
    w.log look (steps ++ [x]) = w.log look steps ++ (look (w.run steps) x).toList := by
  rw [log_append, log, log, List.append_nil]

/-- What there is to see is there to see at some step. -/
theorem mem_log {α : Type*} {look : Exchange → Step → Option α} {steps : List Step} {a : α} :
    a ∈ w.log look steps ↔
      ∃ front x back, steps = front ++ x :: back ∧ look (w.run front) x = some a := by
  constructor
  · induction steps generalizing w with
    | nil => exact fun hmem => absurd hmem List.not_mem_nil
    | cons first later ih =>
        intro hmem
        rcases List.mem_append.mp hmem with hfirst | hlater
        · exact ⟨[], first, later, rfl, Option.mem_toList.mp hfirst⟩
        · obtain ⟨front, x, back, rfl, hlook⟩ := ih (w.step first) hlater
          exact ⟨first :: front, x, back, rfl, hlook⟩
  · rintro ⟨front, x, back, rfl, hlook⟩
    rw [log_append, log, hlook]
    simp

theorem mem_log_concat {α : Type*} {look : Exchange → Step → Option α} {steps : List Step}
    {x : Step} {a : α} : a ∈ w.log look (steps ++ [x]) ↔
      a ∈ w.log look steps ∨ look (w.run steps) x = some a := by
  rw [log_concat, List.mem_append, Option.mem_toList]

/-! ## Without a pause -/

/-- **A call that is put through without a pause** is the event of a session. -/
theorem putThrough_eq_begin (bounded : Bool) (vehicle : VehicleId) (line : String)
    (hnew : w.underway[w.session.next]? = none) :
    w.run [.find bounded vehicle line, .address w.session.next, .begin w.session.next,
        .send w.session.next] =
      { w with session := w.session.begin bounded vehicle line } := by
  have hnone := erase_of_getElem?_eq_none hnew
  have hput : ∀ (calls : Std.ExtTreeMap CallId Underway) (u : Underway),
      (calls.insert w.session.next u).erase w.session.next = calls.erase w.session.next := by
    intro calls u
    apply Std.ExtTreeMap.ext_getElem?
    intro id
    rw [Std.ExtTreeMap.getElem?_erase, Std.ExtTreeMap.getElem?_erase,
      Std.ExtTreeMap.getElem?_insert]
    split <;> rfl
  show (((w.find bounded vehicle line).address w.session.next).begin w.session.next).send
    w.session.next = _
  unfold Session.begin Fleet.call find
  dsimp only
  split
  next hmem =>
    cases hpreferred : w.session.fleet.preferred? vehicle with
    | none =>
        simp [put, address, hpreferred, drop, fail, hput, hnone, begin, send, hnew]
    | some destination =>
        cases hbegin : w.session.fleet.commands.begin w.session.now
            w.session.fleet.settings.strictCommands vehicle with
        | none =>
            simp [put, address, hpreferred, begin, hbegin, update, Session.update, drop, fail,
              hput, hnone, send, hnew]
        | some begun =>
            obtain ⟨slot, commands⟩ := begun
            cases hsend : w.session.fleet.outbox.send? destination (CommandLine.packet line) with
            | none =>
                simp [put, address, hpreferred, begin, hbegin, update, Session.update, send, hsend,
                  drop, fail, hput, hnone]
            | some outbox =>
                simp [put, address, hpreferred, begin, hbegin, update, Session.update, send, hsend,
                  drop, hput, hnone]
  next hmem =>
    simp [fail, address, begin, send, hnew]

/-- Turns of the session, with no call put through next to them. -/
theorem run_turns (happenings : List Turn) :
    w.run (happenings.map .turn) = { w with session := w.session.turns happenings } := by
  induction happenings generalizing w with
  | nil => rfl
  | cons t later ih => exact ih (w.step (.turn t))

/-! ## What a step can do -/

end Exchange

namespace Fleet

/-- The slot that a call to a vehicle gets, if it gets one. -/
def opens? (f : Fleet) (now : Nat) (vehicle : VehicleId) : Option SlotId :=
  if vehicle ∈ f.registry then
    (f.preferred? vehicle).bind fun _ =>
      (f.commands.begin now f.settings.strictCommands vehicle).map (·.1)
  else none

/-- What a call to a vehicle sends, if the link takes its line. -/
def sends? (f : Fleet) (now : Nat) (vehicle : VehicleId) (line : String) : Option SentPacket :=
  match (f.call now vehicle line).2 with
  | .ok _ => (f.preferred? vehicle).map (⟨·, CommandLine.packet line⟩)
  | .error _ => none

/-- A call that gets a slot keeps it if the link takes its line, and lets it go if not. -/
theorem call_opens (f : Fleet) (now : Nat) (vehicle : VehicleId) (line : String) :
    (f.opens? now vehicle = none ∧ (f.call now vehicle line).1.commands = f.commands ∧
        ∃ fault, (f.call now vehicle line).2 = .error fault) ∨
      ∃ slot begun, f.opens? now vehicle = some slot ∧
        f.commands.begin now f.settings.strictCommands vehicle = some (slot, begun) ∧
        ((f.call now vehicle line).2 = .ok slot ∧ (f.call now vehicle line).1.commands = begun ∨
          (∃ fault, (f.call now vehicle line).2 = .error fault) ∧
            (f.call now vehicle line).1.commands = begun.release slot) := by
  unfold call opens?
  split
  · cases f.preferred? vehicle with
    | none => exact .inl ⟨rfl, rfl, _, rfl⟩
    | some destination =>
        rw [Option.bind_some]
        dsimp only
        cases f.commands.begin now f.settings.strictCommands vehicle with
        | none => exact .inl ⟨rfl, rfl, _, rfl⟩
        | some begun =>
            obtain ⟨slot, commands⟩ := begun
            dsimp only
            cases f.outbox.send? destination (CommandLine.packet line) with
            | none => exact .inr ⟨slot, commands, rfl, rfl, .inr ⟨⟨_, rfl⟩, rfl⟩⟩
            | some outbox => exact .inr ⟨slot, commands, rfl, rfl, .inl ⟨rfl, rfl⟩⟩
  · exact .inl ⟨rfl, rfl, _, rfl⟩

end Fleet

namespace Exchange

/-- The call that a step makes, its vehicle and its line. -/
def made? (w : Exchange) : Step → Option (CallId × VehicleId × String)
  | .turn (.event (.call _ vehicle line)) | .find _ vehicle line =>
    some (w.session.next, vehicle, line)
  | _ => none

/-- The vehicle that a slot is opened for with a step, and the slot. -/
def opened? (w : Exchange) : Step → Option (VehicleId × SlotId)
  | .turn (.event (.call _ vehicle _)) =>
    (w.session.fleet.opens? w.session.now vehicle).map (vehicle, ·)
  | .begin id =>
    match w.underway[id]? with
    | some ⟨vehicle, _, _, .addressed _⟩ =>
      (w.session.fleet.commands.begin w.session.now w.session.fleet.settings.strictCommands
        vehicle).map fun begun => (vehicle, begun.1)
    | _ => none
  | _ => none

/-- The call that the link takes the line of with a step, and what is sent. -/
def sent? (w : Exchange) : Step → Option (CallId × SentPacket)
  | .turn (.event (.call _ vehicle line)) =>
    (w.session.fleet.sends? w.session.now vehicle line).map (w.session.next, ·)
  | .send id =>
    match w.underway[id]? with
    | some ⟨_, line, _, .sending destination _⟩ =>
      (w.session.fleet.outbox.send? destination (CommandLine.packet line)).map fun _ =>
        (id, ⟨destination, CommandLine.packet line⟩)
    | _ => none
  | _ => none

/-- A turn that is no call makes none, opens no slot and sends nothing. -/
theorem silent_turn (w : Exchange) {t : Turn}
    (hcall : ∀ bounded vehicle line, t ≠ .event (.call bounded vehicle line)) :
    w.made? (.turn t) = none ∧ w.opened? (.turn t) = none ∧ w.sent? (.turn t) = none := by
  cases t with
  | poll id => exact ⟨rfl, rfl, rfl⟩
  | event event =>
      cases event with
      | call bounded vehicle line => exact absurd rfl (hcall bounded vehicle line)
      | _ => exact ⟨rfl, rfl, rfl⟩

/-- What a step can do, and what has to be there for it. -/
inductive Does (w : Exchange) : Step → Exchange → Prop
  | call (bounded : Bool) (vehicle : VehicleId) (line : String) :
      Does w (.turn (.event (.call bounded vehicle line)))
        { w with session := w.session.begin bounded vehicle line }
  | turn {t : Turn} (plain : ∀ bounded vehicle line, t ≠ .event (.call bounded vehicle line)) :
      Does w (.turn t) { w with session := w.session.turn t }
  | found {bounded : Bool} {vehicle : VehicleId} {line : String}
      (registered : vehicle ∈ w.session.fleet.registry) :
      Does w (.find bounded vehicle line)
        ({ w with session := { w.session with next := w.session.next + 1 } }.put w.session.next
          ⟨vehicle, line,
            if bounded then some (w.session.fleet.deadline w.session.now) else none, .found⟩)
  | unknown {bounded : Bool} {vehicle : VehicleId} {line : String}
      (unregistered : vehicle ∉ w.session.fleet.registry) :
      Does w (.find bounded vehicle line)
        ({ w with session := { w.session with next := w.session.next + 1 } }.fail w.session.next
          (.unknownVehicle vehicle))
  | addressed {id : CallId} {vehicle : VehicleId} {line : String} {deadline : Option Nat}
      {destination : Source} (call : w.underway[id]? = some ⟨vehicle, line, deadline, .found⟩)
      (reached : w.session.fleet.preferred? vehicle = some destination) :
      Does w (.address id) (w.put id ⟨vehicle, line, deadline, .addressed destination⟩)
  | unreached {id : CallId} {vehicle : VehicleId} {line : String} {deadline : Option Nat}
      (call : w.underway[id]? = some ⟨vehicle, line, deadline, .found⟩)
      (unknown : w.session.fleet.preferred? vehicle = none) :
      Does w (.address id) ((w.drop id).fail id (.noKnownAddress vehicle))
  | begun {id : CallId} {vehicle : VehicleId} {line : String} {deadline : Option Nat}
      {destination : Source} {slot : SlotId} {commands : CommandTable}
      (call : w.underway[id]? = some ⟨vehicle, line, deadline, .addressed destination⟩)
      (opens : w.session.fleet.commands.begin w.session.now
        w.session.fleet.settings.strictCommands vehicle = some (slot, commands)) :
      Does w (.begin id) ((w.update ({ · with commands := commands })).put id
        ⟨vehicle, line, deadline, .sending destination slot⟩)
  | busy {id : CallId} {vehicle : VehicleId} {line : String} {deadline : Option Nat}
      {destination : Source}
      (call : w.underway[id]? = some ⟨vehicle, line, deadline, .addressed destination⟩)
      (refused : w.session.fleet.commands.begin w.session.now
        w.session.fleet.settings.strictCommands vehicle = none) :
      Does w (.begin id) (((w.update (·.observe (·.finish .rejected))).drop id).fail id
        (.alreadyInProgress vehicle))
  | sent {id : CallId} {vehicle : VehicleId} {line : String} {deadline : Option Nat}
      {destination : Source} {slot : SlotId} {outbox : Outbox}
      (call : w.underway[id]? = some ⟨vehicle, line, deadline, .sending destination slot⟩)
      (taken : w.session.fleet.outbox.send? destination (CommandLine.packet line) = some outbox) :
      Does w (.send id) ⟨{ w.session with
          fleet := { w.session.fleet with outbox := outbox }
          waiting := w.session.waiting ++ [(id, ⟨vehicle, slot, deadline⟩)] }, w.underway.erase id⟩
  | failed {id : CallId} {vehicle : VehicleId} {line : String} {deadline : Option Nat}
      {destination : Source} {slot : SlotId}
      (call : w.underway[id]? = some ⟨vehicle, line, deadline, .sending destination slot⟩)
      (down : w.session.fleet.outbox.send? destination (CommandLine.packet line) = none) :
      Does w (.send id) (((w.update fun f => { f with commands := f.commands.release slot }.observe
        (·.finish .sendFailed)).drop id).fail id (.linkDown destination))
  | expired {id : CallId} {vehicle : VehicleId} {line : String} {deadline : Option Nat}
      {destination : Source} {slot : SlotId}
      (call : w.underway[id]? = some ⟨vehicle, line, deadline, .sending destination slot⟩)
      (late : deadline.any (· ≤ w.session.now) = true) :
      Does w (.expire id)
        (((w.update fun f => { f with commands := f.commands.release slot }.observe
          (·.finish .timeout)).drop id).fail id
            (.timedOut vehicle w.session.fleet.settings.commandTimeout.toNat))
  | left {id : CallId} {vehicle : VehicleId} {line : String} {deadline : Option Nat}
      {destination : Source} {slot : SlotId}
      (call : w.underway[id]? = some ⟨vehicle, line, deadline, .sending destination slot⟩) :
      Does w (.leave id)
        ((w.update fun f => { f with commands := f.commands.release slot }).drop id)
  /-- There is nothing to do for a call that has not come so far, or is over it. -/
  | idle {x : Step} (unmade : w.made? x = none) (closed : w.opened? x = none)
      (unsent : w.sent? x = none) (other : ∀ t, x ≠ .turn t) : Does w x w

/-- **What a step does** is one of these things. -/
theorem does_step (w : Exchange) (x : Step) : Does w x (w.step x) := by
  cases x with
  | turn t =>
      by_cases hcall : ∃ bounded vehicle line, t = .event (.call bounded vehicle line)
      · obtain ⟨bounded, vehicle, line, rfl⟩ := hcall
        exact .call bounded vehicle line
      · exact .turn fun bounded vehicle line heq => hcall ⟨bounded, vehicle, line, heq⟩
  | find bounded vehicle line =>
      show Does w _ (w.find bounded vehicle line)
      unfold find
      dsimp only
      split
      next hmem => exact .found hmem
      next hmem => exact .unknown hmem
  | address id =>
      show Does w _ (w.address id)
      unfold address
      rcases hcall : w.underway[id]? with _ | ⟨vehicle, line, deadline, _ | destination | _⟩
      case some.found =>
        dsimp only
        cases hpreferred : w.session.fleet.preferred? vehicle with
        | none => exact .unreached hcall hpreferred
        | some destination => exact .addressed hcall hpreferred
      all_goals exact .idle rfl rfl rfl (by simp)
  | begin id =>
      show Does w _ (w.begin id)
      unfold begin
      rcases hcall : w.underway[id]? with _ | ⟨vehicle, line, deadline, _ | destination | _⟩
      case some.addressed =>
        dsimp only
        cases hbegin : w.session.fleet.commands.begin w.session.now
            w.session.fleet.settings.strictCommands vehicle with
        | none => exact .busy hcall hbegin
        | some begun => exact .begun hcall hbegin
      all_goals exact .idle rfl (by simp [opened?, hcall]) rfl (by simp)
  | send id =>
      show Does w _ (w.send id)
      unfold send
      rcases hcall : w.underway[id]? with _ | ⟨vehicle, line, deadline, _ | _ | ⟨destination, slot⟩⟩
      case some.sending =>
        dsimp only
        cases hsend : w.session.fleet.outbox.send? destination (CommandLine.packet line) with
        | none => exact .failed hcall hsend
        | some outbox => exact .sent hcall hsend
      all_goals exact .idle rfl rfl (by simp [sent?, hcall]) (by simp)
  | expire id =>
      show Does w _ (w.expire id)
      unfold expire
      rcases hcall : w.underway[id]? with _ | ⟨vehicle, line, deadline, _ | _ | ⟨destination, slot⟩⟩
      case some.sending =>
        dsimp only
        split
        next hover => exact .expired hcall hover
        next => exact .idle rfl rfl rfl (by simp)
      all_goals exact .idle rfl rfl rfl (by simp)
  | leave id =>
      show Does w _ (w.leave id)
      unfold leave
      rcases hcall : w.underway[id]? with _ | ⟨vehicle, line, deadline, _ | _ | ⟨destination, slot⟩⟩
      case some.sending => exact .left hcall
      all_goals exact .idle rfl rfl rfl (by simp)

/-! ## What every step keeps -/

section

variable {config : Config} {w w' : Exchange} {x : Step}

theorem Does.sound (h : Does w x w') (hs : w.session.fleet.links.Sound) :
    w'.session.fleet.links.Sound := by
  cases h with
  | call bounded vehicle line => exact Session.sound_turn hs (.event (.call bounded vehicle line))
  | turn => exact Session.sound_turn hs _
  | begun call opens => exact ⟨hs.agrees, hs.distinct, hs.coherent.begin opens⟩
  | failed | expired | left => exact ⟨hs.agrees, hs.distinct, hs.coherent.release _⟩
  | found | unknown | addressed | unreached | busy | sent | idle => exact hs

theorem Does.identified (h : Does w x w') (hi : w.session.fleet.Identified config) :
    w'.session.fleet.Identified config := by
  cases h with
  | call bounded vehicle line =>
      exact Session.identified_turn hi (.event (.call bounded vehicle line))
  | turn => exact Session.identified_turn hi _
  | found | unknown | addressed | unreached | begun | busy | sent | failed | expired | left
  | idle => exact hi.of_naming rfl

theorem sound_run (hs : w.session.fleet.links.Sound) (steps : List Step) :
    (w.run steps).session.fleet.links.Sound := by
  induction steps generalizing w with
  | nil => exact hs
  | cons x later ih => exact ih ((w.does_step x).sound hs)

theorem identified_run (hi : w.session.fleet.Identified config) (steps : List Step) :
    (w.run steps).session.fleet.Identified config := by
  induction steps generalizing w with
  | nil => exact hi
  | cons x later ih => exact ih ((w.does_step x).identified hi)

theorem sound_new (config : Config) (algorithms : List Algorithm) (steps : List Step) :
    ((new config algorithms).run steps).session.fleet.links.Sound :=
  sound_run (w := new config algorithms) (Fleet.sound_new config algorithms) steps

theorem identified_new (config : Config) (algorithms : List Algorithm) (steps : List Step) :
    ((new config algorithms).run steps).session.fleet.Identified config :=
  identified_run (w := new config algorithms) (Fleet.identified_new config algorithms) steps

/-! ## What a step does to the commands -/

/-- Of some operations none issues a command, none cancels one but with a step that is there to do
so, and one that hands out a text is alone. -/
structure Plain (x : Step) (operations : List CommandTable.Operation) : Prop where
  begins : ∀ now strict vehicle, .begin now strict vehicle ∉ operations
  cancels : ∀ vehicle, .cancel vehicle ∈ operations → x.Cancels vehicle
  fulfills : ∀ vehicle text, .fulfill vehicle text ∈ operations →
    operations = [.fulfill vehicle text]

theorem plain_drops (x : Step) (slots : List SlotId) : Plain x (slots.map .drop) := by
  constructor <;> simp

/-- A turn that is no call issues no command. -/
theorem plain_turn (s : Session) {t : Turn}
    (hcall : ∀ bounded vehicle line, t ≠ .event (.call bounded vehicle line)) :
    ∃ operations, (s.turn t).fleet.commands = s.fleet.commands.run operations ∧
      Plain (.turn t) operations := by
  cases t with
  | poll id =>
      obtain ⟨slots, hpoll⟩ := Session.links_poll s id
      exact ⟨_, congrArg (·.commands) hpoll, plain_drops _ slots⟩
  | event event =>
      obtain ⟨changes, operations, hmove, hattributed⟩ := Session.links_move s (.event event)
      refine ⟨operations, congrArg (·.commands) hmove, ?_, ?_, ?_⟩
      · intro now strict vehicle hmem
        obtain ⟨bounded, line, heq⟩ := hattributed.begins now strict vehicle hmem
        cases heq
        exact hcall bounded vehicle line rfl
      · intro vehicle hmem
        rcases hattributed.cancels vehicle hmem with heq | heq
        · cases heq
          exact .inl rfl
        · cases heq
          exact .inr rfl
      · exact fun vehicle text hmem => (hattributed.fulfills vehicle text hmem).1

/-- **What a step does to the commands.**  It issues one, and its slot is kept or let go at once; or
it issues none. -/
theorem Does.commands_cases (h : Does w x w') :
    (∃ vehicle slot begun, w.opened? x = some (vehicle, slot) ∧
        w.session.fleet.commands.begin w.session.now w.session.fleet.settings.strictCommands
          vehicle = some (slot, begun) ∧
        (w'.session.fleet.commands = begun ∨ w'.session.fleet.commands = begun.release slot)) ∨
      w.opened? x = none ∧ ∃ operations,
        w'.session.fleet.commands = w.session.fleet.commands.run operations ∧
        Plain x operations := by
  cases h with
  | call bounded vehicle line =>
      have hfleet := congrArg (·.commands) (w.session.fleet_begin bounded vehicle line)
      rcases w.session.fleet.call_opens w.session.now vehicle line with
        ⟨hnone, hcommands, -⟩ | ⟨slot, begun, hopens, hbegin, hkept⟩
      · exact .inr ⟨by simp [opened?, hnone], [], hfleet.trans hcommands, plain_drops _ []⟩
      · refine .inl ⟨vehicle, slot, begun, by simp [opened?, hopens], hbegin, ?_⟩
        exact hkept.imp (fun h => hfleet.trans h.2) (fun h => hfleet.trans h.2)
  | turn plain => exact .inr ⟨(w.silent_turn plain).2.1, plain_turn w.session plain⟩
  | begun call opens => exact .inl ⟨_, _, _, by simp [opened?, call, opens], opens, .inl rfl⟩
  | @failed _ _ _ _ _ slot => exact .inr ⟨rfl, [.drop slot], rfl, plain_drops _ [slot]⟩
  | @expired _ _ _ _ _ slot => exact .inr ⟨rfl, [.drop slot], rfl, plain_drops _ [slot]⟩
  | @left _ _ _ _ _ slot => exact .inr ⟨rfl, [.drop slot], rfl, plain_drops _ [slot]⟩
  | busy call refused =>
      exact .inr ⟨by simp [opened?, call, refused], [], rfl, plain_drops _ []⟩
  | idle _ closed => exact .inr ⟨closed, [], rfl, plain_drops _ []⟩
  | found | unknown | addressed | unreached | sent => exact .inr ⟨rfl, [], rfl, plain_drops _ []⟩

/-- **Which command is pending** after a step: the one whose slot is opened with it, or one that was
pending before. -/
theorem Does.pending (h : Does w x w') (hs : w.session.fleet.links.Sound) {vehicle : VehicleId}
    {slot : SlotId} (hpending : w'.session.fleet.commands.current? vehicle = some slot) :
    w.opened? x = some (vehicle, slot) ∨
      w.session.fleet.commands.current? vehicle = some slot ∧
        ∀ newer, w.opened? x ≠ some (vehicle, newer) := by
  have hcoherent : w.session.fleet.commands.Coherent := hs.coherent
  rcases h.commands_cases with ⟨own, opened, begun, hopened, hbegin, hcommands⟩ |
    ⟨hclosed, operations, hcommands, hplain⟩
  · have hbegun : begun.current? vehicle = some slot := by
      rcases hcommands with hkept | hreleased
      · rw [← hkept]
        exact hpending
      · rw [hreleased, (hcoherent.begin hbegin).current?_release] at hpending
        exact (Option.ite_none_left_eq_some.mp hpending).2
    obtain ⟨rfl, -⟩ := hcoherent.of_begin hbegin
    rw [hcoherent.current?_of_begin hbegin] at hbegun
    split at hbegun
    next heq =>
      cases hbegun
      exact .inl (heq ▸ hopened)
    next hne =>
      refine .inr ⟨hbegun, fun newer hnewer => hne ?_⟩
      rw [hopened] at hnewer
      cases hnewer
      rfl
  · rw [hcommands] at hpending
    rcases CommandTable.begins_of_current_run hcoherent operations hpending with
      hbefore | ⟨-, now, strict, hmem⟩
    · exact .inr ⟨hbefore, fun newer hnewer => by rw [hclosed] at hnewer; cases hnewer⟩
    · exact absurd hmem (hplain.begins now strict vehicle)

end

end Exchange

end FleetLink
