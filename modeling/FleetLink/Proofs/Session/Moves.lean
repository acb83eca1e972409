import FleetLink.Session
import FleetLink.Proofs.Fleet.Links

/-!
# Moves of a session

An event and the end of the calls that can end are two moves, and a session may be asked between
them.  `Session.run` makes one after the other; a replay begins several calls before any is looked
at.  What is reachable is therefore defined by moves, **in any order**, and includes what every run
of events comes to.

A move changes the links of the fleet by changes of their parts (`links_move`), and it does so in a
way that can be told from the move (`Attributed`): the parts of responses that reach the assembler
are the packets that are one, and nothing drops an address, issues or cancels a command or hands out
a text but the events that are there to do so.

## Main Statements

* `Move`, `Session.move`, `Session.after` — moves, one after the other
* `Session.Reachable`, `Reachable.run` — what moves come to, runs of events among it
* `Answers`, `Attributed` — what can be told of the links from a move
* `links_move` — what a move does to the links
* `Reachable.sound` — what every session keeps
* `Session.arrivals`, `assembler_after` — what reaches the assembler
-/

namespace FleetLink

/-- What can happen to a session at a time. -/
inductive Move where
  /-- An event, and no call ends. -/
  | event (event : Event)
  /-- Every call that can end does. -/
  | settle

/-- The part of a response that arrives with an event. -/
def Event.arrival? (event : Event) (now : Nat) : Option Arrival :=
  match event with
  | .packet source received => received.arrival? now source
  | _ => none

/-- The part of a response that arrives with a move. -/
def Move.arrival? (move : Move) (now : Nat) : Option Arrival :=
  match move with
  | .event happening => happening.arrival? now
  | .settle => none

namespace Session

/-- The session after a move. -/
def move (s : Session) : Move → Session
  | .event event => s.apply event
  | .settle => s.settle

/-- The session after some moves, one after the other. -/
def after (s : Session) (moves : List Move) : Session := moves.foldl move s

theorem after_concat (s : Session) (moves : List Move) (m : Move) :
    s.after (moves ++ [m]) = (s.after moves).move m := by
  simp [after]

/-- The sessions that moves can come to. -/
inductive Reachable (config : Config) (algorithms : List Algorithm) : Session → Prop where
  | new : Reachable config algorithms (.new config algorithms)
  | move {s : Session} (h : Reachable config algorithms s) (m : Move) :
      Reachable config algorithms (s.move m)

namespace Reachable

variable {config : Config} {algorithms : List Algorithm} {s : Session}

theorem after (h : Reachable config algorithms s) (moves : List Move) :
    Reachable config algorithms (s.after moves) := by
  induction moves generalizing s with
  | nil => exact h
  | cons m moves ih => exact ih (h.move m)

/-- Every run of events is made of moves. -/
theorem run (h : Reachable config algorithms s) (events : List Event) :
    Reachable config algorithms (s.run events) := by
  induction events generalizing s with
  | nil => exact h
  | cons event events ih => exact ih ((h.move (.event event)).move .settle)

end Reachable

/-! ## What a move does to the links -/

/-- Calls that end let their slots go. -/
theorem links_settleCalls (s : Session) (calls : List (CallId × Call)) :
    ∃ slots : List SlotId,
      (s.settleCalls calls).fleet.links = s.fleet.links.after [] [] (slots.map .drop) := by
  induction calls generalizing s with
  | nil => exact ⟨[], rfl⟩
  | cons first rest ih =>
      obtain ⟨id, call⟩ := first
      rw [settleCalls]
      -- A call that cannot end waits on, and the links are as they were.
      cases hfinish : s.fleet.finish? s.now call with
      | none => exact ih _
      | some ended =>
          obtain ⟨fleet, result⟩ := ended
          have hfleet := Fleet.links_finish? s.fleet s.now call hfinish
          obtain ⟨slots, hrest⟩ :=
            ih { s with fleet := fleet, results := s.results ++ [(id, result)] }
          refine ⟨call.slot :: slots, ?_⟩
          dsimp only
          rw [hrest, hfleet, Links.after_after]
          rfl

/-- A call issues a command, and may let its slot go at once. -/
theorem links_begin (s : Session) (bounded : Bool) (vehicle : VehicleId) (line : String) :
    ∃ slot operations, (s.begin bounded vehicle line).fleet.links =
        s.fleet.links.after [] [] operations ∧
      operations <+: [.begin s.now s.fleet.settings.strictCommands vehicle, .drop slot] := by
  obtain ⟨slot, operations, hcall, hprefix⟩ := Fleet.links_call s.fleet s.now vehicle line
  refine ⟨slot, operations, ?_, hprefix⟩
  unfold begin
  rw [← hcall]
  rcases s.fleet.call s.now vehicle line with ⟨fleet, result⟩
  cases result <;> rfl

/-- Whoever gives up lets a slot go. -/
theorem links_abandon (s : Session) (id : CallId) :
    ∃ slots : List SlotId,
      (s.abandon id).fleet.links = s.fleet.links.after [] [] (slots.map .drop) := by
  unfold abandon
  cases s.waiting.find? (·.1 = id) with
  | none => exact ⟨[], rfl⟩
  | some found => exact ⟨[found.2.slot], rfl⟩

/-- A move hands a text to the pending command of a vehicle. -/
inductive Answers (s : Session) (vehicle : VehicleId) (text : String) : Move → Prop
  /-- The last part of a response arrives from a source of the vehicle. -/
  | part {m : Move} (x : Arrival) (body : List UInt8) (arrives : m.arrival? s.now = some x)
      (owner : s.fleet.book.owner? x.source = some vehicle)
      (answer : s.fleet.assembler.reply x = .ok (some body))
      (reads : text = Text.decodeLossy body) : Answers s vehicle text m
  /-- A complete response is handed over for a source of the vehicle. -/
  | whole (source : Source) (body : List UInt8)
      (owner : s.fleet.book.owner? source = some vehicle)
      (reads : text = Text.decodeLossy body) :
      Answers s vehicle text (.event (.response source body))
  /-- The text comes from elsewhere. -/
  | given : Answers s vehicle text (.event (.fulfill vehicle text))

/-- What a move does to the links can be told from the move: it drops the addresses of a vehicle,
issues or cancels a command or hands out a text only if it is there to do so. -/
structure Attributed (s : Session) (m : Move) (changes : List AddressBook.Change)
    (operations : List CommandTable.Operation) : Prop where
  forgets : ∀ vehicle, .forget vehicle ∈ changes → m = .event (.forget vehicle)
  begins : ∀ now strict vehicle, .begin now strict vehicle ∈ operations →
    ∃ bounded line, m = .event (.call bounded vehicle line)
  cancels : ∀ vehicle, .cancel vehicle ∈ operations →
    m = .event (.cancel vehicle) ∨ m = .event (.forget vehicle)
  /-- A text is the only thing that is done to the commands, if it is handed out. -/
  fulfills : ∀ vehicle text, .fulfill vehicle text ∈ operations →
    operations = [.fulfill vehicle text] ∧ s.Answers vehicle text m

/-- Letting slots go is nothing special. -/
theorem attributed_drops (s : Session) (m : Move) (slots : List SlotId) :
    s.Attributed m [] (slots.map .drop) := by
  constructor <;> simp

/-- A response is handed to the vehicle that owns its source. -/
theorem eq_of_mem_delivery {f : Fleet} {source : Source} {body : List UInt8} {vehicle : VehicleId}
    {text : String} (h : .fulfill vehicle text ∈ f.delivery source body) :
    f.delivery source body = [.fulfill vehicle text] ∧
      f.book.owner? source = some vehicle ∧ text = Text.decodeLossy body := by
  unfold Fleet.delivery at h ⊢
  cases howner : f.book.owner? source with
  | none => simp [howner] at h
  | some owner =>
      simp only [howner, Option.map_some, Option.toList_some, List.mem_singleton,
        CommandTable.Operation.fulfill.injEq] at h ⊢
      obtain ⟨rfl, rfl⟩ := h
      exact ⟨rfl, rfl, rfl⟩

/-- A response works on no command in another way. -/
theorem begin_not_mem_delivery (f : Fleet) (source : Source) (body : List UInt8) (now : Nat)
    (strict : Bool) (vehicle : VehicleId) : .begin now strict vehicle ∉ f.delivery source body := by
  unfold Fleet.delivery
  cases f.book.owner? source <;> simp

theorem cancel_not_mem_delivery (f : Fleet) (source : Source) (body : List UInt8)
    (vehicle : VehicleId) : .cancel vehicle ∉ f.delivery source body := by
  unfold Fleet.delivery
  cases f.book.owner? source <;> simp

/-- A packet makes claims, or is a part of a response. -/
theorem attributed_receive (s : Session) (source : Source) (packet : Packet) :
    s.Attributed (.event (.packet source packet)) (s.fleet.claims source packet)
      ((packet.arrival? s.now source).elim [] s.fleet.deliveries) where
  forgets := by
    intro vehicle hforget
    cases packet <;> simp [Fleet.claims] at hforget
  begins := by
    intro now strict vehicle hbegin
    cases hx : packet.arrival? s.now source with
    | none => simp [hx] at hbegin
    | some x =>
        rw [hx, Option.elim_some, Fleet.deliveries] at hbegin
        split at hbegin
        · exact absurd hbegin (begin_not_mem_delivery _ _ _ _ _ _)
        · cases hbegin
  cancels := by
    intro vehicle hcancel
    cases hx : packet.arrival? s.now source with
    | none => simp [hx] at hcancel
    | some x =>
        rw [hx, Option.elim_some, Fleet.deliveries] at hcancel
        split at hcancel
        · exact absurd hcancel (cancel_not_mem_delivery _ _ _ _)
        · cases hcancel
  fulfills := by
    intro vehicle text hfulfill
    cases hx : packet.arrival? s.now source with
    | none => simp [hx] at hfulfill
    | some x =>
        rw [hx, Option.elim_some, Fleet.deliveries] at hfulfill
        rw [Option.elim_some, Fleet.deliveries]
        split at hfulfill
        next body hreply =>
          obtain ⟨hsingle, howner, htext⟩ := eq_of_mem_delivery hfulfill
          exact ⟨hsingle, .part x body hx howner hreply htext⟩
        · cases hfulfill

/-- **What a move does to the links**: it lets a part of a response reach the assembler if it is
one, and all else that it does can be told from it, too. -/
theorem links_move (s : Session) (m : Move) :
    ∃ changes operations,
      (s.move m).fleet.links = s.fleet.links.after changes (m.arrival? s.now).toList operations ∧
      s.Attributed m changes operations := by
  cases m with
  | settle =>
      obtain ⟨slots, hsettle⟩ := links_settleCalls { s with waiting := [] } s.waiting
      exact ⟨[], _, hsettle, s.attributed_drops _ slots⟩
  | event event =>
      cases event with
      | packet source packet =>
          exact ⟨_, _, s.fleet.links_receive s.now source packet,
            s.attributed_receive source packet⟩
      | response source body =>
          refine ⟨[], _, s.fleet.links_deliver source body, by simp, ?_, ?_, ?_⟩
          · exact fun _ _ _ hbegin => absurd hbegin (begin_not_mem_delivery _ _ _ _ _ _)
          · exact fun _ hcancel => absurd hcancel (cancel_not_mem_delivery _ _ _ _)
          · intro vehicle text hfulfill
            obtain ⟨hsingle, howner, htext⟩ := eq_of_mem_delivery hfulfill
            exact ⟨hsingle, .whole source body howner htext⟩
      | call bounded vehicle line =>
          obtain ⟨slot, operations, hbegin, hprefix⟩ := links_begin s bounded vehicle line
          refine ⟨[], operations, hbegin, by simp, ?_, ?_, ?_⟩
          · intro now strict other hmem
            have hboth := hprefix.subset hmem
            simp only [List.mem_cons, List.not_mem_nil, or_false, reduceCtorEq,
              CommandTable.Operation.begin.injEq] at hboth
            exact ⟨bounded, line, by rw [hboth.2.2]⟩
          · intro other hmem
            have hboth := hprefix.subset hmem
            simp at hboth
          · intro other text hmem
            have hboth := hprefix.subset hmem
            simp at hboth
      | abandon id =>
          obtain ⟨slots, habandon⟩ := links_abandon s id
          exact ⟨[], _, habandon, s.attributed_drops _ slots⟩
      | fulfill vehicle text =>
          refine ⟨[], [.fulfill vehicle text], rfl, by simp, by simp, by simp, ?_⟩
          intro other told hfulfill
          rw [List.mem_singleton] at hfulfill
          cases hfulfill
          exact ⟨rfl, .given⟩
      | cancel vehicle =>
          refine ⟨[], [.cancel vehicle], rfl, by simp, by simp, ?_, by simp⟩
          intro other hcancel
          rw [List.mem_singleton] at hcancel
          cases hcancel
          exact .inl rfl
      | forget vehicle =>
          refine ⟨_, _, s.fleet.links_forget vehicle, ?_, by simp, ?_, by simp⟩
          · intro other hforget
            rw [List.mem_singleton] at hforget
            cases hforget
            rfl
          · intro other hcancel
            rw [List.mem_singleton] at hcancel
            cases hcancel
            exact .inr rfl
      | identify index =>
          exact ⟨[], [], s.fleet.links_identify index, by simp, by simp, by simp, by simp⟩
      | meet index => exact ⟨[], [], s.fleet.links_meet index, by simp, by simp, by simp, by simp⟩
      | register | unregister | setLink | subscribe | drain | advance =>
          exact ⟨[], [], rfl, by simp, by simp, by simp, by simp⟩

/-- A part of a response changes the links by what its answer means, and by nothing else. -/
theorem links_of_arrival? {s : Session} {m : Move} {x : Arrival}
    (h : m.arrival? s.now = some x) :
    (s.move m).fleet.links = s.fleet.links.after [] [x] (s.fleet.deliveries x) := by
  cases m with
  | settle => cases h
  | event event =>
      cases event with
      | packet source packet =>
          have hreceive := s.fleet.links_receive s.now source packet
          have harrival : packet.arrival? s.now source = some x := h
          have hclaims : s.fleet.claims source packet = [] := by
            cases packet with
            | status report => cases h
            | _ => rfl
          rw [harrival, hclaims] at hreceive
          exact hreceive
      | _ => cases h

theorem sound_move {s : Session} (h : s.fleet.links.Sound) (m : Move) :
    (s.move m).fleet.links.Sound := by
  obtain ⟨changes, operations, hmove, -⟩ := links_move s m
  rw [hmove]
  exact h.after _ _ _

theorem sound_after {s : Session} (h : s.fleet.links.Sound) (moves : List Move) :
    (s.after moves).fleet.links.Sound := by
  induction moves generalizing s with
  | nil => exact h
  | cons m moves ih => exact ih (sound_move h m)

namespace Reachable

variable {config : Config} {algorithms : List Algorithm} {s : Session}

/-- **What every session keeps.**  The two maps of addresses agree, no source has two buffers, and
the pending commands are those of the slots that wait. -/
theorem sound (h : Reachable config algorithms s) : s.fleet.links.Sound := by
  induction h with
  | new => exact Fleet.sound_new config algorithms
  | move _ m ih => exact sound_move ih m

/-- The limits of the assembler are those that are configured. -/
theorem limits (h : Reachable config algorithms s) :
    s.fleet.assembler.limits = .ofSettings config.reassembly := by
  induction h with
  | new => rfl
  | move _ m ih =>
      obtain ⟨changes, operations, hmove, -⟩ := links_move _ m
      have hassembler := congrArg (·.assembler.limits) hmove
      exact hassembler.trans ((Assembler.limits_run _ _).trans ih)

end Reachable

/-- A source stays with its vehicle until the vehicle is forgotten. -/
theorem owner?_move {s : Session} (h : s.fleet.links.Sound) {source : Source} {vehicle : VehicleId}
    (howner : s.fleet.book.owner? source = some vehicle) {m : Move}
    (hkept : m ≠ .event (.forget vehicle)) :
    (s.move m).fleet.book.owner? source = some vehicle := by
  obtain ⟨changes, operations, hmove, hattributed⟩ := links_move s m
  have hbook : (s.move m).fleet.book = s.fleet.book.run changes := congrArg (·.book) hmove
  rw [hbook]
  exact h.agrees.owner?_run howner fun hmem => hkept (hattributed.forgets vehicle hmem)

/-! ## What reaches the assembler -/

/-- The parts of responses that arrive with moves, at the times at which they do. -/
def arrivals (s : Session) : List Move → List Arrival
  | [] => []
  | m :: moves => (m.arrival? s.now).toList ++ (s.move m).arrivals moves

theorem arrivals_append (s : Session) (first second : List Move) :
    s.arrivals (first ++ second) = s.arrivals first ++ (s.after first).arrivals second := by
  induction first generalizing s with
  | nil => rfl
  | cons m first ih =>
      rw [List.cons_append, arrivals, ih, arrivals, List.append_assoc]
      rfl

theorem assembler_move (s : Session) (m : Move) :
    (s.move m).fleet.assembler = s.fleet.assembler.run (m.arrival? s.now).toList := by
  obtain ⟨changes, operations, hmove, -⟩ := links_move s m
  exact congrArg (·.assembler) hmove

/-- The assembler is what the parts of responses made of it, whatever else happened. -/
theorem assembler_after (s : Session) (moves : List Move) :
    (s.after moves).fleet.assembler = s.fleet.assembler.run (s.arrivals moves) := by
  induction moves generalizing s with
  | nil => rfl
  | cons m moves ih =>
      rw [arrivals, Assembler.run_append, ← assembler_move]
      exact ih (s.move m)

/-! ## The clock -/

theorem now_settleCalls (s : Session) (calls : List (CallId × Call)) :
    (s.settleCalls calls).now = s.now := by
  induction calls generalizing s with
  | nil => rfl
  | cons first rest ih =>
      obtain ⟨id, call⟩ := first
      rw [settleCalls]
      cases s.fleet.finish? s.now call with
      | none => exact ih _
      | some ended => exact ih _

/-- The clock never goes back. -/
theorem now_le_move (s : Session) (m : Move) : s.now ≤ (s.move m).now := by
  cases m with
  | settle => exact Nat.le_of_eq (now_settleCalls { s with waiting := [] } s.waiting).symm
  | event event =>
      cases event with
      | call bounded vehicle line =>
          show s.now ≤ (s.begin bounded vehicle line).now
          unfold begin
          split <;> exact Nat.le_refl _
      | abandon id =>
          show s.now ≤ (s.abandon id).now
          unfold abandon
          split <;> exact Nat.le_refl _
      | advance millis => exact Nat.le_add_right _ _
      | _ => exact Nat.le_refl _

theorem now_le_after (s : Session) (moves : List Move) : s.now ≤ (s.after moves).now := by
  induction moves generalizing s with
  | nil => exact Nat.le_refl _
  | cons m moves ih => exact Nat.le_trans (now_le_move s m) (ih (s.move m))

theorem now_of_arrival? {m : Move} {now : Nat} {x : Arrival} (h : m.arrival? now = some x) :
    x.now = now := by
  cases m with
  | settle => cases h
  | event event =>
      cases event with
      | packet source packet =>
          cases packet with
          | commandResponse | compressedCommandResponse =>
              cases h
              rfl
          | _ => cases h
      | _ => cases h

/-- What arrives with moves arrives before they are over. -/
theorem now_le_of_mem_arrivals {s : Session} {moves : List Move} {x : Arrival}
    (h : x ∈ s.arrivals moves) : x.now ≤ (s.after moves).now := by
  induction moves generalizing s with
  | nil => cases h
  | cons m moves ih =>
      rw [arrivals, List.mem_append, Option.mem_toList] at h
      rcases h with h | h
      · rw [now_of_arrival? h]
        exact now_le_after s (m :: moves)
      · exact ih h

end Session

/-! ## What concrete runs are made of -/

/-- A source on the medium that is used when none is configured. -/
def Source.wireless (address : String) : Source := ⟨"wireless", address⟩

/-- A vehicle reports that it rests at the origin. -/
def Packet.atRest (index : UInt32) : Packet :=
  .status ⟨index, ⟨.zero, .zero, none, none⟩, .rest, .zero, "", 0⟩

end FleetLink
