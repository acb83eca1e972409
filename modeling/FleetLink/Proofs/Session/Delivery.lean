import FleetLink.Proofs.Assembler.Undisturbed
import FleetLink.Proofs.Session.Moves
import FleetLink.Proofs.Text.Utf8

/-!
# The response to a command is delivered

A vehicle answers a command with a text, and the text travels in parts.  This module proves that
**whoever waits gets the text**: however it was cut, in whatever order the parts come, however
often, and whatever else happens in the meantime, the command stays pending until the last missing
part is there, and ends with exactly this text then.

Three things together make it so.  The assembler holds what the source of the parts said, and is
complete when and only when the last index is there (`Undisturbed`).  The source leads to the
vehicle that was asked as long as nobody forgets the vehicle, which would cancel the command, too
(`Reception.keeps`).  And bytes are put together before they are read as text, so a cut inside a
character does no harm (`decodeLossy_encode`).

## Main Statements

* `Split`, `Split.chunk` — a text in parts
* `assembled_of_split` — the parts put together, from however many repetitions
* `Reception` — the part of a run in which the parts of a response arrive
* `Reception.keeps` — the command stays pending, and the source its vehicle's
* `Reception.links_final` — what the last part does
* `delivered_exactly` — the command ends with the text, and with the last part
-/

namespace FleetLink

/-- A text whose bytes are cut into parts, of which there are at most as many as can be counted.
Parts may be empty, and a cut may be inside a character. -/
structure Split (text : String) where
  sequence : UInt8
  bodies : List (List UInt8)
  flatten_bodies : bodies.flatten = Text.encode text
  length_pos : 0 < bodies.length
  length_le : bodies.length ≤ 255

namespace Split

variable {text : String} (split : Split text)

/-- A part, as it is sent. -/
def chunk (i : Fin split.bodies.length) : Chunk where
  sequence := split.sequence
  index := UInt8.ofNat i
  total := UInt8.ofNat split.bodies.length
  body := split.bodies[i]

theorem toNat_total (i : Fin split.bodies.length) :
    (split.chunk i).total.toNat = split.bodies.length := by
  have hle := split.length_le
  show (UInt8.ofNat split.bodies.length).toNat = _
  rw [UInt8.toNat_ofNat', Nat.mod_eq_of_lt (by omega)]

theorem toNat_index (i : Fin split.bodies.length) : (split.chunk i).index.toNat = i := by
  have hlt := i.isLt
  have hle := split.length_le
  show (UInt8.ofNat i).toNat = _
  rw [UInt8.toNat_ofNat', Nat.mod_eq_of_lt (by omega)]

theorem isSound_chunk (i : Fin split.bodies.length) : (split.chunk i).IsSound := by
  have hpos := split.length_pos
  constructor
  · rw [UInt8.lt_iff_toNat_lt, toNat_total]
    exact hpos
  · rw [UInt8.lt_iff_toNat_lt, toNat_total, toNat_index]
    exact i.isLt

/-- Two parts with one index are the same. -/
theorem index_inj {i j : Fin split.bodies.length}
    (h : (split.chunk i).index = (split.chunk j).index) : i = j := by
  rw [← UInt8.toNat_inj, toNat_index, toNat_index] at h
  exact Fin.ext h

/-- **The parts put together** are the bytes of the text, when all of them and nothing else are
there. -/
theorem assembled_of_split {chunks : List Chunk} (i : Fin split.bodies.length)
    (hcovers : Covers (split.chunk i).total chunks) (honly : ∀ c ∈ chunks, ∃ j, c = split.chunk j) :
    assembled (split.chunk i).total chunks = Text.encode text := by
  have hfirst : ∀ (k : Nat) (hk : k < split.bodies.length),
      firstBody? chunks k = some split.bodies[k] := by
    intro k hk
    -- What was heard first under an index is the part with the index, as all that was heard is.
    have hheard := hcovers k (by rw [toNat_total]; exact hk)
    rw [← firstBody?_isSome_iff] at hheard
    obtain ⟨body, hbody⟩ := Option.isSome_iff_exists.mp hheard
    obtain ⟨c, hfind, rfl⟩ := Option.map_eq_some_iff.mp hbody
    obtain ⟨j, rfl⟩ := honly c (List.mem_of_find?_eq_some hfind)
    have hindex : (split.chunk j).index.toNat = k := by simpa using List.find?_some hfind
    rw [toNat_index] at hindex
    rw [hbody]
    subst hindex
    rfl
  have hbodies : (List.range split.bodies.length).map (fun k => (firstBody? chunks k).getD []) =
      split.bodies := by
    refine List.ext_getElem (by simp) fun k hk hk' => ?_
    simp [hfirst k hk']
  rw [assembled, toNat_total, List.flatMap_def, hbodies, split.flatten_bodies]

end Split

/-- The moves during which the parts of a response arrive from a source, up to the last one that is
missing: where they start, and what does not happen among them. -/
structure Reception (limits : AssemblyLimits) (s : Session) (source : Source) (vehicle : VehicleId)
    (slot : SlotId) {text : String} (split : Split text) (moves : List Move)
    (last : Fin split.bodies.length) : Prop where
  /-- The source is the vehicle's. -/
  owner : s.fleet.book.owner? source = some vehicle
  /-- The vehicle has a pending command. -/
  pending : s.fleet.commands.current? vehicle = some slot
  /-- Nothing is on its way from the source. -/
  unopened : s.fleet.assembler.buffer? source = none
  /-- Whatever arrives from the source with a sound header is one of the parts. -/
  only : ∀ x ∈ s.arrivals moves, x.Counts source →
    x.compressed = false ∧ ∃ i, x.chunk = split.chunk i
  /-- All parts but one arrive. -/
  rest : ∀ i, i ≠ last → ∃ x ∈ s.arrivals moves, x.Counts source ∧ x.chunk = split.chunk i
  missing : ∀ x ∈ s.arrivals moves, x.Counts source → x.chunk ≠ split.chunk last
  /-- None is as old as the timeout in the end. -/
  prompt : ∀ x ∈ s.arrivals moves, x.Counts source → (s.after moves).now - x.now < limits.timeout
  /-- The source's buffer does not make room for that of another source. -/
  uncrowded : ∀ before x later, s.arrivals moves = before ++ x :: later →
    (s.fleet.assembler.run before).crowdedOut? x ≠ some source
  /-- Nothing but a part takes the command away: no other response, no newer command, no
  cancellation, and nobody who waits gives up. -/
  held : ∀ before m later, moves = before ++ m :: later →
    (∀ x ∈ m.arrival? (s.after before).now, ¬ x.Counts source) →
    (s.after before).fleet.commands.current? vehicle = some slot →
    ((s.after before).move m).fleet.commands.current? vehicle = some slot

namespace Reception

variable {s : Session} {source : Source} {vehicle : VehicleId} {slot : SlotId} {text : String}
  {split : Split text} {moves : List Move} {last : Fin split.bodies.length}

/-- The last part, when it arrives. -/
def final (s : Session) (source : Source) (split : Split text) (moves : List Move)
    (last : Fin split.bodies.length) : Arrival :=
  ⟨(s.after moves).now, source, false, split.chunk last⟩

/-- Nothing gets in the way of the response. -/
theorem undisturbed
    (h : Reception s.fleet.assembler.limits s source vehicle slot split moves last) :
    s.fleet.assembler.Undisturbed (s.arrivals moves) (final s source split moves last) where
  uniform := by
    intro y hy hcounts
    obtain ⟨hcompressed, i, hchunk⟩ := h.only y hy hcounts
    rw [Arrival.response, hcompressed, hchunk]
    rfl
  prompt := fun y hy => ⟨Session.now_le_of_mem_arrivals hy, h.prompt y hy⟩
  uncrowded := h.uncrowded
  missing := by
    intro c hc hindex
    obtain ⟨y, hy, hcounts, rfl⟩ := mem_heard.mp hc
    obtain ⟨-, i, hchunk⟩ := h.only y hy hcounts
    rw [hchunk] at hindex
    exact h.missing y hy hcounts (by rw [hchunk, split.index_inj hindex])

/-- What a part means for the commands before the last one is there: nothing. -/
theorem deliveries_eq_nil {f : Fleet} {x : Arrival}
    (h : Assembler.completes (f.assembler.reply x) = false) : f.deliveries x = [] := by
  unfold Fleet.deliveries
  match hreply : f.assembler.reply x with
  | .ok none => rfl
  | .error fault => rfl
  | .ok (some body) =>
      rw [hreply] at h
      cases h

/-- **The command stays pending,** and the source stays the vehicle's. -/
theorem keeps (hs : s.fleet.links.Sound)
    (h : Reception s.fleet.assembler.limits s source vehicle slot split moves last)
    {before later : List Move} (hsplit : moves = before ++ later) :
    (s.after before).fleet.commands.current? vehicle = some slot ∧
      (s.after before).fleet.book.owner? source = some vehicle := by
  induction before using List.reverseRecOn generalizing later with
  | nil => exact ⟨h.pending, h.owner⟩
  | append_singleton before m ih =>
      rw [List.append_assoc] at hsplit
      obtain ⟨hcurrent, howner⟩ := ih hsplit
      rw [Session.after_concat]
      by_cases hpart : ∃ x ∈ m.arrival? (s.after before).now, x.Counts source
      -- A part that is not the last one changes the assembler only.
      · obtain ⟨x, hx, hcounts⟩ := hpart
        have harrivals : s.arrivals moves =
            s.arrivals before ++ x :: ((s.after before).move m).arrivals later := by
          rw [hsplit, Session.arrivals_append, List.singleton_append, Session.arrivals, hx]
          rfl
        have hsilent : Assembler.completes ((s.after before).fleet.assembler.reply x) = false := by
          rw [Session.assembler_after]
          exact (harrivals ▸ h.undisturbed).silent (split.isSound_chunk last) hs.distinct h.unopened
            hcounts.1
        have hlinks := Session.links_of_arrival? hx
        rw [deliveries_eq_nil hsilent] at hlinks
        have hcommands : ((s.after before).move m).fleet.commands =
            (s.after before).fleet.commands := congrArg (·.commands) hlinks
        have hbook : ((s.after before).move m).fleet.book = (s.after before).fleet.book :=
          congrArg (·.book) hlinks
        rw [hcommands, hbook]
        exact ⟨hcurrent, howner⟩
      · have hother : ∀ x ∈ m.arrival? (s.after before).now, ¬ x.Counts source :=
          fun x hx hcounts => hpart ⟨x, hx, hcounts⟩
        have hheld := h.held before m later hsplit hother hcurrent
        refine ⟨hheld, Session.owner?_move ?_ howner ?_⟩
        · exact Session.sound_after hs before
        -- Whoever forgets the vehicle cancels its command.
        · rintro rfl
          have hcancelled : ((s.after before).fleet.commands.cancel vehicle).2.current? vehicle =
              some slot := hheld
          rw [CommandTable.cancel_snd, CommandTable.current?_withdraw, if_pos rfl] at hcancelled
          cases hcancelled

/-- **The last part completes the response**, and what is handed out are the bytes of the text. -/
theorem reply_final (hs : s.fleet.links.Sound)
    (h : Reception s.fleet.assembler.limits s source vehicle slot split moves last)
    (hfits : (Text.encode text).length ≤ s.fleet.assembler.limits.maxBodyBytes) :
    (s.after moves).fleet.assembler.reply (final s source split moves last) =
        .ok (some (Text.encode text)) ∧
      ((s.after moves).fleet.assembler.run [final s source split moves last]).buffer? source =
        none := by
  have hcounts : (final s source split moves last).Counts source := ⟨rfl, split.isSound_chunk last⟩
  have hheard := heard_concat_of_counts hcounts (s.arrivals moves)
  have honly : ∀ c ∈ heard source (s.arrivals moves ++ [final s source split moves last]),
      ∃ j, c = split.chunk j := by
    intro c hc
    rw [hheard, List.mem_append, List.mem_singleton] at hc
    rcases hc with hc | rfl
    · obtain ⟨y, hy, hcounts, rfl⟩ := mem_heard.mp hc
      exact (h.only y hy hcounts).2
    · exact ⟨last, rfl⟩
  have hcovers : Covers (split.chunk last).total
      (heard source (s.arrivals moves ++ [final s source split moves last])) := by
    intro index hindex
    rw [split.toNat_total] at hindex
    refine ⟨split.chunk ⟨index, hindex⟩, ?_, split.toNat_index ⟨index, hindex⟩⟩
    rw [hheard, List.mem_append, List.mem_singleton]
    by_cases hlast : (⟨index, hindex⟩ : Fin split.bodies.length) = last
    · exact .inr (by rw [hlast]; rfl)
    · exact .inl (mem_heard.mpr (h.rest _ hlast))
  obtain ⟨hreply, hclosed⟩ := h.undisturbed.reply_eq (split.isSound_chunk last) hs.distinct
    h.unopened hcovers
  have hbytes : assembled (final s source split moves last).chunk.total
      (heard source (s.arrivals moves ++ [final s source split moves last])) = Text.encode text :=
    split.assembled_of_split last hcovers honly
  have hbody : Assembler.body s.fleet.assembler.limits source false (Text.encode text) =
      .ok (Text.encode text) := by
    rw [Assembler.body, if_neg Bool.false_ne_true, if_neg (Nat.not_lt.mpr hfits)]
  rw [Session.assembler_after, ← Assembler.run_append]
  refine ⟨hreply.trans ?_, hclosed⟩
  show (Assembler.body _ source false (assembled _ (heard source _))).map some = _
  rw [hbytes, hbody]
  rfl

/-- **What the last part does to the links**: the vehicle's command ends with the text. -/
theorem links_final (hs : s.fleet.links.Sound)
    (h : Reception s.fleet.assembler.limits s source vehicle slot split moves last)
    (hfits : (Text.encode text).length ≤ s.fleet.assembler.limits.maxBodyBytes) :
    (s.after
        (moves ++ [.event (.packet source (.commandResponse (split.chunk last)))])).fleet.links =
      (s.after moves).fleet.links.after [] [final s source split moves last]
        [.fulfill vehicle text] := by
  have hdelivery : (s.after moves).fleet.deliveries (final s source split moves last) =
      [.fulfill vehicle text] := by
    -- The owner of the source is looked up when the response is complete, not before.
    have howner := (h.keeps hs (List.append_nil moves).symm).2
    unfold Fleet.deliveries
    rw [(h.reply_final hs hfits).1]
    show (s.after moves).fleet.delivery source (Text.encode text) = _
    rw [Fleet.delivery, howner, Text.decodeLossy_encode]
    rfl
  have harrival : Move.arrival? (.event (.packet source (.commandResponse (split.chunk last))))
      (s.after moves).now = some (final s source split moves last) := rfl
  rw [Session.after_concat, Session.links_of_arrival? harrival, hdelivery]

end Reception

/-- **A response is delivered.**  For every session that can be reached, every text and every way to
cut it into parts: whatever else happens while the parts arrive, the command stays pending until the
last missing part does, and whoever waits for it gets exactly the text then.  Afterwards nothing is
on its way from the source, and the vehicle has no pending command. -/
theorem delivered_exactly {config : Config} {algorithms : List Algorithm} {s : Session}
    (hs : s.Reachable config algorithms) {source : Source} {vehicle : VehicleId} {slot : SlotId}
    {text : String} {split : Split text} {moves : List Move} {last : Fin split.bodies.length}
    (hfits : (Text.encode text).length ≤ (AssemblyLimits.ofSettings config.reassembly).maxBodyBytes)
    (h : Reception (.ofSettings config.reassembly) s source vehicle slot split moves last) :
    (∀ before later, moves = before ++ later →
      (s.after before).fleet.commands.current? vehicle = some slot ∧
      (s.after before).fleet.commands.wait? slot = none) ∧
    let done := s.after (moves ++ [.event (.packet source (.commandResponse (split.chunk last)))])
    done.fleet.commands.wait? slot = some (.completed text) ∧
    (∀ now call, call.slot = slot → (done.fleet.finish? now call).map (·.2) = some (.ok text)) ∧
    done.fleet.assembler.buffer? source = none ∧
    done.fleet.commands.isPending vehicle = false := by
  rw [← hs.limits] at hfits h
  have hsound := hs.sound
  have hpending : ∀ before later, moves = before ++ later →
      (s.after before).fleet.commands.current? vehicle = some slot ∧
      (s.after before).fleet.commands.wait? slot = none := by
    intro before later hsplit
    have hcurrent := (h.keeps hsound hsplit).1
    exact ⟨hcurrent, (Session.sound_after hsound before).coherent.wait?_of_current hcurrent⟩
  refine ⟨hpending, ?_⟩
  intro done
  have hlinks : done.fleet.links = _ := h.links_final hsound hfits
  have hcommands : done.fleet.commands =
      (s.after moves).fleet.commands.withdraw vehicle (.completed text) := by
    rw [← CommandTable.fulfill_snd]
    exact congrArg (·.commands) hlinks
  have hassembler : done.fleet.assembler = (s.after moves).fleet.assembler.run
      [Reception.final s source split moves last] := congrArg (·.assembler) hlinks
  have hwait : done.fleet.commands.wait? slot = some (.completed text) := by
    have hcurrent := (hpending moves [] (List.append_nil moves).symm).1
    rw [hcommands]
    exact (Session.sound_after hsound moves).coherent.wait?_withdraw hcurrent _
  refine ⟨hwait, ?_, ?_, ?_⟩
  · intro now call hslot
    rw [Fleet.finish?, hslot, hwait]
    rfl
  · rw [hassembler]
    exact (h.reply_final hsound hfits).2
  · rw [CommandTable.isPending_eq_isSome, hcommands, CommandTable.current?_withdraw, if_pos rfl]
    rfl

/-- Two characters in three parts, the first of which is cut. -/
private def answered : Split "é!" where
  sequence := 5
  bodies := [[0xC3], [0xA9], [0x21]]
  flatten_bodies := by decide
  length_pos := by decide
  length_le := by decide

/-- A vehicle reported its status and was told to land. -/
private def commanded : Session :=
  (Session.new .standard []).run
    [.packet (.wireless "a") (.atRest 1), .call true "01" "land"]

/-- A part arrives from the vehicle. -/
private def arrival (i : Fin 3) : Move :=
  .event (.packet (.wireless "a") (.commandResponse (answered.chunk i)))

/-- The last part comes first, and again; a part of another response from elsewhere, a part without
a sound header and some time lie between the parts. -/
private def shuffled : List Move :=
  [arrival 2, .settle, .event (.packet (.wireless "b") (.commandResponse ⟨5, 1, 3, [0x7E]⟩)),
    .event (.packet (.wireless "a") (.compressedCommandResponse ⟨5, 9, 3, []⟩)),
    .event (.advance 100), arrival 0, arrival 2, .settle]

/-- A text whose first character is cut, and whose parts come out of order. -/
theorem delivered_out_of_order :
    Reception (.ofSettings Config.standard.reassembly) commanded (.wireless "a") "01" 0 answered
        shuffled (1 : Fin 3) ∧
      (commanded.after (shuffled ++ [arrival 1])).fleet.commands.wait? 0 =
        some (.completed "é!") := by
  have hreach : commanded.Reachable .standard [] := Session.Reachable.new.run _
  have hfits : (Text.encode "é!").length ≤
      (AssemblyLimits.ofSettings Config.standard.reassembly).maxBodyBytes := by decide +kernel
  have hreception : Reception (.ofSettings Config.standard.reassembly) commanded (.wireless "a")
      "01" 0 answered shuffled (1 : Fin 3) := by
    constructor
    case uncrowded => exact at_cut_of_at_index (by decide +kernel)
    case held => exact at_cut_of_at_index (by decide +kernel)
    case rest =>
      show ∀ i : Fin 3, i ≠ 1 → ∃ x ∈ commanded.arrivals shuffled,
        x.Counts (.wireless "a") ∧ x.chunk = answered.chunk i
      decide +kernel
    all_goals decide +kernel
  exact ⟨hreception, (delivered_exactly hreach hfits hreception).2.1⟩

end FleetLink
