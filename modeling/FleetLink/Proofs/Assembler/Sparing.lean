import FleetLink.Proofs.Assembler.Separation

/-!
# What one chunk may cost

An assembler gives up buffers for several reasons, and a chunk that arrives can bring about more
than one of them: what is too old goes, a source that speaks of another response loses what it said
of the last one, a complete response is handed out, and the oldest buffer may have to make room.
This module says **what a chunk may take away and what it may not**, whatever was done to the
assembler before and whatever the clock says.

**A source that has a buffer costs nobody else anything,** even if its chunk supersedes the buffer:
it gives back one place before it asks for one.  This is where the bound on the buffers is needed.
With more buffers than are allowed, the place that is given back would not do.  So the bound comes
first (`Bounded`), and then who makes room (`MakesRoom`).

## Main Definitions

* `Operation`, `performAll` — what is done to an assembler
* `Bounded` — no more buffers than allowed, and no source with two
* `MakesRoom` — the one reason for which a young buffer of another source goes
* `Spares` — what an arrival leaves alone

## Main Statements

* `bounded_performAll` — the bound holds whatever is done
* `makesRoom_of_crowdedOut?` — who makes room, and when
* `spares` — what every arrival leaves alone
-/

namespace FleetLink

/-- A buffer goes on: it is open for the same response since the same time. -/
structure AssemblyBuffer.Continues (b later : AssemblyBuffer) : Prop where
  sequence : later.sequence = b.sequence
  compressed : later.compressed = b.compressed
  places : later.slots.length = b.slots.length
  firstSeen : later.firstSeen = b.firstSeen

theorem AssemblyBuffer.continues_refl (b : AssemblyBuffer) : b.Continues b := ⟨rfl, rfl, rfl, rfl⟩

/-- To put a chunk in its place is to go on. -/
theorem AssemblyBuffer.continues_of_fill? {b filled : AssemblyBuffer} {chunk : Chunk}
    (h : b.fill? chunk = some filled) : b.Continues filled := by
  unfold fill? at h
  split at h
  · cases h
    exact ⟨rfl, rfl, List.length_set, rfl⟩
  · cases h

/-- A place that is taken takes no other chunk. -/
theorem AssemblyBuffer.fill?_of_taken {b : AssemblyBuffer} {chunk : Chunk} {body : List UInt8}
    (h : b.slots[chunk.index.toNat]? = some (some body)) : b.fill? chunk = none := by
  unfold fill?
  rw [h]

namespace Assembler

/-! ## What is done to an assembler -/

/-- What can be done to an assembler. -/
inductive Operation where
  /-- A chunk arrives. -/
  | add (x : Arrival)
  /-- A look at what is too old. -/
  | evictExpired (now : Nat)
  deriving DecidableEq, Repr

/-- The assembler after an operation. -/
def perform (a : Assembler) : Operation → Assembler
  | .add x => a.step x
  | .evictExpired now => a.evictExpired now

/-- The assembler after some operations, one after the other. -/
def performAll (a : Assembler) (operations : List Operation) : Assembler :=
  operations.foldl perform a

/-! ## How many buffers there are -/

/-- No more buffers than allowed, and no source with two. -/
structure Bounded (a : Assembler) : Prop where
  distinct : Distinct a
  length_le : a.buffers.length ≤ a.limits.maxBuffers

section

variable {a : Assembler} {source other : Source} {x : Arrival}

theorem length_evictExpired_le (a : Assembler) (now : Nat) :
    (a.evictExpired now).buffers.length ≤ a.buffers.length :=
  List.length_filter_le _ _

theorem length_drop_le (a : Assembler) (source : Source) :
    (a.drop source).buffers.length ≤ a.buffers.length :=
  List.length_filter_le _ _

/-- To drop a buffer that is there makes one buffer less. -/
theorem length_drop_lt {b : AssemblyBuffer} (h : a.buffer? source = some b) :
    (a.drop source).buffers.length < a.buffers.length := by
  obtain ⟨e, hfind, -⟩ := Option.map_eq_some_iff.mp h
  have hsource : e.1 = source := by simpa using List.find?_some hfind
  refine List.length_filter_lt_length_iff_exists.mpr ⟨e, List.mem_of_find?_eq_some hfind, ?_⟩
  simpa using hsource

theorem length_put (a : Assembler) (source : Source) (b : AssemblyBuffer) :
    (a.put source b).buffers.length =
      if (a.buffer? source).isSome then a.buffers.length else a.buffers.length + 1 := by
  unfold put
  cases (a.buffer? source).isSome <;> simp

theorem length_dropSuperseded_le (a : Assembler) (source : Source) (chunk : Chunk)
    (compressed : Bool) :
    (a.dropSuperseded source chunk compressed).buffers.length ≤ a.buffers.length := by
  unfold dropSuperseded
  split
  · split
    · exact Nat.le_refl _
    · exact length_drop_le a source
  · exact Nat.le_refl _

theorem length_offered_le (a : Assembler) (x : Arrival) :
    (a.offered x).buffers.length ≤ (a.evictExpired x.now).buffers.length :=
  length_dropSuperseded_le _ _ _ _

theorem length_makeRoom_le (a : Assembler) (source : Source) :
    (a.makeRoom source).buffers.length ≤ a.buffers.length := by
  rw [makeRoom_eq]
  cases a.roomFor? source with
  | none => exact Nat.le_refl _
  | some oldest => exact length_drop_le a oldest

/-- The oldest of the buffers is there if there are any. -/
theorem exists_oldest? {entries : List (Source × AssemblyBuffer)} (h : entries ≠ []) :
    ∃ e, oldest? entries = some e := by
  cases entries with
  | nil => exact absurd rfl h
  | cons head rest =>
      rw [oldest?]
      cases oldest? rest with
      | none => exact ⟨head, rfl⟩
      | some f =>
          dsimp only
          split
          · exact ⟨f, rfl⟩
          · exact ⟨head, rfl⟩

/-- **Room is made:** a source without a buffer finds a place for one. -/
theorem length_makeRoom_lt (h : a.buffers.length ≤ a.limits.maxBuffers)
    (hnone : a.buffer? source = none) :
    (a.makeRoom source).buffers.length < a.limits.maxBuffers := by
  by_cases hfull : a.limits.maxBuffers ≤ a.buffers.length
  · have hthere : a.buffers ≠ [] := by
      intro hempty
      have hpos := a.limits.maxBuffers_pos
      rw [hempty, List.length_nil] at hfull
      omega
    obtain ⟨e, holdest⟩ := exists_oldest? hthere
    have hroom : a.roomFor? source = some e.1 := by
      unfold roomFor?
      rw [if_pos ⟨Option.isNone_iff_eq_none.mpr hnone, hfull⟩, holdest]
      rfl
    have hmem : a.buffer? e.1 ≠ none := fun habsent =>
      buffer?_eq_none_iff.mp habsent e (mem_of_oldest? holdest) rfl
    obtain ⟨b, hb⟩ := Option.ne_none_iff_exists'.mp hmem
    rw [makeRoom_eq, hroom]
    exact Nat.lt_of_lt_of_le (length_drop_lt hb) h
  · exact Nat.lt_of_le_of_lt (length_makeRoom_le a source) (Nat.lt_of_not_le hfull)

theorem bounded_new (limits : AssemblyLimits) : Bounded (new limits) :=
  ⟨distinct_new limits, Nat.zero_le _⟩

theorem Bounded.evictExpired (h : Bounded a) (now : Nat) : Bounded (a.evictExpired now) :=
  ⟨distinct_evictExpired h.distinct now, Nat.le_trans (length_evictExpired_le a now) h.length_le⟩

/-- **One arrival keeps the bound.** -/
theorem Bounded.step (h : Bounded a) (x : Arrival) : Bounded (a.step x) := by
  refine ⟨distinct_step h.distinct x, ?_⟩
  rw [limits_step]
  by_cases hsound : x.chunk.IsSound
  · have hoffered : (a.offered x).buffers.length ≤ (a.offered x).limits.maxBuffers := by
      rw [limits_offered]
      exact Nat.le_trans (length_offered_le a x) (h.evictExpired x.now).length_le
    have hroomed := Nat.le_trans (length_makeRoom_le (a.offered x) x.source) hoffered
    rw [limits_offered] at hroomed
    unfold Assembler.step
    rw [add_of_sound a hsound, place]
    split
    · exact hroomed
    · split
      · exact Nat.le_trans (length_drop_le _ _) hroomed
      · rw [length_put]
        split
        · exact hroomed
        next hnew =>
          -- A buffer is added only for a source that has none, and room was made for that one.
          have hnone : (a.offered x).buffer? x.source = none := by
            rw [Bool.not_eq_true, Option.isSome_eq_false_iff, Option.isNone_iff_eq_none,
              buffer?_makeRoom (distinct_offered h.distinct x),
              if_neg fun hroom => roomFor?_ne hroom rfl] at hnew
            exact hnew
          have hlt := length_makeRoom_lt hoffered hnone
          rw [limits_offered] at hlt
          exact hlt
  · rw [(step_of_unsound a hsound).1]
    exact (h.evictExpired x.now).length_le

theorem Bounded.perform (h : Bounded a) (operation : Operation) :
    Bounded (a.perform operation) := by
  cases operation with
  | add x => exact h.step x
  | evictExpired now => exact h.evictExpired now

/-- **Whatever is done to an assembler,** it has no more buffers than allowed. -/
theorem bounded_performAll (limits : AssemblyLimits) (operations : List Operation) :
    Bounded ((new limits).performAll operations) := by
  have hkept : ∀ {a : Assembler}, Bounded a → Bounded (a.performAll operations) := by
    induction operations with
    | nil => exact fun h => h
    | cons operation operations ih => exact fun h => ih (h.perform operation)
  exact hkept (bounded_new limits)

/-! ## Who makes room -/

/-- No buffer is older than the oldest. -/
theorem firstSeen_le_of_oldest? {entries : List (Source × AssemblyBuffer)}
    {e : Source × AssemblyBuffer} (h : oldest? entries = some e) :
    ∀ f ∈ entries, e.2.firstSeen ≤ f.2.firstSeen := by
  induction entries generalizing e with
  | nil => cases h
  | cons head rest ih =>
      intro f hf
      rw [oldest?] at h
      cases hrest : oldest? rest with
      | none =>
          have hempty : rest = [] := by
            by_contra hthere
            obtain ⟨g, hg⟩ := exists_oldest? hthere
            rw [hrest] at hg
            cases hg
          rw [hrest] at h
          cases h
          rw [hempty, List.mem_singleton] at hf
          exact Nat.le_of_eq (by rw [hf])
      | some g =>
          simp only [hrest] at h
          rcases List.mem_cons.mp hf with rfl | hmem
          · split at h <;> cases h <;> omega
          · have hle := ih hrest f hmem
            split at h <;> cases h <;> omega

/-- The one reason for which an arrival takes a young buffer from another source: it opens a buffer
for a source that has none, not even one to be superseded, there are as many young ones as allowed,
and none of them is older. -/
structure MakesRoom (a : Assembler) (x : Arrival) (b : AssemblyBuffer) : Prop where
  sound : x.chunk.IsSound
  newcomer : a.live? x.now x.source = none
  full : (a.evictExpired x.now).pending = a.limits.maxBuffers
  oldest : ∀ source c, a.live? x.now source = some c → b.firstSeen ≤ c.firstSeen

/-- **Who makes room** is the oldest, for a source that had no buffer. -/
theorem makesRoom_of_crowdedOut? (h : Bounded a) (hcrowded : a.crowdedOut? x = some other) :
    ∃ b, a.live? x.now other = some b ∧ MakesRoom a x b := by
  have hyoung := h.evictExpired x.now
  obtain ⟨hsound, hroom⟩ := Option.ite_none_right_eq_some.mp hcrowded
  obtain ⟨⟨hnone, hfull⟩, holdest⟩ := Option.ite_none_right_eq_some.mp hroom
  rw [limits_offered] at hfull
  -- A buffer that the chunk supersedes would have given its place back.
  have hnewcomer : a.live? x.now x.source = none := by
    by_contra hthere
    obtain ⟨b, hb⟩ := Option.ne_none_iff_exists'.mp hthere
    rw [← buffer?_evictExpired h.distinct] at hb
    have hsuperseded : a.offered x = (a.evictExpired x.now).drop x.source := by
      have hgone := Option.isNone_iff_eq_none.mp hnone
      rw [offered, buffer?_dropSuperseded hyoung.distinct, if_pos rfl, hb, Option.filter_some]
        at hgone
      unfold offered dropSuperseded
      rw [hb]
      split at hgone
      · cases hgone
      next hdiffers => exact if_neg hdiffers
    rw [hsuperseded] at hfull
    exact absurd (Nat.lt_of_le_of_lt hfull (length_drop_lt hb)) (Nat.not_lt.mpr hyoung.length_le)
  have hoffered : a.offered x = a.evictExpired x.now := by
    unfold offered dropSuperseded
    rw [buffer?_evictExpired h.distinct, hnewcomer]
  rw [hoffered] at hfull holdest
  obtain ⟨⟨_, b⟩, hb, rfl⟩ := Option.map_eq_some_iff.mp holdest
  have hlive : ∀ source c, a.live? x.now source = some c ↔
      (source, c) ∈ (a.evictExpired x.now).buffers := fun source c => by
    rw [← buffer?_evictExpired h.distinct, buffer?_eq_some_iff hyoung.distinct]
  refine ⟨b, (hlive _ _).mpr (mem_of_oldest? hb), hsound, hnewcomer, ?_, ?_⟩
  · exact Nat.le_antisymm hyoung.length_le hfull
  · intro source c hc
    exact firstSeen_le_of_oldest? hb (source, c) ((hlive _ _).mp hc)

/-! ## What an arrival leaves alone -/

/-- A chunk whose source has a buffer that it does not supersede takes no buffer from others. -/
theorem crowdedOut?_of_live (h : Bounded a) {b : AssemblyBuffer}
    (hlive : a.live? x.now x.source = some b) : a.crowdedOut? x = none := by
  cases hcrowded : a.crowdedOut? x with
  | none => rfl
  | some other =>
      obtain ⟨_, _, hroom⟩ := makesRoom_of_crowdedOut? h hcrowded
      rw [hroom.newcomer] at hlive
      cases hlive

/-- What becomes of the bytes of a complete response is an answer that completes it. -/
theorem completes_body (limits : AssemblyLimits) (source : Source) (compressed : Bool)
    (bytes : List UInt8) : completes ((body limits source compressed bytes).map some) = true := by
  unfold body
  split
  · split <;> rfl
  · split <;> rfl

/-- Only a header that makes no sense is answered that it makes none. -/
theorem unsound_of_reply (h : Distinct a) {origin : Source}
    (hreply : a.reply x = .error (.emptyResponse origin) ∨
      ∃ index total, a.reply x = .error (.chunkOutOfRange origin index total)) :
    ¬ x.chunk.IsSound := by
  intro hsound
  cases placement_step h hsound with
  | known _ _ answer | put _ _ _ _ answer =>
      rw [answer] at hreply
      rcases hreply with hreply | ⟨_, _, hreply⟩ <;> cases hreply
  | complete filled _ _ _ answer =>
      have hcompletes := completes_body a.limits x.source filled.compressed filled.bytes
      rw [← answer] at hcompletes
      rcases hreply with hreply | ⟨_, _, hreply⟩
      · rw [hreply] at hcompletes
        cases hcompletes
      · rw [hreply] at hcompletes
        cases hcompletes

/-- A source loses a young buffer to what arrives from another one. -/
def Loses (a : Assembler) (x : Arrival) (source : Source) : Prop :=
  source ≠ x.source ∧ ∃ b, a.live? x.now source = some b ∧ (a.step x).buffer? source ≠ some b

/-- What an arrival leaves alone. -/
structure Spares (a : Assembler) (x : Arrival) : Prop where
  /-- Another source keeps its buffer as it is, unless that is too old or makes room. -/
  others : ∀ other b, other ≠ x.source → a.buffer? other = some b →
    (a.step x).buffer? other = some b ∨ a.limits.timeout ≤ b.age x.now ∨ MakesRoom a x b
  /-- At most one other source loses a young buffer. -/
  once : ∀ first second, a.Loses x first → a.Loses x second → first = second
  /-- A chunk whose header is refused changes no young buffer, not even that of its source. -/
  refused : ∀ origin, (a.reply x = .error (.emptyResponse origin) ∨
      ∃ index total, a.reply x = .error (.chunkOutOfRange origin index total)) →
    ∀ source, (a.step x).buffer? source = a.live? x.now source
  /-- Once a response is complete, its source has no buffer, whatever came of the body. -/
  closed : completes (a.reply x) = true → (a.step x).buffer? x.source = none
  /-- A chunk of the open response that was heard before changes no young buffer. -/
  repeated : ∀ b body, a.live? x.now x.source = some b →
    b.matchesChunk x.chunk x.compressed = true →
    b.slots[x.chunk.index.toNat]? = some (some body) →
    ∀ source, (a.step x).buffer? source = a.live? x.now source
  /-- A source that had a buffer and has one goes on with it, and the time of its first chunk stays.
  Otherwise the old one was too old or superseded, and there is a new one from now on. -/
  firstSeen : ∀ source b later, a.buffer? source = some b → (a.step x).buffer? source = some later →
    b.Continues later ∨
      source = x.source ∧ x.chunk.IsSound ∧ later.firstSeen = x.now ∧
        (a.limits.timeout ≤ b.age x.now ∨ b.matchesChunk x.chunk x.compressed = false)

/-- Where another source's buffer is gone, it was too old or made room. -/
theorem survives_or (h : Bounded a) {b : AssemblyBuffer} (hne : other ≠ x.source)
    (hb : a.buffer? other = some b) :
    (a.step x).buffer? other = some b ∨ a.limits.timeout ≤ b.age x.now ∨ MakesRoom a x b := by
  rw [buffer?_step_of_ne h.distinct (Ne.symm hne)]
  by_cases hyoung : b.age x.now < a.limits.timeout
  · have hlive : a.live? x.now other = some b := by
      rw [live?, hb]
      simpa [Option.filter_some] using hyoung
    split
    next hcrowded =>
      obtain ⟨c, hc, hroom⟩ := makesRoom_of_crowdedOut? h hcrowded
      obtain rfl := Option.some.inj (hlive.symm.trans hc)
      exact .inr (.inr hroom)
    next => exact .inl hlive
  · exact .inr (.inl (Nat.le_of_not_lt hyoung))

/-- Whoever loses a young buffer is the one that makes room. -/
theorem crowdedOut?_of_loses (h : Distinct a) (hloses : a.Loses x other) :
    a.crowdedOut? x = some other := by
  obtain ⟨hne, b, hlive, hgone⟩ := hloses
  rw [buffer?_step_of_ne h (Ne.symm hne)] at hgone
  by_contra hspared
  rw [if_neg hspared] at hgone
  exact hgone hlive

/-- A chunk that was heard before. -/
theorem buffer?_step_of_repeated (h : Bounded a) {b : AssemblyBuffer} {body : List UInt8}
    (hlive : a.live? x.now x.source = some b)
    (hmatch : b.matchesChunk x.chunk x.compressed = true)
    (htaken : b.slots[x.chunk.index.toNat]? = some (some body)) (source : Source) :
    (a.step x).buffer? source = a.live? x.now source := by
  by_cases hsource : x.source = source
  · subst hsource
    by_cases hsound : x.chunk.IsSound
    · have htarget : a.target x = b := by
        rw [target, hlive, Option.filter_some, if_pos hmatch, Option.getD_some]
      have hfill := AssemblyBuffer.fill?_of_taken htaken
      rw [← htarget] at hfill
      cases placement_step h.distinct hsound with
      | known _ kept _ => rw [kept, htarget, hlive]
      | put _ fills | complete _ fills =>
          rw [hfill] at fills
          cases fills
    · rw [(step_of_unsound a hsound).1, buffer?_evictExpired h.distinct]
  · rw [buffer?_step_of_ne h.distinct hsource, crowdedOut?_of_live h hlive]
    rfl

/-- The buffer of a source that had one before. -/
theorem continues_or_reopened (h : Distinct a) {source : Source} {b later : AssemblyBuffer}
    (hb : a.buffer? source = some b) (hlater : (a.step x).buffer? source = some later) :
    b.Continues later ∨
      source = x.source ∧ x.chunk.IsSound ∧ later.firstSeen = x.now ∧
        (a.limits.timeout ≤ b.age x.now ∨ b.matchesChunk x.chunk x.compressed = false) := by
  have hkept : ∀ now, a.live? now source = some later → b.Continues later := by
    intro now hlive
    obtain ⟨hsame, -⟩ := Option.filter_eq_some_iff.mp hlive
    obtain rfl := Option.some.inj (hb.symm.trans hsame)
    exact b.continues_refl
  by_cases hsource : x.source = source
  · subst hsource
    by_cases hsound : x.chunk.IsSound
    · have htarget : (a.target x).Continues later := by
        cases placement_step h hsound with
        | known _ kept _ =>
            obtain rfl := Option.some.inj (kept.symm.trans hlater)
            exact (a.target x).continues_refl
        | put filled fills _ kept _ =>
            obtain rfl := Option.some.inj (kept.symm.trans hlater)
            exact AssemblyBuffer.continues_of_fill? fills
        | complete _ _ _ closed _ =>
            rw [closed] at hlater
            cases hlater
      rcases target_cases a x with ⟨hnone, hnew⟩ | ⟨c, hc, -, -, -, hsame⟩
      · refine .inr ⟨rfl, hsound, ?_, ?_⟩
        · rw [htarget.firstSeen, hnew]
          rfl
        · rw [live?, hb, Option.filter_filter, Option.filter_some] at hnone
          by_cases hyoung : b.age x.now < a.limits.timeout
          · exact .inr (by simpa [hyoung] using hnone)
          · exact .inl (Nat.le_of_not_lt hyoung)
      · obtain rfl := Option.some.inj (hb.symm.trans hc)
        rw [hsame] at htarget
        exact .inl htarget
    · rw [(step_of_unsound a hsound).1, buffer?_evictExpired h] at hlater
      exact .inl (hkept x.now hlater)
  · rw [buffer?_step_of_ne h hsource] at hlater
    obtain ⟨-, hlive⟩ := Option.ite_none_left_eq_some.mp hlater
    exact .inl (hkept x.now hlive)

/-- Once a response is complete, its buffer is closed. -/
theorem buffer?_step_of_completes (h : Distinct a) (hcompletes : completes (a.reply x) = true) :
    (a.step x).buffer? x.source = none := by
  by_cases hsound : x.chunk.IsSound
  · cases placement_step h hsound with
    | known _ _ answer | put _ _ _ _ answer =>
        rw [answer] at hcompletes
        cases hcompletes
    | complete _ _ _ closed _ => exact closed
  · rw [(step_of_unsound a hsound).2] at hcompletes
    cases hcompletes

end

/-- **What one chunk may cost.**  Whatever was done to an assembler before, and at whatever times: a
chunk that arrives leaves alone what `Spares` says. -/
theorem spares (limits : AssemblyLimits) (operations : List Operation) (x : Arrival) :
    Spares ((new limits).performAll operations) x := by
  have hbounded := bounded_performAll limits operations
  exact {
    others := fun _ _ hne hb => survives_or hbounded hne hb
    once := fun _ _ hfirst hsecond => Option.some.inj <|
      (crowdedOut?_of_loses hbounded.distinct hfirst).symm.trans
        (crowdedOut?_of_loses hbounded.distinct hsecond)
    refused := fun _ hreply source => by
      rw [(step_of_unsound _ (unsound_of_reply hbounded.distinct hreply)).1,
        buffer?_evictExpired hbounded.distinct]
    closed := buffer?_step_of_completes hbounded.distinct
    repeated := fun _ _ hlive hmatch htaken =>
      buffer?_step_of_repeated hbounded hlive hmatch htaken
    firstSeen := fun _ _ _ hb hlater => continues_or_reopened hbounded.distinct hb hlater }

/-- With two buffers allowed, a third source takes the place of the first, and a source that
supersedes its own response takes the place of none. -/
example :
    let chunk (sequence : UInt8) : Chunk := ⟨sequence, 0, 2, [1]⟩
    let a := (new (.clamped 10 2 4)).performAll [.add ⟨0, ⟨"radio", "a"⟩, false, chunk 7⟩,
      .add ⟨1, ⟨"radio", "b"⟩, false, chunk 7⟩]
    (a.step ⟨2, ⟨"radio", "c"⟩, false, chunk 7⟩).buffers.map (·.1.address) = ["b", "c"] ∧
      (a.step ⟨2, ⟨"radio", "b"⟩, false, chunk 8⟩).buffers.map (·.1.address) = ["a", "b"] := by
  decide

end Assembler

end FleetLink
