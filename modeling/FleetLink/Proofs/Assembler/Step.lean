import FleetLink.Proofs.Assembler.Gathering
import Mathlib.Data.List.Nodup

/-!
# One chunk, seen from one source

An assembler keeps its buffers in one list, and a chunk from any source works on all of it: old
buffers go, and one may have to make room.  Seen from a single source little of this remains.  For
the source of the chunk there is the buffer that the chunk belongs into (`Assembler.target`) and
what becomes of it; for every other source the buffer stays, unless it is as old as the timeout or
is the one that makes room (`Assembler.crowdedOut?`).

That no source has two buffers is what lets a source be looked at alone: with two of them, dropping
the older would bring the younger to light.

## Main Statements

* `Arrival`, `Assembler.step`, `Assembler.reply`, `Assembler.run` — chunks that arrive
* `Assembler.Distinct`, `distinct_run` — no source has two buffers
* `buffer?_step_of_ne` — what becomes of another source's buffer
* `step_of_unsound` — a chunk without a sound header only lets old buffers go
* `Placement`, `placement_step` — what becomes of the chunk's own buffer, and the answer
* `Continued`, `continued_step` — the same, told from what the source said before
-/

namespace FleetLink

/-- A chunk that arrives from a source at a time. -/
structure Arrival where
  now : Nat
  source : Source
  compressed : Bool
  chunk : Chunk
  deriving DecidableEq, Repr

/-- What holds at every place of a history holds at every cut. -/
theorem at_cut_of_at_index {α : Type} {l : List α} {P : List α → α → Prop}
    (h : ∀ k (_ : k < l.length), P (l.take k) l[k]) :
    ∀ before x later, l = before ++ x :: later → P before x := by
  rintro before x later rfl
  simpa using h before.length (by simp)

namespace Assembler

/-- The assembler after an arrival. -/
def step (a : Assembler) (x : Arrival) : Assembler :=
  (a.add x.now x.source x.compressed x.chunk).1

/-- What an arrival is answered. -/
def reply (a : Assembler) (x : Arrival) : Except AssemblyFault (Option (List UInt8)) :=
  (a.add x.now x.source x.compressed x.chunk).2

/-- The assembler after some arrivals, one after the other. -/
def run (a : Assembler) (arrivals : List Arrival) : Assembler := arrivals.foldl step a

theorem run_append (a : Assembler) (first second : List Arrival) :
    a.run (first ++ second) = (a.run first).run second := by
  simp [run, List.foldl_append]

theorem run_concat (a : Assembler) (arrivals : List Arrival) (x : Arrival) :
    a.run (arrivals ++ [x]) = (a.run arrivals).step x := by
  simp [run]

/-- An arrival completes a response: there is a body, or the bytes that were assembled are no body.
-/
def completes : Except AssemblyFault (Option (List UInt8)) → Bool
  | .ok (some _) | .error (.undecodable _) | .error (.bodyTooLarge ..) => true
  | _ => false

/-! ## The list of buffers, seen from one source -/

/-- No source has two buffers. -/
def Distinct (a : Assembler) : Prop := (a.buffers.map (·.1)).Nodup

theorem distinct_new (limits : AssemblyLimits) : Distinct (new limits) := by
  simp [Distinct]

section

variable {a : Assembler} {source other : Source}

theorem buffer?_eq_none_iff : a.buffer? source = none ↔ ∀ e ∈ a.buffers, e.1 ≠ source := by
  simp [buffer?]

theorem buffer?_eq_some_iff (h : Distinct a) {b : AssemblyBuffer} :
    a.buffer? source = some b ↔ (source, b) ∈ a.buffers := by
  unfold buffer?
  rw [Option.map_eq_some_iff]
  constructor
  · rintro ⟨e, hfind, rfl⟩
    have hsource : e.1 = source := by simpa using List.find?_some hfind
    subst hsource
    exact List.mem_of_find?_eq_some hfind
  · intro hmem
    cases hfind : a.buffers.find? (·.1 = source) with
    | none =>
        rw [List.find?_eq_none] at hfind
        simpa using hfind _ hmem
    | some e =>
        have hsource : e.1 = source := by simpa using List.find?_some hfind
        have he : e = (source, b) :=
          List.inj_on_of_nodup_map h (List.mem_of_find?_eq_some hfind) hmem hsource
        exact ⟨e, rfl, by rw [he]⟩

theorem distinct_of_sublist {smaller : Assembler} (h : Distinct a)
    (hsub : smaller.buffers.Sublist a.buffers) : Distinct smaller :=
  List.Nodup.sublist (hsub.map _) h

theorem distinct_evictExpired (h : Distinct a) (now : Nat) : Distinct (a.evictExpired now) :=
  distinct_of_sublist h List.filter_sublist

theorem distinct_drop (h : Distinct a) (source : Source) : Distinct (a.drop source) :=
  distinct_of_sublist h List.filter_sublist

theorem distinct_put (h : Distinct a) (source : Source) (b : AssemblyBuffer) :
    Distinct (a.put source b) := by
  unfold Distinct put
  cases hb : a.buffer? source with
  | some old =>
      -- The buffer is put in the place of the old one, so the sources are the same.
      have hkeys : (a.buffers.map fun e => if e.1 = source then (source, b) else e).map (·.1) =
          a.buffers.map (·.1) := by
        rw [List.map_map]
        refine List.map_congr_left fun e _ => ?_
        by_cases he : e.1 = source <;> simp [he]
      rw [if_pos (by rfl), hkeys]
      exact h
  | none =>
      rw [buffer?_eq_none_iff] at hb
      simp only [Option.isSome_none, Bool.false_eq_true, if_false, List.map_append, List.map_cons,
        List.map_nil]
      refine List.nodup_append.mpr ⟨h, List.nodup_singleton _, ?_⟩
      intro key hkey new hnew
      obtain ⟨e, he, rfl⟩ := List.mem_map.mp hkey
      rw [List.mem_singleton] at hnew
      subst hnew
      exact hb e he

/-- What is left of a source's buffer once the old buffers are gone. -/
def live? (a : Assembler) (now : Nat) (source : Source) : Option AssemblyBuffer :=
  (a.buffer? source).filter fun b => b.age now < a.limits.timeout

theorem buffer?_evictExpired (h : Distinct a) (now : Nat) :
    (a.evictExpired now).buffer? source = a.live? now source := by
  refine Option.ext fun b => ?_
  rw [buffer?_eq_some_iff (distinct_evictExpired h now), live?, Option.filter_eq_some_iff,
    buffer?_eq_some_iff h]
  simp [evictExpired]

theorem buffer?_drop (h : Distinct a) :
    (a.drop source).buffer? other = if source = other then none else a.buffer? other := by
  refine Option.ext fun b => ?_
  rw [buffer?_eq_some_iff (distinct_drop h source)]
  by_cases hs : source = other
  · subst hs
    simp [drop]
  · rw [if_neg hs, buffer?_eq_some_iff h]
    simp [drop, Ne.symm hs]

theorem buffer?_put (a : Assembler) (source other : Source) (b : AssemblyBuffer) :
    (a.put source b).buffer? other = if source = other then some b else a.buffer? other := by
  unfold put
  cases hb : a.buffer? source with
  | some old =>
      -- Putting a buffer in its place changes no source, so the search stops where it did.
      have hkey : ((fun e : Source × AssemblyBuffer => decide (e.1 = other)) ∘
          fun e => if e.1 = source then (source, b) else e) = fun e => decide (e.1 = other) := by
        funext e
        by_cases he : e.1 = source <;> simp [he]
      rw [if_pos (by rfl), buffer?, List.find?_map, hkey]
      by_cases hs : source = other
      · subst hs
        rw [buffer?, Option.map_eq_some_iff] at hb
        obtain ⟨e, hfind, -⟩ := hb
        have he : e.1 = source := by simpa using List.find?_some hfind
        simp [hfind, he]
      · rw [if_neg hs, buffer?]
        cases hfind : a.buffers.find? fun e => decide (e.1 = other) with
        | none => rfl
        | some e =>
            have he : e.1 = other := by simpa using List.find?_some hfind
            simp [he, Ne.symm hs]
  | none =>
      simp only [Option.isSome_none, Bool.false_eq_true, if_false, buffer?, List.find?_append]
      rw [buffer?, Option.map_eq_none_iff] at hb
      by_cases hs : source = other
      · subst hs
        simp [hb]
      · simp [hs]

/-! ## Making room -/

/-- The oldest buffer is one of the buffers. -/
theorem mem_of_oldest? {entries : List (Source × AssemblyBuffer)} {e : Source × AssemblyBuffer}
    (h : oldest? entries = some e) : e ∈ entries := by
  induction entries generalizing e with
  | nil => cases h
  | cons head rest ih =>
      rw [oldest?] at h
      cases hrest : oldest? rest with
      | none =>
          rw [hrest] at h
          cases h
          exact List.mem_cons_self
      | some f =>
          simp only [hrest] at h
          split at h
          · cases h
            exact List.mem_cons_of_mem _ (ih hrest)
          · cases h
            exact List.mem_cons_self

/-- The source whose buffer makes room for one of another source, if there is need. -/
def roomFor? (a : Assembler) (source : Source) : Option Source :=
  if (a.buffer? source).isNone ∧ a.limits.maxBuffers ≤ a.buffers.length then
    (oldest? a.buffers).map (·.1)
  else none

theorem makeRoom_eq (a : Assembler) (source : Source) :
    a.makeRoom source = (a.roomFor? source).elim a a.drop := by
  unfold makeRoom roomFor?
  split
  · unfold evictOldest
    cases oldest? a.buffers <;> rfl
  · rfl

/-- Whoever makes room has a buffer, and the source that needs room has none. -/
theorem roomFor?_ne (h : a.roomFor? source = some other) : source ≠ other := by
  unfold roomFor? at h
  split at h
  next hneed =>
    rw [Option.map_eq_some_iff] at h
    obtain ⟨e, holdest, rfl⟩ := h
    have hnone := buffer?_eq_none_iff.mp (Option.isNone_iff_eq_none.mp hneed.1)
    exact (hnone e (mem_of_oldest? holdest)).symm
  next => cases h

theorem distinct_makeRoom (h : Distinct a) (source : Source) : Distinct (a.makeRoom source) := by
  rw [makeRoom_eq]
  cases a.roomFor? source with
  | none => exact h
  | some oldest => exact distinct_drop h oldest

theorem buffer?_makeRoom (h : Distinct a) (source other : Source) :
    (a.makeRoom source).buffer? other =
      if a.roomFor? source = some other then none else a.buffer? other := by
  rw [makeRoom_eq]
  cases a.roomFor? source with
  | none => simp
  | some oldest =>
      rw [Option.elim_some, buffer?_drop h]
      simp

/-! ## Dropping what a chunk supersedes -/

theorem distinct_dropSuperseded (h : Distinct a) (source : Source) (chunk : Chunk)
    (compressed : Bool) : Distinct (a.dropSuperseded source chunk compressed) := by
  unfold dropSuperseded
  split
  · split
    · exact h
    · exact distinct_drop h source
  · exact h

/-- What a chunk does not belong to is dropped, at its own source only. -/
theorem buffer?_dropSuperseded (h : Distinct a) (source other : Source) (chunk : Chunk)
    (compressed : Bool) :
    (a.dropSuperseded source chunk compressed).buffer? other =
      if source = other then (a.buffer? source).filter (·.matchesChunk chunk compressed)
      else a.buffer? other := by
  unfold dropSuperseded
  cases hb : a.buffer? source with
  | none =>
      by_cases hs : source = other
      · subst hs
        simp [hb]
      · simp [hs]
  | some b =>
      by_cases hmatch : b.matchesChunk chunk compressed = true
      · by_cases hs : source = other
        · subst hs
          simp [hmatch, hb, Option.filter_some]
        · simp [hmatch, hs]
      · by_cases hs : source = other
        · subst hs
          simp [hmatch, buffer?_drop h, Option.filter_some]
        · simp [hmatch, hs, buffer?_drop h]

/-! ## One arrival -/

/-- The buffers among which an arrival with a sound header is placed, before room is made. -/
def offered (a : Assembler) (x : Arrival) : Assembler :=
  (a.evictExpired x.now).dropSuperseded x.source x.chunk x.compressed

/-- The source whose buffer makes room when a chunk arrives, if one has to. -/
def crowdedOut? (a : Assembler) (x : Arrival) : Option Source :=
  if x.chunk.IsSound then (a.offered x).roomFor? x.source else none

/-- The buffer that an arrival with a sound header belongs into: the one of its source, if that is
not too old and holds the same response, or else a new one. -/
def target (a : Assembler) (x : Arrival) : AssemblyBuffer :=
  ((a.live? x.now x.source).filter (·.matchesChunk x.chunk x.compressed)).getD
    (.opened x.chunk x.compressed x.now)

variable {x : Arrival}

/-- An arrival belongs into a new buffer, which has heard nothing, or into the one of its source. -/
theorem target_cases (a : Assembler) (x : Arrival) :
    ((a.live? x.now x.source).filter (·.matchesChunk x.chunk x.compressed) = none ∧
      a.target x = .gathered x.chunk x.compressed x.now []) ∨
    ∃ b, a.buffer? x.source = some b ∧ b.age x.now < a.limits.timeout ∧
      b.matchesChunk x.chunk x.compressed = true ∧
      (a.live? x.now x.source).filter (·.matchesChunk x.chunk x.compressed) = some b ∧
      a.target x = b := by
  unfold target
  cases hlive : (a.live? x.now x.source).filter (·.matchesChunk x.chunk x.compressed) with
  | none => exact .inl ⟨rfl, AssemblyBuffer.opened_eq_gathered _ _ _⟩
  | some b =>
      obtain ⟨hyoung, hmatch⟩ := Option.filter_eq_some_iff.mp hlive
      obtain ⟨hb, hage⟩ := Option.filter_eq_some_iff.mp hyoung
      exact .inr ⟨b, hb, of_decide_eq_true hage, hmatch, rfl, rfl⟩

/-- A chunk without a sound header is refused, and only lets old buffers go. -/
theorem step_of_unsound (a : Assembler) (h : ¬ x.chunk.IsSound) :
    a.step x = a.evictExpired x.now ∧ completes (a.reply x) = false := by
  unfold step reply add
  by_cases hzero : x.chunk.total = 0
  · rw [if_pos hzero]
    exact ⟨rfl, rfl⟩
  · rw [if_neg hzero, if_pos (Chunk.total_le_index h hzero)]
    exact ⟨rfl, rfl⟩

theorem add_of_sound (a : Assembler) (h : x.chunk.IsSound) :
    a.add x.now x.source x.compressed x.chunk =
      ((a.offered x).makeRoom x.source).place x.now x.source x.compressed x.chunk := by
  have hzero : x.chunk.total ≠ 0 := UInt8.pos_iff_ne_zero.mp h.1
  have hlt : ¬ x.chunk.total ≤ x.chunk.index := UInt8.not_le.mpr h.2
  simp only [add, hzero, hlt, if_false, offered]

theorem distinct_offered (h : Distinct a) (x : Arrival) : Distinct (a.offered x) :=
  distinct_dropSuperseded (distinct_evictExpired h x.now) _ _ _

/-- Before room is made, the other sources have their buffers unless these are too old. -/
theorem buffer?_offered_of_ne (h : Distinct a) (hne : x.source ≠ other) :
    (a.offered x).buffer? other = a.live? x.now other := by
  rw [offered, buffer?_dropSuperseded (distinct_evictExpired h x.now), if_neg hne,
    buffer?_evictExpired h]

/-- Room is not made at the expense of the source that needs it. -/
theorem buffer?_roomed (h : Distinct a) (x : Arrival) :
    ((a.offered x).makeRoom x.source).buffer? x.source =
      (a.live? x.now x.source).filter (·.matchesChunk x.chunk x.compressed) := by
  rw [buffer?_makeRoom (distinct_offered h x), if_neg fun hroom => roomFor?_ne hroom rfl, offered,
    buffer?_dropSuperseded (distinct_evictExpired h x.now), if_pos rfl, buffer?_evictExpired h]

/-- Among the buffers where room was made, a chunk is placed into the one that it belongs into. -/
theorem getD_buffer?_roomed (h : Distinct a) (x : Arrival) :
    (((a.offered x).makeRoom x.source).buffer? x.source).getD
      (.opened x.chunk x.compressed x.now) = a.target x := by
  rw [buffer?_roomed h, target]

theorem distinct_step (h : Distinct a) (x : Arrival) : Distinct (a.step x) := by
  by_cases hsound : x.chunk.IsSound
  · have hroomed : Distinct ((a.offered x).makeRoom x.source) :=
      distinct_makeRoom (distinct_offered h x) x.source
    unfold step
    rw [add_of_sound a hsound, place]
    split
    · exact hroomed
    · split
      · exact distinct_drop hroomed _
      · exact distinct_put hroomed _ _
  · rw [(step_of_unsound a hsound).1]
    exact distinct_evictExpired h x.now

theorem distinct_run (h : Distinct a) (arrivals : List Arrival) : Distinct (a.run arrivals) := by
  induction arrivals generalizing a with
  | nil => exact h
  | cons x arrivals ih => exact ih (distinct_step h x)

/-- **Another source's buffer** stays as it is, unless it is too old or makes room. -/
theorem buffer?_step_of_ne (h : Distinct a) (hne : x.source ≠ other) :
    (a.step x).buffer? other =
      if a.crowdedOut? x = some other then none else a.live? x.now other := by
  by_cases hsound : x.chunk.IsSound
  · have hroomed : ((a.offered x).makeRoom x.source).buffer? other =
        if a.crowdedOut? x = some other then none else a.live? x.now other := by
      rw [buffer?_makeRoom (distinct_offered h x), buffer?_offered_of_ne h hne, crowdedOut?,
        if_pos hsound]
    unfold step
    rw [add_of_sound a hsound, place]
    split
    · exact hroomed
    · split
      · rw [buffer?_drop (distinct_makeRoom (distinct_offered h x) x.source), if_neg hne, hroomed]
      · rw [buffer?_put, if_neg hne, hroomed]
  · rw [(step_of_unsound a hsound).1, buffer?_evictExpired h, crowdedOut?, if_neg hsound]
    simp

/-- What becomes of the buffer that an arrival with a sound header belongs into, and what the
arrival is answered. -/
inductive Placement (a : Assembler) (x : Arrival) : Prop where
  /-- The chunk was there already. -/
  | known (taken : (a.target x).fill? x.chunk = none)
      (kept : (a.step x).buffer? x.source = some (a.target x)) (answer : a.reply x = .ok none)
  /-- The chunk is put in its place, and others are missing. -/
  | put (filled : AssemblyBuffer) (fills : (a.target x).fill? x.chunk = some filled)
      (incomplete : filled.isComplete = false) (kept : (a.step x).buffer? x.source = some filled)
      (answer : a.reply x = .ok none)
  /-- The chunk is the last one that was missing. -/
  | complete (filled : AssemblyBuffer) (fills : (a.target x).fill? x.chunk = some filled)
      (complete : filled.isComplete = true) (closed : (a.step x).buffer? x.source = none)
      (answer : a.reply x =
        (body a.limits x.source filled.compressed filled.bytes).map some)

theorem limits_makeRoom (a : Assembler) (source : Source) :
    (a.makeRoom source).limits = a.limits := by
  rw [makeRoom_eq]
  cases a.roomFor? source <;> rfl

theorem limits_offered (a : Assembler) (x : Arrival) : (a.offered x).limits = a.limits := by
  unfold offered dropSuperseded
  split
  · split <;> rfl
  · rfl

theorem limits_step (a : Assembler) (x : Arrival) : (a.step x).limits = a.limits := by
  by_cases hsound : x.chunk.IsSound
  · unfold step
    rw [add_of_sound a hsound, place]
    split
    · rw [limits_makeRoom, limits_offered]
    · split
      · show ((a.offered x).makeRoom x.source).limits = a.limits
        rw [limits_makeRoom, limits_offered]
      · show ((a.offered x).makeRoom x.source).limits = a.limits
        rw [limits_makeRoom, limits_offered]
  · rw [(step_of_unsound a hsound).1]
    rfl

theorem limits_run (a : Assembler) (arrivals : List Arrival) :
    (a.run arrivals).limits = a.limits := by
  induction arrivals generalizing a with
  | nil => rfl
  | cons x arrivals ih => exact (ih (a.step x)).trans (limits_step a x)

/-- **The chunk's own buffer.** -/
theorem placement_step (h : Distinct a) (hsound : x.chunk.IsSound) : Placement a x := by
  have hroomed := distinct_makeRoom (distinct_offered h x) x.source
  have htarget := getD_buffer?_roomed h x
  have hadd := add_of_sound a hsound
  rw [place, htarget] at hadd
  cases hfill : (a.target x).fill? x.chunk with
  | none =>
      rw [hfill] at hadd
      refine .known hfill ?_ (by rw [reply, hadd])
      -- A new buffer has room for every chunk, so the target was there.
      have hthere : ((a.offered x).makeRoom x.source).buffer? x.source ≠ none := by
        intro hnone
        rw [hnone, Option.getD_none] at htarget
        rw [← htarget, AssemblyBuffer.opened_eq_gathered,
          AssemblyBuffer.fill?_gathered hsound.toNat_lt] at hfill
        simp at hfill
      obtain ⟨b, hb⟩ := Option.ne_none_iff_exists'.mp hthere
      rw [hb, Option.getD_some] at htarget
      rw [step, hadd, hb, htarget]
  | some filled =>
      rw [hfill] at hadd
      dsimp only at hadd
      cases hcomplete : filled.isComplete with
      | false =>
          rw [hcomplete] at hadd
          refine .put filled hfill hcomplete ?_ (by rw [reply, hadd]; rfl)
          rw [step, hadd, if_neg Bool.false_ne_true, buffer?_put, if_pos rfl]
      | true =>
          rw [hcomplete, if_pos rfl, limits_makeRoom, limits_offered] at hadd
          refine .complete filled hfill hcomplete ?_ (by rw [reply, hadd])
          rw [step, hadd, buffer?_drop hroomed, if_pos rfl]

/-- What an arrival comes to whose source said `chunks` of the same response before. -/
inductive Continued (a : Assembler) (x : Arrival) (firstSeen : Nat) (chunks : List Chunk) :
    Prop where
  /-- The response is still open: the index was heard before, or another one was not heard yet. -/
  | kept (unfinished : (∃ c ∈ chunks, c.index = x.chunk.index) ∨
        ¬ Covers x.chunk.total (chunks ++ [x.chunk]))
      (holds : (a.step x).buffer? x.source =
        some (.gathered x.chunk x.compressed firstSeen (chunks ++ [x.chunk])))
      (answer : a.reply x = .ok none)
  /-- The response is complete, and not since before. -/
  | completed (new : ∀ c ∈ chunks, c.index ≠ x.chunk.index)
      (covers : Covers x.chunk.total (chunks ++ [x.chunk]))
      (closed : (a.step x).buffer? x.source = none)
      (answer : a.reply x = (body a.limits x.source x.compressed
        (assembled x.chunk.total (chunks ++ [x.chunk]))).map some)

/-- **A response goes on**: what an arrival comes to can be told from what its source said before.
-/
theorem continued_step (h : Distinct a) (hsound : x.chunk.IsSound) {firstSeen : Nat}
    {chunks : List Chunk}
    (htarget : a.target x = .gathered x.chunk x.compressed firstSeen chunks) :
    Continued a x firstSeen chunks := by
  have hfill : (a.target x).fill? x.chunk =
      if (firstBody? chunks x.chunk.index.toNat).isSome then none
      else some (.gathered x.chunk x.compressed firstSeen (chunks ++ [x.chunk])) := by
    rw [htarget, AssemblyBuffer.fill?_gathered hsound.toNat_lt]
  rcases placement_step h hsound with
    ⟨htaken, hkept, hanswer⟩ | ⟨filled, hfills, hopen, hkept, hanswer⟩ |
    ⟨filled, hfills, hcomplete, hclosed, hanswer⟩
  -- The index is known, and hearing it again adds nothing.
  · have hknown : (firstBody? chunks x.chunk.index.toNat).isSome = true := by
      by_contra hnew
      simp [hfill, hnew] at htaken
    obtain ⟨c, hc, hindex⟩ := (firstBody?_isSome_iff _ _).mp hknown
    refine .kept (.inl ⟨c, hc, UInt8.toNat_inj.mp hindex⟩) ?_ hanswer
    rw [hkept, htarget, AssemblyBuffer.gathered_concat_of_known hknown]
  · rw [hfill] at hfills
    obtain ⟨-, hfilled⟩ := Option.ite_none_left_eq_some.mp hfills
    obtain rfl := Option.some.inj hfilled
    -- The counter says that some index was not heard.
    refine .kept (.inr fun hcovers => ?_) hkept hanswer
    rw [AssemblyBuffer.isComplete_gathered_iff.mpr hcovers] at hopen
    cases hopen
  · rw [hfill] at hfills
    obtain ⟨hnew, hfilled⟩ := Option.ite_none_left_eq_some.mp hfills
    obtain rfl := Option.some.inj hfilled
    rw [AssemblyBuffer.isComplete_gathered_iff] at hcomplete
    rw [AssemblyBuffer.bytes_gathered] at hanswer
    refine .completed (fun c hc hindex => ?_) hcomplete hclosed hanswer
    exact hnew ((firstBody?_isSome_iff _ _).mpr ⟨c, hc, congrArg UInt8.toNat hindex⟩)

end

end Assembler

end FleetLink
