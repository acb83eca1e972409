import FleetLink.Proofs.Assembler.Sparing

/-!
# An assembler holds together

An assembler relies on facts that none of its types states.  The places of a buffer are as many as
the first chunk of a response says, and later chunks go to the place that their own index names.  A
response is complete when the counter of its buffer says so, and nobody looks at the places.  One
buffer makes room for one, so that the bound holds only if it held before.  This module says that
**the facts hold after every operation**, whatever the settings are, whatever arrives, and whatever
the clock says: it may stand still or go back.

**What could crash.**  To put a chunk in a place that is not there is no error for `add`, which
treats the place as taken.  A mistake could hide behind that.  So there is a second way to carry out
the operations (`attempt`), in the same order, that gives up where memory is read outside a buffer
and where a word is left: by a counter that grows too far, or by the number of buffers that were
dropped if it fell below zero.  Nothing of this ever happens, and the two ways come to the same.

## Main Definitions

* `AssemblyBuffer.IsPartial` — an open buffer: its places and its counter
* `Intact` — the bound, and only buffers that are partial
* `attempt`, `attemptAll` — operations that give up where they would crash

## Main Statements

* `isPartial_target` — the buffer that an arrival belongs into
* `attempt_eq` — nothing gives up where an assembler is intact
* `Intact.perform` — one operation leaves an assembler intact
* `intact_after_every_operation` — so does every run, and nothing gives up in it
-/

namespace FleetLink

namespace AssemblyBuffer

/-- An open buffer: it has a place for each chunk that a response can have, counts the places that
are filled, and is not full. -/
structure IsPartial (b : AssemblyBuffer) : Prop where
  one_le_length : 1 ≤ b.slots.length
  length_le : b.slots.length ≤ 255
  received_eq : b.received = b.slots.countP (·.isSome)
  received_lt : b.received < b.slots.length

theorem length_slots_opened (chunk : Chunk) (compressed : Bool) (now : Nat) :
    (opened chunk compressed now).slots.length = chunk.total.toNat :=
  List.length_replicate

/-- A buffer that is opened for a chunk with a sound header is partial, as it holds nothing yet. -/
theorem isPartial_opened {chunk : Chunk} (h : chunk.IsSound) (compressed : Bool) (now : Nat) :
    (opened chunk compressed now).IsPartial where
  one_le_length := by
    rw [length_slots_opened]
    exact Nat.one_le_of_lt h.toNat_lt
  length_le := by
    rw [length_slots_opened]
    exact Nat.le_of_lt_succ chunk.total.toNat_lt
  received_eq := by simp [opened, List.countP_replicate]
  received_lt := by
    rw [length_slots_opened]
    exact Nat.zero_lt_of_lt h.toNat_lt

/-- The counter goes up by one with each place that is filled. -/
theorem countP_fill? {b filled : AssemblyBuffer} {chunk : Chunk} (h : b.fill? chunk = some filled) :
    filled.received = b.received + 1 ∧
      filled.slots.countP (·.isSome) = b.slots.countP (·.isSome) + 1 := by
  unfold fill? at h
  split at h
  next hfree =>
    cases h
    exact ⟨rfl, countP_set_of_free hfree chunk.body⟩
  next => cases h

/-- **To fill a place** leaves a buffer partial, unless it is complete. -/
theorem IsPartial.of_fill? {b filled : AssemblyBuffer} {chunk : Chunk} (h : b.IsPartial)
    (hfill : b.fill? chunk = some filled) (hopen : filled.isComplete = false) :
    filled.IsPartial := by
  obtain ⟨hreceived, hcount⟩ := countP_fill? hfill
  have hlength : filled.slots.length = b.slots.length := (continues_of_fill? hfill).places
  have hmissing : filled.received ≠ filled.slots.length := of_decide_eq_false hopen
  have hlt := h.received_lt
  exact {
    one_le_length := hlength ▸ h.one_le_length
    length_le := hlength ▸ h.length_le
    received_eq := by rw [hreceived, hcount, h.received_eq]
    received_lt := by omega }

/-- `fill?`, except that it gives up where the buffer has no such place and where the counter does
not fit a word. -/
def attemptFill (b : AssemblyBuffer) (chunk : Chunk) : Option (Option AssemblyBuffer) :=
  match b.slots[chunk.index.toNat]? with
  | none => none
  | some (some _) => some none
  | some none =>
    if b.received + 1 < UInt64.size then
      some <| some { b with
        slots := b.slots.set chunk.index.toNat (some chunk.body)
        received := b.received + 1 }
    else none

/-- **Nothing is read outside a buffer** by a chunk that has its place, and a partial buffer counts
no further than a word. -/
theorem attemptFill_eq {b : AssemblyBuffer} {chunk : Chunk} (h : b.IsPartial)
    (hplace : chunk.index.toNat < b.slots.length) : b.attemptFill chunk = some (b.fill? chunk) := by
  have hcounts : b.received + 1 < UInt64.size := by
    have hlt := h.received_lt
    have hle := h.length_le
    have hword : 256 < UInt64.size := by decide
    omega
  unfold attemptFill fill?
  rw [List.getElem?_eq_getElem hplace]
  cases b.slots[chunk.index.toNat] with
  | some body => rfl
  | none => exact if_pos hcounts

/-- A third chunk has no place where there are two, which is not the same as a place that is
taken. -/
example :
    let b := opened ⟨7, 0, 2, [1]⟩ false 0
    b.attemptFill ⟨7, 2, 3, [1]⟩ = none ∧ b.fill? ⟨7, 2, 3, [1]⟩ = none := by
  decide

end AssemblyBuffer

namespace Assembler

/-! ## Operations that give up -/

/-- `evictExpired` with the number of buffers that are dropped, except that it gives up if that is
below zero. -/
def attemptEvict (a : Assembler) (now : Nat) : Option (Assembler × Nat) :=
  if (a.evictExpired now).pending ≤ a.pending then
    some (a.evictExpired now, a.pending - (a.evictExpired now).pending)
  else none

/-- `place`, except that it gives up where the chunk cannot be put anywhere. -/
def attemptPlace (a : Assembler) (x : Arrival) :
    Option (Assembler × Except AssemblyFault (Option (List UInt8))) :=
  let buffer := (a.buffer? x.source).getD (.opened x.chunk x.compressed x.now)
  match buffer.attemptFill x.chunk with
  | none => none
  | some none => some (a, .ok none)
  | some (some filled) =>
    if filled.isComplete then
      some (a.drop x.source, (body a.limits x.source filled.compressed filled.bytes).map some)
    else some (a.put x.source filled, .ok none)

/-- `add`, except that it gives up where one of its steps does. -/
def attemptAdd (a : Assembler) (x : Arrival) :
    Option (Assembler × Except AssemblyFault (Option (List UInt8))) :=
  match a.attemptEvict x.now with
  | none => none
  | some (live, _) =>
    if x.chunk.total = 0 then some (live, .error (.emptyResponse x.source))
    else if x.chunk.total ≤ x.chunk.index then
      some (live, .error (.chunkOutOfRange x.source x.chunk.index x.chunk.total))
    else
      ((live.dropSuperseded x.source x.chunk x.compressed).makeRoom x.source).attemptPlace x

/-- `perform`, except that it gives up where the operation does. -/
def attempt (a : Assembler) : Operation → Option Assembler
  | .add x => (a.attemptAdd x).map (·.1)
  | .evictExpired now => (a.attemptEvict now).map (·.1)

/-- The assembler after some operations, if none of them gives up. -/
def attemptAll (a : Assembler) (operations : List Operation) : Option Assembler :=
  operations.foldlM attempt a

/-! ## What holds after every operation -/

/-- No more buffers than allowed, no source with two of them, and all of them partial. -/
structure Intact (a : Assembler) : Prop extends Bounded a where
  isPartial : ∀ e ∈ a.buffers, e.2.IsPartial

section

variable {a : Assembler} {source : Source} {b : AssemblyBuffer} {x : Arrival}

theorem Intact.isPartial_of_buffer? (h : Intact a) (hb : a.buffer? source = some b) :
    b.IsPartial :=
  h.isPartial (source, b) ((buffer?_eq_some_iff h.distinct).mp hb)

/-- **The buffer that an arrival belongs into** is partial, and the arrival has a place in it: a new
one has as many places as the arrival says, and one that was there as many as an earlier chunk
said, which is the same. -/
theorem isPartial_target (h : Intact a) (hsound : x.chunk.IsSound) :
    (a.target x).IsPartial ∧ x.chunk.index.toNat < (a.target x).slots.length := by
  rcases target_cases a x with ⟨-, hnew⟩ | ⟨b, hb, -, hmatch, -, hsame⟩
  · rw [hnew, ← AssemblyBuffer.opened_eq_gathered]
    refine ⟨AssemblyBuffer.isPartial_opened hsound _ _, ?_⟩
    rw [AssemblyBuffer.length_slots_opened]
    exact hsound.toNat_lt
  · rw [hsame]
    refine ⟨h.isPartial_of_buffer? hb, ?_⟩
    simp only [AssemblyBuffer.matchesChunk, Bool.and_eq_true, decide_eq_true_eq] at hmatch
    rw [hmatch.1.2]
    exact hsound.toNat_lt

theorem attemptEvict_eq (a : Assembler) (now : Nat) :
    a.attemptEvict now = some (a.evictExpired now, a.pending - (a.evictExpired now).pending) :=
  if_pos (length_evictExpired_le a now)

/-- **Nothing gives up when a chunk arrives,** and the answer is the same. -/
theorem attemptAdd_eq (h : Intact a) (x : Arrival) :
    a.attemptAdd x = some (a.add x.now x.source x.compressed x.chunk) := by
  unfold attemptAdd
  rw [attemptEvict_eq]
  dsimp only
  by_cases hsound : x.chunk.IsSound
  · obtain ⟨hpartial, hplace⟩ := isPartial_target h hsound
    rw [if_neg (UInt8.pos_iff_ne_zero.mp hsound.1), if_neg (UInt8.not_le.mpr hsound.2),
      add_of_sound a hsound]
    show ((a.offered x).makeRoom x.source).attemptPlace x = _
    rw [attemptPlace, place, getD_buffer?_roomed h.distinct,
      AssemblyBuffer.attemptFill_eq hpartial hplace]
    cases (a.target x).fill? x.chunk with
    | none => rfl
    | some filled =>
        dsimp only
        split <;> rfl
  · unfold add
    by_cases hzero : x.chunk.total = 0
    · rw [if_pos hzero, if_pos hzero]
    · have hle := Chunk.total_le_index hsound hzero
      rw [if_neg hzero, if_neg hzero, if_pos hle, if_pos hle]

/-- **Nothing gives up** where an assembler is intact. -/
theorem attempt_eq (h : Intact a) (operation : Operation) :
    a.attempt operation = some (a.perform operation) := by
  cases operation with
  | add x => rw [attempt, attemptAdd_eq h, Option.map_some, perform, step]
  | evictExpired now => rw [attempt, attemptEvict_eq, Option.map_some, perform]

theorem intact_new (limits : AssemblyLimits) : Intact (new limits) where
  toBounded := bounded_new limits
  isPartial := by simp

theorem Intact.evictExpired (h : Intact a) (now : Nat) : Intact (a.evictExpired now) where
  toBounded := h.toBounded.evictExpired now
  isPartial e he := h.isPartial e (List.mem_filter.mp he).1

/-- What is open after an arrival is partial. -/
theorem isPartial_step (h : Intact a) (hb : (a.step x).buffer? source = some b) :
    b.IsPartial := by
  by_cases hsource : x.source = source
  · subst hsource
    by_cases hsound : x.chunk.IsSound
    · obtain ⟨hpartial, -⟩ := isPartial_target h hsound
      cases placement_step h.distinct hsound with
      | known _ kept _ =>
          obtain rfl := Option.some.inj (kept.symm.trans hb)
          exact hpartial
      | put filled fills incomplete kept _ =>
          obtain rfl := Option.some.inj (kept.symm.trans hb)
          exact hpartial.of_fill? fills incomplete
      | complete _ _ _ closed _ =>
          rw [closed] at hb
          cases hb
    · rw [(step_of_unsound a hsound).1] at hb
      exact (h.evictExpired x.now).isPartial_of_buffer? hb
  · rw [buffer?_step_of_ne h.distinct hsource] at hb
    obtain ⟨-, hlive⟩ := Option.ite_none_left_eq_some.mp hb
    exact h.isPartial_of_buffer? (Option.filter_eq_some_iff.mp hlive).1

/-- **One operation leaves an assembler intact.** -/
theorem Intact.perform (h : Intact a) (operation : Operation) :
    Intact (a.perform operation) := by
  cases operation with
  | evictExpired now => exact h.evictExpired now
  | add x =>
      refine ⟨h.toBounded.step x, fun e he => ?_⟩
      exact isPartial_step h ((buffer?_eq_some_iff (distinct_step h.distinct x)).mpr he)

/-- A run leaves an assembler intact, and nothing gives up in it. -/
theorem Intact.performAll (h : Intact a) (operations : List Operation) :
    Intact (a.performAll operations) ∧
      a.attemptAll operations = some (a.performAll operations) := by
  induction operations generalizing a with
  | nil => exact ⟨h, rfl⟩
  | cons operation operations ih =>
      obtain ⟨hintact, hsame⟩ := ih (h.perform operation)
      refine ⟨hintact, ?_⟩
      rw [attemptAll, List.foldlM_cons, attempt_eq h]
      exact hsame

theorem limits_performAll (a : Assembler) (operations : List Operation) :
    (a.performAll operations).limits = a.limits := by
  induction operations generalizing a with
  | nil => rfl
  | cons operation operations ih =>
      have hone : (a.perform operation).limits = a.limits := by
        cases operation with
        | add x => exact limits_step a x
        | evictExpired now => rfl
      exact (ih (a.perform operation)).trans hone

end

/-- **An assembler holds together.**  Take any settings, zeros among them, and any operations at any
times.  Nothing gives up, so that no operation crashes, and afterwards:

* no more buffers are open than the settings allow, or one if they allow none;
* no source has two of them;
* each has between 1 and 255 places, and its counter is the number of places that are filled, of
  which there are fewer than places.

As the operations may stop anywhere, this holds after each of them, and any operation that follows
comes to the same whether or not it could give up. -/
theorem intact_after_every_operation (timeout maxBuffers maxBodyBytes : Nat)
    (operations : List Operation) :
    let fresh := new (.clamped timeout maxBuffers maxBodyBytes)
    let a := fresh.performAll operations
    fresh.attemptAll operations = some a ∧
      a.pending ≤ max 1 maxBuffers ∧
      (a.buffers.map (·.1)).Nodup ∧
      (∀ e ∈ a.buffers, e.2.IsPartial) ∧
      ∀ x, a.attemptAdd x = some (a.add x.now x.source x.compressed x.chunk) := by
  intro fresh a
  obtain ⟨hintact, hattempt⟩ := (intact_new _).performAll operations
  have hlimits : a.limits = .clamped timeout maxBuffers maxBodyBytes :=
    limits_performAll fresh operations
  have hbound : a.pending ≤ a.limits.maxBuffers := hintact.length_le
  rw [hlimits] at hbound
  exact ⟨hattempt, hbound, hintact.distinct, hintact.isPartial, attemptAdd_eq hintact⟩

/-- If no buffer is allowed there is still one, and a clock that goes back makes no difference: the
second source takes the place of the first. -/
example :
    let chunk : Chunk := ⟨7, 1, 2, [1]⟩
    let a := (new (.clamped 10 0 0)).performAll
      [.add ⟨5, ⟨"radio", "a"⟩, false, chunk⟩, .evictExpired 2,
        .add ⟨1, ⟨"radio", "b"⟩, false, chunk⟩]
    a.buffers.map (fun e => (e.1.address, e.2.received, e.2.slots.length)) = [("b", 1, 2)] := by
  decide

end Assembler

end FleetLink
