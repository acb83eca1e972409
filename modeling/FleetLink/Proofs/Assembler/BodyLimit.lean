import FleetLink.Proofs.Assembler.Step
import FleetLink.Proofs.Zlib.Streaming

/-!
# The limit of a body

A compressed response may stand for far more bytes than it has, so it is inflated no further than
one byte past the limit.  The limit is **transparent**: for every state of the assembler and every
chunk, the answer is what inflating all of it and looking at the size afterwards would give.  So a
wider limit never turns a body into another one, and a stream that fails behind the limit is too
large and not broken.

The limit matters only where a response is complete.  Until then an assembler does the same
whatever its limit is (`step_withMaxBodyBytes`, `run_withMaxBodyBytes`), and it completes the same
responses (`completed?_withMaxBodyBytes`).  What a complete response comes to depends on what its
bytes stand for (`stream`) and on nothing else (`reply_eq_body_iff`, `reply_eq_tooLarge_iff`,
`reply_eq_undecodable_iff`).

**No word holds one more than the greatest limit.**  Under that limit no more bytes are asked for
than are allowed (`lookahead`), and the answer is still the right one if the stream is shorter than
that, as every stream is that fits into memory.

## Main Definitions

* `completed?` — the response that an arrival completes
* `withMaxBodyBytes` — the same assembler under another limit
* `Transparent` — how the answers under two limits compare

## Main Statements

* `run_withMaxBodyBytes` — what an assembler holds does not depend on the limit
* `reply_eq_body_iff` — which bodies are delivered
* `limit_transparent` — two limits, compared at every arrival
-/

namespace FleetLink

open Zlib

namespace Assembler

/-! ## The response that is completed -/

/-- The buffers among which an arrival with a sound header is placed. -/
def roomed (a : Assembler) (x : Arrival) : Assembler := (a.offered x).makeRoom x.source

/-- The buffer into which an arrival with a sound header is put. -/
def receiving (a : Assembler) (x : Arrival) : AssemblyBuffer :=
  ((a.roomed x).buffer? x.source).getD (.opened x.chunk x.compressed x.now)

/-- The response that an arrival completes: its chunks, one of which is the arrival. -/
def completed? (a : Assembler) (x : Arrival) : Option AssemblyBuffer :=
  if x.chunk.IsSound then ((a.receiving x).fill? x.chunk).filter (·.isComplete) else none

section

variable {a : Assembler} {x : Arrival} {response : AssemblyBuffer}

theorem completed?_eq_some_iff :
    a.completed? x = some response ↔
      x.chunk.IsSound ∧ (a.receiving x).fill? x.chunk = some response ∧
        response.isComplete = true := by
  unfold completed?
  rw [Option.ite_none_right_eq_some, Option.filter_eq_some_iff]

theorem buffer?_drop_self (a : Assembler) (source : Source) :
    (a.drop source).buffer? source = none :=
  buffer?_eq_none_iff.mpr fun _ he => of_decide_eq_true (List.mem_filter.mp he).2

/-- What an arrival does not supersede is part of the same response. -/
theorem matchesChunk_of_offered {b : AssemblyBuffer}
    (h : (a.offered x).buffer? x.source = some b) :
    b.matchesChunk x.chunk x.compressed = true := by
  unfold offered dropSuperseded at h
  split at h
  next c hc =>
    split at h
    next hmatch =>
      obtain rfl := Option.some.inj (hc.symm.trans h)
      exact hmatch
    next =>
      rw [buffer?_drop_self] at h
      cases h
  next hnone =>
    rw [hnone] at h
    cases h

/-- To make room for a source does not give it a buffer. -/
theorem offered_of_roomed {b : AssemblyBuffer} (h : (a.roomed x).buffer? x.source = some b) :
    (a.offered x).buffer? x.source = some b := by
  rw [roomed, makeRoom_eq] at h
  cases hroom : (a.offered x).roomFor? x.source with
  | none =>
      rw [hroom] at h
      exact h
  | some oldest =>
      obtain ⟨⟨hnone, -⟩, -⟩ := Option.ite_none_right_eq_some.mp hroom
      rw [Option.isNone_iff_eq_none, buffer?_eq_none_iff] at hnone
      have hgone : ((a.offered x).drop oldest).buffer? x.source = none :=
        buffer?_eq_none_iff.mpr fun e he => hnone e (List.mem_filter.mp he).1
      rw [hroom, Option.elim_some, hgone] at h
      cases h

/-- A response is compressed if its last chunk says so. -/
theorem compressed_of_completed (h : a.completed? x = some response) :
    response.compressed = x.compressed := by
  obtain ⟨-, hfill, -⟩ := completed?_eq_some_iff.mp h
  have hreceiving : (a.receiving x).compressed = x.compressed := by
    unfold receiving
    cases hb : (a.roomed x).buffer? x.source with
    | none => rfl
    | some b =>
        have hmatch := matchesChunk_of_offered (offered_of_roomed hb)
        simp only [AssemblyBuffer.matchesChunk, Bool.and_eq_true, decide_eq_true_eq] at hmatch
        exact hmatch.2
  unfold AssemblyBuffer.fill? at hfill
  split at hfill
  · cases hfill
    exact hreceiving
  · cases hfill

/-- An arrival that completes a response is answered with what becomes of the bytes of its chunks.
-/
theorem reply_of_completed (h : a.completed? x = some response) :
    a.reply x = (body a.limits x.source response.compressed response.bytes).map some := by
  obtain ⟨hsound, hfill, hcomplete⟩ := completed?_eq_some_iff.mp h
  have hplace : (a.roomed x).limits = a.limits := by rw [roomed, limits_makeRoom, limits_offered]
  unfold receiving at hfill
  unfold reply
  rw [add_of_sound a hsound, ← roomed, place, hfill]
  dsimp only
  rw [if_pos hcomplete, hplace]

/-- Any other arrival is answered without a look at a body. -/
theorem reply_of_not_completed (h : a.completed? x = none) : completes (a.reply x) = false := by
  by_cases hsound : x.chunk.IsSound
  · unfold completed? receiving at h
    rw [if_pos hsound] at h
    unfold reply
    rw [add_of_sound a hsound, ← roomed, place]
    split
    · rfl
    next hfill =>
      rw [hfill, Option.filter_some] at h
      split
      next hcomplete => rw [if_pos hcomplete] at h; cases h
      next => rfl
  · exact (step_of_unsound a hsound).2

end

/-! ## Another limit -/

/-- The limit that a number asks for; zero counts as one. -/
def clampedLimit (limit : Nat) : Nat := max 1 limit

theorem clampedLimit_pos (limit : Nat) : 0 < clampedLimit limit := Nat.le_max_left 1 limit

/-- The same assembler with another limit for its bodies. -/
def withMaxBodyBytes (a : Assembler) (limit : Nat) : Assembler :=
  { a with limits :=
      { a.limits with
        maxBodyBytes := clampedLimit limit
        maxBodyBytes_pos := clampedLimit_pos limit } }

section

variable (a : Assembler) (limit : Nat) (x : Arrival)

theorem offered_withMaxBodyBytes :
    (a.withMaxBodyBytes limit).offered x = (a.offered x).withMaxBodyBytes limit := by
  have hlive : (a.withMaxBodyBytes limit).evictExpired x.now =
      (a.evictExpired x.now).withMaxBodyBytes limit := rfl
  have hbuffer : ((a.evictExpired x.now).withMaxBodyBytes limit).buffer? x.source =
      (a.evictExpired x.now).buffer? x.source := rfl
  unfold offered dropSuperseded
  rw [hlive, hbuffer]
  cases (a.evictExpired x.now).buffer? x.source with
  | none => rfl
  | some b =>
      dsimp only
      cases b.matchesChunk x.chunk x.compressed <;> rfl

theorem roomed_withMaxBodyBytes :
    (a.withMaxBodyBytes limit).roomed x = (a.roomed x).withMaxBodyBytes limit := by
  unfold roomed
  rw [offered_withMaxBodyBytes, makeRoom_eq, makeRoom_eq]
  show ((a.offered x).roomFor? x.source).elim _ _ = _
  cases (a.offered x).roomFor? x.source <;> rfl

theorem receiving_withMaxBodyBytes :
    (a.withMaxBodyBytes limit).receiving x = a.receiving x := by
  unfold receiving
  rw [roomed_withMaxBodyBytes]
  rfl

theorem completed?_withMaxBodyBytes :
    (a.withMaxBodyBytes limit).completed? x = a.completed? x := by
  unfold completed?
  rw [receiving_withMaxBodyBytes]

/-- **What an assembler holds does not depend on the limit of its bodies.** -/
theorem step_withMaxBodyBytes :
    (a.withMaxBodyBytes limit).step x = (a.step x).withMaxBodyBytes limit := by
  by_cases hsound : x.chunk.IsSound
  · have hbuffer : ((a.roomed x).withMaxBodyBytes limit).buffer? x.source =
        (a.roomed x).buffer? x.source := rfl
    unfold step
    rw [add_of_sound _ hsound, add_of_sound _ hsound, ← roomed, ← roomed, roomed_withMaxBodyBytes,
      place, place, hbuffer, ← receiving]
    cases (a.receiving x).fill? x.chunk with
    | none => rfl
    | some filled =>
        dsimp only
        cases filled.isComplete <;> rfl
  · rw [(step_of_unsound _ hsound).1, (step_of_unsound _ hsound).1]
    rfl

theorem run_withMaxBodyBytes (arrivals : List Arrival) :
    (a.withMaxBodyBytes limit).run arrivals = (a.run arrivals).withMaxBodyBytes limit := by
  induction arrivals generalizing a with
  | nil => rfl
  | cons x arrivals ih =>
      show ((a.withMaxBodyBytes limit).step x).run arrivals = _
      rw [step_withMaxBodyBytes, ih]
      rfl

end

/-! ## What becomes of a body -/

/-- What the bytes of a response stand for.  Bytes that are not compressed are a stream of
themselves, which comes to its end. -/
def stream (response : AssemblyBuffer) : Inflation :=
  if response.compressed then inflate response.bytes else ⟨response.bytes, true⟩

/-- The answer to what was read up to a limit. -/
def verdict (source : Source) (limit : Nat) : Limited → Except AssemblyFault (List UInt8)
  | .whole bytes => .ok bytes
  | .tooLong => .error (.bodyTooLarge source limit)
  | .broken => .error (.undecodable source)

theorem body_eq_verdict (limits : AssemblyLimits) (source : Source) (response : AssemblyBuffer) :
    body limits source response.compressed response.bytes =
      verdict source limits.maxBodyBytes ((stream response).within limits.maxBodyBytes) := by
  unfold body stream
  cases response.compressed with
  | true =>
      rw [if_pos rfl, if_pos rfl]
      cases (inflate response.bytes).within limits.maxBodyBytes <;> rfl
  | false =>
      rw [if_neg Bool.false_ne_true, if_neg Bool.false_ne_true, Inflation.within]
      split <;> rfl

section

variable {a : Assembler} {x : Arrival} {limit : Nat} {body : List UInt8}

/-- The answer under a limit to an arrival that completes a response. -/
theorem reply_withMaxBodyBytes (hlimit : 1 ≤ limit) {response : AssemblyBuffer}
    (h : a.completed? x = some response) :
    (a.withMaxBodyBytes limit).reply x =
      (verdict x.source limit ((stream response).within limit)).map some := by
  have hmax : (a.withMaxBodyBytes limit).limits.maxBodyBytes = limit := Nat.max_eq_right hlimit
  rw [reply_of_completed ((completed?_withMaxBodyBytes a limit x).trans h), body_eq_verdict, hmax]

/-- An arrival that is answered with a body, or with why there is none, completes a response. -/
theorem exists_completed (h : completes ((a.withMaxBodyBytes limit).reply x) = true) :
    ∃ response, a.completed? x = some response := by
  refine Option.ne_none_iff_exists'.mp fun hnone => ?_
  rw [reply_of_not_completed ((completed?_withMaxBodyBytes a limit x).trans hnone)] at h
  cases h

theorem stream_of_compressed {response : AssemblyBuffer} (h : a.completed? x = some response)
    (hcompressed : x.compressed = true) : stream response = inflate response.bytes := by
  rw [stream, compressed_of_completed h, hcompressed, if_pos rfl]

theorem verdict_eq_ok_iff {source : Source} {read : Limited} :
    (verdict source limit read).map some = .ok (some body) ↔ read = .whole body := by
  cases read <;> simp [verdict, Except.map]

theorem verdict_eq_tooLarge_iff {source origin : Source} {named : Nat} {read : Limited} :
    (verdict source limit read).map some = .error (.bodyTooLarge origin named) ↔
      read = .tooLong ∧ source = origin ∧ limit = named := by
  cases read <;> simp [verdict, Except.map]

theorem verdict_eq_undecodable_iff {source origin : Source} {read : Limited} :
    (verdict source limit read).map some = .error (.undecodable origin) ↔
      read = .broken ∧ source = origin := by
  cases read <;> simp [verdict, Except.map]

/-- **Which bodies are delivered under a limit.** -/
theorem reply_eq_body_iff (hlimit : 1 ≤ limit) :
    (a.withMaxBodyBytes limit).reply x = .ok (some body) ↔
      ∃ response, a.completed? x = some response ∧ (stream response).produced = body ∧
        (stream response).ended = true ∧ body.length ≤ limit := by
  constructor
  · intro h
    obtain ⟨response, hresponse⟩ := exists_completed (by rw [h]; rfl)
    rw [reply_withMaxBodyBytes hlimit hresponse, verdict_eq_ok_iff] at h
    exact ⟨response, hresponse, Inflation.within_eq_whole_iff.mp h⟩
  · rintro ⟨response, hresponse, hwhole⟩
    rw [reply_withMaxBodyBytes hlimit hresponse, verdict_eq_ok_iff]
    exact Inflation.within_eq_whole_iff.mpr hwhole

/-- **Which responses are too large under a limit:** whatever produces more, even if it fails
later. -/
theorem reply_eq_tooLarge_iff (hlimit : 1 ≤ limit) {origin : Source} {named : Nat} :
    (a.withMaxBodyBytes limit).reply x = .error (.bodyTooLarge origin named) ↔
      x.source = origin ∧ limit = named ∧
        ∃ response, a.completed? x = some response ∧ limit < (stream response).produced.length := by
  constructor
  · intro h
    obtain ⟨response, hresponse⟩ := exists_completed (by rw [h]; rfl)
    rw [reply_withMaxBodyBytes hlimit hresponse, verdict_eq_tooLarge_iff] at h
    obtain ⟨hlong, horigin, hnamed⟩ := h
    exact ⟨horigin, hnamed, response, hresponse, Inflation.within_eq_tooLong_iff.mp hlong⟩
  · rintro ⟨horigin, hnamed, response, hresponse, hlong⟩
    rw [reply_withMaxBodyBytes hlimit hresponse, verdict_eq_tooLarge_iff]
    exact ⟨Inflation.within_eq_tooLong_iff.mpr hlong, horigin, hnamed⟩

/-- **Which responses cannot be decoded under a limit:** those that fail before they pass it. -/
theorem reply_eq_undecodable_iff (hlimit : 1 ≤ limit) {origin : Source} :
    (a.withMaxBodyBytes limit).reply x = .error (.undecodable origin) ↔
      x.source = origin ∧
        ∃ response, a.completed? x = some response ∧ (stream response).ended = false ∧
          (stream response).produced.length ≤ limit := by
  constructor
  · intro h
    obtain ⟨response, hresponse⟩ := exists_completed (by rw [h]; rfl)
    rw [reply_withMaxBodyBytes hlimit hresponse, verdict_eq_undecodable_iff] at h
    exact ⟨h.2, response, hresponse, Inflation.within_eq_broken_iff.mp h.1⟩
  · rintro ⟨horigin, response, hresponse, hbroken⟩
    rw [reply_withMaxBodyBytes hlimit hresponse, verdict_eq_undecodable_iff]
    exact ⟨Inflation.within_eq_broken_iff.mpr hbroken, horigin⟩

end

/-! ## Two limits -/

/-- How many bytes are asked for under a limit: one more, unless that is more than a word holds. -/
def lookahead (limit : Nat) : Nat := min (limit + 1) (UInt64.size - 1)

/-- How the answers to an arrival under two limits compare. -/
structure Transparent (a : Assembler) (x : Arrival) (narrow wide : Nat) : Prop where
  /-- What is delivered under the wide limit is delivered under the narrow one if it fits. -/
  delivered : ∀ body, (a.withMaxBodyBytes wide).reply x = .ok (some body) →
    (a.withMaxBodyBytes narrow).reply x =
      if body.length ≤ narrow then .ok (some body) else .error (.bodyTooLarge x.source narrow)
  /-- What is too large under the wide limit is too large under the narrow one. -/
  tooLarge : ∀ origin named,
    (a.withMaxBodyBytes wide).reply x = .error (.bodyTooLarge origin named) →
      (a.withMaxBodyBytes narrow).reply x = .error (.bodyTooLarge origin narrow)
  /-- What is delivered under the narrow limit is delivered under the wide one. -/
  kept : ∀ body, (a.withMaxBodyBytes narrow).reply x = .ok (some body) →
    (a.withMaxBodyBytes wide).reply x = .ok (some body)
  /-- What cannot be decoded under the narrow limit cannot be decoded under the wide one. -/
  undecodable : ∀ origin, (a.withMaxBodyBytes narrow).reply x = .error (.undecodable origin) →
    (a.withMaxBodyBytes wide).reply x = .error (.undecodable origin)
  /-- No body is longer than the limit. -/
  short : ∀ body, (a.withMaxBodyBytes narrow).reply x = .ok (some body) → body.length ≤ narrow
  /-- A response completes under any limit or under none. -/
  completing : completes ((a.withMaxBodyBytes narrow).reply x) = (a.completed? x).isSome
  /-- Bytes that are not compressed are delivered as they are if they fit. -/
  plain : ∀ response, a.completed? x = some response → x.compressed = false →
    response.bytes.length ≤ narrow →
      (a.withMaxBodyBytes narrow).reply x = .ok (some response.bytes)
  /-- The answer to a compressed response is that of a reader who asks for one byte past the limit.
  -/
  read : ∀ response, a.completed? x = some response → x.compressed = true →
    narrow < UInt64.size - 1 ∨ (inflate response.bytes).produced.length < UInt64.size - 1 →
      (a.withMaxBodyBytes narrow).reply x =
        (verdict x.source narrow
          (.ofRead narrow ((inflate response.bytes).read? (lookahead narrow)))).map some
  /-- Once the front of a compressed response has passed the limit, the rest does not matter. -/
  ahead : ∀ response front rear, a.completed? x = some response → x.compressed = true →
    response.bytes = front ++ rear → narrow < (inflate front).produced.length →
      (a.withMaxBodyBytes narrow).reply x = .error (.bodyTooLarge x.source narrow)
  /-- What follows the end of a compressed response does not matter. -/
  behind : ∀ response front rear, a.completed? x = some response → x.compressed = true →
    response.bytes = front ++ rear → (inflate front).ended = true →
      (a.withMaxBodyBytes narrow).reply x =
        (verdict x.source narrow ((inflate front).within narrow)).map some
  /-- What the assembler holds does not depend on the limit. -/
  held : (a.withMaxBodyBytes narrow).step x = (a.step x).withMaxBodyBytes narrow

theorem lookahead_le (limit : Nat) : lookahead limit ≤ limit + 1 := Nat.min_le_left _ _

theorem lookahead_far {limit length : Nat}
    (h : limit < UInt64.size - 1 ∨ length < UInt64.size - 1) :
    limit < lookahead limit ∨ length < lookahead limit := by
  unfold lookahead
  omega

/-- **The limit of a body shows nowhere else.** -/
theorem limit_transparent (a : Assembler) (x : Arrival) {narrow wide : Nat} (hpos : 1 ≤ narrow)
    (hle : narrow ≤ wide) : Transparent a x narrow wide where
  delivered body h := by
    obtain ⟨response, hresponse, hproduced, hended, -⟩ :=
      (reply_eq_body_iff (Nat.le_trans hpos hle)).mp h
    split
    next hfits =>
      exact (reply_eq_body_iff hpos).mpr ⟨response, hresponse, hproduced, hended, hfits⟩
    next hlong =>
      refine (reply_eq_tooLarge_iff hpos).mpr ⟨rfl, rfl, response, hresponse, ?_⟩
      rw [hproduced]
      exact Nat.lt_of_not_le hlong
  tooLarge origin named h := by
    obtain ⟨horigin, -, response, hresponse, hlong⟩ :=
      (reply_eq_tooLarge_iff (Nat.le_trans hpos hle)).mp h
    exact (reply_eq_tooLarge_iff hpos).mpr
      ⟨horigin, rfl, response, hresponse, Nat.lt_of_le_of_lt hle hlong⟩
  kept body h := by
    obtain ⟨response, hresponse, hproduced, hended, hfits⟩ := (reply_eq_body_iff hpos).mp h
    exact (reply_eq_body_iff (Nat.le_trans hpos hle)).mpr
      ⟨response, hresponse, hproduced, hended, Nat.le_trans hfits hle⟩
  undecodable origin h := by
    obtain ⟨horigin, response, hresponse, hbroken, hshort⟩ := (reply_eq_undecodable_iff hpos).mp h
    exact (reply_eq_undecodable_iff (Nat.le_trans hpos hle)).mpr
      ⟨horigin, response, hresponse, hbroken, Nat.le_trans hshort hle⟩
  short body h := by
    obtain ⟨_, _, _, _, hfits⟩ := (reply_eq_body_iff hpos).mp h
    exact hfits
  completing := by
    cases h : a.completed? x with
    | none => exact reply_of_not_completed ((completed?_withMaxBodyBytes a narrow x).trans h)
    | some response =>
        rw [reply_withMaxBodyBytes hpos h]
        cases (stream response).within narrow <;> rfl
  plain response h hplain hfits := by
    have hstream : stream response = ⟨response.bytes, true⟩ := by
      rw [stream, compressed_of_completed h, hplain, if_neg Bool.false_ne_true]
    refine (reply_eq_body_iff hpos).mpr ⟨response, h, ?_, ?_, hfits⟩
    · rw [hstream]
    · rw [hstream]
  read response h hcompressed hroom := by
    rw [reply_withMaxBodyBytes hpos h, stream_of_compressed h hcompressed,
      within_eq_ofRead _ (lookahead_le narrow) (lookahead_far hroom)]
  ahead response front rear h hcompressed hbytes hlong := by
    refine (reply_eq_tooLarge_iff hpos).mpr ⟨rfl, rfl, response, h, ?_⟩
    rw [stream_of_compressed h hcompressed, hbytes]
    exact Nat.lt_of_lt_of_le hlong (produced_append front rear).length_le
  behind response front rear h hcompressed hbytes hended := by
    rw [reply_withMaxBodyBytes hpos h, stream_of_compressed h hcompressed, hbytes,
      inflate_append_of_ended hended]
  held := step_withMaxBodyBytes a narrow x

/-- A response of two chunks whose stream has three bytes, under limits of two and of three. -/
theorem limit_transparent_halves :
    let stored : List UInt8 :=
      [0x78, 0x01, 0x01, 0x03, 0x00, 0xFC, 0xFF, 97, 98, 99, 0x02, 0x4D, 0x01, 0x27]
    let source : Source := ⟨"radio", "a"⟩
    let a := (new (.clamped 10 2 4)).step ⟨0, source, true, ⟨7, 0, 2, stored.take 8⟩⟩
    let x : Arrival := ⟨1, source, true, ⟨7, 1, 2, stored.drop 8⟩⟩
    ((1 ≤ 2 ∧ 2 ≤ 3) ∧ Transparent a x 2 3) ∧
      (a.withMaxBodyBytes 3).reply x = .ok (some [97, 98, 99]) ∧
      (a.withMaxBodyBytes 2).reply x = .error (.bodyTooLarge source 2) :=
  ⟨⟨⟨by decide, by decide⟩, limit_transparent _ _ (by decide) (by decide)⟩, by decide +kernel⟩

end Assembler

end FleetLink
