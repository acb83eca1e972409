import FleetLink.Proofs.Assembler.Step
import Mathlib.Data.List.Induction

/-!
# Every body has a history

An assembler that hands out a body has heard all of it.  This module says which arrivals the body is
made of: **a stretch of the history that ends with the arrival that completes the response**, in
which the source spoke of one response only, completed none, and did not take longer than the
timeout.  The bytes are then a function of what the source said in that stretch, and of nothing
else.

**Where the stretch starts** is written nowhere: the source may have begun anew, its buffer may have
become too old or have made room, and the last response may have been completed.  The invariant is
therefore about open buffers.  Each is the one gathered from the end of the history that starts when
it was opened (`Explained`), and whatever closes a buffer leaves nothing to explain.

## Main Statements

* `heard` — what a source said, as far as its headers are sound
* `Explained`, `explained_run` — every open buffer is what its source said since it was opened
* `run_filter` — chunks without a sound header have no influence
* `Justified`, `justified_of_completes` — the arrivals that a completed response is made of
-/

namespace FleetLink

/-- An arrival counts for a source: it is from there, and its header is sound. -/
def Arrival.Counts (x : Arrival) (source : Source) : Prop := x.source = source ∧ x.chunk.IsSound

instance (x : Arrival) (source : Source) : Decidable (x.Counts source) :=
  inferInstanceAs (Decidable (x.source = source ∧ x.chunk.IsSound))

/-- Which response an arrival is part of: the sequence number, the count and the compression. -/
def Arrival.response (x : Arrival) : UInt8 × UInt8 × Bool :=
  (x.chunk.sequence, x.chunk.total, x.compressed)

/-- The chunks that a source said. -/
def heard (source : Source) (arrivals : List Arrival) : List Chunk :=
  (arrivals.filter fun x => x.Counts source).map (·.chunk)

@[simp] theorem heard_nil (source : Source) : heard source [] = [] := rfl

theorem mem_heard {source : Source} {arrivals : List Arrival} {c : Chunk} :
    c ∈ heard source arrivals ↔ ∃ x ∈ arrivals, x.Counts source ∧ x.chunk = c := by
  simp [heard, and_assoc]

theorem heard_append (source : Source) (first second : List Arrival) :
    heard source (first ++ second) = heard source first ++ heard source second := by
  rw [heard, List.filter_append, List.map_append]
  rfl

theorem heard_concat_of_counts {source : Source} {x : Arrival} (h : x.Counts source)
    (arrivals : List Arrival) :
    heard source (arrivals ++ [x]) = heard source arrivals ++ [x.chunk] := by
  rw [heard_append]
  simp [heard, h]

theorem heard_concat_of_not_counts {source : Source} {x : Arrival} (h : ¬ x.Counts source)
    (arrivals : List Arrival) : heard source (arrivals ++ [x]) = heard source arrivals := by
  rw [heard_append]
  simp [heard, h]

namespace Assembler

/-- No arrival of a stretch completed a response of the source. -/
def Silent (limits : AssemblyLimits) (source : Source) (older stretch : List Arrival) : Prop :=
  ∀ before y after, stretch = before ++ y :: after → y.source = source →
    completes (((new limits).run (older ++ before)).reply y) = false

theorem silent_nil (limits : AssemblyLimits) (source : Source) (older : List Arrival) :
    Silent limits source older [] := by
  intro before y after h
  simp at h

theorem Silent.concat {limits : AssemblyLimits} {source : Source} {older stretch : List Arrival}
    {x : Arrival} (h : Silent limits source older stretch)
    (hx : x.source = source → completes (((new limits).run (older ++ stretch)).reply x) = false) :
    Silent limits source older (stretch ++ [x]) := by
  intro before y after hsplit hsource
  -- The arrival is the last one, or one of those before it.
  cases after using List.reverseRecOn with
  | nil =>
      obtain ⟨hstretch, hlast⟩ := List.append_inj' hsplit rfl
      obtain rfl : x = y := by simpa using hlast
      rw [← hstretch]
      exact hx hsource
  | append_singleton after last =>
      have hinit : stretch = before ++ y :: after := by
        rw [← List.cons_append, ← List.append_assoc] at hsplit
        exact (List.append_inj' hsplit rfl).1
      exact h before y after hinit hsource

/-- The stretch `first :: rest` of a history explains a buffer: the source opened it with `first`,
spoke of that response alone, completed none, and the buffer holds what it said. -/
structure Explains (limits : AssemblyLimits) (source : Source) (b : AssemblyBuffer)
    (older : List Arrival) (first : Arrival) (rest : List Arrival) : Prop where
  opens : first.Counts source
  uniform : ∀ y ∈ first :: rest, y.Counts source → y.response = first.response
  silent : Silent limits source older (first :: rest)
  holds : b = .gathered first.chunk first.compressed first.now (heard source (first :: rest))

/-- The end of the history explains a buffer. -/
def Explained (limits : AssemblyLimits) (arrivals : List Arrival) (source : Source)
    (b : AssemblyBuffer) : Prop :=
  ∃ older first rest, arrivals = older ++ first :: rest ∧
    Explains limits source b older first rest

section

variable {limits : AssemblyLimits} {arrivals : List Arrival} {source : Source} {b : AssemblyBuffer}
  {x : Arrival}

/-- An arrival that does not count for the source leaves its buffer explained. -/
theorem Explained.concat_of_not_counts (h : Explained limits arrivals source b)
    (hx : ¬ x.Counts source) : Explained limits (arrivals ++ [x]) source b := by
  obtain ⟨older, first, rest, rfl, hopens, huniform, hsilent, hholds⟩ := h
  refine ⟨older, first, rest ++ [x], by simp, hopens, ?_, ?_, ?_⟩
  · intro y hy hcounts
    rw [← List.cons_append, List.mem_append, List.mem_singleton] at hy
    rcases hy with hy | rfl
    · exact huniform y hy hcounts
    · exact absurd hcounts hx
  · rw [← List.cons_append]
    refine hsilent.concat fun hsource => ?_
    exact (step_of_unsound _ fun hsound => hx ⟨hsource, hsound⟩).2
  · rw [← List.cons_append, heard_concat_of_not_counts hx]
    exact hholds

/-- What does not count for a source opens no buffer of it: what the source has was there before. -/
theorem buffer?_of_not_counts {a : Assembler} (hdistinct : Distinct a) (hx : ¬ x.Counts source)
    (hb : (a.step x).buffer? source = some b) : a.buffer? source = some b := by
  by_cases hsource : x.source = source
  · have hunsound : ¬ x.chunk.IsSound := fun hsound => hx ⟨hsource, hsound⟩
    rw [(step_of_unsound a hunsound).1, buffer?_evictExpired hdistinct] at hb
    exact (Option.filter_eq_some_iff.mp hb).1
  · rw [buffer?_step_of_ne hdistinct hsource] at hb
    exact (Option.filter_eq_some_iff.mp (Option.ite_none_left_eq_some.mp hb).2).1

/-- The stretch of a history that leads up to an arrival with a sound header: the source spoke of
the same response, completed none, and started less than the timeout ago. -/
structure Leads (limits : AssemblyLimits) (older stretch : List Arrival) (x : Arrival) : Prop where
  opens : ∀ first ∈ stretch.head?, first.Counts x.source ∧ x.now - first.now < limits.timeout
  uniform : ∀ y ∈ stretch, y.Counts x.source → y.response = x.response
  silent : Silent limits x.source older stretch

/-- When the stretch that leads up to an arrival started, and with it the buffer. -/
def since (stretch : List Arrival) (x : Arrival) : Nat := (stretch.head?.getD x).now

theorem leads_nil (limits : AssemblyLimits) (older : List Arrival) (x : Arrival) :
    Leads limits older [] x where
  opens := by simp
  uniform := by simp
  silent := silent_nil limits x.source older

theorem gathered_of_response {x y : Arrival} (h : x.response = y.response) (firstSeen : Nat)
    (chunks : List Chunk) :
    AssemblyBuffer.gathered x.chunk x.compressed firstSeen chunks =
      .gathered y.chunk y.compressed firstSeen chunks := by
  simp only [Arrival.response, Prod.mk.injEq] at h
  obtain ⟨hsequence, htotal, hcompressed⟩ := h
  simp only [AssemblyBuffer.gathered, hsequence, htotal, hcompressed]

theorem response_of_matchesChunk {first : Arrival} {chunks : List Chunk}
    (h : (AssemblyBuffer.gathered first.chunk first.compressed first.now chunks).matchesChunk
      x.chunk x.compressed = true) : first.response = x.response := by
  simp only [AssemblyBuffer.matchesChunk, AssemblyBuffer.gathered, AssemblyBuffer.length_places,
    Bool.and_eq_true, decide_eq_true_iff] at h
  obtain ⟨⟨hsequence, htotal⟩, hcompressed⟩ := h
  rw [Arrival.response, Arrival.response, of_decide_eq_true hsequence, UInt8.toNat_inj.mp htotal,
    of_decide_eq_true hcompressed]

/-- **The buffer that an arrival belongs into** is what its source said in the stretch that leads up
to it. -/
theorem leads_of_explained
    (h : ∀ b, ((new limits).run arrivals).buffer? x.source = some b →
      Explained limits arrivals x.source b) :
    ∃ older stretch, arrivals = older ++ stretch ∧ Leads limits older stretch x ∧
      ((new limits).run arrivals).target x =
        .gathered x.chunk x.compressed (since stretch x) (heard x.source stretch) := by
  rcases target_cases ((new limits).run arrivals) x with
    ⟨-, htarget⟩ | ⟨b, hb, hage, hmatch, -, htarget⟩
  -- The source begins anew, and the stretch is empty.
  · exact ⟨arrivals, [], by simp, leads_nil limits arrivals x, htarget⟩
  · obtain ⟨older, first, rest, harrivals, hopens, huniform, hsilent, hholds⟩ := h b hb
    rw [hholds] at hmatch
    have hresponse : first.response = x.response := response_of_matchesChunk hmatch
    rw [limits_run] at hage
    refine ⟨older, first :: rest, harrivals, ⟨?_, ?_, hsilent⟩, ?_⟩
    · intro y hy
      obtain rfl : first = y := by simpa using hy
      rw [hholds] at hage
      exact ⟨hopens, hage⟩
    · intro y hy hcounts
      exact (huniform y hy hcounts).trans hresponse
    · rw [htarget, hholds]
      exact gathered_of_response hresponse _ _

/-- The stretch that leads up to an arrival, with the arrival, explains the buffer that heard both.
-/
theorem Leads.explained {older stretch : List Arrival} (h : Leads limits older stretch x)
    (hsound : x.chunk.IsSound)
    (hsilent : completes (((new limits).run (older ++ stretch)).reply x) = false) :
    Explained limits (older ++ stretch ++ [x]) x.source
      (.gathered x.chunk x.compressed (since stretch x) (heard x.source stretch ++ [x.chunk])) := by
  have hcounts : x.Counts x.source := ⟨rfl, hsound⟩
  have hopened := h.silent.concat fun _ => hsilent
  cases stretch with
  | nil =>
      refine ⟨older, x, [], by simp, hcounts, by simp, hopened, ?_⟩
      rw [← heard_concat_of_counts hcounts]
      rfl
  | cons first rest =>
      have hresponse : first.response = x.response :=
        h.uniform first List.mem_cons_self (h.opens first rfl).1
      refine ⟨older, first, rest ++ [x], by simp, (h.opens first rfl).1, ?_, hopened, ?_⟩
      · intro y hy hcounts'
        rw [← List.cons_append, List.mem_append, List.mem_singleton] at hy
        rcases hy with hy | rfl
        · exact (h.uniform y hy hcounts').trans hresponse.symm
        · exact hresponse.symm
      · rw [← List.cons_append, heard_concat_of_counts hcounts]
        exact (gathered_of_response hresponse _ _).symm

/-- **Every open buffer** is what its source said since it was opened. -/
theorem explained_run (limits : AssemblyLimits) (arrivals : List Arrival) :
    ∀ source b, ((new limits).run arrivals).buffer? source = some b →
      Explained limits arrivals source b := by
  -- The history grows at its end, so that what explained a buffer still does.
  induction arrivals using List.reverseRecOn with
  | nil =>
      intro source b hb
      cases hb
  | append_singleton arrivals x ih =>
      intro source b hb
      rw [run_concat] at hb
      have hdistinct : Distinct ((new limits).run arrivals) :=
        distinct_run (distinct_new limits) arrivals
      by_cases hcounts : x.Counts source
      · obtain ⟨rfl, hsound⟩ := hcounts
        obtain ⟨older, stretch, rfl, hleads, htarget⟩ := leads_of_explained (ih x.source)
        rcases continued_step hdistinct hsound htarget with
          ⟨-, hholds, hanswer⟩ | ⟨-, -, hclosed, -⟩
        · rw [hholds, Option.some.injEq] at hb
          rw [← hb]
          exact hleads.explained hsound (by rw [hanswer]; rfl)
        · rw [hclosed] at hb
          cases hb
      -- The arrival is another source's, or says nothing.
      · have hbefore := buffer?_of_not_counts hdistinct hcounts hb
        exact (ih source b hbefore).concat_of_not_counts hcounts

/-! ## Chunks without a sound header -/

/-- Buffers that go now would go with a later arrival anyway. -/
theorem evictExpired_evictExpired (a : Assembler) {sooner later : Nat} (h : sooner ≤ later) :
    (a.evictExpired sooner).evictExpired later = a.evictExpired later := by
  simp only [evictExpired, List.filter_filter, mk.injEq, true_and]
  refine List.filter_congr fun e _ => ?_
  have hage : e.2.age later < a.limits.timeout → e.2.age sooner < a.limits.timeout := by
    unfold AssemblyBuffer.age
    omega
  show (decide (e.2.age later < a.limits.timeout) && decide (e.2.age sooner < a.limits.timeout)) =
    decide (e.2.age later < a.limits.timeout)
  rw [Bool.eq_iff_iff, Bool.and_eq_true, decide_eq_true_iff, decide_eq_true_iff]
  exact and_iff_left_of_imp hage

/-- An arrival sees of the assembler what is not too old. -/
theorem add_evictExpired (a : Assembler) {sooner : Nat} (h : sooner ≤ x.now) :
    (a.evictExpired sooner).add x.now x.source x.compressed x.chunk =
      a.add x.now x.source x.compressed x.chunk := by
  simp only [add, evictExpired_evictExpired a h]

theorem run_evictExpired (a : Assembler) {sooner : Nat} {y : Arrival} (ys : List Arrival)
    (h : ∀ z ∈ ys ++ [y], sooner ≤ z.now) :
    ((a.evictExpired sooner).run ys).add y.now y.source y.compressed y.chunk =
      (a.run ys).add y.now y.source y.compressed y.chunk := by
  cases ys with
  | nil => exact add_evictExpired a (h y (by simp))
  | cons z zs =>
      have hstep : (a.evictExpired sooner).step z = a.step z := by
        unfold step
        rw [add_evictExpired a (h z (by simp))]
      show (((a.evictExpired sooner).step z).run zs).add _ _ _ _ = _
      rw [hstep]
      rfl

/-- **Chunks without a sound header have no influence**: any of them can be left out of a history,
and the next arrival is answered the same, and leaves the same assembler. -/
theorem run_filter (a : Assembler) (keep : Arrival → Bool) (ys : List Arrival) (y : Arrival)
    (hkeep : ∀ z ∈ ys, keep z = false → ¬ z.chunk.IsSound)
    (hsorted : (ys ++ [y]).Pairwise (·.now ≤ ·.now)) :
    (a.run (ys.filter keep)).add y.now y.source y.compressed y.chunk =
      (a.run ys).add y.now y.source y.compressed y.chunk := by
  induction ys generalizing a with
  | nil => rfl
  | cons z zs ih =>
      rw [List.cons_append, List.pairwise_cons] at hsorted
      obtain ⟨hz, hsorted⟩ := hsorted
      have hrest := fun a => ih a (fun w hw => hkeep w (List.mem_cons_of_mem _ hw)) hsorted
      cases hkept : keep z with
      | true =>
          rw [List.filter_cons_of_pos hkept]
          exact hrest (a.step z)
      | false =>
          rw [List.filter_cons_of_neg (by simp [hkept])]
          show _ = ((a.step z).run zs).add _ _ _ _
          rw [(step_of_unsound a (hkeep z List.mem_cons_self hkept)).1, run_evictExpired a zs hz]
          exact hrest a

/-! ## Completed responses -/

/-- The arrivals of a stretch, with the one that follows, justify that a response is completed: what
the response is, which arrivals it is made of, and what is handed out. -/
structure Justified (limits : AssemblyLimits) (older stretch : List Arrival) (x : Arrival) :
    Prop where
  /-- The stretch starts with a chunk of the source, less than the timeout ago. -/
  opens : ∀ first ∈ stretch.head?, first.Counts x.source ∧ x.now - first.now < limits.timeout
  /-- The source spoke of one response only. -/
  uniform : ∀ y ∈ stretch, y.Counts x.source → y.response = x.response
  /-- It completed none before. -/
  silent : Silent limits x.source older stretch
  sound : x.chunk.IsSound
  /-- All of the response was said, and no more was missing than the last chunk. -/
  covers : Covers x.chunk.total (heard x.source (stretch ++ [x]))
  last : ∀ c ∈ heard x.source stretch, c.index ≠ x.chunk.index
  /-- What counts for an index is what was said first, and the parts are put in their order. -/
  answer : ((new limits).run (older ++ stretch)).reply x =
    (body limits x.source x.compressed
      (assembled x.chunk.total (heard x.source (stretch ++ [x])))).map some
  /-- Chunks of the source without a sound header might as well not have arrived. -/
  others : ∀ keep : Arrival → Bool,
    (∀ y ∈ stretch, keep y = false → y.source = x.source ∧ ¬ y.chunk.IsSound) →
    ((new limits).run (older ++ stretch.filter keep)).add x.now x.source x.compressed x.chunk =
      ((new limits).run (older ++ stretch)).add x.now x.source x.compressed x.chunk

/-- **Every completed response is justified by its history**, which ends with a stretch that leads
up to the arrival that completes the response. -/
theorem justified_of_completes (limits : AssemblyLimits) (before : List Arrival) (x : Arrival)
    (hsorted : (before ++ [x]).Pairwise (·.now ≤ ·.now))
    (h : completes (((new limits).run before).reply x) = true) :
    ∃ older stretch, before = older ++ stretch ∧ Justified limits older stretch x := by
  have hdistinct : Distinct ((new limits).run before) := distinct_run (distinct_new limits) before
  have hsound : x.chunk.IsSound := by
    by_contra hunsound
    rw [(step_of_unsound _ hunsound).2] at h
    cases h
  obtain ⟨older, stretch, rfl, hleads, htarget⟩ :=
    leads_of_explained (explained_run limits before x.source)
  have hcounts : x.Counts x.source := ⟨rfl, hsound⟩
  have hheard := heard_concat_of_counts hcounts stretch
  rcases continued_step hdistinct hsound htarget with
    ⟨-, -, hanswer⟩ | ⟨hnew, hcovers, -, hanswer⟩
  · rw [hanswer] at h
    cases h
  · rw [← hheard] at hcovers
    rw [limits_run, ← hheard] at hanswer
    refine ⟨older, stretch, rfl, hleads.opens, hleads.uniform, hleads.silent, hsound, hcovers, hnew,
      hanswer, ?_⟩
    intro keep hkeep
    rw [run_append, run_append]
    refine run_filter _ keep stretch x (fun y hy hleft => (hkeep y hy hleft).2) ?_
    rw [List.append_assoc] at hsorted
    exact (List.pairwise_append.mp hsorted).2.1

/-- A chunk of response 7 over radio; the witness below is made of such. -/
private def spoken (now : Nat) (address : String) (index total : UInt8) (body : List UInt8) :
    Arrival :=
  ⟨now, ⟨"radio", address⟩, false, ⟨7, index, total, body⟩⟩

/-- A response completed out of order, with a repetition that says something else, a chunk of
another source and one with a header that makes no sense in between, after a response that was given
up. -/
theorem justified_out_of_order :
    let before := [spoken 0 "a" 0 3 [9], spoken 10 "a" 1 2 [3, 4], spoken 11 "b" 0 2 [8],
      spoken 12 "a" 1 2 [5], spoken 13 "a" 2 2 [6]]
    let x := spoken 19 "a" 0 2 [1, 2]
    (before ++ [x]).Pairwise (·.now ≤ ·.now) ∧
      completes (((new (.clamped 10 2 4)).run before).reply x) = true ∧
      ∃ older stretch, before = older ++ stretch ∧ Justified (.clamped 10 2 4) older stretch x := by
  intro before x
  have hsorted : (before ++ [x]).Pairwise (·.now ≤ ·.now) := by decide
  have hcompletes : completes (((new (.clamped 10 2 4)).run before).reply x) = true := by decide
  exact ⟨hsorted, hcompletes, justified_of_completes _ before x hsorted hcompletes⟩

end

end Assembler

end FleetLink
