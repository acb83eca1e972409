import FleetLink.Proofs.Assembler.History

/-!
# A response that arrives undisturbed

`Assembler.justified_of_completes` says what a completed response is made of.  Here is the converse:
**when nothing gets in the way, a response is completed**, by the chunk that was missing and by none
before, and what is handed out is what the source said.

What can get in the way is listed in `Undisturbed`: the source speaks of another response, it takes
as long as the timeout, or its buffer makes room for that of another source.  Nothing else can.  In
particular it does not matter what the other sources send, in which order the chunks come, how often
they come, and what arrives without a sound header.

## Main Statements

* `Undisturbed` — nothing gets in the way of a response
* `Gathers`, `Undisturbed.gathers` — the buffer holds what its source said so far
* `Undisturbed.silent` — no chunk before the last completes the response
* `Undisturbed.reply_eq` — the last one does
-/

namespace FleetLink.Assembler

/-- Nothing gets in the way of the response that an arrival is part of, and this arrival is the
first with its index. -/
structure Undisturbed (a : Assembler) (arrivals : List Arrival) (x : Arrival) : Prop where
  /-- The source speaks of one response only. -/
  uniform : ∀ y ∈ arrivals, y.Counts x.source → y.response = x.response
  /-- It does not take as long as the timeout. -/
  prompt : ∀ y ∈ arrivals, y.now ≤ x.now ∧ (y.Counts x.source → x.now - y.now < a.limits.timeout)
  /-- Its buffer does not make room. -/
  uncrowded : ∀ before y after, arrivals = before ++ y :: after →
    (a.run before).crowdedOut? y ≠ some x.source
  missing : ∀ c ∈ heard x.source arrivals, c.index ≠ x.chunk.index

/-- The source of an arrival has the buffer that holds what it said so far; none if that is nothing.
-/
inductive Gathers (a : Assembler) (arrivals : List Arrival) (x : Arrival) : Prop where
  | unopened (silence : heard x.source arrivals = [])
      (none_open : (a.run arrivals).buffer? x.source = none)
  | opened (firstSeen : Nat) (recent : x.now - firstSeen < a.limits.timeout)
      (holds : (a.run arrivals).buffer? x.source =
        some (.gathered x.chunk x.compressed firstSeen (heard x.source arrivals)))

section

variable {a : Assembler} {arrivals : List Arrival} {x y : Arrival}

theorem Undisturbed.of_append {later : List Arrival} (h : Undisturbed a (arrivals ++ later) x) :
    Undisturbed a arrivals x where
  uniform := fun y hy => h.uniform y (List.mem_append_left _ hy)
  prompt := fun y hy => h.prompt y (List.mem_append_left _ hy)
  uncrowded := by
    intro before y after hsplit
    exact h.uncrowded before y (after ++ later) (by rw [hsplit]; simp)
  missing := by
    intro c hc
    refine h.missing c ?_
    rw [heard_append]
    exact List.mem_append_left _ hc

/-- The buffer that a chunk of the response belongs into. -/
theorem Gathers.target_eq (h : Gathers a arrivals x) (hsource : y.source = x.source)
    (hresponse : y.response = x.response) (hnow : y.now ≤ x.now) :
    ∃ firstSeen, (firstSeen = y.now ∨ x.now - firstSeen < a.limits.timeout) ∧
      (a.run arrivals).target y =
        .gathered y.chunk y.compressed firstSeen (heard x.source arrivals) := by
  unfold target live?
  rw [hsource, limits_run]
  cases h with
  | unopened silence none_open =>
      refine ⟨y.now, .inl rfl, ?_⟩
      rw [none_open, silence]
      exact AssemblyBuffer.opened_eq_gathered _ _ _
  | opened firstSeen recent holds =>
      refine ⟨firstSeen, .inr recent, ?_⟩
      have hage : y.now - firstSeen < a.limits.timeout := by omega
      rw [holds, ← gathered_of_response hresponse]
      simp [Option.filter_some, AssemblyBuffer.matchesChunk, AssemblyBuffer.gathered,
        AssemblyBuffer.age, hage]

/-- What does not count for the source leaves its buffer as it is. -/
theorem Gathers.concat_of_not_counts (h : Gathers a arrivals x) (hdistinct : Distinct a)
    (hy : ¬ y.Counts x.source) (hnow : y.now ≤ x.now)
    (huncrowded : (a.run arrivals).crowdedOut? y ≠ some x.source) :
    Gathers a (arrivals ++ [y]) x := by
  have hrun : Distinct (a.run arrivals) := distinct_run hdistinct arrivals
  -- In both cases the buffer can only have become too old, and it is not.
  have hbuffer : (a.run (arrivals ++ [y])).buffer? x.source =
      (a.run arrivals).live? y.now x.source := by
    rw [run_concat]
    by_cases hsource : y.source = x.source
    · have hunsound : ¬ y.chunk.IsSound := fun hsound => hy ⟨hsource, hsound⟩
      rw [(step_of_unsound _ hunsound).1, buffer?_evictExpired hrun]
    · rw [buffer?_step_of_ne hrun hsource, if_neg huncrowded]
  rw [live?, limits_run] at hbuffer
  have hheard := heard_concat_of_not_counts hy arrivals
  cases h with
  | unopened silence none_open =>
      refine .unopened (by rw [hheard, silence]) ?_
      rw [hbuffer, none_open]
      rfl
  | opened firstSeen recent holds =>
      refine .opened firstSeen recent ?_
      have hage : y.now - firstSeen < a.limits.timeout := by omega
      rw [hbuffer, holds, hheard]
      exact Option.filter_some_pos (decide_eq_true hage)

/-- A chunk of the response that is not the last one missing is kept, and completes nothing. -/
theorem Gathers.concat_of_counts (h : Gathers a arrivals x) (hdistinct : Distinct a)
    (hy : y.Counts x.source) (hx : x.chunk.IsSound) (hresponse : y.response = x.response)
    (hnow : y.now ≤ x.now) (hrecent : x.now - y.now < a.limits.timeout)
    (hmissing : ∀ c ∈ heard x.source (arrivals ++ [y]), c.index ≠ x.chunk.index) :
    Gathers a (arrivals ++ [y]) x ∧ completes ((a.run arrivals).reply y) = false := by
  obtain ⟨firstSeen, hopened, htarget⟩ := h.target_eq hy.1 hresponse hnow
  have hfirst : x.now - firstSeen < a.limits.timeout := by
    rcases hopened with rfl | hopened
    · exact hrecent
    · exact hopened
  have hheard := heard_concat_of_counts hy arrivals
  have htotal : y.chunk.total = x.chunk.total := by
    simp only [Arrival.response, Prod.mk.injEq] at hresponse
    exact hresponse.2.1
  rcases continued_step (distinct_run hdistinct arrivals) hy.2 htarget with
    ⟨-, hholds, hanswer⟩ | ⟨-, hcovers, -, -⟩
  · refine ⟨.opened firstSeen hfirst ?_, by rw [hanswer]; rfl⟩
    rw [run_concat, ← gathered_of_response hresponse, hheard, ← hy.1]
    exact hy.1 ▸ hholds
  -- Every index was heard, the one that is still missing included.
  · rw [htotal, ← hheard] at hcovers
    obtain ⟨c, hc, hindex⟩ := hcovers x.chunk.index.toNat hx.toNat_lt
    exact absurd (UInt8.toNat_inj.mp hindex) (hmissing c hc)

/-- One more arrival: the buffer holds what was said, and the response is not complete. -/
theorem Undisturbed.concat (h : Undisturbed a (arrivals ++ [y]) x) (hx : x.chunk.IsSound)
    (hdistinct : Distinct a) (hgathers : Gathers a arrivals x) :
    Gathers a (arrivals ++ [y]) x ∧
      (y.source = x.source → completes ((a.run arrivals).reply y) = false) := by
  have hmem : y ∈ arrivals ++ [y] := by simp
  obtain ⟨hnow, hrecent⟩ := h.prompt y hmem
  by_cases hy : y.Counts x.source
  · obtain ⟨hconcat, hsilent⟩ := hgathers.concat_of_counts hdistinct hy hx (h.uniform y hmem hy)
      hnow (hrecent hy) h.missing
    exact ⟨hconcat, fun _ => hsilent⟩
  · refine ⟨hgathers.concat_of_not_counts hdistinct hy hnow (h.uncrowded arrivals y [] rfl), ?_⟩
    intro hsource
    exact (step_of_unsound _ fun hsound => hy ⟨hsource, hsound⟩).2

/-- **The buffer of a source holds what it said,** as long as nothing gets in the way. -/
theorem Undisturbed.gathers (h : Undisturbed a arrivals x) (hx : x.chunk.IsSound)
    (hdistinct : Distinct a) (hunopened : a.buffer? x.source = none) : Gathers a arrivals x := by
  induction arrivals using List.reverseRecOn with
  | nil => exact .unopened rfl hunopened
  | append_singleton arrivals y ih => exact (h.concat hx hdistinct (ih h.of_append)).1

/-- **No chunk before the last** completes the response. -/
theorem Undisturbed.silent {before after : List Arrival}
    (h : Undisturbed a (before ++ y :: after) x) (hx : x.chunk.IsSound) (hdistinct : Distinct a)
    (hunopened : a.buffer? x.source = none) (hsource : y.source = x.source) :
    completes ((a.run before).reply y) = false := by
  have hsplit : before ++ y :: after = before ++ [y] ++ after := by simp
  have huntil : Undisturbed a (before ++ [y]) x := (hsplit ▸ h).of_append
  exact (huntil.concat hx hdistinct (huntil.of_append.gathers hx hdistinct hunopened)).2 hsource

/-- **The last chunk completes the response**: it is answered with what the source said, index by
index, and the source has no buffer any more. -/
theorem Undisturbed.reply_eq (h : Undisturbed a arrivals x) (hx : x.chunk.IsSound)
    (hdistinct : Distinct a) (hunopened : a.buffer? x.source = none)
    (hcovers : Covers x.chunk.total (heard x.source (arrivals ++ [x]))) :
    (a.run arrivals).reply x = (body a.limits x.source x.compressed
        (assembled x.chunk.total (heard x.source (arrivals ++ [x])))).map some ∧
      (a.run (arrivals ++ [x])).buffer? x.source = none := by
  have hcounts : x.Counts x.source := ⟨rfl, hx⟩
  have hheard := heard_concat_of_counts hcounts arrivals
  obtain ⟨firstSeen, -, htarget⟩ :=
    (h.gathers hx hdistinct hunopened).target_eq rfl rfl (Nat.le_refl x.now)
  rw [run_concat]
  rcases continued_step (distinct_run hdistinct arrivals) hx htarget with
    ⟨hunfinished, -, -⟩ | ⟨-, -, hclosed, hanswer⟩
  · rcases hunfinished with ⟨c, hc, hindex⟩ | hmissing
    · exact absurd hindex (h.missing c hc)
    · exact absurd (hheard ▸ hcovers) hmissing
  · rw [limits_run, ← hheard] at hanswer
    exact ⟨hanswer, hclosed⟩

end

end FleetLink.Assembler
