import FleetLink.Proofs.Assembler.History

/-!
# How far back a response reaches

`justified_of_completes` gives a stretch of the history for every response that is completed.  Here
the stretch is *computed*: it starts with the arrival that opened the buffer in which the response
was gathered (`Opens`), and everything since belongs to it (`stretch`).  So it can be asked of a
response how far back it reaches.

**A cut of the history** is what such a question is about.  Something happens between two arrivals
that the assembler knows nothing of, and the buffer was opened before it or after it.  If the source
has no buffer at the cut, all of the response arrives after it (`stretch_suffix_of_unopened`).
Otherwise the response begins anew after the cut, or it is the one that was open there, with
everything that it held (`stretch_cut`).

## Main Statements

* `Opens`, `extend`, `stretch` — the end of a history since the buffer of a source was opened
* `stretch_append`, `stretch_cut`, `stretch_suffix_of_unopened` — histories that are cut
* `Holds`, `holds_run` — a buffer holds what its source said in the stretch
* `reply_eq_of_completes`, `body_eq_of_reply` — and a response that is handed out is made of that
-/

namespace FleetLink.Assembler

/-- An arrival opens a buffer: its header is sound, and its source has no buffer that is young
enough and holds the same response. -/
def Opens (a : Assembler) (x : Arrival) : Prop :=
  x.chunk.IsSound ∧
    (a.live? x.now x.source).filter (·.matchesChunk x.chunk x.compressed) = none

instance (a : Assembler) (x : Arrival) : Decidable (a.Opens x) :=
  inferInstanceAs (Decidable (_ ∧ _))

/-- What becomes of a stretch with one more arrival: it begins anew if the arrival opens a buffer of
the source. -/
def extend (a : Assembler) (source : Source) (held : List Arrival) (x : Arrival) : List Arrival :=
  if x.source = source ∧ a.Opens x then [x] else held ++ [x]

/-- The end of a history since the buffer of a source was opened.  The assembler is the one that the
arrivals find, and `held` is the stretch up to there. -/
def stretch (a : Assembler) (source : Source) (held : List Arrival) : List Arrival → List Arrival
  | [] => held
  | x :: later => (a.step x).stretch source (a.extend source held x) later

section

variable {a : Assembler} {source : Source} {later : List Arrival} {x : Arrival}

/-! ## Histories that are cut -/

theorem stretch_append (a : Assembler) (source : Source) (held first second : List Arrival) :
    a.stretch source held (first ++ second) =
      (a.run first).stretch source (a.stretch source held first) second := by
  induction first generalizing a held with
  | nil => rfl
  | cons x first ih => exact ih _ _

theorem stretch_concat (a : Assembler) (source : Source) (held later : List Arrival)
    (x : Arrival) :
    a.stretch source held (later ++ [x]) =
      (a.run later).extend source (a.stretch source held later) x := by
  rw [stretch_append]
  rfl

/-- **A cut.**  The buffer was opened after it, or what is held at the cut belongs to the stretch
with everything since. -/
theorem stretch_cut (a : Assembler) (source : Source) (held later : List Arrival) :
    a.stretch source held later <:+ later ∨ a.stretch source held later = held ++ later := by
  induction later using List.reverseRecOn with
  | nil => exact .inr (List.append_nil held).symm
  | append_singleton later x ih =>
      rw [stretch_concat, extend]
      split
      · exact .inl (List.suffix_append later [x])
      · rcases ih with ⟨older, hafter⟩ | hwhole
        · refine .inl ⟨older, ?_⟩
          rw [← List.append_assoc, hafter]
        · exact .inr (by rw [hwhole, List.append_assoc])

/-- A source without a buffer has one opened by whatever counts for it. -/
theorem opens_of_unopened (hcounts : x.Counts source) (hunopened : a.buffer? source = none) :
    a.Opens x := by
  refine ⟨hcounts.2, ?_⟩
  rw [live?, hcounts.1, hunopened]
  rfl

/-- **Nothing is open at the cut**, so everything that the source said is said after it. -/
theorem stretch_suffix_of_unopened (hdistinct : Distinct a) (hunopened : a.buffer? source = none)
    (held : List Arrival) (hsaid : ∃ x ∈ later, x.Counts source) :
    a.stretch source held later <:+ later := by
  induction later generalizing a held with
  | nil => simp at hsaid
  | cons x later ih =>
      rw [stretch, extend]
      by_cases hcounts : x.Counts source
      -- The first that counts opens the buffer, and nothing before it is left.
      · rw [if_pos ⟨hcounts.1, opens_of_unopened hcounts hunopened⟩]
        rcases stretch_cut (a.step x) source [x] later with hafter | hwhole
        · exact hafter.trans (List.suffix_cons x later)
        · rw [hwhole]
          exact List.suffix_rfl
      · have hstill : (a.step x).buffer? source = none := by
          by_contra hopen
          obtain ⟨b, hb⟩ := Option.ne_none_iff_exists'.mp hopen
          rw [buffer?_of_not_counts hdistinct hcounts hb] at hunopened
          cases hunopened
        have hrest : ∃ y ∈ later, y.Counts source := by
          obtain ⟨y, hy, hycounts⟩ := hsaid
          rcases List.mem_cons.mp hy with rfl | hlater
          · exact absurd hycounts hcounts
          · exact ⟨y, hlater, hycounts⟩
        exact (ih (distinct_step hdistinct x) hstill _ hrest).trans (List.suffix_cons x later)

/-! ## What a stretch is good for -/

/-- A stretch accounts for a buffer: it starts with the arrival that opened it, and the buffer holds
what the source said. -/
def Holds (b : AssemblyBuffer) (source : Source) (stretch : List Arrival) : Prop :=
  ∃ first rest, stretch = first :: rest ∧ first.Counts source ∧
    b = .gathered first.chunk first.compressed first.now (heard source stretch)

/-- What does not count for the source may be added to the stretch. -/
theorem Holds.concat {b : AssemblyBuffer} {stretch : List Arrival} (h : Holds b source stretch)
    (hx : ¬ x.Counts source) : Holds b source (stretch ++ [x]) := by
  obtain ⟨first, rest, rfl, hfirst, hb⟩ := h
  exact ⟨first, rest ++ [x], rfl, hfirst, by rw [hb, heard_concat_of_not_counts hx]⟩

/-- The buffer that a sound arrival belongs into, when the stretch accounts for what its source has:
the one that heard the stretch up to this arrival. -/
theorem target_eq_of_holds {held : List Arrival} (hsound : x.chunk.IsSound)
    (h : ∀ b, a.buffer? x.source = some b → Holds b x.source held) :
    ∃ first before, a.extend x.source held x = before ++ [x] ∧
      (before ++ [x]).head? = some first ∧ first.Counts x.source ∧ first.response = x.response ∧
      a.target x = .gathered x.chunk x.compressed first.now (heard x.source before) := by
  unfold extend
  rcases target_cases a x with ⟨hlive, htarget⟩ | ⟨b, hb, -, hmatch, hlive, htarget⟩
  · exact ⟨x, [], if_pos ⟨rfl, hsound, hlive⟩, rfl, ⟨rfl, hsound⟩, rfl, htarget⟩
  · have hcloses : ¬ (x.source = x.source ∧ a.Opens x) := by
      rintro ⟨-, -, hnone⟩
      rw [hnone] at hlive
      cases hlive
    obtain ⟨first, rest, rfl, hfirst, hholds⟩ := h b hb
    rw [hholds] at hmatch
    have hresponse : first.response = x.response := response_of_matchesChunk hmatch
    refine ⟨first, first :: rest, if_neg hcloses, rfl, hfirst, hresponse, ?_⟩
    rw [htarget, hholds]
    exact gathered_of_response hresponse _ _

/-- **A buffer holds what its source said** since it was opened. -/
theorem holds_run (hdistinct : Distinct a) (hunopened : a.buffer? source = none)
    (held later : List Arrival) :
    ∀ b, (a.run later).buffer? source = some b → Holds b source (a.stretch source held later) := by
  induction later using List.reverseRecOn with
  | nil =>
      intro b hb
      rw [show a.run [] = a from rfl, hunopened] at hb
      cases hb
  | append_singleton later x ih =>
      intro b hb
      have hrun : Distinct (a.run later) := distinct_run hdistinct later
      rw [run_concat] at hb
      rw [stretch_concat]
      by_cases hcounts : x.Counts source
      · obtain ⟨rfl, hsound⟩ := hcounts
        obtain ⟨first, before, hstretch, hhead, hfirst, hresponse, htarget⟩ :=
          target_eq_of_holds hsound ih
        rw [hstretch]
        rcases continued_step hrun hsound htarget with ⟨-, hholds, -⟩ | ⟨-, -, hclosed, -⟩
        · obtain ⟨rest, hsplit⟩ := List.head?_eq_some_iff.mp hhead
          refine ⟨first, rest, hsplit, hfirst, ?_⟩
          rw [heard_concat_of_counts ⟨rfl, hsound⟩, gathered_of_response hresponse]
          exact Option.some.inj (hb.symm.trans hholds)
        · rw [hclosed] at hb
          cases hb
      · have hcloses : ¬ (x.source = source ∧ (a.run later).Opens x) :=
          fun hopens => hcounts ⟨hopens.1, hopens.2.1⟩
        rw [extend, if_neg hcloses]
        exact (ih b (buffer?_of_not_counts hrun hcounts hb)).concat hcounts

/-- **A response that is handed out** is made of what its source said since the buffer was opened,
the last arrival included. -/
theorem reply_eq_of_completes (hdistinct : Distinct a) (hunopened : a.buffer? x.source = none)
    (held later : List Arrival) (h : completes ((a.run later).reply x) = true) :
    x.chunk.IsSound ∧
      (a.run later).reply x = (body a.limits x.source x.compressed (assembled x.chunk.total
        (heard x.source (a.stretch x.source held (later ++ [x]))))).map some := by
  have hsound : x.chunk.IsSound := by
    by_contra hunsound
    rw [(step_of_unsound _ hunsound).2] at h
    cases h
  refine ⟨hsound, ?_⟩
  obtain ⟨first, before, hstretch, -, -, -, htarget⟩ :=
    target_eq_of_holds hsound (holds_run hdistinct hunopened held later)
  rw [stretch_concat, hstretch, heard_concat_of_counts ⟨rfl, hsound⟩]
  rcases continued_step (distinct_run hdistinct later) hsound htarget with
    ⟨-, -, hanswer⟩ | ⟨-, -, -, hanswer⟩
  · rw [hanswer] at h
    cases h
  · rw [hanswer, limits_run]

/-- **The body of a response** is the one that the parts make. -/
theorem body_eq_of_reply (hdistinct : Distinct a) (hunopened : a.buffer? x.source = none)
    (held later : List Arrival) {bytes : List UInt8}
    (h : (a.run later).reply x = .ok (some bytes)) :
    x.chunk.IsSound ∧ body a.limits x.source x.compressed (assembled x.chunk.total
      (heard x.source (a.stretch x.source held (later ++ [x])))) = .ok bytes := by
  have hcompletes : completes ((a.run later).reply x) = true := by
    rw [h]
    rfl
  obtain ⟨hsound, hreply⟩ := reply_eq_of_completes hdistinct hunopened held later hcompletes
  refine ⟨hsound, ?_⟩
  rw [h] at hreply
  generalize body a.limits x.source x.compressed _ = made at hreply ⊢
  cases made with
  | error fault => cases hreply
  | ok whole =>
      cases hreply
      rfl

end

end FleetLink.Assembler
