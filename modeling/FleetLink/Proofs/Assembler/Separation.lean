import FleetLink.Proofs.Assembler.History

/-!
# Sources do not interfere

All sources share one assembler, and every arrival works on all of it.  Still **a source cannot tell
whether there are others**, as long as its buffer never has to make room: it is answered what it
would be answered alone, and has the same buffer after each of its arrivals.

The two assemblers to compare, the shared one and the one that only ever hears of a single source,
do not agree all the time.  What another source sends lets an old buffer go early, and the source on
its own keeps that buffer until it speaks again.  They agree on what is *live*: whatever one of them
has dropped and the other has not is too old for every arrival that is still to come (`Alike`).

## Main Statements

* `Exchange`, `transcript` — what arrives, what it is answered, and the buffer that is left
* `exchange_of_sound`, `reply_of_unsound` — an exchange can be told from the buffer that is live
* `Alike` — two assemblers between which a source cannot tell
* `Alike.exchange_eq`, `Alike.step_of_ne` — arrivals from the source, and from others
* `transcript_filter` — what a source is answered does not depend on the others
-/

namespace FleetLink.Assembler

/-- An arrival, what it is answered, and the open buffer of its source afterwards. -/
structure Exchange where
  arrival : Arrival
  answer : Except AssemblyFault (Option (List UInt8))
  held : Option AssemblyBuffer

/-- The exchange when something arrives. -/
def exchange (a : Assembler) (x : Arrival) : Exchange :=
  ⟨x, a.reply x, (a.step x).buffer? x.source⟩

/-- The exchanges when some things arrive, one after the other. -/
def transcript (a : Assembler) : List Arrival → List Exchange
  | [] => []
  | x :: later => a.exchange x :: (a.step x).transcript later

/-! ## What an exchange depends on -/

section

variable {a : Assembler} {x : Arrival} {source : Source} {now later : Nat}

/-- A chunk with a sound header is answered by what becomes of the buffer that it belongs into. -/
def placed (limits : AssemblyLimits) (target : AssemblyBuffer) (x : Arrival) : Exchange :=
  match target.fill? x.chunk with
  | none => ⟨x, .ok none, some target⟩
  | some filled =>
    if filled.isComplete then
      ⟨x, (body limits x.source filled.compressed filled.bytes).map some, none⟩
    else ⟨x, .ok none, some filled⟩

theorem exchange_of_sound (h : Distinct a) (hsound : x.chunk.IsSound) :
    a.exchange x = placed a.limits (a.target x) x := by
  unfold exchange placed
  cases placement_step h hsound with
  | known taken kept answer => rw [taken, kept, answer]
  | put filled fills incomplete kept answer =>
      rw [fills, kept, answer]
      simp [incomplete]
  | complete filled fills complete closed answer =>
      rw [fills, closed, answer]
      simp [complete]

/-- What is wrong with a header is said without a look at the buffers. -/
theorem reply_of_unsound (a : Assembler) (hunsound : ¬ x.chunk.IsSound) :
    a.reply x = .error (if x.chunk.total = 0 then .emptyResponse x.source
      else .chunkOutOfRange x.source x.chunk.index x.chunk.total) := by
  unfold reply add
  by_cases hzero : x.chunk.total = 0
  · simp [hzero]
  · have hle : x.chunk.total ≤ x.chunk.index := by
      rw [← UInt8.not_lt]
      intro hlt
      exact hunsound ⟨UInt8.pos_iff_ne_zero.mpr hzero, hlt⟩
    simp [hzero, hle]

/-- Looking twice for what is too old finds the same as looking once, later. -/
theorem filter_live? (a : Assembler) (source : Source) (hle : now ≤ later) :
    (a.live? now source).filter (fun b => b.age later < a.limits.timeout) =
      a.live? later source := by
  unfold live?
  rw [Option.filter_filter]
  congr 1
  funext b
  have hage : b.age now ≤ b.age later := Nat.sub_le_sub_right hle b.firstSeen
  rw [Bool.eq_iff_iff, Bool.and_eq_true, decide_eq_true_iff, decide_eq_true_iff]
  exact ⟨And.right, fun hyoung => ⟨Nat.lt_of_le_of_lt hage hyoung, hyoung⟩⟩

/-! ## Two assemblers between which a source cannot tell -/

/-- From some time on, a source finds the same in two assemblers. -/
structure Alike (source : Source) (now : Nat) (a b : Assembler) : Prop where
  limits : a.limits = b.limits
  live : ∀ later, now ≤ later → a.live? later source = b.live? later source

variable {b : Assembler}

/-- The buffer that an arrival belongs into can be told from what is live. -/
theorem Alike.target_eq (h : Alike x.source now a b) (hle : now ≤ x.now) :
    a.target x = b.target x := by
  unfold target
  rw [h.live x.now hle]

/-- **Arrivals from the source** are answered the same, and leave the same buffer. -/
theorem Alike.exchange_eq (h : Alike x.source now a b) (ha : Distinct a) (hb : Distinct b)
    (hle : now ≤ x.now) : a.exchange x = b.exchange x := by
  by_cases hsound : x.chunk.IsSound
  · rw [exchange_of_sound ha hsound, exchange_of_sound hb hsound, h.limits, h.target_eq hle]
  · unfold exchange
    rw [reply_of_unsound a hsound, reply_of_unsound b hsound, (step_of_unsound a hsound).1,
      (step_of_unsound b hsound).1, buffer?_evictExpired ha, buffer?_evictExpired hb,
      h.live x.now hle]

theorem Alike.step (h : Alike x.source now a b) (ha : Distinct a) (hb : Distinct b)
    (hle : now ≤ x.now) : Alike x.source x.now (a.step x) (b.step x) := by
  have hheld : (a.step x).buffer? x.source = (b.step x).buffer? x.source :=
    congrArg Exchange.held (h.exchange_eq ha hb hle)
  have hlimits : (a.step x).limits = (b.step x).limits := by
    rw [limits_step, limits_step, h.limits]
  refine ⟨hlimits, fun later _ => ?_⟩
  unfold live?
  rw [hheld, hlimits]

/-- **Arrivals from other sources** take nothing from the source but what is too old anyway. -/
theorem Alike.step_of_ne (h : Alike source now a b) (ha : Distinct a) (hne : x.source ≠ source)
    (hspared : a.crowdedOut? x ≠ some source) (hle : now ≤ x.now) :
    Alike source x.now (a.step x) b := by
  refine ⟨(limits_step a x).trans h.limits, fun later hlater => ?_⟩
  rw [← h.live later (Nat.le_trans hle hlater), live?, buffer?_step_of_ne ha hne, if_neg hspared,
    limits_step]
  exact filter_live? a source hlater

/-- **Whoever hears of a source alone** has the exchanges with it that the others are left
out of. -/
theorem Alike.transcript_eq (h : Alike source now a b) (ha : Distinct a) (hb : Distinct b)
    {arrivals : List Arrival} (hnow : ∀ x ∈ arrivals, now ≤ x.now)
    (hsorted : arrivals.Pairwise (·.now ≤ ·.now))
    (hspared : ∀ before x after, arrivals = before ++ x :: after →
      (a.run before).crowdedOut? x ≠ some source) :
    (a.transcript arrivals).filter (·.arrival.source = source) =
      b.transcript (arrivals.filter (·.source = source)) := by
  induction arrivals generalizing a b now with
  | nil => rfl
  | cons x arrivals ih =>
      have hle : now ≤ x.now := hnow x List.mem_cons_self
      obtain ⟨hlater, hsorted⟩ := List.pairwise_cons.mp hsorted
      have hrest : ∀ before y after, arrivals = before ++ y :: after →
          ((a.step x).run before).crowdedOut? y ≠ some source := by
        intro before y after hsplit
        exact hspared (x :: before) y after (by rw [hsplit]; rfl)
      by_cases hsource : x.source = source
      · subst hsource
        rw [transcript, List.filter_cons_of_pos (by simp [exchange]),
          List.filter_cons_of_pos (by simp), transcript, h.exchange_eq ha hb hle]
        rw [ih (h.step ha hb hle) (distinct_step ha x) (distinct_step hb x) hlater hsorted hrest]
      · rw [transcript, List.filter_cons_of_neg (by simp [exchange, hsource]),
          List.filter_cons_of_neg (by simp [hsource])]
        have hfirst : a.crowdedOut? x ≠ some source := hspared [] x arrivals rfl
        exact ih (h.step_of_ne ha hsource hfirst hle) (distinct_step ha x) hb hlater hsorted hrest

end

/-- **Sources do not interfere.**  Take any arrivals, in the order of their times, from any sources.
A source whose buffer never makes room for that of another one is answered, arrival by arrival, what
an assembler with the same limits answers that hears of the source alone, and has the same buffer
after each. -/
theorem transcript_filter (limits : AssemblyLimits) (source : Source) {arrivals : List Arrival}
    (hsorted : arrivals.Pairwise (·.now ≤ ·.now))
    (hspared : ∀ before x after, arrivals = before ++ x :: after →
      ((new limits).run before).crowdedOut? x ≠ some source) :
    ((new limits).transcript arrivals).filter (·.arrival.source = source) =
      (new limits).transcript (arrivals.filter (·.source = source)) := by
  have halike : Alike source 0 (new limits) (new limits) := ⟨rfl, fun _ _ => rfl⟩
  have hdistinct := distinct_new limits
  exact halike.transcript_eq hdistinct hdistinct (fun _ _ => Nat.zero_le _) hsorted hspared

/-- A chunk of a response in two parts over radio. -/
private def half (now : Nat) (address : String) (index : UInt8) (body : List UInt8) : Arrival :=
  ⟨now, ⟨"radio", address⟩, false, ⟨7, index, 2, body⟩⟩

/-- What the second source says at 12 lets the first half of the first source go before that source
speaks again, and the response of the first source begins anew at 15. -/
theorem transcript_let_go_early :
    let arrivals := [half 0 "a" 0 [1], half 5 "b" 0 [2], half 12 "b" 1 [3], half 15 "a" 1 [4],
      half 16 "a" 0 [5]]
    arrivals.Pairwise (·.now ≤ ·.now) ∧
      (∀ before x after, arrivals = before ++ x :: after →
        ((new (.clamped 10 2 4)).run before).crowdedOut? x ≠ some ⟨"radio", "a"⟩) ∧
      ((new (.clamped 10 2 4)).transcript arrivals).filter
          (·.arrival.source = ⟨"radio", "a"⟩) =
        (new (.clamped 10 2 4)).transcript
          [half 0 "a" 0 [1], half 15 "a" 1 [4], half 16 "a" 0 [5]] := by
  intro arrivals
  have hsorted : arrivals.Pairwise (·.now ≤ ·.now) := by decide
  have hspared : ∀ before x after, arrivals = before ++ x :: after →
      ((new (.clamped 10 2 4)).run before).crowdedOut? x ≠ some ⟨"radio", "a"⟩ :=
    at_cut_of_at_index (by decide)
  exact ⟨hsorted, hspared, transcript_filter _ _ hsorted hspared⟩

end FleetLink.Assembler
