import FleetLink.Text.Scanner

/-!
# What scanners take

What a scanner does at the front of a text is one of three things: it takes something and leaves the
rest (`Takes`), it fails in a way that lets another scanner try (`Fails`), or its failure is final.
Every combinator has a lemma for what it makes of the first two, so a grammar that is written in a
`do` block is followed line by line.

**A repetition ends where a round takes nothing,** and goes by what the round itself says about
that.  So `Takes` also says that the mark on the rest is right, and all combinators keep it so.
What is taken round by round is a list (`TakesAll`), by induction over which the rounds are run.

## Main Definitions

* `Takes`, `Fails` — what a scanner does at the front of a text
* `TakesAll` — what it does there again and again

## Main Statements

* `Takes.bind`, `Takes.bind_fails` — one scanner after another
* `TakesAll.many`, `Takes.separated` — repetition
* `run_of_takes` — whole texts
-/

namespace FleetLink.Text.Scanner

variable {α β : Type} {p : Scanner α} {q : α → Scanner β} {s mid rest : List Char} {a a' : α}
  {b : β}

/-- A scanner takes something off the front of a text and leaves the rest.  It tells rightly whether
it took anything. -/
def Takes (p : Scanner α) (s : List Char) (a : α) (rest : List Char) : Prop :=
  ∃ r, p s = .ok (a, r) ∧ r.text = rest ∧ r.taken = decide (rest.length < s.length)

/-- A scanner fails, and another way may be tried. -/
def Fails (p : Scanner α) (s : List Char) : Prop :=
  ∃ there, p s = .error ⟨there, false⟩

/-! ## One scanner after another -/

theorem takes_pure (a : α) (s : List Char) : Takes (pure a) s a s :=
  ⟨.all s, rfl, rfl, (decide_eq_false (Nat.lt_irrefl _)).symm⟩

theorem takes_pure_of_eq (h : a = a') (s : List Char) : Takes (pure a) s a' s :=
  h ▸ takes_pure a s

theorem Takes.bind (hp : Takes p s a mid) (hq : Takes (q a) mid b rest) :
    Takes (p >>= q) s b rest := by
  obtain ⟨r, hp, rfl, hr⟩ := hp
  obtain ⟨r', hq, rfl, hr'⟩ := hq
  refine ⟨r.trans r', ?_, rfl, ?_⟩
  · show andThen p q s = _
    simp only [andThen, hp, hq]
  · have hmid := r.length_le
    have hrest := r'.length_le
    show (r.taken || r'.taken) = _
    rw [hr, hr', ← Bool.decide_or, decide_eq_decide]
    omega

theorem Fails.bind (hp : Fails p s) : Fails (p >>= q) s := by
  obtain ⟨there, hp⟩ := hp
  refine ⟨there, ?_⟩
  show andThen p q s = _
  simp only [andThen, hp]

theorem Takes.bind_fails (hp : Takes p s a mid) (hq : Fails (q a) mid) : Fails (p >>= q) s := by
  obtain ⟨r, hp, rfl, -⟩ := hp
  obtain ⟨there, hq⟩ := hq
  refine ⟨there, ?_⟩
  show andThen p q s = _
  simp only [andThen, hp, hq]

/-! ## Characters -/

theorem takes_satisfy (test : Char → Bool) {c : Char} (h : test c = true) (rest : List Char) :
    Takes (satisfy test) (c :: rest) c rest :=
  ⟨⟨rest, true, Nat.le_refl _⟩, by simp [satisfy, h], rfl, by simp⟩

theorem fails_satisfy {test : Char → Bool} (h : ∀ c ∈ s.head?, test c = false) :
    Fails (satisfy test) s := by
  cases s with
  | nil => exact ⟨_, rfl⟩
  | cons c rest => exact ⟨c :: rest, by simp [satisfy, h c rfl, fail]⟩

theorem takes_char (c : Char) (rest : List Char) : Takes (char c) (c :: rest) () rest :=
  (takes_satisfy (· == c) (beq_self_eq_true c) rest).bind (takes_pure () rest)

theorem fails_char {c : Char} (h : s.head? ≠ some c) : Fails (char c) s := by
  refine (fails_satisfy fun d hd => ?_).bind
  rw [beq_eq_false_iff_ne]
  rintro rfl
  exact h hd

theorem takes_letters (cs rest : List Char) : Takes (letters cs) (cs ++ rest) () rest := by
  induction cs with
  | nil => exact takes_pure () rest
  | cons c cs ih => exact (takes_char c (cs ++ rest)).bind (q := fun _ => letters cs) ih

theorem takes_word (cs rest : List Char) : Takes (word cs) (cs ++ rest) () rest := by
  obtain ⟨r, h, hr⟩ := takes_letters cs rest
  exact ⟨r, by simp only [word, entire, h], hr⟩

theorem takes_span {test : Char → Bool} {cs : List Char} (hcs : ∀ c ∈ cs, test c = true)
    (hrest : ∀ c ∈ rest.head?, test c = false) : Takes (span test) (cs ++ rest) cs rest := by
  have hstop : rest.takeWhile test = [] ∧ rest.dropWhile test = rest := by
    cases rest with
    | nil => exact ⟨rfl, rfl⟩
    | cons c rest => simp [hrest c rfl]
  have htake : (cs ++ rest).takeWhile test = cs := by
    rw [List.takeWhile_append_of_pos hcs, hstop.1, List.append_nil]
  have hdrop : (cs ++ rest).dropWhile test = rest := by
    rw [List.dropWhile_append_of_pos hcs, hstop.2]
  refine ⟨_, congrArg (fun found => Except.ok (found, _)) htake, hdrop, ?_⟩
  show (!((cs ++ rest).takeWhile test).isEmpty) = _
  rw [htake]
  cases cs with
  | nil => exact (decide_eq_false (Nat.lt_irrefl _)).symm
  | cons c cs =>
      refine (decide_eq_true ?_).symm
      rw [List.length_append, List.length_cons]
      omega

theorem takes_span1 {test : Char → Bool} {cs : List Char} (hne : cs ≠ [])
    (hcs : ∀ c ∈ cs, test c = true) (hrest : ∀ c ∈ rest.head?, test c = false) :
    Takes (span1 test) (cs ++ rest) cs rest := by
  refine (takes_span hcs hrest).bind ?_
  cases cs with
  | nil => exact absurd rfl hne
  | cons c cs => exact takes_pure (c :: cs) rest

theorem fails_span1 {test : Char → Bool} (h : ∀ c ∈ s.head?, test c = false) :
    Fails (span1 test) s := by
  have hnone : ∀ c ∈ ([] : List Char), test c = true := fun _ => nofun
  exact (takes_span hnone h).bind_fails ⟨s, rfl⟩

theorem takes_peek (s : List Char) : Takes peek s s.head? s :=
  takes_pure s.head? s

/-! ## Options -/

theorem takes_given {a? : Option α} (h : a? = some a) (s : List Char) : Takes (given a?) s a s := by
  subst h
  exact takes_pure a s

theorem Takes.optional (hp : Takes p s a rest) : Takes (Scanner.optional p) s (some a) rest := by
  obtain ⟨r, hp, hr⟩ := hp
  exact ⟨r, by simp only [Scanner.optional, hp], hr⟩

theorem Fails.optional (hp : Fails p s) : Takes (Scanner.optional p) s none s := by
  obtain ⟨there, hp⟩ := hp
  obtain ⟨r, hnone, hr⟩ := takes_pure (none : Option α) s
  refine ⟨r, ?_, hr⟩
  simp only [Scanner.optional, hp, Bool.false_eq_true, if_false]
  exact hnone

/-! ## Repetition -/

/-- A scanner takes one thing after another, something each time, and then fails. -/
inductive TakesAll (p : Scanner α) : List Char → List α → List Char → Prop
  | none {s : List Char} (stops : Fails p s) : TakesAll p s [] s
  | cons {s mid rest : List Char} {a : α} {as : List α} (first : Takes p s a mid)
      (shorter : mid.length < s.length) (others : TakesAll p mid as rest) :
      TakesAll p s (a :: as) rest

/-- Rounds go on from what was taken before, wherever in the text that was. -/
theorem TakesAll.takes_rounds {as : List α} (h : TakesAll p s as rest) {start : List Char}
    (here : Rest start) (hhere : here.text = s)
    (hmark : here.taken = decide (s.length < start.length)) (before : List α) :
    ∃ r, rounds (fun taken => do return (← p) :: taken) before here =
      .ok (as.reverse ++ before, r) ∧ r.text = rest ∧
        r.taken = decide (rest.length < start.length) := by
  induction h generalizing here before with
  | none stops =>
      subst hhere
      obtain ⟨there, hfail⟩ := stops.bind (q := fun a => pure (a :: before))
      refine ⟨here, ?_, rfl, hmark⟩
      rw [rounds, hfail]
      rfl
  | cons first shorter others ih =>
      subst hhere
      obtain ⟨r, hround, rfl, hr⟩ := first.bind (q := fun a => pure (a :: before)) (takes_pure _ _)
      have htaken : r.taken = true := hr.trans (decide_eq_true shorter)
      have hlength := here.length_le
      obtain ⟨r', hrounds, hr'⟩ := ih (here.trans r) rfl (by
        show (here.taken || r.taken) = _
        rw [htaken, Bool.or_true, decide_eq_true (Nat.lt_of_lt_of_le shorter hlength)]) _
      refine ⟨r', ?_, hr'⟩
      rw [rounds, hround]
      simp only [htaken, ↓reduceDIte]
      rw [hrounds, List.reverse_cons, List.append_assoc]
      rfl

theorem TakesAll.many {as : List α} (h : TakesAll p s as rest) : Takes (many p) s as rest := by
  have hall :
      Takes (iterate (fun taken => do return (← p) :: taken) []) s (as.reverse ++ []) rest :=
    h.takes_rounds (.all s) rfl (decide_eq_false (Nat.lt_irrefl _)).symm []
  have hmany := hall.bind (q := fun taken => pure taken.reverse) (takes_pure _ rest)
  rwa [List.append_nil, List.reverse_reverse] at hmany

theorem Takes.separated {between : Scanner Unit} {as : List α} (first : Takes p s a mid)
    (others : TakesAll (do between; p) mid as rest) :
    Takes (separated p between) s (a :: as) rest :=
  first.bind (others.many.bind (takes_pure (a :: as) rest))

/-! ## Whole texts -/

theorem run_of_takes {text : String} (h : Takes p text.toList a []) : run p text = some a := by
  obtain ⟨r, h, hrest, -⟩ := h
  simp only [run, runAt, h, hrest]
  rfl

end FleetLink.Text.Scanner
