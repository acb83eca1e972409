/-!
# Scanners

A scanner takes something off the front of a text, or fails.  Grammars are written with them in
`do` blocks, one line after the other as the parts of the text follow each other.

**A scanner never makes a text longer,** and its type says so: what is left comes with the fact that
it is no longer than the text was, and shorter if anything was taken.  Repetition therefore ends:
`iterate` goes on only as long as every round takes something.

**A failure has a place.**  It is where the scanner that failed stood.  A scanner that has taken the
only way there is may `commit`, and then its failure is final: no other way is tried.

## Main Definitions

* `Scanner` — takes something off the front of a text
* `Scanner.orElse`, `Scanner.commit` — a second way to read the same place, and none
* `Scanner.iterate`, `Scanner.many` — as often as possible
* `Scanner.run`, `Scanner.runAt` — a text that holds one thing and nothing else
-/

namespace FleetLink.Text

/-- What is left of a text, and whether anything was taken off it. -/
structure Rest (s : List Char) where
  text : List Char
  taken : Bool
  bound : text.length + taken.toNat ≤ s.length

namespace Rest

/-- All of it. -/
def all (s : List Char) : Rest s := ⟨s, false, Nat.le_refl _⟩

/-- What is left of what is left. -/
def trans {s : List Char} (r : Rest s) (r' : Rest r.text) : Rest s :=
  ⟨r'.text, r.taken || r'.taken, by
    have h := r.bound
    have h' := r'.bound
    revert h h'
    cases r.taken <;> cases r'.taken <;> simp <;> omega⟩

theorem length_le {s : List Char} (r : Rest s) : r.text.length ≤ s.length :=
  Nat.le_trans (Nat.le_add_right _ _) r.bound

theorem length_lt {s : List Char} (r : Rest s) (h : r.taken = true) : r.text.length < s.length := by
  have b := r.bound
  simp only [h, Bool.toNat_true] at b
  exact b

end Rest

/-- Where a scanner failed, as the text that was left there, and whether that is final. -/
structure Failure where
  text : List Char
  final : Bool
  deriving Repr

/-- Takes something off the front of a text. -/
def Scanner (α : Type) := (s : List Char) → Except Failure (α × Rest s)

namespace Scanner

variable {α β σ : Type}

/-- Takes nothing. -/
def done (a : α) : Scanner α := fun s => .ok (a, .all s)

/-- One scanner after another. -/
def andThen (p : Scanner α) (q : α → Scanner β) : Scanner β := fun s =>
  match p s with
  | .error failure => .error failure
  | .ok (a, r) =>
    match q a r.text with
    | .error failure => .error failure
    | .ok (b, r') => .ok (b, r.trans r')

instance : Monad Scanner where
  pure := done
  bind := andThen

/-- Fails everywhere. -/
def fail : Scanner α := fun s => .error ⟨s, false⟩

/-- Goes on with a value if there is one. -/
def given (a? : Option α) : Scanner α := fun s =>
  match a? with
  | none => fail s
  | some a => done a s

/-- The first scanner where it succeeds, else the second from the same place. -/
def orElse (p : Scanner α) (q : Unit → Scanner α) : Scanner α := fun s =>
  match p s with
  | .ok result => .ok result
  | .error failure => if failure.final then .error failure else q () s

instance : OrElse (Scanner α) := ⟨orElse⟩

/-- Makes a failure final. -/
def commit (p : Scanner α) : Scanner α := fun s =>
  match p s with
  | .ok result => .ok result
  | .error failure => .error { failure with final := true }

/-- What `f` makes of what a scanner takes.  Where `f` makes nothing of it, that is a failure at the
place where the scanner began. -/
def convert (p : Scanner α) (f : α → Option β) : Scanner β := fun s =>
  match p s with
  | .error failure => .error failure
  | .ok (a, r) =>
    match f a with
    | none => fail s
    | some b => .ok (b, r)

/-- As `convert`, but where `f` makes nothing of it the failure is final. -/
def demand (p : Scanner α) (f : α → Option β) : Scanner β := fun s =>
  match p s with
  | .error failure => .error failure
  | .ok (a, r) =>
    match f a with
    | none => .error ⟨s, true⟩
    | some b => .ok (b, r)

/-- Fails, if it fails, at the place where it began. -/
def entire (p : Scanner α) : Scanner α := fun s =>
  match p s with
  | .ok result => .ok result
  | .error failure => .error { failure with text := s }

/-- Looks ahead: fails where a scanner would fail, but takes nothing and stays in place. -/
def ahead (p : Scanner α) : Scanner Unit := fun s =>
  match p s with
  | .ok _ => done () s
  | .error failure => .error { failure with text := s }

/-- One character of a class. -/
def satisfy (p : Char → Bool) : Scanner Char
  | [] => fail []
  | c :: rest => if p c then .ok (c, ⟨rest, true, Nat.le_refl _⟩) else fail (c :: rest)

/-- One certain character. -/
def char (c : Char) : Scanner Unit := do
  let _ ← satisfy (· == c)

/-- Certain characters one after another. -/
def letters : List Char → Scanner Unit
  | [] => done ()
  | c :: rest => andThen (char c) fun _ => letters rest

/-- Certain characters one after another, or none of them. -/
def word (cs : List Char) : Scanner Unit := entire (letters cs)

/-- The longest run of characters of a class, which may be empty. -/
def span (p : Char → Bool) : Scanner (List Char) := fun s =>
  let cs := s.takeWhile p
  .ok (cs, ⟨s.dropWhile p, !cs.isEmpty, by
    have h := congrArg List.length (List.takeWhile_append_dropWhile (p := p) (l := s))
    rw [List.length_append] at h
    show (s.dropWhile p).length + (!(s.takeWhile p).isEmpty).toNat ≤ s.length
    cases hc : s.takeWhile p with
    | nil => rw [hc] at h; simp at h ⊢; omega
    | cons c cs => rw [hc] at h; simp at h ⊢; omega⟩)

/-- The longest run of characters of a class, of which there must be one. -/
def span1 (p : Char → Bool) : Scanner (List Char) := do
  match ← span p with
  | [] => fail
  | cs => done cs

/-- So many characters of a class, one after another. -/
def repeated (p : Char → Bool) : Nat → Scanner (List Char)
  | 0 => done []
  | n + 1 => do
    let c ← satisfy p
    return c :: (← repeated p n)

/-- So many characters of a class, or none of them. -/
def exactly (n : Nat) (p : Char → Bool) : Scanner (List Char) := entire (repeated p n)

/-- The next character, which stays. -/
def peek : Scanner (Option Char) := fun s => .ok (s.head?, .all s)

/-- The end of the text. -/
def atEnd : Scanner Unit := do
  match ← peek with
  | none => done ()
  | some _ => fail

/-- How many characters are left. -/
def left : Scanner Nat := fun s => .ok (s.length, .all s)

/-- What a scanner takes, if it succeeds. -/
def optional (p : Scanner α) : Scanner (Option α) := fun s =>
  match p s with
  | .ok (a, r) => .ok (some a, r)
  | .error failure => if failure.final then .error failure else done none s

/-- Rounds of a scanner that hands a state on, within what is left of a text. -/
def rounds (step : σ → Scanner σ) {start : List Char} (state : σ) (here : Rest start) :
    Except Failure (σ × Rest start) :=
  match step state here.text with
  | .error failure => if failure.final then .error failure else .ok (state, here)
  | .ok (next, r) =>
    if _ : r.taken = true then rounds step next (here.trans r)
    else .ok (state, here)
termination_by here.text.length
decreasing_by exact r.length_lt ‹_›

/-- As often as a scanner succeeds and takes something, each round with the state that the one
before it left. -/
def iterate (step : σ → Scanner σ) (state : σ) : Scanner σ := fun s => rounds step state (.all s)

/-- As often as a scanner succeeds and takes something. -/
def many (p : Scanner α) : Scanner (List α) := do
  return (← iterate (fun taken => do return (← p) :: taken) []).reverse

/-- Items with something between each two of them; at least one. -/
def separated (item : Scanner α) (between : Scanner Unit) : Scanner (List α) := do
  let first ← item
  let others ← many (do between; item)
  return first :: others

/-- What a whole text is, or what is left of it where that fails. -/
def runAt (p : Scanner α) (s : List Char) : Except (List Char) α :=
  match p s with
  | .error failure => .error failure.text
  | .ok (a, r) => if r.text = [] then .ok a else .error r.text

/-- What a whole text is. -/
def run (p : Scanner α) (text : String) : Option α :=
  (runAt p text.toList).toOption

end Scanner

end FleetLink.Text
