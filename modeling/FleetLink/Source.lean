import FleetLink.Codec.Record

/-!
# Sources

A source is where a packet comes from or goes to: an address on a communication medium.  Two
sources are the same exactly when medium and address are, which is not the same as having one
printed form, as either part may hold the colon between them.
-/

namespace FleetLink

/-- An address on a medium. -/
structure Source where
  medium : String
  address : String
  deriving DecidableEq, Repr, Inhabited

namespace Source

/-- Sources are ordered by medium, then by address. -/
instance : Ord Source where
  compare := compareLex (compareOn Source.medium) (compareOn Source.address)

theorem compare_eq (a b : Source) :
    compare a b = (compare a.medium b.medium).then (compare a.address b.address) := rfl

instance : Std.TransOrd Source :=
  inferInstanceAs (Std.TransCmp (compareLex (compareOn Source.medium) (compareOn Source.address)))

instance : Std.LawfulEqOrd Source where
  eq_of_compare {a b} h := by
    rw [compare_eq, Ordering.then_eq_eq] at h
    obtain ⟨hm, ha⟩ := h
    cases a; cases b
    simp_all
  compare_self {a} := by simp

/-- The printed form. -/
def text (s : Source) : String := s.medium ++ ":" ++ s.address

/-- A source in data. -/
def codec : Codec Source :=
  .record "struct Source"
    (.cons (.required "medium" .string) <| .cons (.required "address" .string) .nil)
    (fun (medium, address, ()) => ⟨medium, address⟩)
    (fun s => (s.medium, s.address, ()))

end Source

end FleetLink
