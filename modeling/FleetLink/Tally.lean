import Std.Data.ExtTreeMap

/-!
# Tallies

How often each of some labels was seen.  A label that was never seen counts zero and is not listed;
the others are listed in their own order, whatever order they were seen in.
-/

namespace FleetLink

open Std (ExtTreeMap)

/-- Counts of labels. -/
abbrev Tally := ExtTreeMap String Nat

namespace Tally

/-- Nothing was seen. -/
def empty : Tally := ∅

/-- How often a label was seen. -/
def count (t : Tally) (label : String) : Nat := t[label]?.getD 0

/-- A label is seen once more. -/
def bump (t : Tally) (label : String) : Tally := t.insert label (t.count label + 1)

@[simp] theorem count_empty (label : String) : empty.count label = 0 := by
  simp [count, empty]

/-- Seeing a label adds one to its count and leaves the others. -/
theorem count_bump (t : Tally) (seen label : String) :
    (t.bump seen).count label = t.count label + if seen = label then 1 else 0 := by
  by_cases h : seen = label
  · subst h
    simp [bump, count]
  · simp [bump, count, ExtTreeMap.getElem?_insert, h]

end Tally

end FleetLink
