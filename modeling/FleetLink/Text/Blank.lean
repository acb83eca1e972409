/-!
# Blank characters

Which characters count as blank, and what is left of a text once the blanks around it are gone.

**The class is Unicode's `White_Space`.**  It has twenty-five characters, more than the ASCII blanks
and not the same as "prints nothing": the zero width space is not in it.  `blankRanges` is that
table.  Vehicle ids, configuration values, commands and capture lines are all judged by it.

## Main Definitions

* `isBlank` — membership in the class
* `trimChars` — characters without the blanks around them
* `IsBlankText` — nothing but blanks, the empty text included
-/

namespace FleetLink.Text

/-- The code point ranges of `White_Space`, both ends included. -/
def blankRanges : List (Nat × Nat) :=
  [(0x09, 0x0D), (0x20, 0x20), (0x85, 0x85), (0xA0, 0xA0), (0x1680, 0x1680), (0x2000, 0x200A),
   (0x2028, 0x2029), (0x202F, 0x202F), (0x205F, 0x205F), (0x3000, 0x3000)]

/-- A character is blank when its code point lies in one of `blankRanges`. -/
def isBlank (c : Char) : Bool :=
  blankRanges.any fun r => r.1 ≤ c.toNat && c.toNat ≤ r.2

/-- The characters between the outer blanks. -/
def trimChars (cs : List Char) : List Char :=
  ((cs.dropWhile isBlank).reverse.dropWhile isBlank).reverse

/-- A text of blanks only.  The empty text is one. -/
def IsBlankText (s : String) : Prop :=
  ∀ c ∈ s.toList, isBlank c = true

/-- Only the characters of the text are looked at.  The quantifier could also be decided over all
characters that there are, which takes far too long. -/
instance (s : String) : Decidable (IsBlankText s) :=
  List.decidableBAll _ s.toList

/-- Some character of the text is blank. -/
def hasBlank (s : String) : Bool :=
  s.toList.any isBlank

@[simp] theorem trimChars_nil : trimChars [] = [] := rfl

theorem isBlank_space : isBlank ' ' = true := by decide

theorem isBlank_of_isDigit {c : Char} (h : c.isDigit = true) : isBlank c = false := by
  rw [Char.isDigit, Bool.and_eq_true, decide_eq_true_iff, decide_eq_true_iff] at h
  have hleast : 48 ≤ c.toNat := h.1
  have hgreatest : c.toNat ≤ 57 := h.2
  simp [isBlank, blankRanges]
  omega

end FleetLink.Text
