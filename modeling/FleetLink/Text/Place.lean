/-!
# Places in a text

A place is a line and a column, both counted from one.  A column counts characters, but where the
character at the place itself is beyond ASCII it counts bytes.  The end of a text is one column
behind its last character, even if that character ends a line.
-/

namespace FleetLink.Text

/-- A line and a column. -/
structure Place where
  line : Nat
  column : Nat
  deriving DecidableEq, Repr

namespace Place

/-- The number of the line that characters, given last first, lead into. -/
def lineNumber (before : List Char) : Nat := before.count '\n' + 1

/-- The characters on that line so far. -/
def lineSoFar (before : List Char) : List Char := before.takeWhile (· ≠ '\n')

/-- The place of the character that has `offset` characters in front of it. -/
def ofOffset (text : List Char) (offset : Nat) : Place :=
  let before := (text.take offset).reverse
  match text.drop offset, before with
  | c :: _, _ =>
    let line := lineSoFar before
    ⟨lineNumber before,
      (if c.toNat < 0x80 then line.length else line.foldr (fun c rest => c.utf8Size + rest) 0) + 1⟩
  | [], [] => ⟨1, 1⟩
  | [], _ :: before => ⟨lineNumber before, (lineSoFar before).length + 2⟩

/-- The place that has so many characters behind it. -/
def ofLeft (text : List Char) (left : Nat) : Place := ofOffset text (text.length - left)

example : ofOffset ['a', '\n', 'b', 'c'] 3 = ⟨2, 2⟩ := by decide
example : ofOffset ['a', '\n'] 2 = ⟨1, 3⟩ := by decide

end Place

end FleetLink.Text
