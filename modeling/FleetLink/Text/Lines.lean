/-!
# Lines

A text as the lines between its line ends.  A carriage return in front of a line end stays with its
line.  There is one more line than there are line ends, so a text that ends with one has an empty
last line.
-/

namespace FleetLink.Text

/-- The lines of characters. -/
def splitLines : List Char → List (List Char)
  | [] => [[]]
  | '\n' :: rest => [] :: splitLines rest
  | c :: rest =>
    match splitLines rest with
    | [] => [[c]]
    | line :: more => (c :: line) :: more

/-- The lines of a text. -/
def lines (text : String) : List String :=
  (splitLines text.toList).map String.ofList

@[simp] theorem splitLines_nil : splitLines [] = [[]] := rfl

@[simp] theorem splitLines_newline (rest : List Char) :
    splitLines ('\n' :: rest) = [] :: splitLines rest := rfl

end FleetLink.Text
