import FleetLink.Zlib.Bits

/-!
# Canonical codes

A code gives every symbol of an alphabet a word of bits, none of which starts another.  A stream
describes a code by the length of each symbol's word only: shorter words come first, and words of
one length are in the order of their symbols.  Read from the left, such words are the leaves of a
tree, so the tree is built by one walk over the symbols sorted by length.

**Which lengths are a code.**  The words must fill the tree exactly.  A code may leave it unfilled
only if it has at most one word, and only where the format allows that.

## Main Definitions

* `CodeTree`, `Code` — the tree, and a code as the two trees behind its first bit
* `Code.ofLengths?` — the code that word lengths describe
* `Code.symbol?` — the symbol whose word comes next
-/

namespace FleetLink.Zlib

/-- What can follow some bits of a word. -/
inductive CodeTree where
  | empty
  | leaf (symbol : Nat)
  | node (zero one : CodeTree)
  deriving DecidableEq, Repr, Inhabited

namespace CodeTree

/-- The longest word of any code. -/
def longestWord : Nat := 15

/-- Follows the bits down to a symbol. -/
def symbol? : CodeTree → (bits : Bits) → Option (Nat × { r : Bits // r.length ≤ bits.length })
  | empty, _ => none
  | leaf symbol, bits => some (symbol, ⟨bits, Nat.le_refl _⟩)
  | node _ _, [] => none
  | node zero one, b :: rest =>
    (if b then one.symbol? rest else zero.symbol? rest).map fun (s, ⟨r, h⟩) =>
      (s, ⟨r, Nat.le_succ_of_le h⟩)

/-- The tree at a depth, from symbols sorted by the length of their words, and the symbols that are
left over for its right neighbours. -/
def build : (room depth : Nat) → List (Nat × Nat) → CodeTree × List (Nat × Nat)
  | _, _, [] => (empty, [])
  | room, depth, (length, symbol) :: rest =>
    if length = depth then (leaf symbol, rest)
    else
      match room with
      | 0 => (empty, (length, symbol) :: rest)
      | room + 1 =>
        let zero := build room (depth + 1) ((length, symbol) :: rest)
        let one := build room (depth + 1) zero.2
        (node zero.1 one.1, one.2)

end CodeTree

/-- A code: what can follow a zero, and what can follow a one. -/
structure Code where
  zero : CodeTree
  one : CodeTree
  deriving DecidableEq, Repr, Inhabited

namespace Code

/-- The part of the tree that words of some lengths fill, in units of a longest word. -/
def filled (lengths : List Nat) : Nat :=
  (lengths.filter (0 < ·)).foldr (fun l rest => Nat.pow 2 (CodeTree.longestWord - l) + rest) 0

/-- Symbols that have a word, with its length, the shorter words first. -/
def sortedSymbols (lengths : List Nat) : List (Nat × Nat) :=
  (lengths.zipIdx.filter (0 < ·.1)).mergeSort fun a b => a.1 ≤ b.1

/-- The code of word lengths, one for each symbol; a length of zero means that the symbol has no
word.  With `gaps` an unfilled tree is allowed for a single word, or for none. -/
def ofLengths? (gaps : Bool) (lengths : List Nat) : Option Code :=
  let whole := Nat.pow 2 CodeTree.longestWord
  if filled lengths = whole ∨ gaps ∧ (lengths.filter (0 < ·)).length ≤ 1 then
    let zero := CodeTree.build (CodeTree.longestWord - 1) 1 (sortedSymbols lengths)
    let one := CodeTree.build (CodeTree.longestWord - 1) 1 zero.2
    some ⟨zero.1, one.1⟩
  else none

/-- The symbol whose word comes next.  It takes at least one bit. -/
def symbol? (code : Code) : (bits : Bits) → Option (Nat × { r : Bits // r.length < bits.length })
  | [] => none
  | b :: rest =>
    ((if b then code.one else code.zero).symbol? rest).map fun (s, ⟨r, h⟩) =>
      (s, ⟨r, Nat.lt_succ_of_le h⟩)

@[simp] theorem symbol?_nil (code : Code) : code.symbol? [] = none := rfl

end Code

end FleetLink.Zlib
