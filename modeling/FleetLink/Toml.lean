import FleetLink.Toml.Document
import FleetLink.Toml.Scalar
import FleetLink.Toml.Tables

/-!
# Reading TOML

`parse` reads a document into the tree of its tables.  A document is a list of lines: keys with
their values, headers that say which table the keys below them belong to, and blank ones.  Keys
above the first header belong to the document itself.

Containers may be nested `nestingLimit` deep, and a key may have as many parts.

**What is wrong with a document is not said; where it is wrong is.**  That is the first place at
which no rule can go on.  A key or a header that may not stand where it stands is wrong at its
beginning.

## Main Definitions

* `key`, `value`, `statement` — the parts of the grammar
* `Draft` — the tree so far, and the table that keys belong to
* `parse` — a whole document
-/

namespace FleetLink.Toml

open Text (Scanner Place)
open Text.Scanner

/-- How deep containers may be nested, and how many parts a key may have. -/
def nestingLimit : Nat := 79

/-! ### Keys and values -/

/-- The characters of a part of a key that is not quoted. -/
def isBare (c : Char) : Bool := c.isAlphanum || c = '-' || c = '_'

/-- The name of a part of a key. -/
def keyName : Scanner String := do
  match ← peek with
  | some '"' => basicString
  | some '\'' => literalString
  | _ => return String.ofList (← span1 isBare)

/-- A part of a key, with the blanks around it. -/
def keyPart : Scanner Key := do
  gap
  let left ← left
  let name ← keyName
  gap
  return ⟨name, left⟩

/-- A key: parts with points between them. -/
def key : Scanner (List Key) :=
  convert (separated keyPart (char '.')) fun parts =>
    if parts.length ≤ nestingLimit then some parts else none

/-- A key, an equals sign, a value and what ends them. -/
def pair (item : Scanner Node) (trail : Scanner Unit) : Scanner (List Key × Node) := do
  let key ← key
  commit (do
    char '='
    gap
    let node ← item
    trail
    return (key, node))

/-- An array.  It may go over several lines, and a comma may stand behind its last element. -/
def array (item : Scanner Node) : Scanner Node := do
  let left ← left
  char '['
  let element := do
    wideGap
    let node ← item
    wideGap
    return node
  let elements ← commit (optional (do
    let nodes ← separated element (char ',')
    let _ ← optional (char ',')
    return nodes))
  commit (do wideGap; char ']')
  return .array left (elements.getD [])

/-- A table in braces, on one line. -/
def inlineTable (item : Scanner Node) : Scanner Node := do
  let left ← left
  char '\x7b'
  let entries ← commit (convert
    (do
      let pairs ← optional (separated (pair item gap) (char ','))
      gap
      return pairs)
    fun pairs => Entries.enterAll [] (pairs.getD []))
  commit (char '\x7d')
  return .inline left entries

/-- A value that holds containers nested at most `depth` deep. -/
def value : (depth : Nat) → Scanner Node
  | 0 => do return .scalar (← left) (← scalar)
  | depth + 1 => do
    match ← peek with
    | some '[' => array (value depth)
    | some '\x7b' => inlineTable (value depth)
    | _ => return .scalar (← left) (← scalar)

/-! ### Documents -/

/-- A document that has been read in part. -/
structure Draft where
  root : Entries
  /-- The header of the table that keys belong to. -/
  header : List Key

namespace Draft

/-- Enters a value under a key. -/
def enter (d : Draft) (key : List Key) (node : Node) : Option Draft :=
  (d.root.enterAt d.header key node).map fun root => { d with root := root }

/-- Goes on with a table that a header states. -/
def stateTable (d : Draft) (header : List Key) (left : Nat) : Option Draft :=
  (d.root.stateTable header left).map (⟨·, header⟩)

/-- Goes on with a table that a header adds to an array. -/
def addTable (d : Draft) (header : List Key) (left : Nat) : Option Draft :=
  (d.root.addTable header left).map (⟨·, header⟩)

end Draft

/-- A header between two marks, with nothing behind it. -/
def header (opening closing : List Char) : Scanner (List Key) := do
  word opening
  let path ← key
  word closing
  lineTrail
  return path

/-- A line with a header: two brackets add a table to an array, one states a table. -/
def headerLine (d : Draft) : Scanner Draft := do
  ahead (exactly 2 fun _ => true)
  let left ← left
  match ← optional (ahead (word ['[', '['])) with
  | some () => convert (header ['[', '['] [']', ']']) fun path => d.addTable path left
  | none => convert (header ['['] [']']) fun path => d.stateTable path left

/-- A line with a key and its value. -/
def pairLine (d : Draft) : Scanner Draft :=
  convert (pair (value nestingLimit) lineTrail) fun (key, node) => d.enter key node

/-- A line of a document. -/
def line (d : Draft) : Scanner Draft := do
  match ← peek with
  | none => fail
  | some '\n' | some '\r' => do newline; return d
  | some '#' => commit (do comment; lineEnd; return d)
  | some '[' => commit (headerLine d)
  | some _ => commit (pairLine d)

/-- A line of a document, and the blanks that lead into the next. -/
def statement (d : Draft) : Scanner Draft := do
  let next ← line d
  gap
  return next

/-- The lines of a document, with or without a byte order mark in front. -/
def lines : Scanner Draft := do
  let _ ← optional (char '\uFEFF')
  gap
  iterate statement ⟨[], []⟩

/-- The document that a text is, or the place where it is wrong. -/
def parse (text : String) : Except Place Document :=
  let cs := text.toList
  match runAt lines cs with
  | .error rest => .error (.ofLeft cs rest.length)
  | .ok draft => .ok ⟨cs, draft.root⟩

end FleetLink.Toml
