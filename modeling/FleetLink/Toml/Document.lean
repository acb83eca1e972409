import FleetLink.Codec.Fault
import FleetLink.Text.Place
import FleetLink.Toml.Node

/-!
# TOML documents

A document is the text and the tree of its tables.  Readers of typed data get it as data, and
when they fail the document says where, in the text, and why, in the words of people who write
such files.

**The place of a fault is that of the innermost value around it.**  A value without a place of its
own is found where its key is.  A text that breaks rules of its own is judged after it was read, so
in an array, where it has no key, the array is what is at fault.

## Main Definitions

* `Document` — a text and its tree
* `Node.locate` — the place to which steps lead
* `Document.place`, `Document.message` — where and why reading failed
-/

namespace FleetLink.Toml

open Json (Value)

/-- A text and the tree of its tables. -/
structure Document where
  text : List Char
  root : Entries

namespace Node

/-- The node to which steps lead. -/
def follow? : List Step → Node → Option Node
  | [], node => some node
  | .member name :: steps, node | .content name :: steps, node =>
    (node.entry? name).bind fun e => follow? steps e.2
  | .element position :: steps, node => (node.element? position).bind (follow? steps)
  | .name _ :: _, node => some node

/-- Where steps lead, as the number of characters that are left there, given the same for the node
itself in case it has no place of its own. -/
def locate : List Step → Node → Nat → Nat
  | [], node, outer => node.left?.getD outer
  | step :: steps, node, outer =>
    let here := node.left?.getD outer
    match step with
    | .member name =>
      match node.entry? name with
      | some (key, inner) => locate steps inner key.left
      | none => here
    | .element position =>
      match node.element? position with
      | some inner => locate steps inner here
      | none => here
    | .name name => ((node.entry? name).map (·.1.left)).getD here
    | .content name => ((node.entry? name).bind (·.2.left?)).getD here

end Node

/-- A float as it is shown to people: never with an exponent, always with a point. -/
def shownFloat (x : Binary64) : String :=
  let text := x.plain
  if x.isFinite ∧ '.' ∉ text.toList then text ++ ".0" else text

namespace Document

/-- The tree as one node. -/
def toNode (d : Document) : Node := .table .stated (some d.text.length) d.root

/-- The document as data. -/
def toValue (d : Document) : Value := d.toNode.toValue

/-- The steps to what is held to be at fault. -/
def steps (fault : Fault) : List Step :=
  match fault.cause, fault.path.getLast? with
  | .refused _, some (.element _) => fault.path.dropLast
  | _, _ => fault.path

/-- The place of a fault. -/
def place (d : Document) (fault : Fault) : Text.Place :=
  .ofLeft d.text (Node.locate (steps fault) d.toNode d.text.length)

/-- What is said of a name that has something under it. -/
def filledMessage : Node → String
  | .array _ _ | .inline _ _ | .table _ _ _ => "expected empty table"
  | .tables _ => "expected empty array"
  | node => "expected table, found " ++ node.typeName

/-- The words for a fault. -/
def message (d : Document) (fault : Fault) : String :=
  match fault.cause with
  | .noName _ => "wanted string or table"
  | .notOneName 0 => "wanted exactly 1 element, found 0 elements"
  | .notOneName _ => "wanted exactly 1 element, more than 1 element"
  | .filledName _ => filledMessage ((Node.follow? fault.path d.toNode).getD d.toNode)
  | cause => cause.wording shownFloat

end Document

end FleetLink.Toml
