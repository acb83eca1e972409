import FleetLink.Json.Value

/-!
# The tree of a TOML document

A document is a tree of tables, arrays and scalars.  Keys and values know where in the document they
begin, as the number of characters that are left there.  A table that is spread over headers and
dotted keys may have no place of its own.

**Three kinds of table.**  A table is *stated* by a header, *implied* by a longer header that passes
through it, or *dotted* when a dotted key passes through it.

## Main Definitions

* `Node`, `Entries` — the tree
* `Node.toValue`, `Entries.toValue` — the tree as data
* `Node.typeName` — what a node is called
* `Node.entry?`, `Node.element?` — following steps into the tree
-/

namespace FleetLink.Toml

open Json (Value)

/-- A part of a key. -/
structure Key where
  name : String
  /-- How many characters of the document are left where it begins. -/
  left : Nat
  deriving DecidableEq, Repr, Inhabited

/-- How a table came to be. -/
inductive Origin where
  | stated
  | implied
  | dotted
  deriving DecidableEq, Repr

/-- What a name stands for. -/
inductive Node where
  /-- A value that holds no other.  A date or a time is an object. -/
  | scalar (left : Nat) (value : Value)
  | array (left : Nat) (elements : List Node)
  /-- A table in braces. -/
  | inline (left : Nat) (entries : List (Key × Node))
  | table (origin : Origin) (left? : Option Nat) (entries : List (Key × Node))
  /-- An array of tables with a header each. -/
  | tables (elements : List (Nat × List (Key × Node)))
  deriving Inhabited

/-- Names and what they stand for, in the order of the document. -/
abbrev Entries := List (Key × Node)

/-! ### As data -/

mutual

/-- A node as data. -/
def Node.toValue : Node → Value
  | .scalar _ v => v
  | .array _ elements => .array (valuesOf elements)
  | .inline _ es => .object (membersOf es)
  | .table _ _ es => .object (membersOf es)
  | .tables elements => .array (objectsOf elements)

/-- Nodes as values. -/
def valuesOf : List Node → List Value
  | [] => []
  | node :: rest => node.toValue :: valuesOf rest

/-- Entries as the members of an object. -/
def membersOf : List (Key × Node) → List (String × Value)
  | [] => []
  | (key, node) :: rest => (key.name, node.toValue) :: membersOf rest

/-- Tables as objects. -/
def objectsOf : List (Nat × List (Key × Node)) → List Value
  | [] => []
  | (_, es) :: rest => .object (membersOf es) :: objectsOf rest

end

/-- Entries as an object. -/
def Entries.toValue (es : Entries) : Value := .object (membersOf es)

/-! ### Following steps -/

namespace Entries

/-- The key with a name, and what it stands for. -/
def entry? (es : Entries) (name : String) : Option (Key × Node) :=
  List.find? (·.1.name = name) es

/-- What a name stands for. -/
def find? (es : Entries) (name : String) : Option Node :=
  (es.entry? name).map (·.2)

end Entries

namespace Node

/-- What a node is called. -/
def typeName : Node → String
  | scalar _ (.string _) => "string"
  | scalar _ (.number (.int _)) => "integer"
  | scalar _ (.number (.float _)) => "float"
  | scalar _ (.bool _) => "boolean"
  | scalar _ _ => "datetime"
  | array _ _ => "array"
  | inline _ _ => "inline table"
  | table _ _ _ => "table"
  | tables _ => "array of tables"

/-- Where a node begins, if it has a place of its own.  An array of tables begins with the first. -/
def left? : Node → Option Nat
  | scalar left _ | array left _ | inline left _ => some left
  | table _ left? _ => left?
  | tables elements => elements.head?.map (·.1)

/-- The key with a name in a table, and what it stands for. -/
def entry? (name : String) : Node → Option (Key × Node)
  | inline _ es | table _ _ es => Entries.entry? es name
  | _ => none

/-- The element of an array at a position. -/
def element? (position : Nat) : Node → Option Node
  | array _ elements => elements[position]?
  | tables elements => elements[position]?.map fun (left, es) => .table .stated (some left) es
  | _ => none

end Node

end FleetLink.Toml
