import FleetLink.Toml.Node

/-!
# How the tables of a TOML document grow

A document spreads one tree of tables over headers and dotted keys, and the same table may be
touched from several places.  What is allowed depends on how a table came to be.

**What may touch a table again.**  A header may pass through any table that is not in braces, and
through an array of tables to its last one.  It may state an implied table, which then stands where
the header stands, but no other that exists.  A dotted key may pass through tables that are not
stated, and its last table must be a dotted one.  A name that exists is never given again.

## Main Definitions

* `through` — a change deep in the tree, along a path
* `enter` — one key and its value
* `stateTable`, `addTable` — what the two headers do
-/

namespace FleetLink.Toml.Entries

/-- Puts another node in the place of the one with the same name. -/
def replace (es : Entries) (name : String) (node : Node) : Entries :=
  es.map fun e => if e.1.name = name then (e.1, node) else e

/-- Removes a name. -/
def remove (es : Entries) (name : String) : Entries :=
  es.filter (·.1.name ≠ name)

/-- Changes the table at the end of a path.  Tables that do not exist on the way are made, with
`made` as their origin; `passes` says which of those that exist may be passed. -/
def through (made : Origin) (passes : Origin → Bool) (change : Origin → Entries → Option Entries) :
    (path : List Key) → Origin → Entries → Option Entries
  | [], origin, es => change origin es
  | key :: path, _, es =>
    match es.find? key.name with
    | none =>
      match through made passes change path made [] with
      | none => none
      | some inner => some (es ++ [(key, .table made none inner)])
    | some (.table origin left? inner) =>
      if passes origin then
        match through made passes change path origin inner with
        | none => none
        | some inner => some (es.replace key.name (.table origin left? inner))
      else none
    | some (.tables elements) =>
      match elements.getLast? with
      | none => none
      | some (left, inner) =>
        match through made passes change path .stated inner with
        | none => none
        | some inner => some (es.replace key.name (.tables (elements.dropLast ++ [(left, inner)])))
    | some _ => none

/-- Enters a value under a key.  A plain key belongs to the table itself, a dotted one to a dotted
table. -/
def enter (es : Entries) (key : List Key) (node : Node) : Option Entries :=
  match key.getLast? with
  | none => none
  | some last =>
    let path := key.dropLast
    through .dotted (· ≠ .stated) (fun origin inner =>
      if path ≠ [] ∧ origin ≠ .dotted then none
      else if (inner.find? last.name).isSome then none
      else some (inner ++ [(last, node)])) path .stated es

/-- Enters values under keys, in order. -/
def enterAll (es : Entries) (body : List (List Key × Node)) : Option Entries :=
  body.foldlM (fun es (key, node) => es.enter key node) es

/-- Enters a value under a key of the table that a header names. -/
def enterAt (root : Entries) (header key : List Key) (node : Node) : Option Entries :=
  through .implied (fun _ => true) (fun _ inner => inner.enter key node) header .stated root

/-- Changes the entries of the table that holds the one a header names, given the key of that. -/
def atHeader (root : Entries) (header : List Key) (change : Key → Entries → Option Entries) :
    Option Entries :=
  match header.getLast? with
  | none => none
  | some key =>
    through .implied (fun _ => true) (fun _ inner => change key inner) header.dropLast .stated root

/-- States a table, given where its header begins. -/
def stateTable (root : Entries) (header : List Key) (left : Nat) : Option Entries :=
  root.atHeader header fun key inner =>
    match inner.find? key.name with
    | none => some (inner ++ [(key, .table .stated (some left) [])])
    | some (.table .implied _ es) =>
      some (inner.remove key.name ++ [(key, .table .stated (some left) es)])
    | some _ => none

/-- Adds a table to an array of tables, given where its header begins. -/
def addTable (root : Entries) (header : List Key) (left : Nat) : Option Entries :=
  root.atHeader header fun key inner =>
    match inner.find? key.name with
    | none => some (inner ++ [(key, .tables [(left, [])])])
    | some (.tables elements) => some (inner.replace key.name (.tables (elements ++ [(left, [])])))
    | some _ => none

end FleetLink.Toml.Entries
