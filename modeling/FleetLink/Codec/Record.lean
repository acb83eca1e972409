import FleetLink.Codec

/-!
# Records

A record is a list of named fields, each with a codec and perhaps a default.  It is written as an
object and read from an object or, in the order of its fields, from an array.  A few records are
read from objects only; `Codec.members` is their codec.

**Which fault is reported.**  An object is visited member by member in its own order, and the first
fault met is the one reported; a member that is no field is passed over, a field that comes again is
a fault.  Only when every member is fine, the first absent field without a default is reported, in
the order of the fields.  An array may leave off fields at its end that have a default.  Elements
beyond the last field are a fault once the fields are read, but not in a document.

**One definition for all records.**  `Fields` lists the fields with their types in the index, a
`Row` holds one thing per field, and the two directions of the format are recursions over the list.

## Main Definitions

* `Field`, `Fields`, `Row` — what a record consists of
* `Fields.put`, `Fields.finish` — reading an object member by member
* `Fields.ofElements` — reading an array
* `Fields.write` — the members of the object
* `Codec.record`, `Codec.members` — the codec of a type that is such a record
-/

namespace FleetLink

open Json (Value)

/-- A field of a record. -/
structure Field (α : Type) where
  name : String
  codec : Codec α
  /-- What the field holds when it is absent; none if it has to be there. -/
  default? : Option α

/-- A field that has to be there. -/
def Field.required {α : Type} (name : String) (codec : Codec α) : Field α := ⟨name, codec, none⟩

/-- A field with a default. -/
def Field.defaulted {α : Type} (name : String) (codec : Codec α) (value : α) : Field α :=
  ⟨name, codec, some value⟩

/-- A field that may be absent or null. -/
def Field.optional {α : Type} (name : String) (codec : Codec α) : Field (Option α) :=
  ⟨name, codec.option, some none⟩

/-- The fields of a record, in order, with their types. -/
inductive Fields : List Type → Type 1 where
  | nil : Fields []
  | cons {α : Type} {αs : List Type} (field : Field α) (rest : Fields αs) : Fields (α :: αs)

/-- One thing for each of some types. -/
def Row (F : Type → Type) : List Type → Type
  | [] => Unit
  | α :: αs => F α × Row F αs

namespace Fields

/-- How many fields there are. -/
def count {αs : List Type} (_ : Fields αs) : Nat := αs.length

/-- The names of the fields. -/
def names : {αs : List Type} → Fields αs → List String
  | _, nil => []
  | _, cons field rest => field.name :: rest.names

/-- No field read yet. -/
def blank : {αs : List Type} → Fields αs → Row Option αs
  | _, nil => ()
  | _, cons _ rest => (none, rest.blank)

/-- Takes in one member of an object. -/
def put (intake : Intake) : {αs : List Type} → Fields αs → Row Option αs → String → Value →
    Except Fault (Row Option αs)
  | _, nil, (), _, _ => .ok ()
  | _, cons field rest, (slot, slots), name, v =>
    if field.name = name then
      match slot with
      | some _ => .error (.duplicateField name)
      | none =>
        match field.codec.read intake v with
        | .error fault => .error (fault.under (.member name))
        | .ok a => .ok (some a, slots)
    else
      match rest.put intake slots name v with
      | .error fault => .error fault
      | .ok slots => .ok (slot, slots)

/-- Takes in members in order, up to the first fault. -/
def putAll {αs : List Type} (fs : Fields αs) (intake : Intake) :
    Row Option αs → List (String × Value) → Except Fault (Row Option αs)
  | row, [] => .ok row
  | row, (name, v) :: members =>
    match fs.put intake row name v with
    | .error fault => .error fault
    | .ok row => fs.putAll intake row members

/-- Fills what is absent with defaults. -/
def finish : {αs : List Type} → Fields αs → Row Option αs → Except Fault (Row id αs)
  | _, nil, () => .ok ()
  | _, cons field rest, (slot, slots) =>
    match slot.or field.default? with
    | none => .error (.missingField field.name)
    | some a =>
      match rest.finish slots with
      | .error fault => .error fault
      | .ok as => .ok (a, as)

/-- A number of elements, in words. -/
def elementCount (n : Nat) : String :=
  if n = 1 then "1 element" else s!"{n} elements"

/-- What a reader makes of elements beyond the last field of a record, in an array of
some length. -/
def surplus (intake : Intake) (total length : Nat) : Except Fault Unit :=
  match intake with
  | .direct => .error (.invalidLength length "fewer elements in array")
  | .buffered => .error (.invalidLength length (elementCount total ++ " in sequence"))
  | .document => .ok ()

/-- Reads the fields from the elements of an array, the first of which has the given position. -/
def ofElements (intake : Intake) (what : String) (total length : Nat) : {αs : List Type} →
    Fields αs → Nat → List Value → Except Fault (Row id αs)
  | _, nil, _, [] => .ok ()
  | _, nil, _, _ :: _ => surplus intake total length
  | _, cons field rest, position, v :: vs =>
    match field.codec.read intake v with
    | .error fault => .error (fault.under (.element position))
    | .ok a =>
      match ofElements intake what total length rest (position + 1) vs with
      | .error fault => .error fault
      | .ok as => .ok (a, as)
  | _, cons field rest, position, [] =>
    match field.default? with
    | none => .error (.invalidLength position (what ++ " with " ++ elementCount total))
    | some a =>
      match ofElements intake what total length rest (position + 1) [] with
      | .error fault => .error fault
      | .ok as => .ok (a, as)

/-- Reads a record from the members of an object. -/
def ofMembers {αs : List Type} (fs : Fields αs) (intake : Intake)
    (members : List (String × Value)) : Except Fault (Row id αs) :=
  match fs.putAll intake fs.blank members with
  | .error fault => .error fault
  | .ok row => fs.finish row

/-- Reads a record; `what` names it in faults. -/
def read {αs : List Type} (fs : Fields αs) (what : String) (intake : Intake) :
    Value → Except Fault (Row id αs)
  | .object members => fs.ofMembers intake members
  | .array vs => ofElements intake what fs.count vs.length fs 0 vs
  | v => .error (.invalidType v what)

/-- The members of a record's object. -/
def write : {αs : List Type} → Fields αs → Row id αs → List (String × Value)
  | _, nil, () => []
  | _, cons field rest, (a, as) => (field.name, field.codec.write a) :: rest.write as

end Fields

namespace Codec

/-- The codec of a type whose values are rows of fields. -/
def record {α : Type} {αs : List Type} (what : String) (fs : Fields αs)
    (ofRow : Row id αs → α) (toRow : α → Row id αs) : Codec α where
  read intake v :=
    match fs.read what intake v with
    | .error fault => .error fault
    | .ok row => .ok (ofRow row)
  write a := .object (fs.write (toRow a))

/-- The codec of such a type that is read from objects only. -/
def members {α : Type} {αs : List Type} (what : String) (fs : Fields αs)
    (ofRow : Row id αs → α) (toRow : α → Row id αs) : Codec α where
  read intake v :=
    match v with
    | .object members =>
      match fs.ofMembers intake members with
      | .error fault => .error fault
      | .ok row => .ok (ofRow row)
    | _ => .error (.invalidType v what)
  write a := .object (fs.write (toRow a))

end Codec

end FleetLink
