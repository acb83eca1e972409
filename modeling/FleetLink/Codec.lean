import FleetLink.Codec.Fault
import FleetLink.Text.Base64

/-!
# Codecs

A codec is a reader and a writer of one type of data.  Both sides of a format stand next to each
other, so that `Codec.Lawful`, reading what was written gives it back, is a statement about one
thing.

**Integers and floats.**  An integer is read from an integer literal only, not even from `1.0`.  A
float is read from either, an integer literal standing for the nearest float.

**How strict a reader is depends on how the data came to it.**  `Intake` names the three ways.  They
differ in what a surplus of elements, a name and a tag may look like, and in nothing else.

## Main Definitions

* `Intake` — how data comes to a reader
* `Codec`, `Codec.Lawful` — a reader and a writer, and that they agree
* `Codec.readName`, `Codec.readTag` — one name out of a list
-/

namespace FleetLink

open Json (Value)

/-- How data comes to a reader. -/
inductive Intake where
  /-- Straight from what was parsed. -/
  | direct
  /-- Set aside first, because the tag that says what it is was not known. -/
  | buffered
  /-- As part of a document that people write. -/
  | document
  deriving DecidableEq, Repr

/-- A reader and a writer of one type of data. -/
structure Codec (α : Type) where
  read : Intake → Value → Except Fault α
  write : α → Value

namespace Codec

variable {α β : Type}

/-- Reading what was written gives it back. -/
def Lawful (c : Codec α) : Prop :=
  ∀ intake a, c.read intake (c.write a) = .ok a

/-- An integer below `2 ^ bits`, of the kind named. -/
def readWord (bits : Nat) (want : String) (v : Value) : Except Fault Nat :=
  match v with
  | .number (.int i) =>
    if 0 ≤ i ∧ i.toNat < Nat.pow 2 bits then .ok i.toNat else .error (.invalidValue v want)
  | _ => .error (.invalidType v want)

/-- Eight bits. -/
def word8 : Codec UInt8 where
  read _ v := (readWord 8 "u8" v).map UInt8.ofNat
  write a := .ofNat a.toNat

/-- Thirty-two bits. -/
def word32 : Codec UInt32 where
  read _ v := (readWord 32 "u32" v).map UInt32.ofNat
  write a := .ofNat a.toNat

/-- Sixty-four bits. -/
def word64 : Codec UInt64 where
  read _ v := (readWord 64 "u64" v).map UInt64.ofNat
  write a := .ofNat a.toNat

/-- A count of things held in memory, of sixty-four bits. -/
def count64 : Codec UInt64 where
  read _ v := (readWord 64 "usize" v).map UInt64.ofNat
  write a := .ofNat a.toNat

/-- A float. -/
def float : Codec Binary64 where
  read
    | _, .number (.int i) => .ok (.ofInt i)
    | _, .number (.float x) => .ok x
    | _, v => .error (.invalidType v "f64")
  write := .ofFloat

/-- A truth value. -/
def boolean : Codec Bool where
  read
    | _, .bool b => .ok b
    | _, v => .error (.invalidType v "a boolean")
  write := .bool

/-- A text of the kind named. -/
def text (want : String) : Codec String where
  read
    | _, .string s => .ok s
    | _, v => .error (.invalidType v want)
  write := .string

/-- Any text. -/
def string : Codec String := text "a string"

/-- Bytes, as base64. -/
def bytes : Codec (List UInt8) where
  read intake v :=
    match string.read intake v with
    | .error fault => .error fault
    | .ok s =>
      match Text.Base64.decode s with
      | some bs => .ok bs
      | none => .error .invalidBase64
  write bs := .string (Text.Base64.encode bs)

/-- A value that may be absent, as null. -/
def option (c : Codec α) : Codec (Option α) where
  read
    | _, .null => .ok none
    | intake, v => (c.read intake v).map some
  write := .ofOption c.write

/-- Reads elements in order, the first of which has the given position. -/
def readElements (c : Codec α) (intake : Intake) : Nat → List Value → Except Fault (List α)
  | _, [] => .ok []
  | position, v :: vs =>
    match c.read intake v with
    | .error fault => .error (fault.under (.element position))
    | .ok a =>
      match readElements c intake (position + 1) vs with
      | .error fault => .error fault
      | .ok as => .ok (a :: as)

/-- Values in order. -/
def list (c : Codec α) : Codec (List α) where
  read
    | intake, .array vs => c.readElements intake 0 vs
    | _, v => .error (.invalidType v "a sequence")
  write as := .array (as.map c.write)

/-- The name itself, if it is one of a list. -/
def knownName (known : List String) (name : String) : Except Fault String :=
  if name ∈ known then .ok name else .error (.unknownVariant name known)

/-- What stands under a name is nothing: null, or in data that was set aside an empty table, or in a
document, which has no null, an empty container. -/
def isNothing : Intake → Value → Bool
  | .direct, .null => true
  | .buffered, .null | .buffered, .object [] => true
  | .document, .object [] | .document, .array [] => true
  | _, _ => false

/-- One name out of a list.  A table with the name as its only entry and nothing under it means the
name as well. -/
def readName (known : List String) (intake : Intake) (v : Value) : Except Fault String :=
  match v with
  | .string name => knownName known name
  | .object [(name, content)] =>
    if intake = .document ∧ content.isNull then .error (.noName v)
    else
      match knownName known name with
      | .error fault => .error (fault.under (.name name))
      | .ok name =>
        if isNothing intake content then .ok name
        else .error (.under (.content name) (.filledName content))
  | .object members => .error (.notOneName members.length)
  | _ => .error (.noName v)

/-- One name out of a list, as the tag of a record.  In data that was set aside the position of the
name means the name as well. -/
def readTag (known : List String) (intake : Intake) (v : Value) : Except Fault String :=
  match intake, v with
  | _, .string name => knownName known name
  | .buffered, .number (.int i) =>
    if i < 0 then .error (.invalidType v "variant identifier")
    else
      match known[i.toNat]? with
      | some name => .ok name
      | none => .error (.invalidValue v s!"variant index 0 <= i < {known.length}")
  | _, _ => .error (.invalidType v "variant identifier")

@[simp] theorem list_read_array (c : Codec α) (intake : Intake) (vs : List Value) :
    c.list.read intake (.array vs) = c.readElements intake 0 vs := rfl

@[simp] theorem option_read_null (c : Codec α) (intake : Intake) :
    c.option.read intake .null = .ok none := rfl

end Codec

end FleetLink
