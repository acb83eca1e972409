import FleetLink.Binary64

/-!
# JSON values

A value as it was read: an object keeps its members in the order of the text, and a name that
occurs twice is there twice.  Both matter to the readers of records, which report the first fault
they meet and refuse a field that is given twice.

**Integers are not numbers with a zero behind the point.**  `1` and `1.0` are different values, and
a field that wants a count takes the first only.
-/

namespace FleetLink.Json

/-- A number as it was written: with neither point nor exponent, or with one of them. -/
inductive Number where
  | int (i : Int)
  | float (x : Binary64)
  deriving DecidableEq, Repr, Inhabited

/-- A JSON value. -/
inductive Value where
  | null
  | bool (b : Bool)
  | number (n : Number)
  | string (s : String)
  | array (elements : List Value)
  | object (members : List (String × Value))
  deriving Repr, Inhabited

namespace Value

/-- A natural number as a value. -/
def ofNat (n : Nat) : Value := .number (.int n)

/-- A float as a value. -/
def ofFloat (x : Binary64) : Value := .number (.float x)

/-- A value that may be absent; absence is written as null. -/
def ofOption {α : Type} (write : α → Value) : Option α → Value
  | none => .null
  | some a => write a

/-- The first member with a name. -/
def member? (name : String) : Value → Option Value
  | .object members => (members.find? (·.1 = name)).map (·.2)
  | _ => none

/-- The value is null. -/
def isNull : Value → Bool
  | .null => true
  | _ => false

@[simp] theorem ofOption_none {α : Type} (write : α → Value) : ofOption write none = .null := rfl

@[simp] theorem ofOption_some {α : Type} (write : α → Value) (a : α) :
    ofOption write (some a) = write a := rfl

end Value

mutual

/-- The value with the members of every object in the order of their names; of members with one
name the last is kept. -/
def Value.sorted : Value → Value
  | .array elements => .array (sortedElements elements)
  | .object members => .object (lastOfEach ((sortedMembers members).mergeSort fun a b => a.1 ≤ b.1))
  | v => v
where
  /-- Of neighbours with one name, the last. -/
  lastOfEach : List (String × Value) → List (String × Value)
    | [] => []
    | [m] => [m]
    | m :: n :: rest => if m.1 = n.1 then lastOfEach (n :: rest) else m :: lastOfEach (n :: rest)

/-- `Value.sorted` for each element. -/
def sortedElements : List Value → List Value
  | [] => []
  | v :: rest => v.sorted :: sortedElements rest

/-- `Value.sorted` for each member's value. -/
def sortedMembers : List (String × Value) → List (String × Value)
  | [] => []
  | (name, v) :: rest => (name, v.sorted) :: sortedMembers rest

end

end FleetLink.Json
