import FleetLink.Json.Value
import FleetLink.Binary64.Shortest
import FleetLink.Text.Printable

/-!
# Why a value is not what was wanted

Readers of typed data fail with a `Fault`: a cause, with the value that was met and what was wanted
in its place, under the steps that lead to that value.  `Fault.message` puts a cause into words and
`Fault.path` gives the steps.

**A faulty value is shown by its kind.**  Numbers, booleans and strings are shown with their value,
containers by name only.  A string is shown in quotes with whatever does not print escaped, a float
in the layout of data files.

## Main Definitions

* `Step`, `Fault` — where and why reading failed
* `Fault.path`, `Fault.cause` — the two parts of a fault
* `Fault.wording`, `Fault.message` — the words
-/

namespace FleetLink

open Json (Value)

/-- One step into data. -/
inductive Step where
  /-- To the value of a member. -/
  | member (name : String)
  /-- To the element at a position, counted from zero. -/
  | element (position : Nat)
  /-- To the name of a member. -/
  | name (name : String)
  /-- To the value of a member whose name is itself what is read. -/
  | content (name : String)
  deriving DecidableEq, Repr

/-- Why a value could not be read. -/
inductive Fault where
  /-- A value of another kind was wanted. -/
  | invalidType (got : Value) (want : String)
  /-- The kind is right, but the value is out of range. -/
  | invalidValue (got : Value) (want : String)
  /-- A field that has no default is absent. -/
  | missingField (name : String)
  /-- A field is given twice. -/
  | duplicateField (name : String)
  /-- A name that is none of those there are. -/
  | unknownVariant (name : String) (known : List String)
  /-- A name was wanted, or a table with a name as its only entry. -/
  | noName (got : Value)
  /-- The table that was to hold a name as its only entry has another number of entries. -/
  | notOneName (entries : Nat)
  /-- The name that is the only entry of a table has something under it. -/
  | filledName (got : Value)
  /-- A container has the wrong number of elements. -/
  | invalidLength (length : Nat) (want : String)
  /-- A text that is not base64. -/
  | invalidBase64
  /-- A text that breaks rules of its own. -/
  | refused (reason : String)
  /-- A fault one step further in. -/
  | under (step : Step) (fault : Fault)
  deriving Repr

namespace Fault

/-- The steps that lead to the value at fault. -/
def path : Fault → List Step
  | under step fault => step :: fault.path
  | _ => []

/-- The fault as it is at the end of its path. -/
def cause : Fault → Fault
  | under _ fault => fault.cause
  | fault => fault

end Fault

/-! ### Words -/

/-- The characters that show a character inside quotes. -/
def shownChar (c : Char) : List Char :=
  match c with
  | '"' => ['\\', '"']
  | '\\' => ['\\', '\\']
  | '\n' => ['\\', 'n']
  | '\r' => ['\\', 'r']
  | '\t' => ['\\', 't']
  | '\x00' => ['\\', '0']
  | c =>
    if Text.IsPrintable c then [c]
    else ['\\', 'u', '\x7b'] ++ Nat.toDigits 16 c.toNat ++ ['\x7d']

/-- A text in quotes, as faults show it. -/
def shownString (s : String) : String :=
  String.ofList ('"' :: s.toList.flatMap shownChar ++ ['"'])

/-- What a value is called when it is not wanted, given a layout of floats. -/
def shownValue (layout : Binary64 → String) : Value → String
  | .null => "null"
  | .bool b => "boolean `" ++ toString b ++ "`"
  | .number (.int i) => "integer `" ++ toString i ++ "`"
  | .number (.float x) => "floating point `" ++ layout x ++ "`"
  | .string s => "string " ++ shownString s
  | .array _ => "sequence"
  | .object _ => "map"

/-- Names one after another, each in backquotes. -/
def shownNames (names : List String) : String :=
  ", ".intercalate (names.map fun n => "`" ++ n ++ "`")

/-- The names a choice allows, in a sentence. -/
def shownChoice : List String → String
  | [] => "there are no variants"
  | [a] => "expected `" ++ a ++ "`"
  | [a, b] => "expected `" ++ a ++ "` or `" ++ b ++ "`"
  | names => "expected one of " ++ shownNames names

namespace Fault

/-- The words for a fault, given a layout of floats. -/
def wording (layout : Binary64 → String) : Fault → String
  | invalidType got want => s!"invalid type: {shownValue layout got}, expected {want}"
  | invalidValue got want => s!"invalid value: {shownValue layout got}, expected {want}"
  | missingField name => s!"missing field `{name}`"
  | duplicateField name => s!"duplicate field `{name}`"
  | unknownVariant name known => "unknown variant `" ++ name ++ "`, " ++ shownChoice known
  | noName got => s!"invalid type: {shownValue layout got}, expected string or map"
  | notOneName _ => "invalid value: map, expected map with a single key"
  | filledName got => s!"invalid type: {shownValue layout got}, expected unit"
  | invalidLength length want => s!"invalid length {length}, expected {want}"
  | invalidBase64 => "invalid base64"
  | refused reason => reason
  | under _ fault => fault.wording layout

/-- The words for a fault in data. -/
def message (fault : Fault) : String :=
  fault.wording fun x => x.compact?.getD x.plain

@[simp] theorem message_under (step : Step) (fault : Fault) :
    (under step fault).message = fault.message := rfl

end Fault

end FleetLink
