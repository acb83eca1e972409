import FleetLink.Json.Value
import FleetLink.Text.Digits
import FleetLink.Text.Scanner

/-!
# Reading JSON

`parse` reads a text that holds one value and nothing else but blanks.  It refuses what the grammar
refuses, and besides: a raw control character in a string, half a surrogate pair, a number too
large for binary64, and containers nested deeper than `nestingLimit`.

## Main Definitions

* `string`, `number`, `value` — the parts of the grammar
* `parse` — a whole text
-/

namespace FleetLink.Json

open Text (Scanner hexDigit? decimalValue)
open Text.Scanner

/-- The four characters that may stand between the parts of a value. -/
def isGap (c : Char) : Bool :=
  c = ' ' || c = '\t' || c = '\n' || c = '\r'

/-- Any gaps. -/
def gaps : Scanner Unit := do
  let _ ← span isGap

/-- A certain character after any gaps. -/
def mark (c : Char) : Scanner Unit := do
  gaps
  char c

/-- The value of four hexadecimal digits. -/
def hexUnit : Scanner Nat := do
  let a ← given (hexDigit? (← satisfy fun _ => true))
  let b ← given (hexDigit? (← satisfy fun _ => true))
  let c ← given (hexDigit? (← satisfy fun _ => true))
  let d ← given (hexDigit? (← satisfy fun _ => true))
  return ((a * 16 + b) * 16 + c) * 16 + d

/-- A character by number, behind `\u`.  Two escapes that are the halves of a surrogate pair are one
character; a half on its own is none. -/
def numberedChar : Scanner Char := do
  let unit ← hexUnit
  if unit < 0xD800 ∨ 0xDFFF < unit then
    return Char.ofNat unit
  else if unit ≤ 0xDBFF then
    word ['\\', 'u']
    let low ← hexUnit
    if 0xDC00 ≤ low ∧ low ≤ 0xDFFF then
      return Char.ofNat (0x10000 + (unit - 0xD800) * 0x400 + (low - 0xDC00))
    else fail
  else fail

/-- The character that one letter after a backslash stands for. -/
def simpleEscape? (c : Char) : Option Char :=
  match c with
  | '"' => some '"'
  | '\\' => some '\\'
  | '/' => some '/'
  | 'b' => some '\x08'
  | 'f' => some '\x0C'
  | 'n' => some '\n'
  | 'r' => some '\r'
  | 't' => some '\t'
  | _ => none

/-- What follows a backslash. -/
def escape : Scanner Char := do
  match ← satisfy fun _ => true with
  | 'u' => numberedChar
  | c => given (simpleEscape? c)

/-- One character of a string. -/
def stringChar : Scanner Char := do
  match ← satisfy fun c => c ≠ '"' && 0x20 ≤ c.toNat with
  | '\\' => escape
  | c => return c

/-- A string. -/
def string : Scanner String := do
  char '"'
  let cs ← many stringChar
  char '"'
  return String.ofList cs

/-- A float as a number, if it is one that can be written. -/
def Number.finite? (x : Binary64) : Option Number :=
  if x.isFinite then some (.float x) else none

/-- The number of an integer literal: an integer if it fits sixty-four bits, with or without sign,
else the nearest float.  Minus zero is a float, as no integer is. -/
def Number.ofInteger? (negative : Bool) (n : Nat) : Option Number :=
  if negative then
    if n = 0 then some (.float (.ofDecimal true 0 0))
    else if n ≤ Nat.pow 2 63 then some (.int (-n))
    else finite? (.ofDecimal true n 0)
  else if n < UInt64.size then some (.int n)
  else finite? (.ofDecimal false n 0)

/-- The digits behind a point; there must be some. -/
def fraction : Scanner (List Char) := do
  char '.'
  span1 Char.isDigit

/-- A power of ten. -/
def power : Scanner Int := do
  let _ ← satisfy fun c => c = 'e' || c = 'E'
  let sign ← optional (satisfy fun c => c = '-' || c = '+')
  let n := decimalValue (← span1 Char.isDigit)
  return if sign = some '-' then -(n : Int) else n

/-- A number: an optional minus, digits without a leading zero, a fraction, a power of ten. -/
def number : Scanner Number := do
  let negative := (← optional (char '-')).isSome
  let ds ← span1 Char.isDigit
  if ds.head? = some '0' ∧ ds.length ≠ 1 then fail
  else
    let places ← optional fraction
    let exponent ← optional power
    if places.isNone ∧ exponent.isNone then
      given (Number.ofInteger? negative (decimalValue ds))
    else
      let behind := places.getD []
      given (Number.finite? (.ofDecimal negative (decimalValue (ds ++ behind))
        (exponent.getD 0 - behind.length)))

/-- A value that holds no other. -/
def scalar : Scanner Value := do
  gaps
  match ← peek with
  | some '"' => return .string (← string)
  | some 't' => do word ['t', 'r', 'u', 'e']; return .bool true
  | some 'f' => do word ['f', 'a', 'l', 's', 'e']; return .bool false
  | some 'n' => do word ['n', 'u', 'l', 'l']; return .null
  | _ => return .number (← number)

/-- One member of an object: its name, a colon, its value. -/
def member (item : Scanner Value) : Scanner (String × Value) := do
  gaps
  let name ← string
  mark ':'
  return (name, ← item)

/-- An array. -/
def array (item : Scanner Value) : Scanner Value := do
  mark '['
  let elements ← optional (separated item (mark ','))
  mark ']'
  return .array (elements.getD [])

/-- An object. -/
def object (item : Scanner Value) : Scanner Value := do
  mark '\x7b'
  let members ← optional (separated (member item) (mark ','))
  mark '\x7d'
  return .object (members.getD [])

/-- A value that holds containers nested at most `depth` deep. -/
def value : (depth : Nat) → Scanner Value
  | 0 => scalar
  | depth + 1 => do
    gaps
    match ← peek with
    | some '[' => array (value depth)
    | some '\x7b' => object (value depth)
    | _ => scalar

/-- How deep containers may be nested. -/
def nestingLimit : Nat := 127

/-- The one value of a text. -/
def parse (text : String) : Option Value :=
  run (do let v ← value nestingLimit; gaps; return v) text

end FleetLink.Json
