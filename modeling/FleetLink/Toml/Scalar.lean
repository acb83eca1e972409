import FleetLink.Json.Value
import FleetLink.Text.Digits
import FleetLink.Text.Scanner

/-!
# TOML scalars

Strings in their four spellings, numbers, truth values, dates and times, and the gaps and comments
between them.

**What an escape may stand for.**  Any character by its number, and a few by a letter.  A string
over several lines may besides break a line with a backslash: the backslash, the line end and all
blanks that follow are not part of the string.

**An integer fits sixty-four bits with sign.**  One that does not is not an integer of this format.
A date or a time is read for its form only, since no setting takes one.

**Where a rule commits.**  Once the beginning of a value tells its kind, a failure further on is
final, so that the place of the failure is where the value goes wrong.
-/

namespace FleetLink.Toml

open Json (Value)
open Text (Scanner hexDigit? digitsValue decimalValue)
open Text.Scanner

/-! ### Gaps -/

/-- The blanks within a line. -/
def isGap (c : Char) : Bool := c = ' ' || c = '\t'

/-- Any blanks within a line. -/
def gap : Scanner Unit := do
  let _ ← span isGap

/-- A line end, with or without a carriage return. -/
def newline : Scanner Unit := word ['\n'] <|> word ['\r', '\n']

/-- The characters that may stand in comments and, save for their own marks, in strings. -/
def isPlain (c : Char) : Bool :=
  c = '\t' || (0x20 ≤ c.toNat && c.toNat ≠ 0x7F)

/-- A comment, up to the end of its line. -/
def comment : Scanner Unit := do
  char '#'
  let _ ← span isPlain

/-- The end of a line or of the document. -/
def lineEnd : Scanner Unit := newline <|> atEnd

/-- What may follow on a line that says something. -/
def lineTrail : Scanner Unit := do
  gap
  let _ ← optional comment
  lineEnd

/-- Any blanks and line ends. -/
def wideBlanks : Scanner Unit := do
  let _ ← many (word [' '] <|> word ['\t'] <|> newline)

/-- Any blanks, line ends and comments. -/
def wideGap : Scanner Unit := do
  let _ ← many (word [' '] <|> word ['\t'] <|> newline <|> comment)

/-! ### Strings -/

/-- The character with a number of so many hexadecimal digits. -/
def numberedChar (digits : Nat) : Scanner Char :=
  convert (exactly digits fun c => (hexDigit? c).isSome) fun ds =>
    let n := digitsValue 16 ds
    if n.isValidChar then some (Char.ofNat n) else none

/-- A character behind a backslash.  Nothing else can begin with a backslash, so one that is not
known is a final failure. -/
def escape : Scanner Char := do
  char '\\'
  match ← peek with
  | none => fail
  | some _ => commit (do
    match ← satisfy fun c => c.toNat < 0x80 with
    | 'b' => return '\x08'
    | 't' => return '\t'
    | 'n' => return '\n'
    | 'f' => return '\x0C'
    | 'r' => return '\r'
    | '"' => return '"'
    | '\\' => return '\\'
    | 'u' => numberedChar 4
    | 'U' => numberedChar 8
    | _ => fail)

/-- A line that is broken with a backslash; nothing of it remains. -/
def brokenLine : Scanner (List Char) := do
  char '\\'
  gap
  newline
  wideBlanks
  return []

/-- A plain character other than some marks. -/
def plainExcept (marks : List Char) : Scanner Char :=
  satisfy fun c => isPlain c && c ∉ marks

/-- A character between double quotes that stands for itself. -/
def basicPlain : Scanner Char := plainExcept ['"', '\\']

/-- A character between single quotes. -/
def literalChar : Scanner Char := plainExcept ['\'']

/-- A string within a line. -/
def lineString (quote : Char) (inner : Scanner Char) : Scanner String := do
  char quote
  let cs ← many inner
  commit (char quote)
  return String.ofList cs

/-- One or two quotes in front of something else. -/
def quotesBefore (quote : Char) {α : Type} (next : Scanner α) : Scanner (List Char) :=
  (do word [quote, quote]; ahead next; return [quote, quote])
    <|> (do word [quote]; ahead next; return [quote])

/-- A string between triple quotes.  A line end at its start is not part of it, line ends are single
characters, and up to two quotes may stand in front of the closing ones. -/
def blockString (quote : Char) (inner : Scanner (List Char)) : Scanner String := do
  let mark := word [quote, quote, quote]
  mark
  let _ ← optional newline
  let content := inner <|> (do newline; return ['\n'])
  let parts ← commit (many (content <|> quotesBefore quote content))
  let last ← optional (quotesBefore quote mark)
  commit mark
  return String.ofList (parts.flatten ++ last.getD [])

/-- A string between double quotes. -/
def basicString : Scanner String := lineString '"' (basicPlain <|> escape)

/-- A string between single quotes. -/
def literalString : Scanner String := lineString '\'' literalChar

/-- A string in one of the four spellings. -/
def string : Scanner String :=
  blockString '"' ((do return [← basicPlain]) <|> brokenLine <|> (do return [← escape]))
    <|> basicString
    <|> blockString '\'' (do return [← literalChar])
    <|> literalString

/-! ### Numbers -/

/-- Digits of a class, with single underscores between them, which are left out. -/
def digitGroups (isDigit : Char → Bool) : Scanner (List Char) := do
  let first ← satisfy isDigit
  let rest ← many (satisfy isDigit <|> (do char '_'; commit (satisfy isDigit)))
  return first :: rest

/-- A sign; true for minus. -/
def sign : Scanner Bool := do
  return (← optional (satisfy fun c => c = '-' || c = '+')) = some '-'

/-- A sign and decimal digits.  Nothing belongs to the number behind a leading zero. -/
def wholePart : Scanner (Bool × List Char) := do
  let negative ← sign
  let ds ← (do
    ahead (satisfy fun c => c.isDigit && c ≠ '0')
    digitGroups Char.isDigit) <|> (do return [← satisfy Char.isDigit])
  return (negative, ds)

/-- An integer, if it fits. -/
def integer? (i : Int) : Option Value :=
  if Int64.minValue.toInt ≤ i ∧ i ≤ Int64.maxValue.toInt then some (.number (.int i)) else none

/-- An integer in a base that is announced by a letter. -/
def basedInteger (letter : Char) (base : Nat) : Scanner Value := do
  ahead (word ['0', letter])
  commit (convert
    (do word ['0', letter]; digitGroups fun c => (hexDigit? c).any (· < base))
    fun ds => integer? (digitsValue base ds))

/-- A decimal integer. -/
def decimalInteger : Scanner Value :=
  demand wholePart fun (negative, ds) =>
    integer? (if negative then -(decimalValue ds : Int) else decimalValue ds)

/-- An integer. -/
def integer : Scanner Value :=
  basedInteger 'x' 16 <|> basedInteger 'o' 8 <|> basedInteger 'b' 2 <|> decimalInteger

/-- A power of ten. -/
def power : Scanner Int := do
  let _ ← satisfy fun c => c = 'e' || c = 'E'
  let negative ← sign
  let n := decimalValue (← commit (digitGroups Char.isDigit))
  return if negative then -(n : Int) else n

/-- The digits behind a point. -/
def fraction : Scanner (List Char) := do
  char '.'
  commit (digitGroups Char.isDigit)

/-- The parts of a float in digits: its sign, all its digits, and the power of ten of the last. -/
def decimalParts : Scanner (Bool × List Char × Int) := do
  let (negative, ds) ← wholePart
  (do
    let exponent ← power
    return (negative, ds, exponent)) <|> (do
    let places ← fraction
    let exponent? ← optional power
    return (negative, ds ++ places, exponent?.getD 0 - places.length))

/-- A float in digits: with a fraction, a power of ten, or both. -/
def decimalFloat : Scanner Value :=
  demand decimalParts fun (negative, ds, exponent) =>
    let x := Binary64.ofDecimal negative (decimalValue ds) exponent
    if x = .infinity false then none else some (.ofFloat x)

/-- An infinity or the NaN, by name. -/
def namedFloat : Scanner Value := do
  let negative ← sign
  (do word ['i', 'n', 'f']; return .ofFloat (.infinity negative))
    <|> (do word ['n', 'a', 'n']; return .ofFloat .nan)

/-- A float. -/
def float : Scanner Value := decimalFloat <|> namedFloat

/-! ### Dates and times -/

/-- A number of so many decimal digits within bounds. -/
def boundedNumber (digits least greatest : Nat) : Scanner Nat :=
  convert (exactly digits Char.isDigit) fun ds =>
    let n := decimalValue ds
    if least ≤ n ∧ n ≤ greatest then some n else none

/-- How many days a month has. -/
def daysIn (year month : Nat) : Nat :=
  if month = 2 then
    if (year % 4 = 0 ∧ year % 100 ≠ 0) ∨ year % 400 = 0 then 29 else 28
  else if month = 4 ∨ month = 6 ∨ month = 9 ∨ month = 11 then 30
  else 31

/-- A day. -/
def date : Scanner Unit := do
  let year ← boundedNumber 4 0 9999
  char '-'
  commit (do
    let month ← boundedNumber 2 1 12
    char '-'
    let _ ← boundedNumber 2 1 (daysIn year month))

/-- A time of day. -/
def time : Scanner Unit := do
  let _ ← boundedNumber 2 0 23
  char ':'
  commit (do
    let _ ← boundedNumber 2 0 59
    char ':'
    let _ ← boundedNumber 2 0 60
    let _ ← optional (do char '.'; span1 Char.isDigit))

/-- How far a clock is from universal time. -/
def offset : Scanner Unit := do
  match ← satisfy fun c => c ∈ ['Z', 'z', '+', '-'] with
  | 'Z' | 'z' => done ()
  | _ => commit (do
    let _ ← boundedNumber 2 0 23
    char ':'
    let _ ← boundedNumber 2 0 59)

/-- The name under which the table that stands for a date or time has its only entry. -/
def momentName : String := "date-time"

/-- A day, a time of day, or both; with both there may be an offset. -/
def moment : Scanner Value := do
  (do
    date
    let _ ← optional (do
      let _ ← satisfy fun c => c ∈ ['T', 't', ' ']
      time
      optional offset)) <|> time
  return .object [(momentName, .null)]

/-! ### All of them -/

/-- A value that holds no other. -/
def scalar : Scanner Value := do
  match ← peek with
  | some '"' | some '\'' => return .string (← string)
  | some 't' => do commit (word ['t', 'r', 'u', 'e']); return .bool true
  | some 'f' => do commit (word ['f', 'a', 'l', 's', 'e']); return .bool false
  | some 'i' | some 'n' => namedFloat
  | some '.' => float
  | some c => if c.isDigit || c ∈ ['+', '-', '_'] then moment <|> float <|> integer else fail
  | none => fail

end FleetLink.Toml
