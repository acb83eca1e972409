import FleetLink.Json.Value
import FleetLink.Binary64.Shortest

/-!
# Writing JSON

Two layouts of one value.  `compact` has no blanks at all; `pretty` puts every element and member
on a line of its own, two blanks further in than what holds it.  Neither changes the order of
members: a report that wants its names sorted passes `Value.sorted`.

A string escapes the quote, the backslash and the control characters, the common ones of these by
their letter.  Everything else stands as it is.  A float that is not finite has no text in JSON and
is written as null.
-/

namespace FleetLink.Json

/-- A hexadecimal digit in lower case. -/
def hexLetter (n : Nat) : Char :=
  if n < 10 then Char.ofNat ('0'.toNat + n) else Char.ofNat ('a'.toNat + (n - 10))

/-- A character as it stands inside quotes. -/
def escapeChar (c : Char) : List Char :=
  match c with
  | '"' => ['\\', '"']
  | '\\' => ['\\', '\\']
  | '\x08' => ['\\', 'b']
  | '\x0C' => ['\\', 'f']
  | '\n' => ['\\', 'n']
  | '\r' => ['\\', 'r']
  | '\t' => ['\\', 't']
  | c =>
    if c.toNat < 0x20 then
      ['\\', 'u', '0', '0', hexLetter (c.toNat / 16), hexLetter (c.toNat % 16)]
    else [c]

/-- A text in quotes. -/
def quoted (s : String) : String :=
  String.ofList ('"' :: s.toList.flatMap escapeChar ++ ['"'])

/-- The text of a number. -/
def Number.text : Number → String
  | .int i => toString i
  | .float x => x.compact?.getD "null"

mutual

/-- A value without any blanks. -/
def Value.compact : Value → String
  | .null => "null"
  | .bool true => "true"
  | .bool false => "false"
  | .number n => n.text
  | .string s => quoted s
  | .array elements => "[" ++ ",".intercalate (compactElements elements) ++ "]"
  | .object members => "\x7b" ++ ",".intercalate (compactMembers members) ++ "\x7d"

/-- `Value.compact` for each element. -/
def compactElements : List Value → List String
  | [] => []
  | v :: rest => v.compact :: compactElements rest

/-- Each member as its quoted name, a colon and its value. -/
def compactMembers : List (String × Value) → List String
  | [] => []
  | (name, v) :: rest => (quoted name ++ ":" ++ v.compact) :: compactMembers rest

end

/-- A new line at a depth. -/
def lineBreak (depth : Nat) : String :=
  String.ofList ('\n' :: List.replicate (2 * depth) ' ')

/-- Items between brackets, each on a line one deeper than the brackets; no items need no lines. -/
def block (depth : Nat) (left right : String) (items : List String) : String :=
  if items = [] then left ++ right
  else
    left ++ lineBreak (depth + 1) ++ ("," ++ lineBreak (depth + 1)).intercalate items ++
      lineBreak depth ++ right

mutual

/-- A value over several lines, standing at a depth. -/
def Value.prettyAt (depth : Nat) : Value → String
  | .array elements => block depth "[" "]" (prettyElements (depth + 1) elements)
  | .object members => block depth "\x7b" "\x7d" (prettyMembers (depth + 1) members)
  | .null => "null"
  | .bool true => "true"
  | .bool false => "false"
  | .number n => n.text
  | .string s => quoted s

/-- `Value.prettyAt` for each element. -/
def prettyElements (depth : Nat) : List Value → List String
  | [] => []
  | v :: rest => v.prettyAt depth :: prettyElements depth rest

/-- Each member as its quoted name, a colon, a blank and its value. -/
def prettyMembers (depth : Nat) : List (String × Value) → List String
  | [] => []
  | (name, v) :: rest => (quoted name ++ ": " ++ v.prettyAt depth) :: prettyMembers depth rest

end

/-- A value over several lines. -/
def Value.pretty (v : Value) : String := v.prettyAt 0

end FleetLink.Json
