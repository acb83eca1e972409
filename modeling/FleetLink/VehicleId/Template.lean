import FleetLink.Text.Digits

/-!
# Vehicle id templates

Operators write how a fleet index becomes an id: `V-{0:02}` makes `V-07` of vehicle seven.  A
template is text with placeholders in braces; a brace that is meant as text is doubled.  Inside a
placeholder may stand the name `0` (or nothing), then a colon, then a width, and after that a `d`.
A width that starts with a zero pads with zeros, any other with blanks.

**Two steps.**  `pieces` reads the text once from the left into single characters and placeholders,
and reports the first fault with the byte offset where it stands.  `segmentsOf` then joins runs of
characters.  So the segments never hold an empty literal or two literals in a row, and `write` can
print them back.

**Reading is wider than formatting.**  Any width that fits sixty-four bits is accepted, but only
`greatestWidth` columns can be formatted.  `format` refuses the others.

## Main Definitions

* `Segment`, `Template` — the parsed form
* `TemplateFault` — why a text is no template
* `Template.parse` — from text
* `Segment.write` — to text
* `Template.render`, `Template.format` — the id of an index
-/

namespace FleetLink

/-- A part of a template. -/
inductive Segment where
  | literal (text : List Char)
  | index (zeroPad : Bool) (width : Nat)
  deriving DecidableEq, Repr

/-- Why a text is no template. -/
inductive TemplateFault where
  /-- A brace without its partner, at a byte offset. -/
  | unbalancedBrace (offset : Nat)
  /-- What stands between braces is no placeholder. -/
  | unsupportedPlaceholder (field : String)
  /-- Nothing in the template depends on the index. -/
  | missingPlaceholder (template : String)
  deriving DecidableEq, Repr

/-- The wording of a fault. -/
def TemplateFault.message : TemplateFault → String
  | unbalancedBrace offset => s!"unbalanced brace at offset {offset} in id format"
  | unsupportedPlaceholder field => "unsupported placeholder `\x7b" ++ field ++ "\x7d` in id format"
  | missingPlaceholder template => s!"id format `{template}` does not reference the vehicle index"

/-- A template: its text and what it means. -/
structure Template where
  text : String
  segments : List Segment
  deriving DecidableEq, Repr

namespace Template

/-- A single character of text, or a placeholder. -/
inductive Piece where
  | char (c : Char)
  | index (zeroPad : Bool) (width : Nat)
  deriving DecidableEq, Repr

/-- A width: digits, after a plus if there is one, whose number fits sixty-four bits. -/
def width? (cs : List Char) : Option Nat :=
  let ds := match cs with
    | '+' :: r => r
    | _ => cs
  if ds ≠ [] ∧ ds.all Char.isDigit ∧ Text.decimalValue ds < UInt64.size then
    some (Text.decimalValue ds)
  else none

/-- A text without one `d` at its end. -/
def dropFinalD (cs : List Char) : List Char :=
  if cs.getLast? = some 'd' then cs.dropLast else cs

/-- The placeholder that a text between braces asks for: what stands before the first colon is the
name, the rest the width.  No digits behind the leading zeros means no width. -/
def placeholder? (field : List Char) : Option Piece :=
  let name := field.takeWhile (· ≠ ':')
  let spec := dropFinalD ((field.dropWhile (· ≠ ':')).drop 1)
  if name = [] ∨ name = ['0'] then
    let zeroPad := spec.head? = some '0'
    let digits := spec.dropWhile (· = '0')
    if digits = [] then some (.index zeroPad 0)
    else (width? digits).map (.index zeroPad)
  else none

/-- How many bytes characters take. -/
def byteLength (cs : List Char) : Nat :=
  cs.foldr (fun c rest => c.utf8Size + rest) 0

/-- The text before the first closing brace and the text after it, if there is one. -/
def field? (cs : List Char) : Option (List Char × { r : List Char // r.length ≤ cs.length }) :=
  match cs with
  | [] => none
  | '\x7d' :: r => some ([], ⟨r, by simp⟩)
  | c :: r => (field? r).map fun (f, ⟨r', h⟩) => (c :: f, ⟨r', by simp; omega⟩)

/-- Reads the text behind a byte offset from the left. -/
def pieces (offset : Nat) (cs : List Char) : Except TemplateFault (List Piece) :=
  match cs with
  | [] => .ok []
  | '\x7b' :: '\x7b' :: r => (pieces (offset + 2) r).map (.char '\x7b' :: ·)
  | '\x7d' :: '\x7d' :: r => (pieces (offset + 2) r).map (.char '\x7d' :: ·)
  | '\x7d' :: _ => .error (.unbalancedBrace offset)
  | '\x7b' :: r =>
    match field? r with
    | none => .error (.unbalancedBrace offset)
    | some (f, ⟨r', _⟩) =>
      match placeholder? f with
      | none => .error (.unsupportedPlaceholder (String.ofList f))
      | some p => (pieces (offset + byteLength f + 2) r').map (p :: ·)
  | c :: r => (pieces (offset + c.utf8Size) r).map (.char c :: ·)
termination_by cs.length

/-- Joins runs of characters into literals. -/
def segmentsOf : List Piece → List Segment
  | [] => []
  | .index zeroPad width :: rest => .index zeroPad width :: segmentsOf rest
  | .char c :: rest =>
    match segmentsOf rest with
    | .literal text :: more => .literal (c :: text) :: more
    | more => .literal [c] :: more

/-- Some segment depends on the index. -/
def hasIndex (segments : List Segment) : Bool :=
  segments.any fun
    | .index _ _ => true
    | .literal _ => false

/-- Reads a template. -/
def parse (text : String) : Except TemplateFault Template :=
  match pieces 0 text.toList with
  | .error fault => .error fault
  | .ok ps =>
    if hasIndex (segmentsOf ps) then .ok ⟨text, segmentsOf ps⟩
    else .error (.missingPlaceholder text)

/-- The template of a fleet that configures none: at least two digits. -/
def standard : Template := ⟨"\x7b0:02\x7d", [.index true 2]⟩

instance : Inhabited Template := ⟨standard⟩

/-- The decimal digits of an index with padding in front. -/
def padded (zeroPad : Bool) (width index : Nat) : List Char :=
  let ds := Nat.toDigits 10 index
  List.replicate (width - ds.length) (if zeroPad then '0' else ' ') ++ ds

end Template

/-- What a segment contributes to the id of an index. -/
def Segment.render (index : Nat) : Segment → List Char
  | .literal text => text
  | .index zeroPad width => Template.padded zeroPad width index

/-- The text that a segment is written as: braces are doubled, and a width of zero is left out. -/
def Segment.write : Segment → List Char
  | .literal text => text.flatMap fun c => if c = '\x7b' ∨ c = '\x7d' then [c, c] else [c]
  | .index zeroPad width =>
    let spec := (if zeroPad then ['0'] else []) ++ (if width = 0 then [] else Nat.toDigits 10 width)
    ['\x7b', '0'] ++ (if spec = [] then [] else ':' :: spec) ++ ['\x7d']

namespace Template

/-- The id of an index, at any width. -/
def render (t : Template) (index : UInt32) : String :=
  String.ofList (t.segments.flatMap (·.render index.toNat))

/-- The columns that can be formatted. -/
def greatestWidth : Nat := 65535

/-- No placeholder is wider than can be formatted. -/
def fits (t : Template) : Bool :=
  t.segments.all fun
    | .index _ width => width ≤ greatestWidth
    | .literal _ => true

/-- The id of an index, if the template can be formatted at all. -/
def format? (t : Template) (index : UInt32) : Option String :=
  if t.fits then some (t.render index) else none

@[simp] theorem segmentsOf_nil : segmentsOf [] = [] := rfl

@[simp] theorem segmentsOf_index (zeroPad : Bool) (width : Nat) (rest : List Piece) :
    segmentsOf (.index zeroPad width :: rest) = .index zeroPad width :: segmentsOf rest := rfl

@[simp] theorem standard_fits : standard.fits = true := by decide

end Template

end FleetLink
