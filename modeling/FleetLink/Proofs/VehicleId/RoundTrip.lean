import Mathlib.Data.List.Chain
import Mathlib.Data.List.Forall2
import FleetLink.Proofs.VehicleId.Placeholders

/-!
# Templates are read as they are written

A template can be put together from segments and written as text.  This module proves that **what is
written is read as the same segments**, if they are as a reader makes them: no literal is empty, no
two literals stand side by side, and a width has sixty-four bits (`IsNormal`).  Every template that
was read is made of such segments, so reading and writing undo each other.

**Braces next to placeholders.**  A literal may end with braces in front of a placeholder, and then
there is a row of braces of which only the last one opens it.  The reader takes two at a time from
the left, and nothing that is written has a single brace but a placeholder; so each segment is read
as its own pieces, whatever stands behind it (`yields_write`).

**Zeros next to widths.**  A zero in front of the width says that zeros pad.  A width never begins
with one itself, and no width is written for none, so that a placeholder with a zero alone says that
zeros pad to no width at all (`placeholder?_field`).

## Main Definitions

* `IsNormal` — segments as a reader makes them
* `Shows` — what a segment shows of an index

## Main Statements

* `yields_write` — a written segment is read as its pieces
* `segmentsOf_pieces` — the pieces of segments are joined to the segments
* `isNormal_of_parse` — what a reader makes
* `write_read_back` — the round trip, and the ids that the template makes
-/

namespace FleetLink

namespace Segment

/-- A segment is text. -/
def isLiteral : Segment → Bool
  | literal _ => true
  | index _ _ => false

/-- What a segment is read as, before runs of characters are joined. -/
def pieces : Segment → List Template.Piece
  | literal text => text.map .char
  | index zeroPad width => [.index zeroPad width]

end Segment

namespace Template

/-- Segments as a reader makes them. -/
structure IsNormal (segments : List Segment) : Prop where
  filled : ∀ text, .literal text ∈ segments → text ≠ []
  apart : segments.IsChain fun first second => first.isLiteral = false ∨ second.isLiteral = false
  sized : ∀ zeroPad width, .index zeroPad width ∈ segments → width < UInt64.size

/-- What a segment shows of an index: a literal itself, a placeholder the digits of the index behind
as many zeros or blanks as it takes to fill the width. -/
def Shows (index : Nat) : Segment → List Char → Prop
  | .literal text, shown => shown = text
  | .index zeroPad width, shown =>
    ∃ count, shown = List.replicate count (if zeroPad then '0' else ' ') ++ Nat.toDigits 10 index ∧
      shown.length = max width (Nat.toDigits 10 index).length

variable {zeroPad : Bool} {width : Nat} {segments : List Segment}

/-! ## Placeholders that are written -/

/-- What is written in a placeholder behind its colon: a zero if zeros pad, and the width if there
is one. -/
def spec (zeroPad : Bool) (width : Nat) : List Char :=
  (if zeroPad then ['0'] else []) ++ if width = 0 then [] else Nat.toDigits 10 width

/-- What is written between the braces of a placeholder. -/
def field (zeroPad : Bool) (width : Nat) : List Char :=
  '0' :: if spec zeroPad width = [] then [] else ':' :: spec zeroPad width

theorem write_index (zeroPad : Bool) (width : Nat) :
    (Segment.index zeroPad width).write = '\x7b' :: (field zeroPad width ++ ['\x7d']) := rfl

theorem isDigit_of_mem_spec {c : Char} (h : c ∈ spec zeroPad width) : c.isDigit = true := by
  rcases List.mem_append.mp h with hzero | hdigit
  · cases zeroPad with
    | false => cases hzero
    | true =>
        rw [List.mem_singleton.mp hzero]
        decide
  · split at hdigit
    · cases hdigit
    · exact Text.isDigit_of_mem_toDigits hdigit

theorem brace_notMem_field (zeroPad : Bool) (width : Nat) :
    '\x7b' ∉ field zeroPad width ∧ '\x7d' ∉ field zeroPad width := by
  have hplain : ∀ c ∈ field zeroPad width, c.isDigit = true ∨ c = ':' := by
    intro c hc
    rcases List.mem_cons.mp hc with rfl | hc
    · exact .inl (by decide)
    · split at hc
      · cases hc
      · rcases List.mem_cons.mp hc with rfl | hspec
        · exact .inr rfl
        · exact .inl (isDigit_of_mem_spec hspec)
  constructor <;> intro hmem <;> rcases hplain _ hmem with hdigit | hcolon
  · cases hdigit
  · cases hcolon
  · cases hdigit
  · cases hcolon

/-- There is no mark behind a width that is written. -/
theorem dropFinalD_spec (zeroPad : Bool) (width : Nat) :
    dropFinalD (spec zeroPad width) = spec zeroPad width := by
  unfold dropFinalD
  split
  next hlast =>
    have hdigit := isDigit_of_mem_spec (List.mem_of_getLast? hlast)
    cases hdigit
  next => rfl

theorem width?_toDigits (fits : width < UInt64.size) :
    width? (Nat.toDigits 10 width) = some width :=
  width?_eq_some_iff.mpr ⟨[], Nat.toDigits 10 width, rfl, .inl rfl, Nat.toDigits_ne_nil,
    List.all_eq_true.mpr fun _ => Text.isDigit_of_mem_toDigits,
    by rwa [Text.decimalValue_toDigits], Text.decimalValue_toDigits width⟩

/-- The zero that says how to pad is told from the width, because no width begins with a zero. -/
theorem spec_of_ne_zero (zeroPad : Bool) (hne : width ≠ 0) :
    spec zeroPad width ≠ [] ∧ decide ((spec zeroPad width).head? = some '0') = zeroPad ∧
      (spec zeroPad width).dropWhile (· = '0') = Nat.toDigits 10 width := by
  have hhead := Text.head?_toDigits_ne hne
  have hdigits : (Nat.toDigits 10 width).dropWhile (· = '0') = Nat.toDigits 10 width := by
    cases hcs : Nat.toDigits 10 width with
    | nil => rfl
    | cons c cs =>
        rw [hcs] at hhead
        exact List.dropWhile_cons_of_neg (by simpa using hhead)
  rw [spec, if_neg hne]
  refine ⟨List.append_ne_nil_of_right_ne_nil _ Nat.toDigits_ne_nil, ?_, ?_⟩
  · cases zeroPad with
    | true => rfl
    | false => exact decide_eq_false hhead
  · cases zeroPad with
    | true => exact hdigits
    | false => exact hdigits

/-- **A placeholder is read from what is written for it.** -/
theorem placeholder?_field (zeroPad : Bool) (fits : width < UInt64.size) :
    placeholder? (field zeroPad width) = some (.index zeroPad width) := by
  by_cases hzero : width = 0
  · subst hzero
    cases zeroPad <;> decide
  · obtain ⟨hne, hpad, hwidth⟩ := spec_of_ne_zero zeroPad hzero
    have hcolon : ':' ∉ ['0'] := by decide
    obtain ⟨htake, hdrop⟩ := takeWhile_ne hcolon (spec zeroPad width)
    have hfield : field zeroPad width = ['0'] ++ ':' :: spec zeroPad width := by
      rw [field, if_neg hne]
      rfl
    simp only [placeholder?, hfield, htake, hdrop, List.drop_succ_cons, List.drop_zero,
      dropFinalD_spec, hwidth, hpad, Nat.toDigits_ne_nil, width?_toDigits fits, or_true, if_true,
      if_false, Option.map_some]

/-! ## Segments that are written -/

/-- **A segment that is written** is read as its own pieces, whatever stands behind it. -/
theorem yields_write {segment : Segment}
    (sized : ∀ zeroPad width, segment = .index zeroPad width → width < UInt64.size) :
    Yields segment.write segment.pieces := by
  cases segment with
  | index zeroPad width =>
      obtain ⟨hopening, hclosing⟩ := brace_notMem_field zeroPad width
      rw [write_index]
      exact yields_placeholder hopening hclosing (placeholder?_field zeroPad (sized _ _ rfl))
  | literal text =>
      induction text with
      | nil => exact yields_nil
      | cons c text ih =>
          have hrest : Yields (Segment.literal text).write (Segment.literal text).pieces :=
            ih fun _ _ => nofun
          have hwrite : (Segment.literal (c :: text)).write =
              (if c = '\x7b' ∨ c = '\x7d' then [c, c] else [c]) ++ (Segment.literal text).write :=
            List.flatMap_cons
          rw [hwrite]
          split
          next hbrace => exact (yields_doubled hbrace).append hrest
          next hplain =>
            rw [not_or] at hplain
            exact (yields_char hplain.1 hplain.2).append hrest

theorem yields_segments (sized : ∀ zeroPad width, .index zeroPad width ∈ segments →
    width < UInt64.size) :
    Yields (segments.flatMap Segment.write) (segments.flatMap Segment.pieces) := by
  induction segments with
  | nil => exact yields_nil
  | cons segment rest ih =>
      have hfirst : Yields segment.write segment.pieces :=
        yields_write fun zeroPad width heq => sized zeroPad width (heq ▸ List.mem_cons_self)
      exact hfirst.append (ih fun zeroPad width hmem =>
        sized zeroPad width (List.mem_cons_of_mem segment hmem))

/-- A run of characters is joined to one literal, if none begins what stands behind it. -/
theorem segmentsOf_map_char {text : List Char} (filled : text ≠ []) {ps : List Piece}
    (apart : ∀ first ∈ (segmentsOf ps).head?, first.isLiteral = false) :
    segmentsOf (text.map .char ++ ps) = .literal text :: segmentsOf ps := by
  induction text with
  | nil => exact absurd rfl filled
  | cons c text ih =>
      rw [List.map_cons, List.cons_append, segmentsOf]
      cases text with
      | nil =>
          rw [List.map_nil, List.nil_append]
          split
          next own more hmore =>
            rw [hmore] at apart
            exact absurd (apart _ rfl) Bool.noConfusion
          next => rfl
      | cons d text => rw [ih (List.cons_ne_nil d text)]

/-- **The pieces of segments are joined to the segments,** if they are as a reader makes them. -/
theorem segmentsOf_pieces (h : IsNormal segments) :
    segmentsOf (segments.flatMap Segment.pieces) = segments := by
  induction segments with
  | nil => rfl
  | cons segment rest ih =>
      obtain ⟨hapart, hchain⟩ := List.isChain_cons.mp h.apart
      have hrest : segmentsOf (rest.flatMap Segment.pieces) = rest :=
        ih ⟨fun text hmem => h.filled text (List.mem_cons_of_mem _ hmem), hchain,
          fun zeroPad width hmem => h.sized zeroPad width (List.mem_cons_of_mem _ hmem)⟩
      rw [List.flatMap_cons]
      cases segment with
      | index zeroPad width =>
          show segmentsOf (.index zeroPad width :: rest.flatMap Segment.pieces) = _
          rw [segmentsOf_index, hrest]
      | literal text =>
          have hbehind : ∀ first ∈ (segmentsOf (rest.flatMap Segment.pieces)).head?,
              first.isLiteral = false := by
            rw [hrest]
            exact fun first hfirst => (hapart first hfirst).resolve_left Bool.noConfusion
          show segmentsOf (text.map .char ++ _) = _
          rw [segmentsOf_map_char (h.filled text List.mem_cons_self) hbehind, hrest]

/-! ## Segments that were read -/

/-- Joining runs of characters leaves no literal empty, and no two side by side. -/
theorem filled_segmentsOf (ps : List Piece) :
    (∀ text, .literal text ∈ segmentsOf ps → text ≠ []) ∧
      (segmentsOf ps).IsChain fun first second =>
        first.isLiteral = false ∨ second.isLiteral = false := by
  induction ps with
  | nil => exact ⟨by simp, .nil⟩
  | cons p ps ih =>
      obtain ⟨hfilled, hapart⟩ := ih
      cases p with
      | index zeroPad width =>
          refine ⟨fun text hmem => ?_, List.isChain_cons.mpr ⟨fun _ _ => .inl rfl, hapart⟩⟩
          exact hfilled text ((List.mem_cons.mp hmem).resolve_left Segment.noConfusion)
      | char c =>
          rw [segmentsOf]
          split
          next own more hmore =>
            rw [hmore] at hfilled hapart
            obtain ⟨hbehind, hchain⟩ := List.isChain_cons.mp hapart
            refine ⟨fun text hmem => ?_, List.isChain_cons.mpr ⟨hbehind, hchain⟩⟩
            rcases List.mem_cons.mp hmem with heq | hmem
            · cases heq
              exact List.cons_ne_nil c own
            · exact hfilled text (List.mem_cons_of_mem _ hmem)
          next hnone =>
            refine ⟨fun text hmem => ?_,
              List.isChain_cons.mpr ⟨fun first hfirst => .inr ?_, hapart⟩⟩
            · rcases List.mem_cons.mp hmem with heq | hmem
              · cases heq
                exact List.cons_ne_nil c []
              · exact hfilled text hmem
            · cases first with
              | index zeroPad width => rfl
              | literal text =>
                  obtain ⟨more, hmore⟩ := List.head?_eq_some_iff.mp hfirst
                  exact absurd hmore (hnone text more)

/-- **What a reader makes.** -/
theorem isNormal_of_parse {text : String} {t : Template} (h : parse text = .ok t) :
    IsNormal t.segments := by
  obtain ⟨ps, -, rfl, -⟩ := exists_pieces_of_parse h
  obtain ⟨hfilled, hapart⟩ := filled_segmentsOf ps
  refine ⟨hfilled, hapart, fun zeroPad width hmem => ?_⟩
  obtain ⟨field, -, hfield⟩ := (mem_segments_iff h).mp hmem
  exact (eq_columns_of_placeholder? hfield).2

/-! ## The round trip -/

/-- **What is written is read as the same segments.** -/
theorem parse_write (hindex : hasIndex segments = true) (h : IsNormal segments) :
    parse (String.ofList (segments.flatMap Segment.write)) =
      .ok ⟨String.ofList (segments.flatMap Segment.write), segments⟩ := by
  have hpieces := (yields_segments h.sized).pieces_eq 0
  unfold parse
  rw [String.toList_ofList, hpieces]
  dsimp only
  rw [segmentsOf_pieces h, if_pos hindex]

/-- Every segment shows the index in its own way. -/
theorem shows_render (index : Nat) (segment : Segment) :
    Shows index segment (segment.render index) := by
  cases segment with
  | literal text => rfl
  | index zeroPad width =>
      refine ⟨width - (Nat.toDigits 10 index).length, rfl, ?_⟩
      rw [Segment.render, padded, List.length_append, List.length_replicate]
      omega

/-- **Templates are read as they are written.**  Take segments of which one at least depends on the
index, and which are as a reader makes them: no literal is empty, no two literals stand side by
side, and every width has sixty-four bits.  These are the segments that can be read at all.

Write the literals with their braces doubled, and the placeholders with what they say about padding
and width.  What is read from this is the same segments.  If no width is above 65535, then every
index can be formatted: its id is what the segments show of it, one behind the other, which is a
literal itself and the digits of the index, with zeros or blanks in front that fill the width. -/
theorem write_read_back (segments : List Segment) :
    ((∃ text t, parse text = .ok t ∧ t.segments = segments) ↔
      (∃ zeroPad width, .index zeroPad width ∈ segments) ∧ IsNormal segments) ∧
    ((∃ zeroPad width, .index zeroPad width ∈ segments) → IsNormal segments →
      ∃ t, parse (String.ofList (segments.flatMap Segment.write)) = .ok t ∧
        t.segments = segments ∧
        ((∀ zeroPad width, .index zeroPad width ∈ segments → width ≤ 65535) →
          ∀ index : UInt32, ∃ shown, t.format? index = some (String.ofList shown.flatten) ∧
            List.Forall₂ (Shows index.toNat) segments shown)) := by
  have hread : (∃ zeroPad width, .index zeroPad width ∈ segments) → IsNormal segments →
      parse (String.ofList (segments.flatMap Segment.write)) =
        .ok ⟨String.ofList (segments.flatMap Segment.write), segments⟩ :=
    fun hindex h => parse_write (hasIndex_iff.mpr hindex) h
  refine ⟨⟨?_, fun ⟨hindex, h⟩ => ⟨_, _, hread hindex h, rfl⟩⟩, fun hindex h => ?_⟩
  · rintro ⟨text, t, hparse, rfl⟩
    exact ⟨hasIndex_iff.mp (hasIndex_of_parse hparse), isNormal_of_parse hparse⟩
  · refine ⟨_, hread hindex h, rfl, fun hwidths index => ?_⟩
    refine ⟨segments.map (·.render index.toNat), ?_, ?_⟩
    · rw [format?, if_pos (fits_iff_segments.mpr hwidths), render, List.flatMap_def]
    · rw [List.forall₂_map_right_iff]
      exact List.forall₂_same.mpr fun segment _ => shows_render index.toNat segment

/-- A literal that ends with a brace, two placeholders side by side, and a literal that is
a brace. -/
private def braced : List Segment :=
  [.literal ['é', '\x7b'], .index true 2, .index false 0, .literal ['\x7d']]

/-- They are written with three braces in a row on either side, and read back. -/
theorem braced_read_back :
    String.ofList (braced.flatMap Segment.write) = "é\x7b\x7b\x7b0:02\x7d\x7b0\x7d\x7d\x7d" ∧
      IsNormal braced ∧
      ∃ t, parse "é\x7b\x7b\x7b0:02\x7d\x7b0\x7d\x7d\x7d" = .ok t ∧ t.segments = braced ∧
        t.format? 7 = some "é\x7b077\x7d" := by
  have hnormal : IsNormal braced := ⟨by simp [braced], by simp [braced, Segment.isLiteral], by
    simp [braced, UInt64.size]⟩
  have hindex : ∃ zeroPad width, .index zeroPad width ∈ braced := ⟨true, 2, by simp [braced]⟩
  have hwritten : String.ofList (braced.flatMap Segment.write) =
      "é\x7b\x7b\x7b0:02\x7d\x7b0\x7d\x7d\x7d" := by decide +kernel
  obtain ⟨t, ht, hsegments, -⟩ := (write_read_back braced).2 hindex hnormal
  refine ⟨hwritten, hnormal, t, hwritten ▸ ht, hsegments, ?_⟩
  rw [format?, render, if_pos (by rw [fits, hsegments]; decide), hsegments]
  decide +kernel

end Template

end FleetLink
