import FleetLink.Proofs.VehicleId.Grammar

/-!
# The placeholders of a template

A template is read into segments, and what its ids look like depends on the segments.  This module
says what they come from: **every segment that depends on the index is a placeholder of the text**,
and every placeholder is one of these segments.

A field is `Placed` in a text if it stands between single braces there.  Which braces are single
depends on what stands in front of them, so a field is placed behind a text that is read by itself.

**The width is the number that a field holds.**  What else may stand in a field counts
for nothing: the name is a zero or nothing, and the colon, the plus and the mark at the
end are no digits.  So the number of all its digits in a row is the width, wherever they
stand (`eq_columns_of_placeholder?`).

**A template is formatted for every index or for none.**  The widths are the same for all indices,
and only they can be too large.

## Main Definitions

* `Placed` — what stands between single braces
* `columns` — the width that a field asks for
* `tooWide` — a template that is accepted and makes no ids

## Main Statements

* `eq_columns_of_placeholder?` — the width is the number of the digits
* `mem_segments_iff` — the segments that depend on the index are the placeholders of the text
* `fits_iff` — which templates can be formatted
-/

namespace FleetLink.Template

variable {field front text rest : List Char} {zeroPad : Bool} {width offset : Nat}
  {ps : List Piece}

/-! ## The width of a field -/

/-- The number of the digits in a field. -/
def columns (field : List Char) : Nat := Text.decimalValue (field.filter Char.isDigit)

/-- Zeros in front count for nothing, and what is no digit does not count either. -/
theorem columns_append_left (h : ∀ c ∈ front, c.isDigit = true → c = '0') (rest : List Char) :
    columns (front ++ rest) = columns rest := by
  have hzeros : front.filter Char.isDigit =
      List.replicate (front.filter Char.isDigit).length '0' := by
    refine List.eq_replicate_iff.mpr ⟨rfl, fun c hc => ?_⟩
    exact h c (List.mem_filter.mp hc).1 (List.mem_filter.mp hc).2
  rw [columns, List.filter_append, hzeros, Text.decimalValue,
    Text.digitsValue_replicate_append 10 _ (by decide)]
  rfl

theorem columns_append_right {mark : List Char} (h : ∀ c ∈ mark, c.isDigit = false) :
    columns (front ++ mark) = columns front := by
  have hnone : mark.filter Char.isDigit = [] :=
    List.filter_eq_nil_iff.mpr fun c hc => by simp [h c hc]
  rw [columns, List.filter_append, hnone, List.append_nil, columns]

theorem columns_of_all (h : field.all Char.isDigit = true) :
    columns field = Text.decimalValue field := by
  rw [columns, List.filter_eq_self.mpr (List.all_eq_true.mp h)]

/-- What stands behind the name of a field. -/
theorem columns_dropWhile_ne
    (h : field.takeWhile (· ≠ ':') = [] ∨ field.takeWhile (· ≠ ':') = ['0']) :
    columns field = columns ((field.dropWhile (· ≠ ':')).drop 1) := by
  have hname : ∀ c ∈ field.takeWhile (· ≠ ':'), c.isDigit = true → c = '0' := by
    intro c hc _
    rcases h with hnone | hzero
    · rw [hnone] at hc
      cases hc
    · rw [hzero] at hc
      exact List.mem_singleton.mp hc
  have hbehind : columns field = columns (field.dropWhile (· ≠ ':')) := by
    conv => lhs; rw [← List.takeWhile_append_dropWhile (p := (· ≠ ':')) (l := field)]
    exact columns_append_left hname _
  rw [hbehind]
  cases hspec : field.dropWhile (· ≠ ':') with
  | nil => rfl
  | cons c spec =>
      have hc := List.head?_dropWhile_not (· ≠ ':') field
      rw [hspec] at hc
      obtain rfl : c = ':' := by simpa using hc
      show columns ([':'] ++ spec) = columns spec
      refine columns_append_left (fun c hc hdigit => ?_) spec
      rw [List.mem_singleton.mp hc] at hdigit
      cases hdigit

theorem columns_dropFinalD (spec : List Char) : columns (dropFinalD spec) = columns spec := by
  unfold dropFinalD
  split
  next hlast =>
    obtain ⟨spec, rfl⟩ := List.getLast?_eq_some_iff.mp hlast
    rw [List.dropLast_concat, columns_append_right]
    exact fun c hc => by rw [List.mem_singleton.mp hc]; rfl
  next => rfl

theorem columns_dropWhile_zero (spec : List Char) :
    columns (spec.dropWhile (· = '0')) = columns spec := by
  obtain ⟨count, hspec⟩ := exists_zeros spec
  conv => rhs; rw [hspec]
  exact (columns_append_left (fun c hc _ => List.eq_of_mem_replicate hc) _).symm

theorem columns_of_width? {digits : List Char} (h : width? digits = some width) :
    columns digits = width := by
  obtain ⟨sign, ds, rfl, hsign, -, hall, -, rfl⟩ := width?_eq_some_iff.mp h
  rw [columns_append_left, columns_of_all hall]
  intro c hc hdigit
  rcases hsign with rfl | rfl
  · cases hc
  · rw [List.mem_singleton.mp hc] at hdigit
    cases hdigit

/-- **The width of a placeholder** is the number of its digits, and has sixty-four bits. -/
theorem eq_columns_of_placeholder? (h : placeholder? field = some (.index zeroPad width)) :
    width = columns field ∧ width < UInt64.size := by
  simp only [placeholder?] at h
  split at h
  next hname =>
    have hdigits : columns field =
        columns ((dropFinalD ((field.dropWhile (· ≠ ':')).drop 1)).dropWhile (· = '0')) := by
      rw [columns_dropWhile_zero, columns_dropFinalD, columns_dropWhile_ne hname]
    rw [hdigits]
    split at h
    next hnone =>
      cases h
      exact ⟨by rw [hnone]; rfl, by decide⟩
    next =>
      obtain ⟨own, hown, heq⟩ := Option.map_eq_some_iff.mp h
      cases heq
      obtain ⟨_, _, -, -, -, -, hfits, rfl⟩ := width?_eq_some_iff.mp hown
      exact ⟨(columns_of_width? hown).symm, hfits⟩
  next => cases h

/-! ## What stands between braces -/

/-- A field stands between single braces in a text. -/
def Placed (field text : List Char) : Prop :=
  ∃ before after n, text = before ++ '\x7b' :: (field ++ '\x7d' :: after) ∧
    Written true before n ∧ '\x7b' ∉ field ∧ '\x7d' ∉ field

/-- What is placed in a text is placed in it behind what is read by itself. -/
theorem Placed.behind (h : Placed field text) (before : List Char)
    (hbefore : ∀ {cs n}, Written true cs n → ∃ m, Written true (before ++ cs) m) :
    Placed field (before ++ text) := by
  obtain ⟨first, after, n, rfl, hfirst, hbraces⟩ := h
  obtain ⟨m, hm⟩ := hbefore hfirst
  exact ⟨before ++ first, after, m, (List.append_assoc _ _ _).symm, hm, hbraces⟩

theorem mem_of_isIndex {p : Piece} {c : Char} (hp : p ∈ .char c :: ps) (hindex : p.isIndex = true) :
    p ∈ ps := by
  rcases List.mem_cons.mp hp with rfl | hmem
  · cases hindex
  · exact hmem

/-- A piece that depends on the index comes from a placeholder. -/
theorem exists_placed_of_mem (h : pieces offset text = .ok ps) {p : Piece} (hp : p ∈ ps)
    (hindex : p.isIndex = true) : ∃ field, Placed field text ∧ placeholder? field = some p := by
  fun_induction pieces offset text generalizing ps with
  | case1 =>
      cases h
      cases hp
  | case2 offset r ih =>
      obtain ⟨rest, hrest, rfl⟩ := exists_cons_of_map h
      obtain ⟨field, hplaced, hfield⟩ := ih hrest (mem_of_isIndex hp hindex)
      exact ⟨field, hplaced.behind ['\x7b', '\x7b'] fun hw => ⟨_, .doubled (.inl rfl) hw⟩, hfield⟩
  | case3 offset r ih =>
      obtain ⟨rest, hrest, rfl⟩ := exists_cons_of_map h
      obtain ⟨field, hplaced, hfield⟩ := ih hrest (mem_of_isIndex hp hindex)
      exact ⟨field, hplaced.behind ['\x7d', '\x7d'] fun hw => ⟨_, .doubled (.inr rfl) hw⟩, hfield⟩
  | case4 => cases h
  | case5 => cases h
  | case6 => cases h
  | case7 offset r _ f r' _ hcut first hplaceholder ih =>
      obtain ⟨rest, hrest, rfl⟩ := exists_cons_of_map h
      obtain ⟨rfl, -⟩ := eq_of_field? hcut
      have own : IsPlaceholder true f := exists_placeholder?_iff.mp (by rw [hplaceholder]; rfl)
      rcases List.mem_cons.mp hp with rfl | hmem
      · exact ⟨f, ⟨[], r', 0, rfl, .nil, own.brace_notMem⟩, hplaceholder⟩
      · obtain ⟨field, hplaced, hfield⟩ := ih hrest hmem
        have hbehind := hplaced.behind ('\x7b' :: (f ++ ['\x7d'])) fun {cs n} hw =>
          ⟨n + 1, by simpa using Written.placeholder own hw⟩
        exact ⟨field, by simpa using hbehind, hfield⟩
  | case8 offset c r _ _ hclosing hopening ih =>
      obtain ⟨rest, hrest, rfl⟩ := exists_cons_of_map h
      obtain ⟨field, hplaced, hfield⟩ := ih hrest (mem_of_isIndex hp hindex)
      exact ⟨field, hplaced.behind [c] fun hw => ⟨_, .char hopening hclosing hw⟩, hfield⟩

/-- What stands between single braces of a text that is read is a placeholder, and read as a
piece. -/
theorem exists_mem_of_placed (h : pieces offset text = .ok ps) (hplaced : Placed field text) :
    ∃ p ∈ ps, p.isIndex = true ∧ placeholder? field = some p := by
  obtain ⟨before, after, n, rfl, hbefore, hopening, hclosing⟩ := hplaced
  obtain ⟨first, hyields, -⟩ := exists_yields_of_written hbefore
  obtain ⟨hnone, hsome⟩ := pieces_field (fun hhead => hopening (List.mem_of_head? hhead)) hclosing
    (offset + byteLength before) after
  rw [hyields] at h
  cases hp : placeholder? field with
  | none =>
      rw [hnone hp] at h
      cases h
  | some p =>
      rw [hsome p hp] at h
      refine ⟨p, ?_, isIndex_of_placeholder? hp, rfl⟩
      cases hrest : pieces (offset + byteLength before + byteLength field + 2) after with
      | error fault =>
          rw [hrest] at h
          cases h
      | ok rest =>
          rw [hrest] at h
          cases h
          simp

/-! ## Segments -/

/-- Joining runs of characters leaves the pieces alone that depend on the index. -/
theorem index_mem_segmentsOf_iff :
    .index zeroPad width ∈ segmentsOf ps ↔ .index zeroPad width ∈ ps := by
  induction ps with
  | nil => simp
  | cons p ps ih =>
      cases p with
      | index => simp [ih]
      | char c =>
          rw [segmentsOf]
          split
          next text more hmore =>
            rw [hmore] at ih
            simpa using ih
          next => simpa using ih

/-- **The segments that depend on the index** are the placeholders of the text. -/
theorem mem_segments_iff {text : String} {t : Template} (h : parse text = .ok t) :
    .index zeroPad width ∈ t.segments ↔
      ∃ field, Placed field text.toList ∧ placeholder? field = some (.index zeroPad width) := by
  obtain ⟨ps, hps, rfl, -⟩ := exists_pieces_of_parse h
  show _ ∈ segmentsOf ps ↔ _
  rw [index_mem_segmentsOf_iff]
  constructor
  · exact fun hmem => exists_placed_of_mem hps hmem rfl
  · rintro ⟨field, hplaced, hfield⟩
    obtain ⟨p, hmem, -, hp⟩ := exists_mem_of_placed hps hplaced
    obtain rfl := Option.some.inj (hfield.symm.trans hp)
    exact hmem

theorem fits_iff_segments {t : Template} :
    t.fits = true ↔ ∀ zeroPad width, .index zeroPad width ∈ t.segments → width ≤ greatestWidth := by
  unfold fits
  rw [List.all_eq_true]
  constructor
  · exact fun hall zeroPad width hmem => of_decide_eq_true (hall _ hmem)
  · intro hall segment hmem
    cases segment with
    | literal text => rfl
    | index zeroPad width => exact decide_eq_true (hall zeroPad width hmem)

/-- **Which templates can be formatted:** those in which no placeholder asks for more columns than
there can be. -/
theorem fits_iff {text : String} {t : Template} (h : parse text = .ok t) :
    t.fits = true ↔ ∀ field, Placed field text.toList → columns field ≤ greatestWidth := by
  rw [fits_iff_segments]
  constructor
  · intro hall field hplaced
    obtain ⟨ps, hps, -, -⟩ := exists_pieces_of_parse h
    obtain ⟨p, -, hindex, hp⟩ := exists_mem_of_placed hps hplaced
    cases p with
    | char c => cases hindex
    | index zeroPad width =>
        rw [← (eq_columns_of_placeholder? hp).1]
        exact hall zeroPad width ((mem_segments_iff h).mpr ⟨field, hplaced, hp⟩)
  · intro hall zeroPad width hmem
    obtain ⟨field, hplaced, hp⟩ := (mem_segments_iff h).mp hmem
    rw [(eq_columns_of_placeholder? hp).1]
    exact hall field hplaced

theorem isSome_format?_iff {t : Template} (index : UInt32) :
    (t.format? index).isSome = true ↔ t.fits = true := by
  unfold format?
  split <;> simp_all

/-! ## One column too many -/

/-- A template that can be read and cannot be formatted. -/
def tooWide : Template := ⟨"\x7b0:65536\x7d", [.index false 65536]⟩

theorem parse_text_tooWide : parse tooWide.text = .ok tooWide := by decide +kernel

@[simp] theorem tooWide_fits : tooWide.fits = false := by decide

end FleetLink.Template
