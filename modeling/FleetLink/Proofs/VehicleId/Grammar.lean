import FleetLink.VehicleId.Template
import Mathlib.Data.List.TakeWhile

/-!
# The texts that are templates

A template is read in one pass from the left, with tests and cuts at every step.  This module says
**which texts come through**, as a grammar: characters, doubled braces, and placeholders between
single ones, at least one of them.  The grammar has no rule about what to try first.  It needs none,
as nothing in a placeholder is a brace, so that two braces in a row are never the beginning of one.

**A sign slips in.**  The number of a width is read by a reader that takes a plus in front of the
digits, and nothing refuses it before.  So there are two grammars, which differ in that plus only
(`Written`): the one that operators are told of, and the wider one of what is accepted.

## Main Definitions

* `IsWidth`, `IsPlaceholder` — what may stand between braces
* `Written` — a text with some number of placeholders
* `Yields` — what a text is read as, whatever stands behind it

## Main Statements

* `exists_placeholder?_iff` — which placeholders are read
* `written_of_pieces`, `exists_yields_of_written` — which texts are read, with a placeholder or
  without
* `accepted_iff_written` — which texts are templates
* `not_accepted_iff_documented` — they are more than operators are told
-/

namespace FleetLink.Template

/-! ## The grammar -/

/-- The width in a placeholder: digits whose number has sixty-four bits.  With `signed`, a plus may
stand between zeros and digits. -/
inductive IsWidth (signed : Bool) : List Char → Prop
  | plain {digits : List Char} (all : digits.all Char.isDigit = true)
      (fits : Text.decimalValue digits < UInt64.size) : IsWidth signed digits
  | plus {zeros digits : List Char} (allowed : signed = true) (zero : ∀ c ∈ zeros, c = '0')
      (digit : digits ≠ []) (all : digits.all Char.isDigit = true)
      (fits : Text.decimalValue digits < UInt64.size) : IsWidth signed (zeros ++ '+' :: digits)

/-- What stands between the braces of a placeholder: `0` or nothing, and then perhaps a colon with a
width, after which a `d` may stand. -/
def IsPlaceholder (signed : Bool) (field : List Char) : Prop :=
  ∃ name spec, field = name ++ spec ∧ (name = [] ∨ name = ['0']) ∧
    (spec = [] ∨ ∃ width mark, spec = ':' :: (width ++ mark) ∧ IsWidth signed width ∧
      (mark = [] ∨ mark = ['d']))

/-- A text of characters, doubled braces and placeholders, and how many placeholders it has. -/
inductive Written (signed : Bool) : List Char → Nat → Prop
  | nil : Written signed [] 0
  | char {c : Char} {rest : List Char} {n : Nat} (opening : c ≠ '\x7b') (closing : c ≠ '\x7d')
      (behind : Written signed rest n) : Written signed (c :: rest) n
  | doubled {c : Char} {rest : List Char} {n : Nat} (brace : c = '\x7b' ∨ c = '\x7d')
      (behind : Written signed rest n) : Written signed (c :: c :: rest) n
  | placeholder {field rest : List Char} {n : Nat} (own : IsPlaceholder signed field)
      (behind : Written signed rest n) :
      Written signed ('\x7b' :: (field ++ '\x7d' :: rest)) (n + 1)

variable {signed : Bool} {cs field digits zeros width rest : List Char} {offset n : Nat}

/-- What holds without signs holds with them. -/
theorem IsWidth.widen (h : IsWidth false width) : IsWidth true width := by
  cases h with
  | plain all fits => exact .plain all fits
  | plus allowed => cases allowed

theorem IsPlaceholder.widen (h : IsPlaceholder false field) : IsPlaceholder true field := by
  obtain ⟨name, spec, rfl, hname, hspec⟩ := h
  refine ⟨name, spec, rfl, hname, ?_⟩
  rcases hspec with rfl | ⟨width, mark, rfl, hwidth, hmark⟩
  · exact .inl rfl
  · exact .inr ⟨width, mark, rfl, hwidth.widen, hmark⟩

theorem Written.widen (h : Written false cs n) : Written true cs n := by
  induction h with
  | nil => exact .nil
  | char opening closing _ ih => exact .char opening closing ih
  | doubled brace _ ih => exact .doubled brace ih
  | placeholder own _ ih => exact .placeholder own.widen ih

/-- Without a plus, the two grammars are one. -/
theorem IsWidth.narrow (h : IsWidth signed width) (hplus : '+' ∉ width) : IsWidth false width := by
  cases h with
  | plain all fits => exact .plain all fits
  | plus => simp at hplus

theorem IsPlaceholder.narrow (h : IsPlaceholder signed field) (hplus : '+' ∉ field) :
    IsPlaceholder false field := by
  obtain ⟨name, spec, rfl, hname, hspec⟩ := h
  refine ⟨name, spec, rfl, hname, ?_⟩
  rcases hspec with rfl | ⟨width, mark, rfl, hwidth, hmark⟩
  · exact .inl rfl
  · exact .inr ⟨width, mark, rfl, hwidth.narrow fun hmem => hplus (by simp [hmem]), hmark⟩

theorem Written.narrow (h : Written signed cs n) (hplus : '+' ∉ cs) : Written false cs n := by
  induction h with
  | nil => exact .nil
  | char opening closing _ ih =>
      exact .char opening closing (ih fun hmem => hplus (List.mem_cons_of_mem _ hmem))
  | doubled brace _ ih =>
      exact .doubled brace (ih fun hmem => hplus (by simp [hmem]))
  | placeholder own _ ih =>
      exact .placeholder (own.narrow fun hmem => hplus (by simp [hmem]))
        (ih fun hmem => hplus (by simp [hmem]))

/-! ## Widths -/

/-- Everything in a width is a digit or a plus. -/
theorem IsWidth.mem (h : IsWidth signed width) : ∀ c ∈ width, c.isDigit = true ∨ c = '+' := by
  intro c hc
  cases h with
  | plain all fits => exact .inl (List.all_eq_true.mp all c hc)
  | plus allowed zero digit all fits =>
      rcases List.mem_append.mp hc with hzero | hrest
      · exact .inl (by rw [zero c hzero]; decide)
      · rcases List.mem_cons.mp hrest with rfl | hdigit
        · exact .inr rfl
        · exact .inl (List.all_eq_true.mp all c hdigit)

/-- Every text is zeros and what stands behind them. -/
theorem exists_zeros (cs : List Char) :
    ∃ count, cs = List.replicate count '0' ++ cs.dropWhile (· = '0') := by
  refine ⟨(cs.takeWhile (· = '0')).length, ?_⟩
  have hzeros : cs.takeWhile (· = '0') =
      List.replicate (cs.takeWhile (· = '0')).length '0' :=
    List.eq_replicate_iff.mpr ⟨rfl, fun c hc =>
      of_decide_eq_true (List.all_eq_true.mp List.all_takeWhile c hc)⟩
  rw [← hzeros, List.takeWhile_append_dropWhile]

/-- Leading zeros count for nothing. -/
theorem decimalValue_dropWhile (cs : List Char) :
    Text.decimalValue (cs.dropWhile (· = '0')) = Text.decimalValue cs := by
  obtain ⟨count, hcs⟩ := exists_zeros cs
  rw [hcs, Text.decimalValue, Text.decimalValue,
    Text.digitsValue_replicate_append 10 count (by decide), ← hcs]

/-- A number is read from digits, with a plus in front or none. -/
theorem width?_eq_some_iff :
    width? cs = some n ↔ ∃ sign digits, cs = sign ++ digits ∧ (sign = [] ∨ sign = ['+']) ∧
      digits ≠ [] ∧ digits.all Char.isDigit = true ∧ Text.decimalValue digits < UInt64.size ∧
      Text.decimalValue digits = n := by
  have hread : ∀ ds : List Char,
      (if ds ≠ [] ∧ ds.all Char.isDigit ∧ Text.decimalValue ds < UInt64.size then
        some (Text.decimalValue ds) else none) = some n ↔
      ds ≠ [] ∧ ds.all Char.isDigit = true ∧ Text.decimalValue ds < UInt64.size ∧
        Text.decimalValue ds = n := by
    intro ds
    rw [Option.ite_none_right_eq_some, Option.some.injEq, and_assoc, and_assoc]
  unfold width?
  rw [hread]
  split
  next r =>
    constructor
    · exact fun h => ⟨['+'], r, rfl, .inr rfl, h⟩
    · rintro ⟨sign, digits, heq, rfl | rfl, h⟩
      · -- A plus is no digit.
        have hplus := List.all_eq_true.mp h.2.1 '+' (by rw [← List.nil_append digits, ← heq]; simp)
        cases hplus
      · obtain rfl := (List.cons.inj heq).2
        exact h
  next hplain =>
    constructor
    · exact fun h => ⟨[], cs, rfl, .inl rfl, h⟩
    · rintro ⟨sign, digits, rfl, rfl | rfl, h⟩
      · exact h
      · exact absurd rfl (hplain digits)

theorem width?_isSome_iff :
    (width? cs).isSome = true ↔ ∃ sign digits, cs = sign ++ digits ∧ (sign = [] ∨ sign = ['+']) ∧
      digits ≠ [] ∧ digits.all Char.isDigit = true ∧ Text.decimalValue digits < UInt64.size := by
  simp only [Option.isSome_iff_exists, width?_eq_some_iff]
  constructor
  · rintro ⟨_, sign, digits, hsplit, hsign, hne, hall, hfits, -⟩
    exact ⟨sign, digits, hsplit, hsign, hne, hall, hfits⟩
  · rintro ⟨sign, digits, hsplit, hsign, hne, hall, hfits⟩
    exact ⟨_, sign, digits, hsplit, hsign, hne, hall, hfits, rfl⟩

/-- **A width is read** exactly if it is one: nothing is left behind its leading zeros, or a
number. -/
theorem isWidth_iff :
    IsWidth true width ↔
      width.dropWhile (· = '0') = [] ∨ (width? (width.dropWhile (· = '0'))).isSome = true := by
  rw [width?_isSome_iff]
  constructor
  · rintro (⟨all, fits⟩ | ⟨-, zero, digit, all, fits⟩)
    · by_cases hnone : width.dropWhile (· = '0') = []
      · exact .inl hnone
      · refine .inr ⟨[], _, rfl, .inl rfl, hnone, ?_, ?_⟩
        · rw [List.all_eq_true] at all ⊢
          exact fun c hc => all c ((List.dropWhile_suffix _).subset hc)
        · rw [decimalValue_dropWhile]
          exact fits
    next zeros digits =>
      have hdrop : (zeros ++ '+' :: digits).dropWhile (· = '0') = '+' :: digits := by
        rw [List.dropWhile_append_of_pos (by simpa using zero)]
        rfl
      rw [hdrop]
      exact .inr ⟨['+'], digits, rfl, .inr rfl, digit, all, fits⟩
  · obtain ⟨count, hzeros⟩ := exists_zeros width
    have hvalue := decimalValue_dropWhile width
    have hdigit : ∀ c ∈ List.replicate count '0', c.isDigit = true := by
      intro c hc
      rw [List.eq_of_mem_replicate hc]
      decide
    rintro (hnone | ⟨sign, digits, hsplit, rfl | rfl, digit, all, fits⟩)
    · rw [hnone] at hvalue
      refine .plain ?_ (by rw [← hvalue]; decide)
      rw [hzeros, hnone, List.append_nil, List.all_eq_true]
      exact hdigit
    · rw [hsplit] at hvalue hzeros
      refine .plain ?_ (by rw [← hvalue]; exact fits)
      rw [hzeros, List.all_eq_true]
      intro c hc
      rcases List.mem_append.mp hc with hzero | hmem
      · exact hdigit c hzero
      · exact List.all_eq_true.mp all c hmem
    · rw [hzeros, hsplit]
      exact .plus rfl (fun c hc => List.eq_of_mem_replicate hc) digit all fits

/-- A `d` at the end of a width is taken off. -/
theorem isWidth_dropFinalD_iff :
    IsWidth true (dropFinalD cs) ↔
      ∃ width mark, cs = width ++ mark ∧ IsWidth true width ∧ (mark = [] ∨ mark = ['d']) := by
  unfold dropFinalD
  constructor
  · intro h
    split at h
    next hlast =>
      obtain ⟨width, rfl⟩ := List.getLast?_eq_some_iff.mp hlast
      rw [List.dropLast_concat] at h
      exact ⟨width, ['d'], rfl, h, .inr rfl⟩
    next => exact ⟨cs, [], (List.append_nil cs).symm, h, .inl rfl⟩
  · rintro ⟨width, mark, rfl, hwidth, rfl | rfl⟩
    · rw [List.append_nil]
      split
      next hlast =>
        rcases hwidth.mem 'd' (List.mem_of_getLast? hlast) with hd | hd <;> cases hd
      next => exact hwidth
    · simpa using hwidth

/-! ## Placeholders -/

/-- A text is cut at the first of the characters that it is cut at. -/
theorem takeWhile_ne {front : List Char} {c : Char} (h : c ∉ front) (behind : List Char) :
    (front ++ c :: behind).takeWhile (· ≠ c) = front ∧
      (front ++ c :: behind).dropWhile (· ≠ c) = c :: behind := by
  have hpass : ∀ d ∈ front, decide (d ≠ c) = true := by
    intro d hd
    exact decide_eq_true fun heq => h (heq ▸ hd)
  rw [List.takeWhile_append_of_pos hpass, List.dropWhile_append_of_pos hpass]
  exact ⟨by simp, by simp⟩

/-- Behind a name without a colon, a placeholder is read if its width is. -/
theorem placeholder?_isSome_iff {name spec : List Char} (hname : name = [] ∨ name = ['0']) :
    (placeholder? (name ++ ':' :: spec)).isSome = true ↔ IsWidth true (dropFinalD spec) := by
  have hcolon : ':' ∉ name := by
    rcases hname with rfl | rfl <;> decide
  obtain ⟨htake, hdrop⟩ := takeWhile_ne hcolon spec
  rw [isWidth_iff]
  simp only [placeholder?, htake, hdrop, if_pos hname, List.drop_succ_cons, List.drop_zero]
  split
  next hnone => simp [hnone]
  next hthere => simp [hthere]

/-- **A placeholder is read** exactly if it is one. -/
theorem exists_placeholder?_iff :
    (placeholder? field).isSome = true ↔ IsPlaceholder true field := by
  constructor
  · intro h
    have hname : field.takeWhile (· ≠ ':') = [] ∨ field.takeWhile (· ≠ ':') = ['0'] := by
      by_contra hother
      rw [placeholder?, if_neg hother] at h
      cases h
    have hfield := List.takeWhile_append_dropWhile (p := (· ≠ ':')) (l := field)
    cases hspec : field.dropWhile (· ≠ ':') with
    | nil =>
        rw [hspec] at hfield
        exact ⟨_, _, hfield.symm, hname, .inl rfl⟩
    | cons c spec =>
        have hc := List.head?_dropWhile_not (· ≠ ':') field
        rw [hspec] at hc
        obtain rfl : c = ':' := by simpa using hc
        rw [hspec] at hfield
        rw [← hfield, placeholder?_isSome_iff hname, isWidth_dropFinalD_iff] at h
        obtain ⟨width, mark, rfl, hwidth, hmark⟩ := h
        exact ⟨_, _, hfield.symm, hname, .inr ⟨width, mark, rfl, hwidth, hmark⟩⟩
  · rintro ⟨name, spec, rfl, hname, rfl | ⟨width, mark, rfl, hwidth, hmark⟩⟩
    · rcases hname with rfl | rfl <;> decide
    · rw [placeholder?_isSome_iff hname, isWidth_dropFinalD_iff]
      exact ⟨width, mark, rfl, hwidth, hmark⟩

/-- Nothing in a placeholder is a brace. -/
theorem IsPlaceholder.brace_notMem (h : IsPlaceholder signed field) :
    '\x7b' ∉ field ∧ '\x7d' ∉ field := by
  obtain ⟨name, spec, rfl, hname, hspec⟩ := h
  have hshort : '\x7b' ∉ name ∧ '\x7d' ∉ name := by
    rcases hname with rfl | rfl <;> decide
  rcases hspec with rfl | ⟨width, mark, rfl, hwidth, hmark⟩
  · simpa using hshort
  · have hwide : ∀ c ∈ width, c ≠ '\x7b' ∧ c ≠ '\x7d' := by
      intro c hc
      rcases hwidth.mem c hc with hdigit | rfl
      · constructor <;> rintro rfl <;> cases hdigit
      · decide
    have hend : '\x7b' ∉ mark ∧ '\x7d' ∉ mark := by
      rcases hmark with rfl | rfl <;> decide
    simp only [List.mem_append, List.mem_cons, not_or]
    exact ⟨⟨hshort.1, by decide, fun hc => (hwide _ hc).1 rfl, hend.1⟩,
      ⟨hshort.2, by decide, fun hc => (hwide _ hc).2 rfl, hend.2⟩⟩

/-- Operators are told of no plus in a placeholder. -/
theorem IsPlaceholder.plus_notMem (h : IsPlaceholder false field) : '+' ∉ field := by
  obtain ⟨name, spec, rfl, hname, hspec⟩ := h
  have hshort : '+' ∉ name := by
    rcases hname with rfl | rfl <;> decide
  rcases hspec with rfl | ⟨width, mark, rfl, hwidth, hmark⟩
  · simpa using hshort
  · have hwide : '+' ∉ width := by
      cases hwidth with
      | plain all =>
          intro hmem
          have hdigit := List.all_eq_true.mp all '+' hmem
          cases hdigit
      | plus allowed => cases allowed
    have hend : '+' ∉ mark := by
      rcases hmark with rfl | rfl <;> decide
    simp [hshort, hwide, hend]

/-! ## Whole texts -/

/-- A placeholder ends at the first closing brace. -/
theorem field?_append (hfield : '\x7d' ∉ field) (rest : List Char) :
    ∃ h, field? (field ++ '\x7d' :: rest) = some (field, ⟨rest, h⟩) := by
  induction field with
  | nil => exact ⟨_, rfl⟩
  | cons c field ih =>
      rw [List.mem_cons, not_or] at hfield
      obtain ⟨_, hrest⟩ := ih hfield.2
      rw [List.cons_append, field?.eq_3 _ _ fun heq => hfield.1 heq.symm, hrest]
      exact ⟨_, rfl⟩

/-- What is cut off at a closing brace holds none. -/
theorem eq_of_field? {r : List Char} {hr : r.length ≤ cs.length}
    (h : field? cs = some (field, ⟨r, hr⟩)) : cs = field ++ '\x7d' :: r ∧ '\x7d' ∉ field := by
  induction cs generalizing field r with
  | nil => cases h
  | cons c cs ih =>
      by_cases hc : c = '\x7d'
      · subst hc
        cases h
        exact ⟨rfl, List.not_mem_nil⟩
      · rw [field?.eq_3 _ _ hc, Option.map_eq_some_iff] at h
        obtain ⟨⟨front, r', hr'⟩, hfront, heq⟩ := h
        cases heq
        obtain ⟨rfl, hnone⟩ := ih hfront
        exact ⟨rfl, by simpa [hnone] using Ne.symm hc⟩

theorem hasIndex_iff {segments : List Segment} :
    hasIndex segments = true ↔ ∃ zeroPad width, .index zeroPad width ∈ segments := by
  unfold hasIndex
  rw [List.any_eq_true]
  constructor
  · rintro ⟨segment, hmem, hindex⟩
    cases segment with
    | index zeroPad width => exact ⟨zeroPad, width, hmem⟩
    | literal text => cases hindex
  · rintro ⟨zeroPad, width, hmem⟩
    exact ⟨_, hmem, rfl⟩

/-- Some piece depends on the index. -/
def Piece.isIndex : Piece → Bool
  | .index _ _ => true
  | .char _ => false

theorem hasIndex_segmentsOf (ps : List Piece) :
    hasIndex (segmentsOf ps) = ps.any Piece.isIndex := by
  induction ps with
  | nil => rfl
  | cons p ps ih =>
      cases p with
      | index zeroPad width => rfl
      | char c =>
          rw [List.any_cons, ← ih, segmentsOf]
          split <;> simp_all [hasIndex, Piece.isIndex]

/-- Some segment depends on the index exactly if some piece does. -/
theorem hasIndex_segmentsOf_iff {ps : List Piece} :
    hasIndex (segmentsOf ps) = true ↔ 0 < ps.countP Piece.isIndex := by
  rw [hasIndex_segmentsOf, List.any_eq_true, List.countP_pos_iff]

theorem isIndex_of_placeholder? {p : Piece} (h : placeholder? field = some p) :
    p.isIndex = true := by
  simp only [placeholder?] at h
  split at h
  · split at h
    · cases h
      rfl
    · obtain ⟨width, -, rfl⟩ := Option.map_eq_some_iff.mp h
      rfl
  · cases h

/-- What is read in front of other pieces. -/
theorem exists_cons_of_map {p : Piece} {ps : List Piece} {read : Except TemplateFault (List Piece)}
    (h : read.map (p :: ·) = .ok ps) : ∃ rest, read = .ok rest ∧ ps = p :: rest := by
  cases read with
  | error fault => cases h
  | ok rest => exact ⟨rest, rfl, (Except.ok.inj h).symm⟩

/-- **A text that is read** is written by the grammar, with a placeholder for each piece that
depends on the index. -/
theorem written_of_pieces {ps : List Piece} (h : pieces offset cs = .ok ps) :
    Written true cs (ps.countP Piece.isIndex) := by
  fun_induction pieces offset cs generalizing ps with
  | case1 =>
      cases h
      exact .nil
  | case2 offset r ih =>
      obtain ⟨rest, hrest, rfl⟩ := exists_cons_of_map h
      rw [List.countP_cons_of_neg Bool.false_ne_true]
      exact .doubled (.inl rfl) (ih hrest)
  | case3 offset r ih =>
      obtain ⟨rest, hrest, rfl⟩ := exists_cons_of_map h
      rw [List.countP_cons_of_neg Bool.false_ne_true]
      exact .doubled (.inr rfl) (ih hrest)
  | case4 => cases h
  | case5 => cases h
  | case6 => cases h
  | case7 offset r _ f r' _ hfield p hplaceholder ih =>
      obtain ⟨rest, hrest, rfl⟩ := exists_cons_of_map h
      obtain ⟨rfl, -⟩ := eq_of_field? hfield
      rw [List.countP_cons_of_pos (isIndex_of_placeholder? hplaceholder)]
      exact .placeholder (exists_placeholder?_iff.mp (by rw [hplaceholder]; rfl)) (ih hrest)
  | case8 offset c r _ _ hclosing hopening ih =>
      obtain ⟨rest, hrest, rfl⟩ := exists_cons_of_map h
      rw [List.countP_cons_of_neg Bool.false_ne_true]
      exact .char hopening hclosing (ih hrest)

/-! ### One part after the other -/

theorem byteLength_cons (c : Char) (cs : List Char) :
    byteLength (c :: cs) = c.utf8Size + byteLength cs := rfl

theorem byteLength_append (front rest : List Char) :
    byteLength (front ++ rest) = byteLength front + byteLength rest := by
  induction front with
  | nil => exact (Nat.zero_add _).symm
  | cons c front ih => rw [List.cons_append, byteLength_cons, byteLength_cons, ih, Nat.add_assoc]

/-- A text is read as some pieces, whatever stands behind it. -/
def Yields (front : List Char) (ps : List Piece) : Prop :=
  ∀ offset rest, pieces offset (front ++ rest) =
    (pieces (offset + byteLength front) rest).map (ps ++ ·)

theorem yields_nil : Yields [] [] := by
  intro offset rest
  show pieces offset rest = (pieces offset rest).map id
  cases pieces offset rest <;> rfl

theorem Yields.append {front rest : List Char} {ps qs : List Piece} (h : Yields front ps)
    (hrest : Yields rest qs) : Yields (front ++ rest) (ps ++ qs) := by
  intro offset behind
  rw [List.append_assoc, h, hrest, byteLength_append, Nat.add_assoc]
  cases pieces (offset + (byteLength front + byteLength rest)) behind with
  | error fault => rfl
  | ok _ => exact congrArg Except.ok (List.append_assoc _ _ _).symm

theorem Yields.pieces_eq {ps : List Piece} (h : Yields cs ps) (offset : Nat) :
    pieces offset cs = .ok ps := by
  have hall := h offset []
  rw [List.append_nil, pieces.eq_1] at hall
  rw [hall]
  exact congrArg Except.ok (List.append_nil ps)

theorem yields_char {c : Char} (opening : c ≠ '\x7b') (closing : c ≠ '\x7d') :
    Yields [c] [.char c] := by
  intro offset rest
  exact pieces.eq_6 _ _ _ (fun _ heq _ => opening heq) (fun _ heq _ => closing heq) closing opening

theorem yields_doubled {c : Char} (brace : c = '\x7b' ∨ c = '\x7d') : Yields [c, c] [.char c] := by
  intro offset rest
  rcases brace with rfl | rfl
  · exact pieces.eq_2 _ _
  · exact pieces.eq_3 _ _

/-- What stands between braces takes two bytes more with them. -/
theorem byteLength_braced (field : List Char) :
    byteLength ('\x7b' :: (field ++ ['\x7d'])) = byteLength field + 2 := by
  have hbrace : ('\x7b').utf8Size = 1 ∧ byteLength ['\x7d'] = 1 := by decide
  rw [byteLength_cons, byteLength_append, hbrace.1, hbrace.2]
  omega

/-- Two braces in a row do not begin a placeholder, so one does if no other follows it, and it ends
at the first closing brace. -/
theorem pieces_field (single : field.head? ≠ some '\x7b') (closing : '\x7d' ∉ field) (offset : Nat)
    (rest : List Char) :
    (placeholder? field = none →
      pieces offset ('\x7b' :: (field ++ '\x7d' :: rest)) =
        .error (.unsupportedPlaceholder (String.ofList field))) ∧
    ∀ p, placeholder? field = some p →
      pieces offset ('\x7b' :: (field ++ '\x7d' :: rest)) =
        (pieces (offset + byteLength field + 2) rest).map (p :: ·) := by
  obtain ⟨hlength, hfield⟩ := field?_append closing rest
  have hsingle : ∀ r, field ++ '\x7d' :: rest = '\x7b' :: r → False := by
    intro r heq
    cases field with
    | nil => cases heq
    | cons c field =>
        obtain rfl := (List.cons.inj heq).1
        exact single rfl
  rw [pieces.eq_5 _ _ hsingle, hfield]
  dsimp only
  constructor
  · intro hnone
    rw [hnone]
  · intro p hp
    rw [hp]

theorem yields_placeholder {p : Piece} (opening : '\x7b' ∉ field) (closing : '\x7d' ∉ field)
    (hp : placeholder? field = some p) : Yields ('\x7b' :: (field ++ ['\x7d'])) [p] := by
  intro offset rest
  have hsingle : field.head? ≠ some '\x7b' := fun hhead => opening (List.mem_of_head? hhead)
  rw [byteLength_braced, ← Nat.add_assoc, List.cons_append, List.append_assoc,
    List.singleton_append]
  exact (pieces_field hsingle closing offset rest).2 p hp

/-- **What is written by the grammar** is read, whatever stands behind it. -/
theorem exists_yields_of_written (h : Written true cs n) :
    ∃ ps, Yields cs ps ∧ ps.countP Piece.isIndex = n := by
  induction h with
  | nil => exact ⟨[], yields_nil, rfl⟩
  | @char c _ _ opening closing _ ih =>
      obtain ⟨ps, hps, rfl⟩ := ih
      exact ⟨.char c :: ps, (yields_char opening closing).append hps, rfl⟩
  | @doubled c _ _ brace _ ih =>
      obtain ⟨ps, hps, rfl⟩ := ih
      exact ⟨.char c :: ps, (yields_doubled brace).append hps, rfl⟩
  | @placeholder field rest _ own _ ih =>
      obtain ⟨p, hp⟩ := Option.isSome_iff_exists.mp (exists_placeholder?_iff.mpr own)
      obtain ⟨ps, hps, rfl⟩ := ih
      refine ⟨p :: ps, ?_, List.countP_cons_of_pos (isIndex_of_placeholder? hp)⟩
      have hyields := (yields_placeholder own.brace_notMem.1 own.brace_notMem.2 hp).append hps
      rwa [List.cons_append, List.append_assoc, List.singleton_append, List.singleton_append]
        at hyields

/-- What is read as a template knows its text, and has a placeholder. -/
theorem exists_pieces_of_parse {text : String} {t : Template} (h : parse text = .ok t) :
    ∃ ps, pieces 0 text.toList = .ok ps ∧ t = ⟨text, segmentsOf ps⟩ ∧
      hasIndex (segmentsOf ps) = true := by
  unfold parse at h
  split at h
  · cases h
  next ps hps =>
    split at h
    next hindex =>
      cases h
      exact ⟨ps, hps, rfl, hindex⟩
    next => cases h

theorem hasIndex_of_parse {text : String} {t : Template} (h : parse text = .ok t) :
    hasIndex t.segments = true := by
  obtain ⟨ps, -, rfl, hindex⟩ := exists_pieces_of_parse h
  exact hindex

theorem text_of_parse {text : String} {t : Template} (h : parse text = .ok t) : t.text = text := by
  obtain ⟨ps, -, rfl, -⟩ := exists_pieces_of_parse h
  rfl

/-- **Which texts are templates:** those of the wide grammar with a placeholder. -/
theorem exists_parse_iff {text : String} :
    (∃ t, parse text = .ok t) ↔ ∃ n, 0 < n ∧ Written true text.toList n := by
  constructor
  · rintro ⟨t, h⟩
    obtain ⟨ps, hps, -, hindex⟩ := exists_pieces_of_parse h
    exact ⟨_, hasIndex_segmentsOf_iff.mp hindex, written_of_pieces hps⟩
  · rintro ⟨n, hpos, hwritten⟩
    obtain ⟨ps, hps, rfl⟩ := exists_yields_of_written hwritten
    refine ⟨⟨text, segmentsOf ps⟩, ?_⟩
    unfold parse
    rw [hps.pieces_eq 0]
    exact if_pos (hasIndex_segmentsOf_iff.mpr hpos)

/-- **The texts that are accepted as templates** are those of the wide grammar that have a
placeholder.  All that operators are told of is among them, and nothing else is without a plus. -/
theorem accepted_iff_written (text : String) :
    ((∃ t, parse text = .ok t) ↔ ∃ n, 0 < n ∧ Written true text.toList n) ∧
    ((∃ n, 0 < n ∧ Written false text.toList n) → ∃ t, parse text = .ok t) ∧
    ('+' ∉ text.toList →
      ((∃ t, parse text = .ok t) ↔ ∃ n, 0 < n ∧ Written false text.toList n)) := by
  have hwide : (∃ n, 0 < n ∧ Written false text.toList n) → ∃ t, parse text = .ok t := by
    rintro ⟨n, hpos, hwritten⟩
    exact exists_parse_iff.mpr ⟨n, hpos, hwritten.widen⟩
  refine ⟨exists_parse_iff, hwide, fun hplus => ⟨fun h => ?_, hwide⟩⟩
  obtain ⟨n, hpos, hwritten⟩ := exists_parse_iff.mp h
  exact ⟨n, hpos, hwritten.narrow hplus⟩

/-- **More is accepted than operators are told of:** a width with a plus. -/
theorem not_accepted_iff_documented :
    ¬ ∀ text : String, (∃ t, parse text = .ok t) ↔ ∃ n, 0 < n ∧ Written false text.toList n := by
  intro hdocumented
  have hwritten : Written true "\x7b0:+5\x7d".toList 1 := by
    refine @Written.placeholder true ['0', ':', '+', '5'] [] 0 ?_ .nil
    exact ⟨['0'], [':', '+', '5'], rfl, .inr rfl, .inr ⟨['+', '5'], [], rfl,
      @IsWidth.plus true [] ['5'] rfl (by simp) (by simp) (by decide) (by decide), .inl rfl⟩⟩
  obtain ⟨n, -, h⟩ := (hdocumented _).mp (exists_parse_iff.mpr ⟨1, Nat.one_pos, hwritten⟩)
  generalize hcs : "\x7b0:+5\x7d".toList = cs at h
  cases h with
  | nil => cases hcs
  | char opening =>
      cases hcs
      exact opening rfl
  | doubled => cases hcs
  | @placeholder field rest n own behind =>
      have hrest : ['0', ':', '+', '5', '\x7d'] = field ++ '\x7d' :: rest := (List.cons.inj hcs).2
      have hfield := (takeWhile_ne own.brace_notMem.2 rest).1
      rw [← hrest] at hfield
      exact own.plus_notMem (by rw [← hfield]; decide)

end FleetLink.Template
