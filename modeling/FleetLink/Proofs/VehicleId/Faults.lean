import FleetLink.Proofs.VehicleId.Grammar

/-!
# Where a template goes wrong

An operator whose template is refused is told one fault of it.  This module says that it is **the
leftmost one**: in front of the brace that the fault is about stands a text with which nothing is
wrong, except that it may have no placeholder yet (`IsFlawless`).  Of a missing placeholder one is
told only if nothing else is wrong with the whole text, and then every brace in it is doubled.

**What stands in front can be read by itself.**  The reader looks ahead: past a brace, to tell
whether it is doubled, and past an opening one as far as the next closing one.  But a part that was
read is complete before the next begins, and stays what it is if the text is cut off behind it.  So
a fault can be told from two things, a front that the grammar writes, and what stands behind it
that no reader gets past (`Stuck`).

**Offsets count bytes.**  The offset of a fault is the size of the front in bytes of UTF-8.  So it
never points inside a character.

## Main Definitions

* `Stuck` — what no reader gets past, and the fault that it tells
* `Breaks` — a text with a front that the grammar writes, and something behind it to be stuck at
* `IsFlawless` — a text with which nothing is wrong, except that it may have no placeholder
* `IsLeftmostFault` — what a fault says about a text

## Main Statements

* `pieces_eq_error_iff` — where reading stops
* `isFlawless_iff` — which texts are flawless
* `refused_iff_leftmost_fault` — which fault a text is refused with
-/

namespace FleetLink.Template

variable {cs front rest field : List Char} {offset n m : Nat} {fault : TemplateFault}

/-! ## What a reader cannot get past -/

/-- What stands behind an offset and cannot be read, and the fault that is told: a closing brace by
itself, an opening one by itself that is not closed, and one that is closed behind what is no
placeholder. -/
inductive Stuck : Nat → List Char → TemplateFault → Prop
  | closing {offset : Nat} {rest : List Char} (single : rest.head? ≠ some '\x7d') :
      Stuck offset ('\x7d' :: rest) (.unbalancedBrace offset)
  | opening {offset : Nat} {rest : List Char} (single : rest.head? ≠ some '\x7b')
      (unclosed : '\x7d' ∉ rest) : Stuck offset ('\x7b' :: rest) (.unbalancedBrace offset)
  | placeholder {offset : Nat} {field rest : List Char} (single : field.head? ≠ some '\x7b')
      (closed : '\x7d' ∉ field) (other : ¬ IsPlaceholder true field) :
      Stuck offset ('\x7b' :: (field ++ '\x7d' :: rest))
        (.unsupportedPlaceholder (String.ofList field))

/-- A text does not begin with a character. -/
theorem head?_ne_iff {c : Char} : cs.head? ≠ some c ↔ ∀ r, cs = c :: r → False := by
  rw [ne_eq, List.head?_eq_some_iff, not_exists]

theorem field?_eq_none_iff : field? cs = none ↔ '\x7d' ∉ cs := by
  induction cs with
  | nil => simp [field?]
  | cons c cs ih =>
      by_cases hc : c = '\x7d'
      · subst hc
        simp [field?]
      · rw [field?.eq_3 _ _ hc, Option.map_eq_none_iff, ih, List.mem_cons, not_or]
        exact (and_iff_right (Ne.symm hc)).symm

theorem placeholder?_eq_none_iff : placeholder? field = none ↔ ¬ IsPlaceholder true field := by
  rw [← exists_placeholder?_iff, Option.not_isSome_iff_eq_none]

/-- What a reader is stuck at, it tells as a fault. -/
theorem pieces_of_stuck (h : Stuck offset cs fault) : pieces offset cs = .error fault := by
  cases h with
  | closing single => exact pieces.eq_4 _ _ (head?_ne_iff.mp single)
  | opening single unclosed =>
      rw [pieces.eq_5 _ _ (head?_ne_iff.mp single), field?_eq_none_iff.mpr unclosed]
  | placeholder single closed other =>
      exact (pieces_field single closed _ _).1 (placeholder?_eq_none_iff.mpr other)

/-! ## Where reading stops -/

theorem Written.append (h : Written true front n) (hrest : Written true rest m) :
    ∃ k, Written true (front ++ rest) k := by
  induction h with
  | nil => exact ⟨m, hrest⟩
  | char opening closing _ ih =>
      obtain ⟨k, hk⟩ := ih
      exact ⟨k, .char opening closing hk⟩
  | doubled brace _ ih =>
      obtain ⟨k, hk⟩ := ih
      exact ⟨k, .doubled brace hk⟩
  | placeholder own _ ih =>
      obtain ⟨k, hk⟩ := ih
      exact ⟨k + 1, by simpa using Written.placeholder own hk⟩

/-- A text is written by the grammar up to a place at which a reader is stuck. -/
def Breaks (offset : Nat) (cs : List Char) (fault : TemplateFault) : Prop :=
  ∃ front rest n, cs = front ++ rest ∧ Written true front n ∧
    Stuck (offset + byteLength front) rest fault

theorem Stuck.breaks (h : Stuck offset cs fault) : Breaks offset cs fault :=
  ⟨[], cs, 0, rfl, .nil, h⟩

/-- A text breaks where it did if more of the grammar is put in front. -/
theorem Breaks.behind (before : List Char) (hbefore : Written true before n)
    (h : Breaks (offset + byteLength before) cs fault) : Breaks offset (before ++ cs) fault := by
  obtain ⟨front, rest, m, rfl, hfront, hstuck⟩ := h
  obtain ⟨k, hk⟩ := hbefore.append hfront
  refine ⟨before ++ front, rest, k, (List.append_assoc _ _ _).symm, hk, ?_⟩
  rwa [byteLength_append, ← Nat.add_assoc]

/-- What is read in front of a fault does not change the fault. -/
theorem eq_error_of_map {p : Piece} {read : Except TemplateFault (List Piece)}
    (h : read.map (p :: ·) = .error fault) : read = .error fault := by
  cases read with
  | error own => exact congrArg Except.error (Except.error.inj h)
  | ok ps => cases h

/-- Where a reader stops, it is stuck, and the grammar writes what it has read. -/
theorem breaks_of_pieces (h : pieces offset cs = .error fault) : Breaks offset cs fault := by
  -- Each part that is read is written by the grammar, and the reader is stuck behind all of them.
  fun_induction pieces offset cs with
  | case1 => cases h
  | case2 offset r ih =>
      exact Breaks.behind ['\x7b', '\x7b'] (.doubled (.inl rfl) .nil)
        (ih (eq_error_of_map h))
  | case3 offset r ih =>
      exact Breaks.behind ['\x7d', '\x7d'] (.doubled (.inr rfl) .nil)
        (ih (eq_error_of_map h))
  | case4 offset r hsingle =>
      cases h
      exact (Stuck.closing (head?_ne_iff.mpr hsingle)).breaks
  | case5 offset r hsingle hfield =>
      cases h
      exact (Stuck.opening (head?_ne_iff.mpr hsingle) (field?_eq_none_iff.mp hfield)).breaks
  | case6 offset r hsingle f r' _ hfield hplaceholder =>
      cases h
      obtain ⟨rfl, hclosed⟩ := eq_of_field? hfield
      refine (Stuck.placeholder (fun hhead => ?_) hclosed
        (placeholder?_eq_none_iff.mp hplaceholder)).breaks
      obtain ⟨more, rfl⟩ := List.head?_eq_some_iff.mp hhead
      exact hsingle _ rfl
  | case7 offset r _ f r' _ hfield p hplaceholder ih =>
      obtain ⟨rfl, -⟩ := eq_of_field? hfield
      have own : IsPlaceholder true f := exists_placeholder?_iff.mp (by rw [hplaceholder]; rfl)
      have hbehind : Breaks offset ('\x7b' :: (f ++ ['\x7d']) ++ r') fault := by
        refine Breaks.behind _ (.placeholder own .nil) ?_
        rw [byteLength_braced, ← Nat.add_assoc]
        exact ih (eq_error_of_map h)
      simpa using hbehind
  | case8 offset c r _ _ hclosing hopening ih =>
      exact Breaks.behind [c] (.char hopening hclosing .nil) (ih (eq_error_of_map h))

/-- **Where reading stops:** at the first place at which a reader is stuck. -/
theorem pieces_eq_error_iff : pieces offset cs = .error fault ↔ Breaks offset cs fault := by
  refine ⟨breaks_of_pieces, ?_⟩
  rintro ⟨front, rest, n, rfl, hfront, hstuck⟩
  obtain ⟨ps, hyields, -⟩ := exists_yields_of_written hfront
  rw [hyields, pieces_of_stuck hstuck]
  rfl

/-! ## Texts without a fault -/

/-- Nothing is wrong with a text, except that it may have no placeholder. -/
def IsFlawless (text : String) : Prop :=
  (∃ t, parse text = .ok t) ∨ parse text = .error (.missingPlaceholder text)

/-- No reader is stuck for want of a placeholder. -/
theorem Breaks.ne_missingPlaceholder (h : Breaks offset cs fault) (template : String) :
    fault ≠ .missingPlaceholder template := by
  obtain ⟨front, rest, n, -, -, hstuck⟩ := h
  cases hstuck <;> nofun

/-- A text is refused for what a reader is stuck at, or else because it has no placeholder. -/
theorem parse_eq_error_iff {text : String} :
    parse text = .error fault ↔ Breaks 0 text.toList fault ∨
      fault = .missingPlaceholder text ∧ Written true text.toList 0 := by
  have hread : Written true text.toList 0 →
      ∃ ps, pieces 0 text.toList = .ok ps ∧ ps.countP Piece.isIndex = 0 := fun hwritten => by
    obtain ⟨ps, hyields, hcount⟩ := exists_yields_of_written hwritten
    exact ⟨ps, hyields.pieces_eq 0, hcount⟩
  rw [← pieces_eq_error_iff]
  unfold parse
  cases hps : pieces 0 text.toList with
  | error own =>
      have hunread : ¬ Written true text.toList 0 := fun hwritten => by
        obtain ⟨ps, heq, -⟩ := hread hwritten
        rw [hps] at heq
        cases heq
      simp only [Except.error.injEq, hunread, and_false, or_false]
  | ok ps =>
      dsimp only
      split
      next hindex =>
        have hthere : ¬ Written true text.toList 0 := fun hwritten => by
          obtain ⟨own, heq, hnone⟩ := hread hwritten
          obtain rfl := Except.ok.inj (hps.symm.trans heq)
          exact absurd (hasIndex_segmentsOf_iff.mp hindex) (by omega)
        simp only [hthere, reduceCtorEq, and_false, or_false]
      next hindex =>
        have hnone : ps.countP Piece.isIndex = 0 :=
          Nat.eq_zero_of_not_pos fun hpos => hindex (hasIndex_segmentsOf_iff.mpr hpos)
        have hwritten := written_of_pieces hps
        rw [hnone] at hwritten
        simp only [hwritten, reduceCtorEq, and_true, false_or, Except.error.injEq, eq_comm]

/-- **Which texts are flawless:** those of the grammar. -/
theorem isFlawless_iff {text : String} :
    IsFlawless text ↔ ∃ n, Written true text.toList n := by
  constructor
  · rintro (haccepted | hmissing)
    · obtain ⟨n, -, hwritten⟩ := exists_parse_iff.mp haccepted
      exact ⟨n, hwritten⟩
    · rcases parse_eq_error_iff.mp hmissing with hbreaks | ⟨-, hwritten⟩
      · exact absurd rfl (hbreaks.ne_missingPlaceholder text)
      · exact ⟨0, hwritten⟩
  · rintro ⟨n, hwritten⟩
    rcases Nat.eq_zero_or_pos n with rfl | hpos
    · exact .inr (parse_eq_error_iff.mpr (.inr ⟨rfl, hwritten⟩))
    · exact .inl (exists_parse_iff.mpr ⟨n, hpos, hwritten⟩)

/-- A text without placeholders is one in which every brace is doubled. -/
theorem written_zero_iff :
    Written true cs 0 ↔ ∃ meant, cs = (Segment.literal meant).write := by
  constructor
  · generalize hnone : 0 = n
    intro h
    induction h with
    | nil => exact ⟨[], rfl⟩
    | @char c _ _ opening closing _ ih =>
        obtain ⟨meant, rfl⟩ := ih hnone
        exact ⟨c :: meant, by simp [Segment.write, opening, closing]⟩
    | @doubled c _ _ brace _ ih =>
        obtain ⟨meant, rfl⟩ := ih hnone
        exact ⟨c :: meant, by simp [Segment.write, brace]⟩
    | placeholder => cases hnone
  · rintro ⟨meant, rfl⟩
    induction meant with
    | nil => exact .nil
    | cons c meant ih =>
        rw [Segment.write, List.flatMap_cons]
        split
        next hbrace => exact .doubled hbrace ih
        next hplain =>
          rw [not_or] at hplain
          exact .char hplain.1 hplain.2 ih

/-! ## Faults and the texts around them -/

/-- What a fault says about a text.

* A brace by itself is the leftmost fault if what stands in front is flawless, and the offset is the
  size of that in bytes: a closing brace that is not doubled, or an opening one that is neither
  doubled nor closed.
* A field is the leftmost fault if it stands between braces behind what is flawless, does not double
  the first of them and does not hold the last, and is no placeholder.
* A placeholder is missing if there is no brace in the text that is not one of a pair. -/
def IsLeftmostFault (text : String) : TemplateFault → Prop
  | .unbalancedBrace offset => ∃ before brace after,
      text = before ++ String.singleton brace ++ after ∧ offset = before.utf8ByteSize ∧
        IsFlawless before ∧
          (brace = '\x7d' ∧ after.toList.head? ≠ some '\x7d' ∨
            brace = '\x7b' ∧ after.toList.head? ≠ some '\x7b' ∧ '\x7d' ∉ after.toList)
  | .unsupportedPlaceholder field => ∃ before after,
      text = before ++ "\x7b" ++ field ++ "\x7d" ++ after ∧ IsFlawless before ∧
        field.toList.head? ≠ some '\x7b' ∧ '\x7d' ∉ field.toList ∧
          ¬ IsPlaceholder true field.toList
  | .missingPlaceholder template =>
      template = text ∧ ∃ meant, text.toList = (Segment.literal meant).write

theorem byteLength_toList (text : String) : byteLength text.toList = text.utf8ByteSize := by
  have hchars : ∀ cs, byteLength cs = (String.ofList cs).utf8ByteSize := by
    intro cs
    induction cs with
    | nil => rfl
    | cons c cs ih =>
        rw [byteLength_cons, ih, String.ofList_cons, String.utf8ByteSize_append,
          String.utf8ByteSize_singleton]
  rw [hchars, String.ofList_toList]

/-- Where a text breaks, it does so behind a flawless one, whose size the offset is. -/
theorem breaks_toList_iff {text : String} :
    Breaks 0 text.toList fault ↔ ∃ before after,
      text = before ++ after ∧ IsFlawless before ∧
        Stuck before.utf8ByteSize after.toList fault := by
  constructor
  · rintro ⟨front, rest, n, hsplit, hfront, hstuck⟩
    refine ⟨String.ofList front, String.ofList rest, ?_, ?_, ?_⟩
    · rw [← String.ofList_append, ← hsplit, String.ofList_toList]
    · exact isFlawless_iff.mpr ⟨n, by rwa [String.toList_ofList]⟩
    · rwa [← byteLength_toList, String.toList_ofList, String.toList_ofList, ← Nat.zero_add
        (byteLength front)]
  · rintro ⟨before, after, rfl, hbefore, hstuck⟩
    obtain ⟨n, hwritten⟩ := isFlawless_iff.mp hbefore
    refine ⟨before.toList, after.toList, n, String.toList_append, hwritten, ?_⟩
    rwa [Nat.zero_add, byteLength_toList]

/-- A reader is stuck at a brace by itself. -/
theorem breaks_unbalancedBrace_iff {text : String} :
    Breaks 0 text.toList (.unbalancedBrace offset) ↔
      IsLeftmostFault text (.unbalancedBrace offset) := by
  rw [breaks_toList_iff]
  constructor
  · rintro ⟨before, after, rfl, hbefore, hstuck⟩
    have hsplit : ∀ brace rest, after.toList = brace :: rest →
        before ++ after = before ++ String.singleton brace ++ String.ofList rest := by
      intro brace rest hafter
      rw [String.append_assoc, ← String.ofList_cons, ← hafter, String.ofList_toList]
    generalize hafter : after.toList = cs at hstuck
    cases hstuck with
    | closing single =>
        exact ⟨before, _, _, hsplit _ _ hafter, rfl, hbefore,
          .inl ⟨rfl, by rwa [String.toList_ofList]⟩⟩
    | opening single unclosed =>
        exact ⟨before, _, _, hsplit _ _ hafter, rfl, hbefore,
          .inr ⟨rfl, by rwa [String.toList_ofList], by rwa [String.toList_ofList]⟩⟩
  · rintro ⟨before, brace, after, rfl, rfl, hbefore, hbrace⟩
    refine ⟨before, String.singleton brace ++ after, String.append_assoc, hbefore, ?_⟩
    rw [String.toList_append, String.toList_singleton]
    rcases hbrace with ⟨rfl, single⟩ | ⟨rfl, single, unclosed⟩
    · exact .closing single
    · exact .opening single unclosed

/-- A reader is stuck at what stands between braces and is no placeholder. -/
theorem breaks_unsupportedPlaceholder_iff {text field : String} :
    Breaks 0 text.toList (.unsupportedPlaceholder field) ↔
      IsLeftmostFault text (.unsupportedPlaceholder field) := by
  rw [breaks_toList_iff]
  constructor
  · rintro ⟨before, after, rfl, hbefore, hstuck⟩
    generalize hafter : after.toList = cs at hstuck
    cases hstuck with
    | @placeholder field rest single closed other =>
        refine ⟨before, String.ofList rest, ?_, hbefore, ?_⟩
        · rw [← String.toList_inj]
          simp [hafter]
        · rw [String.toList_ofList]
          exact ⟨single, closed, other⟩
  · rintro ⟨before, after, rfl, hbefore, single, closed, other⟩
    refine ⟨before, "\x7b" ++ field ++ "\x7d" ++ after, ?_, hbefore, ?_⟩
    · simp only [String.append_assoc]
    · have hstuck : Stuck before.utf8ByteSize ('\x7b' :: (field.toList ++ '\x7d' :: after.toList))
          (.unsupportedPlaceholder (String.ofList field.toList)) := .placeholder single closed other
      rw [String.ofList_toList] at hstuck
      simpa using hstuck

/-- **A text is refused with its leftmost fault,** and with no other: a text that is refused tells a
fault that stands in it as `IsLeftmostFault` says, and a text in which a fault stands so is refused
with this one. -/
theorem refused_iff_leftmost_fault (text : String) (fault : TemplateFault) :
    parse text = .error fault ↔ IsLeftmostFault text fault := by
  rw [parse_eq_error_iff]
  cases fault with
  | unbalancedBrace offset =>
      simp only [breaks_unbalancedBrace_iff, reduceCtorEq, false_and, or_false]
  | unsupportedPlaceholder field =>
      simp only [breaks_unsupportedPlaceholder_iff, reduceCtorEq, false_and, or_false]
  | missingPlaceholder template =>
      have hread : ¬ Breaks 0 text.toList (.missingPlaceholder template) := fun hbreaks =>
        hbreaks.ne_missingPlaceholder template rfl
      rw [or_iff_right hread, TemplateFault.missingPlaceholder.injEq, written_zero_iff]
      rfl

/-- The offset counts bytes, of which the first character has two, and the brace that is doubled in
front is no fault. -/
example : parse "é\x7b\x7b-\x7b0\x7b" = .error (.unbalancedBrace 5) := by
  decide +kernel

end FleetLink.Template
