import Mathlib.Data.List.Induction
import FleetLink.Proofs.Session.Identities
import FleetLink.Proofs.VehicleId.Grammar

/-!
# Distinct indices have distinct ids

An id is made of an index by several steps each of which forgets something: the digits are padded,
the fields of several placeholders stand next to each other with nothing between them, the blanks
around all of it go, and what an id may not hold becomes an underscore.  Still **the index can be
told from the id**, whatever the template.

**The blanks around it** go before the rest can be compared, and how many there are
depends on the index.  But the ids without them are those of another template: literals
lose their blanks, and a placeholder at the very front that pads with blanks does not pad
at all (`exists_trimChars_rendered`).

**The fields are aligned.**  A larger index has at least as many digits, so each field is at least
as wide.  When two ids are equally long, then so are their fields one by one, and each can be
compared with its counterpart (`eq_of_map_shown_rendered`).

**A field shows its index.**  Zeros in front of digits count for nothing, and underscores in their
place do not either (`decimalValue_map_shown_padded`).

## Main Statements

* `rendered`, `shown` — the two steps by which an id is made
* `exists_trimChars_rendered` — trimming an id is trimming its template
* `eq_of_map_shown_rendered` — the index can be told from what is shown
* `ofIndex_injective` — and so from the id
* `ids_never_shared` — ids made from a template, and the ids that are kept in a session
-/

namespace FleetLink

open Text (isBlank trimChars)

namespace Template

/-- The characters that segments make of an index. -/
def rendered (segments : List Segment) (index : Nat) : List Char :=
  segments.flatMap (·.render index)

/-! ## Fields -/

section

variable (zeroPad : Bool) (width index : Nat)

theorem length_padded :
    (padded zeroPad width index).length = max width (Nat.toDigits 10 index).length := by
  rw [padded, List.length_append, List.length_replicate]
  omega

theorem padded_ne_nil : padded zeroPad width index ≠ [] :=
  List.append_ne_nil_of_right_ne_nil _ Nat.toDigits_ne_nil

theorem dropWhile_of_not_blank {cs : List Char} (h : ∀ c ∈ cs, isBlank c = false) :
    cs.dropWhile isBlank = cs := by
  cases cs with
  | nil => rfl
  | cons c cs => exact List.dropWhile_cons_of_neg (by simp [h c])

/-- Digits are not blank. -/
theorem isBlank_of_mem_toDigits {c : Char} (h : c ∈ Nat.toDigits 10 index) : isBlank c = false :=
  Text.isBlank_of_isDigit (Text.isDigit_of_mem_toDigits h)

/-- Without the blanks in front, a field that pads with blanks is one that does not pad. -/
theorem dropWhile_padded : (padded zeroPad width index).dropWhile isBlank =
    padded zeroPad (if zeroPad then width else 0) index := by
  cases zeroPad with
  | true =>
      refine dropWhile_of_not_blank fun c hc => ?_
      rcases List.mem_append.mp hc with hzero | hdigit
      · rw [List.eq_of_mem_replicate hzero]
        decide
      · exact isBlank_of_mem_toDigits index hdigit
  | false =>
      have hdigits := dropWhile_of_not_blank fun _ => isBlank_of_mem_toDigits index
      simp [padded, Text.isBlank_space, hdigits]

/-- A field ends with a digit, so that no blanks go there. -/
theorem dropWhile_reverse_padded (front : List Char) :
    (front ++ padded zeroPad width index).reverse.dropWhile isBlank =
      (front ++ padded zeroPad width index).reverse := by
  have hdigits : (Nat.toDigits 10 index).reverse.dropWhile isBlank =
      (Nat.toDigits 10 index).reverse :=
    dropWhile_of_not_blank fun c hc => isBlank_of_mem_toDigits index (List.mem_reverse.mp hc)
  rw [padded, ← List.append_assoc, List.reverse_append, List.dropWhile_append, hdigits]
  simp [Nat.toDigits_ne_nil]

end

/-! ## The blanks around an id -/

/-- Without the blanks in front, the ids of a template are those of another one. -/
theorem exists_dropWhile_rendered {segments : List Segment} (h : hasIndex segments = true) :
    ∃ trimmed, hasIndex trimmed = true ∧
      ∀ index, (rendered segments index).dropWhile isBlank = rendered trimmed index := by
  induction segments with
  | nil => cases h
  | cons segment rest ih =>
      cases segment with
      | index zeroPad width =>
          refine ⟨.index zeroPad (if zeroPad then width else 0) :: rest, rfl, fun index => ?_⟩
          show (padded zeroPad width index ++ rendered rest index).dropWhile isBlank = _
          rw [List.dropWhile_append, dropWhile_padded, if_neg (by simp [padded_ne_nil])]
          rfl
      | literal text =>
          by_cases hblank : (text.dropWhile isBlank).isEmpty = true
          · obtain ⟨trimmed, hindex, htrimmed⟩ := ih h
            refine ⟨trimmed, hindex, fun index => ?_⟩
            rw [← htrimmed]
            show (text ++ rendered rest index).dropWhile isBlank = _
            rw [List.dropWhile_append, if_pos hblank]
          · refine ⟨.literal (text.dropWhile isBlank) :: rest, h, fun index => ?_⟩
            show (text ++ rendered rest index).dropWhile isBlank = _
            rw [List.dropWhile_append, if_neg hblank]
            rfl

theorem rendered_concat (segments : List Segment) (last : Segment) (index : Nat) :
    rendered (segments ++ [last]) index = rendered segments index ++ last.render index := by
  simp [rendered]

/-- And so they are without the blanks behind. -/
theorem exists_dropWhile_reverse_rendered {segments : List Segment}
    (h : hasIndex segments = true) :
    ∃ trimmed, hasIndex trimmed = true ∧ ∀ index,
      ((rendered segments index).reverse.dropWhile isBlank).reverse = rendered trimmed index := by
  induction segments using List.reverseRecOn with
  | nil => cases h
  | append_singleton front segment ih =>
      cases segment with
      | index zeroPad width =>
          refine ⟨front ++ [.index zeroPad width], h, fun index => ?_⟩
          rw [rendered_concat, Segment.render, dropWhile_reverse_padded, List.reverse_reverse]
      | literal text =>
          have hfront : hasIndex front = true := by simpa [hasIndex] using h
          by_cases hblank : (text.reverse.dropWhile isBlank).isEmpty = true
          · obtain ⟨trimmed, hindex, htrimmed⟩ := ih hfront
            refine ⟨trimmed, hindex, fun index => ?_⟩
            rw [← htrimmed, rendered_concat, Segment.render, List.reverse_append,
              List.dropWhile_append, if_pos hblank]
          · refine ⟨front ++ [.literal (text.reverse.dropWhile isBlank).reverse], ?_, ?_⟩
            · simpa [hasIndex] using hfront
            · intro index
              rw [rendered_concat, rendered_concat, Segment.render, Segment.render,
                List.reverse_append, List.dropWhile_append, if_neg hblank, List.reverse_append,
                List.reverse_reverse]

/-- **Trimming an id is trimming its template.** -/
theorem exists_trimChars_rendered {segments : List Segment} (h : hasIndex segments = true) :
    ∃ trimmed, hasIndex trimmed = true ∧
      ∀ index, trimChars (rendered segments index) = rendered trimmed index := by
  obtain ⟨behind, hbehind, hfront⟩ := exists_dropWhile_rendered h
  obtain ⟨trimmed, htrimmed, hback⟩ := exists_dropWhile_reverse_rendered hbehind
  refine ⟨trimmed, htrimmed, fun index => ?_⟩
  rw [← hback, ← hfront]
  rfl

/-! ## What is shown -/

/-- What an id shows of a character. -/
def shown (c : Char) : Char := if VehicleId.isAllowed c then c else '_'

theorem shown_of_isDigit {c : Char} (h : c.isDigit = true) : shown c = c := by
  simp [shown, VehicleId.isAllowed, Char.isAlphanum, h]

/-- **A field shows its index**, whatever stands in front of the digits. -/
theorem decimalValue_map_shown_padded (zeroPad : Bool) (width index : Nat) :
    Text.decimalValue ((padded zeroPad width index).map shown) = index := by
  have hdigits : (Nat.toDigits 10 index).map shown = Nat.toDigits 10 index := by
    refine (List.map_congr_left fun c hc => ?_).trans (List.map_id _)
    exact shown_of_isDigit (Text.isDigit_of_mem_toDigits hc)
  have hpad : (Text.hexDigit? (shown (if zeroPad then '0' else ' '))).getD 0 = 0 := by
    cases zeroPad <;> decide
  rw [padded, List.map_append, List.map_replicate, hdigits, Text.decimalValue,
    Text.digitsValue_replicate_append 10 _ hpad]
  exact Text.decimalValue_toDigits index

/-- A larger index has no fewer digits. -/
theorem length_toDigits_mono {i j : Nat} (h : i ≤ j) :
    (Nat.toDigits 10 i).length ≤ (Nat.toDigits 10 j).length := by
  have hbase : 1 < 10 := by decide
  have hbound : ∀ n, (Nat.toDigits 10 n).length ≤ (Nat.toDigits 10 j).length ↔ n < _ :=
    fun n => Nat.length_toDigits_le_iff hbase Nat.length_toDigits_pos
  exact (hbound i).mpr (Nat.lt_of_le_of_lt h ((hbound j).mp (Nat.le_refl _)))

theorem length_render_mono {i j : Nat} (h : i ≤ j) (segment : Segment) :
    (segment.render i).length ≤ (segment.render j).length := by
  cases segment with
  | literal text => exact Nat.le_refl _
  | index zeroPad width =>
      have hdigits := length_toDigits_mono h
      rw [Segment.render, Segment.render, length_padded, length_padded]
      omega

theorem length_rendered_mono {i j : Nat} (h : i ≤ j) (segments : List Segment) :
    (rendered segments i).length ≤ (rendered segments j).length := by
  induction segments with
  | nil => exact Nat.le_refl _
  | cons segment rest ih =>
      have hfirst := length_render_mono h segment
      show (segment.render i ++ rendered rest i).length ≤
        (segment.render j ++ rendered rest j).length
      rw [List.length_append, List.length_append]
      omega

/-- **The index can be told from what is shown.** -/
theorem eq_of_map_shown_rendered {segments : List Segment} (hindex : hasIndex segments = true)
    {i j : Nat} (h : i ≤ j)
    (heq : (rendered segments i).map shown = (rendered segments j).map shown) : i = j := by
  induction segments with
  | nil => cases hindex
  | cons segment rest ih =>
      have hsplit : (segment.render i).map shown ++ (rendered rest i).map shown =
          (segment.render j).map shown ++ (rendered rest j).map shown := by
        rw [← List.map_append, ← List.map_append]
        exact heq
      -- Neither part is longer for the smaller index, so neither is shorter.
      have haligned : ((segment.render i).map shown).length =
          ((segment.render j).map shown).length := by
        have htotal := congrArg List.length hsplit
        have hfirst := length_render_mono h segment
        have hrest := length_rendered_mono h rest
        simp only [List.length_append, List.length_map] at htotal ⊢
        omega
      obtain ⟨hfirst, hrest⟩ := List.append_inj hsplit haligned
      cases segment with
      | literal text => exact ih hindex hrest
      | index zeroPad width =>
          calc
            i = Text.decimalValue ((padded zeroPad width i).map shown) :=
              (decimalValue_map_shown_padded zeroPad width i).symm
            _ = Text.decimalValue ((padded zeroPad width j).map shown) :=
              congrArg Text.decimalValue hfirst
            _ = j := decimalValue_map_shown_padded zeroPad width j

theorem rendered_ne_nil {segments : List Segment} (h : hasIndex segments = true) (index : Nat) :
    rendered segments index ≠ [] := by
  induction segments with
  | nil => cases h
  | cons segment rest ih =>
      cases segment with
      | literal text => exact List.append_ne_nil_of_right_ne_nil text (ih h)
      | index zeroPad width =>
          exact List.append_ne_nil_of_left_ne_nil (padded_ne_nil zeroPad width index) _

end Template

namespace VehicleId

open Template (rendered shown hasIndex)

/-- Unless nothing is left, an id shows what is left without the blanks around it. -/
theorem sanitise_of_ne_nil {raw : List Char} (h : trimChars raw ≠ []) :
    sanitise raw = (trimChars raw).map shown := by
  unfold sanitise
  split
  next hnil => exact absurd (List.map_eq_nil_iff.mp hnil) h
  next => rfl

/-- **An id belongs to one index only.** -/
theorem ofIndex_injective {template : Template} (h : hasIndex template.segments = true) :
    Function.Injective (ofIndex template) := by
  obtain ⟨trimmed, hindex, htrimmed⟩ := Template.exists_trimChars_rendered h
  have hshown : ∀ index : UInt32, (ofIndex template index).toList =
      (rendered trimmed index.toNat).map shown := by
    intro index
    have hne : trimChars (rendered template.segments index.toNat) ≠ [] := by
      rw [htrimmed]
      exact Template.rendered_ne_nil hindex _
    rw [← htrimmed, ← sanitise_of_ne_nil hne, ofIndex, ofRaw, String.toList_ofList, Template.render,
      String.toList_ofList]
    rfl
  intro i j hids
  have hsame : (rendered trimmed i.toNat).map shown = (rendered trimmed j.toNat).map shown := by
    rw [← hshown, ← hshown, hids]
  refine UInt32.toNat_inj.mp ?_
  rcases Nat.le_total i.toNat j.toNat with hle | hle
  · exact Template.eq_of_map_shown_rendered hindex hle hsame
  · exact (Template.eq_of_map_shown_rendered hindex hle hsame.symm).symm

end VehicleId

/-- **Distinct indices never share an id.**  This holds for everything that is read as a template:
for literals of any characters, blanks and replaced ones among them, and for any number of
placeholders with any padding and any width.  In a session whose ids are made from such a template,
no id is kept for two indices. -/
theorem ids_never_shared {text : String} {template : Template}
    (hparse : Template.parse text = .ok template) :
    (∀ i j : UInt32, i ≠ j → VehicleId.ofIndex template i ≠ VehicleId.ofIndex template j) ∧
    ∀ (config : Config) (algorithms : List Algorithm) (s : Session),
      config.driver.idFormat = template → s.Reachable config algorithms →
      ∀ (i j : UInt32) (id : VehicleId), s.fleet.ids[i]? = some id → s.fleet.ids[j]? = some id →
        i = j := by
  have hinjective := VehicleId.ofIndex_injective (Template.hasIndex_of_parse hparse)
  refine ⟨fun i j hne hids => hne (hinjective hids), ?_⟩
  intro config algorithms s hformat hreach i j id hi hj
  have hmadeI := hreach.identified.made i id hi
  have hmadeJ := hreach.identified.made j id hj
  rw [hformat] at hmadeI hmadeJ
  exact hinjective (hmadeI.symm.trans hmadeJ)

/-- A template with blanks around it, a placeholder that loses its padding, two placeholders side by
side, and a character that is replaced. -/
private def crowded : Template :=
  ⟨"\u2003 \x7b:3\x7d\x7b\x7dé\x7b0:02d\x7d\t",
    [.literal ['\u2003', ' '], .index false 3, .index false 0, .literal ['é'], .index true 2,
      .literal ['\t']]⟩

/-- Its ids of the indices 1 and 11, which are `11_01` and `1111_11`. -/
theorem crowded_ids_differ :
    Template.parse crowded.text = .ok crowded ∧
      VehicleId.ofIndex crowded 1 ≠ VehicleId.ofIndex crowded 11 := by
  have hparse : Template.parse crowded.text = .ok crowded := by decide +kernel
  exact ⟨hparse, (ids_never_shared hparse).1 1 11 (by decide)⟩

end FleetLink
