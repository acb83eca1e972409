import FleetLink.Proofs.Json.Scalars

/-!
# JSON is read as it is written

The printer and the scanner do not mirror each other.  The printer knows two layouts; the scanner
takes any gaps between the parts of a value, bounds the depth, and looks one character ahead.  What
connects them is that **a text is read as a value wherever it stands** (`Reads`): behind any gaps,
and in front of anything that could not go on a value.

Of texts that are so read, arrays and objects can be made with any gaps between them
(`reads_array`, `reads_object`).  Both layouts are cases of that: the compact one has no gaps at
all, and the other one has a line break wherever a gap may be.

Only values that a text can say are read back (`Value.IsExact`).  The numbers in them are integers
of sixty-four bits, and the brackets in them do not go deeper than the scanner follows.

## Main Definitions

* `Reads` — a text is read as an item, wherever it stands
* `Value.IsExact` — a value that its text says

## Main Statements

* `reads_array`, `reads_object` — containers, with any gaps in them
* `parse_compact`, `parse_pretty` — what is written is read, in either layout
-/

namespace FleetLink.Json

open Text (Scanner)
open Text.Scanner

variable {α : Type} {rest gap : List Char}

/-! ## Gaps -/

/-- Nothing but gaps. -/
def IsGaps (cs : List Char) : Prop := ∀ c ∈ cs, isGap c = true

theorem isGaps_nil : IsGaps [] := fun _ => nofun

theorem IsGaps.append {cs : List Char} (hgap : IsGaps gap) (hcs : IsGaps cs) :
    IsGaps (gap ++ cs) :=
  fun c hc => (List.mem_append.mp hc).elim (hgap c) (hcs c)

theorem isGaps_lineBreak (level : Nat) : IsGaps (lineBreak level).toList := by
  intro c hc
  rw [lineBreak, String.toList_ofList, List.mem_cons] at hc
  obtain rfl | hblank := hc
  · decide
  · rw [List.eq_of_mem_replicate hblank]
    decide

theorem takes_gaps {s : List Char} (hgap : IsGaps gap) (hs : ∀ c ∈ s.head?, isGap c = false) :
    Takes gaps (gap ++ s) () s :=
  (takes_span hgap hs).bind (takes_pure () s)

theorem takes_mark (hgap : IsGaps gap) {c : Char} (hc : isGap c = false) (rest : List Char) :
    Takes (mark c) (gap ++ c :: rest) () rest :=
  (takes_gaps hgap fun d hd => by cases hd; exact hc).bind (takes_char c rest)

theorem fails_mark (hgap : IsGaps gap) {c d : Char} (hd : isGap d = false) (hne : d ≠ c)
    (rest : List Char) : Fails (mark c) (gap ++ d :: rest) :=
  (takes_gaps hgap fun e he => by cases he; exact hd).bind_fails
    (fails_char fun h => hne (Option.some.inj h))

section

variable {body : Option Char → Scanner α} {s : List Char} {first : Char} {a : α}

/-- Whoever skips gaps and looks at the next character sees the first that is no gap. -/
theorem takes_past_gaps (hgap : IsGaps gap) (hfirst : first ∈ s.head?)
    (hgapless : isGap first = false) (h : Takes (body (some first)) s a rest) :
    Takes (do gaps; body (← peek)) (gap ++ s) a rest := by
  refine (takes_gaps hgap fun c hc => ?_).bind <| (takes_peek s).bind ?_
  · rwa [Option.mem_unique hc hfirst]
  · rwa [hfirst]

theorem fails_past_gaps (hgap : IsGaps gap) (hfirst : first ∈ s.head?)
    (hgapless : isGap first = false) (h : Fails (body (some first)) s) :
    Fails (do gaps; body (← peek)) (gap ++ s) := by
  refine (takes_gaps hgap fun c hc => ?_).bind_fails <| (takes_peek s).bind_fails ?_
  · rwa [Option.mem_unique hc hfirst]
  · rwa [hfirst]

end

/-! ## Items -/

/-- A text is read as an item wherever it stands: behind any gaps, and in front of all that cannot
go on a value. -/
def Reads (item : Scanner α) (text : List Char) (a : α) : Prop :=
  ∀ gap rest, IsGaps gap → Stops rest → Takes item (gap ++ (text ++ rest)) a rest

/-- The brackets that end containers. -/
def IsClosing (c : Char) : Prop := c = ']' ∨ c = '\x7d'

theorem IsClosing.isGap_eq {c : Char} (h : IsClosing c) : isGap c = false := by
  obtain rfl | rfl := h <;> decide

theorem IsClosing.ne_comma {c : Char} (h : IsClosing c) : c ≠ ',' := by
  obtain rfl | rfl := h <;> decide

section

variable {item : Scanner α} {print : α → List Char} {as : List α} {before behind : List Char}
  {closing : Char}

/-- An item ends before the next one and before the last bracket. -/
theorem stops_items (before : List Char) (print : α → List Char) (hbehind : IsGaps behind)
    (hclosing : IsClosing closing) (as : List α) (rest : List Char) :
    Stops (as.flatMap (fun a => ',' :: (before ++ print a)) ++ (behind ++ closing :: rest)) := by
  intro c hc
  cases as with
  | cons a as =>
      cases hc
      exact .inr (.inl rfl)
  | nil =>
      cases behind with
      | nil =>
          cases hc
          exact .inr (.inr hclosing)
      | cons d behind =>
          cases hc
          exact .inl (hbehind c List.mem_cons_self)

theorem takesAll_items (has : ∀ a ∈ as, Reads item (print a) a) (hbefore : IsGaps before)
    (hbehind : IsGaps behind) (hclosing : IsClosing closing) (rest : List Char) :
    TakesAll (do mark ','; item)
      (as.flatMap (fun a => ',' :: (before ++ print a)) ++ (behind ++ closing :: rest)) as
      (behind ++ closing :: rest) := by
  induction as with
  | nil => exact .none (fails_mark hbehind hclosing.isGap_eq hclosing.ne_comma rest).bind
  | cons a as ih =>
      have hfirst := has a List.mem_cons_self before _ hbefore
        (stops_items before print hbehind hclosing as rest)
      have hcomma := takes_mark isGaps_nil (by decide : isGap ',' = false)
        (before ++ (print a ++ (as.flatMap (fun a => ',' :: (before ++ print a)) ++
          (behind ++ closing :: rest))))
      rw [List.flatMap_cons, List.cons_append, List.cons_append, List.append_assoc,
        List.append_assoc]
      refine .cons (hcomma.bind hfirst) ?_ (ih fun b hb => has b (List.mem_cons_of_mem a hb))
      simp only [List.length_cons, List.length_append]
      omega

theorem intercalate_cons_eq_append_flatMap (separator first : List Char)
    (texts : List (List Char)) :
    separator.intercalate (first :: texts) = first ++ texts.flatMap (separator ++ ·) := by
  induction texts generalizing first with
  | nil => simp
  | cons text texts ih =>
      rw [List.intercalate_cons_cons, ih, List.flatMap_cons, List.append_assoc, List.append_assoc]

/-- Items up to the bracket that ends them.  If there are none, the gaps are left to the bracket. -/
theorem takes_items (has : ∀ a ∈ as, Reads item (print a) a)
    (hnone : ∀ gap rest, IsGaps gap → Fails item (gap ++ closing :: rest))
    (hbefore : IsGaps before) (hbehind : IsGaps behind) (hclosing : IsClosing closing)
    (rest : List Char) :
    ∃ found mid, found.getD [] = as ∧ Takes (mark closing) mid () rest ∧
      Takes (Scanner.optional (separated item (mark ',')))
        (before ++ ((',' :: before).intercalate (as.map print) ++ (behind ++ closing :: rest)))
        found mid := by
  cases as with
  | nil =>
      have hgaps := hbefore.append hbehind
      refine ⟨none, _, rfl, takes_mark hgaps hclosing.isGap_eq rest, ?_⟩
      rw [List.map_nil, List.intercalate_nil, List.nil_append, ← List.append_assoc]
      exact (hnone _ rest hgaps).bind.optional
  | cons a as =>
      have hfirst := has a List.mem_cons_self before _ hbefore
        (stops_items before print hbehind hclosing as rest)
      have hothers := takesAll_items (fun b hb => has b (List.mem_cons_of_mem a hb)) hbefore
        hbehind hclosing rest
      refine ⟨some (a :: as), _, rfl, takes_mark hbehind hclosing.isGap_eq rest, ?_⟩
      rw [List.map_cons, intercalate_cons_eq_append_flatMap, List.flatMap_map, List.append_assoc]
      exact (hfirst.separated hothers).optional

end

/-! ## Values -/

/-! ### Scalars -/

/-- What is read as a scalar is read as a value at any depth, if it does not begin as a container
does. -/
theorem Reads.value {text : List Char} {v : Value} (h : Reads scalar text v) {first : Char}
    (hfirst : first ∈ text.head?) (hgapless : isGap first = false)
    (hbracket : first ≠ '[' ∧ first ≠ '\x7b') (depth : Nat) : Reads (value depth) text v := by
  cases depth with
  | zero => exact h
  | succ depth =>
      intro gap rest hgap hrest
      refine takes_past_gaps hgap (List.mem_head?_append_of_mem_head? hfirst) hgapless ?_
      split
      next heq => exact absurd (Option.some.inj heq) hbracket.1
      next heq => exact absurd (Option.some.inj heq) hbracket.2
      next => exact h [] rest isGaps_nil hrest

theorem takes_literal (cs : List Char) (v : Value) (rest : List Char) :
    Takes (do word cs; return v) (cs ++ rest) v rest :=
  (takes_word cs rest).bind (takes_pure v rest)

theorem reads_null (depth : Nat) : Reads (value depth) "null".toList .null := by
  have hfirst : 'n' ∈ "null".toList.head? := rfl
  refine Reads.value (fun gap rest hgap _ => ?_) hfirst (by decide) (by decide) depth
  exact takes_past_gaps hgap (List.mem_head?_append_of_mem_head? hfirst) (by decide)
    (takes_literal _ .null rest)

theorem reads_true (depth : Nat) : Reads (value depth) "true".toList (.bool true) := by
  have hfirst : 't' ∈ "true".toList.head? := rfl
  refine Reads.value (fun gap rest hgap _ => ?_) hfirst (by decide) (by decide) depth
  exact takes_past_gaps hgap (List.mem_head?_append_of_mem_head? hfirst) (by decide)
    (takes_literal _ (.bool true) rest)

theorem reads_false (depth : Nat) : Reads (value depth) "false".toList (.bool false) := by
  have hfirst : 'f' ∈ "false".toList.head? := rfl
  refine Reads.value (fun gap rest hgap _ => ?_) hfirst (by decide) (by decide) depth
  exact takes_past_gaps hgap (List.mem_head?_append_of_mem_head? hfirst) (by decide)
    (takes_literal _ (.bool false) rest)

theorem head?_quoted (s : String) : '"' ∈ (quoted s).toList.head? := by
  simp [quoted]

theorem reads_quoted (s : String) (depth : Nat) :
    Reads (value depth) (quoted s).toList (.string s) := by
  refine Reads.value (fun gap rest hgap _ => ?_) (head?_quoted s) (by decide) (by decide) depth
  exact takes_past_gaps hgap (List.mem_head?_append_of_mem_head? (head?_quoted s)) (by decide)
    ((takes_string s rest).bind (takes_pure _ rest))

theorem reads_int {i : Int} (h : IsWord i) (depth : Nat) :
    Reads (value depth) (toString i).toList (.number (.int i)) := by
  obtain ⟨first, hfirst, hother⟩ := exists_head?_toString i
  have hgapless : isGap first = false := by
    simp [isGap, hother ' ' (by decide), hother '\t' (by decide), hother '\n' (by decide),
      hother '\r' (by decide)]
  refine Reads.value (fun gap rest hgap hrest => ?_) hfirst hgapless
    ⟨hother _ (by decide), hother _ (by decide)⟩ depth
  refine takes_past_gaps hgap (List.mem_head?_append_of_mem_head? hfirst) hgapless ?_
  split
  next heq => exact absurd (Option.some.inj heq) (hother _ (by decide))
  next heq => exact absurd (Option.some.inj heq) (hother _ (by decide))
  next heq => exact absurd (Option.some.inj heq) (hother _ (by decide))
  next heq => exact absurd (Option.some.inj heq) (hother _ (by decide))
  next => exact (takes_number h hrest).bind (takes_pure _ rest)

/-! ### Containers -/

/-- Items between brackets, with gaps in front of every item and of the last bracket. -/
def enclosed (opening closing : Char) (before behind : List Char) (texts : List (List Char)) :
    List Char :=
  opening :: (before ++ ((',' :: before).intercalate texts ++ (behind ++ [closing])))

theorem enclosed_append (opening closing : Char) (before behind : List Char)
    (texts : List (List Char)) (rest : List Char) :
    enclosed opening closing before behind texts ++ rest =
      opening ::
        (before ++ ((',' :: before).intercalate texts ++ (behind ++ closing :: rest))) := by
  simp only [enclosed, List.cons_append, List.append_assoc, List.nil_append]

theorem fails_scalar (hgap : IsGaps gap) (rest : List Char) :
    Fails scalar (gap ++ ']' :: rest) := by
  have hminus : Fails (char '-') (']' :: rest) := fails_char (by simp)
  have hdigits : Fails (span1 Char.isDigit) (']' :: rest) :=
    fails_span1 fun c hc => by cases hc; decide
  exact fails_past_gaps hgap (Option.mem_some_self ']') (by decide)
    (hminus.optional.bind_fails hdigits.bind).bind

/-- No value begins with the end of an array. -/
theorem fails_value (hgap : IsGaps gap) (rest : List Char) (depth : Nat) :
    Fails (value depth) (gap ++ ']' :: rest) := by
  cases depth with
  | zero => exact fails_scalar hgap rest
  | succ depth =>
      exact fails_past_gaps hgap (Option.mem_some_self ']') (by decide)
        (fails_scalar isGaps_nil rest)

/-- No member begins with the end of an object. -/
theorem fails_member {item : Scanner Value} (hgap : IsGaps gap) (rest : List Char) :
    Fails (member item) (gap ++ '\x7d' :: rest) :=
  (takes_gaps hgap fun c hc => by cases hc; decide).bind_fails (fails_char (by simp)).bind.bind

section

variable {depth : Nat} {before behind : List Char}

theorem reads_array {vs : List Value} {print : Value → List Char}
    (hvs : ∀ v ∈ vs, Reads (value depth) (print v) v) (hbefore : IsGaps before)
    (hbehind : IsGaps behind) :
    Reads (value (depth + 1)) (enclosed '[' ']' before behind (vs.map print)) (.array vs) := by
  intro gap rest hgap hrest
  obtain ⟨found, mid, hfound, hclose, hitems⟩ := takes_items hvs
    (fun gap rest hgap => fails_value hgap rest depth) hbefore hbehind (.inl rfl) rest
  rw [enclosed_append]
  refine takes_past_gaps hgap (Option.mem_some_self '[') (by decide) ?_
  exact (takes_mark isGaps_nil (by decide) _).bind <| hitems.bind <| hclose.bind <|
    takes_pure_of_eq (congrArg Value.array hfound) rest

theorem reads_member (name : String) {v : Value} {text : List Char}
    (h : Reads (value depth) text v) (hgap : IsGaps gap) :
    Reads (member (value depth)) ((quoted name).toList ++ (':' :: (gap ++ text))) (name, v) := by
  intro front rest hfront hrest
  have hname := List.mem_head?_append_of_mem_head? (t := ':' :: (gap ++ text) ++ rest)
    (head?_quoted name)
  rw [List.append_assoc]
  refine (takes_gaps hfront fun c hc => ?_).bind <| (takes_string name _).bind ?_
  · rw [Option.mem_unique hc hname]
    decide
  · refine (takes_mark isGaps_nil (by decide) (gap ++ text ++ rest)).bind ?_
    rw [List.append_assoc]
    exact (h gap rest hgap hrest).bind (takes_pure _ rest)

theorem reads_object {members : List (String × Value)} {print : String × Value → List Char}
    (hmembers : ∀ m ∈ members, Reads (member (value depth)) (print m) m) (hbefore : IsGaps before)
    (hbehind : IsGaps behind) :
    Reads (value (depth + 1)) (enclosed '\x7b' '\x7d' before behind (members.map print))
      (.object members) := by
  intro gap rest hgap hrest
  obtain ⟨found, mid, hfound, hclose, hitems⟩ := takes_items hmembers
    (fun gap rest hgap => fails_member hgap rest) hbefore hbehind (.inr rfl) rest
  rw [enclosed_append]
  refine takes_past_gaps hgap (Option.mem_some_self '\x7b') (by decide) ?_
  exact (takes_mark isGaps_nil (by decide) _).bind <| hitems.bind <| hclose.bind <|
    takes_pure_of_eq (congrArg Value.object hfound) rest

end

/-! ## Layouts -/

/-- A value that its text says: its numbers are integers of sixty-four bits, and its containers are
nested no deeper than this. -/
inductive Value.IsExact : Nat → Value → Prop
  | null {depth : Nat} : IsExact depth .null
  | bool {depth : Nat} (b : Bool) : IsExact depth (.bool b)
  | int {depth : Nat} {i : Int} (h : IsWord i) : IsExact depth (.number (.int i))
  | string {depth : Nat} (s : String) : IsExact depth (.string s)
  | array {depth : Nat} {elements : List Value} (h : ∀ v ∈ elements, IsExact depth v) :
      IsExact (depth + 1) (.array elements)
  | object {depth : Nat} {members : List (String × Value)} (h : ∀ m ∈ members, IsExact depth m.2) :
      IsExact (depth + 1) (.object members)

theorem compactElements_eq_map (vs : List Value) : compactElements vs = vs.map Value.compact := by
  induction vs with
  | nil => rfl
  | cons v vs ih => rw [compactElements, ih, List.map_cons]

theorem compactMembers_eq_map (members : List (String × Value)) :
    compactMembers members = members.map fun m => quoted m.1 ++ ":" ++ m.2.compact := by
  induction members with
  | nil => rfl
  | cons m members ih => rw [compactMembers, ih, List.map_cons]

theorem prettyElements_eq_map (level : Nat) (vs : List Value) :
    prettyElements level vs = vs.map (Value.prettyAt level) := by
  induction vs with
  | nil => rfl
  | cons v vs ih => rw [prettyElements, ih, List.map_cons]

theorem prettyMembers_eq_map (level : Nat) (members : List (String × Value)) :
    prettyMembers level members =
      members.map fun m => quoted m.1 ++ ": " ++ m.2.prettyAt level := by
  induction members with
  | nil => rfl
  | cons m members ih => rw [prettyMembers, ih, List.map_cons]

/-- A value is read from its compact text. -/
theorem reads_compact {depth : Nat} {v : Value} (h : v.IsExact depth) :
    Reads (value depth) v.compact.toList v := by
  induction h with
  | null => exact reads_null _
  | bool b =>
      cases b
      · exact reads_false _
      · exact reads_true _
  | int h => exact reads_int h _
  | string s => exact reads_quoted s _
  | @array depth elements _ ih =>
      have htext : (Value.array elements).compact.toList =
          enclosed '[' ']' [] [] (elements.map (·.compact.toList)) := by
        simp [Value.compact, compactElements_eq_map, String.toList_intercalate, enclosed,
          Function.comp_def]
      rw [htext]
      exact reads_array ih isGaps_nil isGaps_nil
  | @object depth members _ ih =>
      have htext : (Value.object members).compact.toList = enclosed '\x7b' '\x7d' [] []
          (members.map fun m => (quoted m.1).toList ++ (':' :: ([] ++ m.2.compact.toList))) := by
        simp [Value.compact, compactMembers_eq_map, String.toList_intercalate, enclosed,
          Function.comp_def]
      rw [htext]
      exact reads_object (fun m hm => reads_member m.1 (ih m hm) isGaps_nil) isGaps_nil isGaps_nil

/-- A block has gaps between its items, or no items. -/
theorem exists_toList_block (level : Nat) (left right : Char) (items : List String) :
    ∃ before behind, IsGaps before ∧ IsGaps behind ∧
      (block level (.singleton left) (.singleton right) items).toList =
        enclosed left right before behind (items.map String.toList) := by
  by_cases h : items = []
  · refine ⟨[], [], isGaps_nil, isGaps_nil, ?_⟩
    simp [block, h, enclosed]
  · refine ⟨_, _, isGaps_lineBreak (level + 1), isGaps_lineBreak level, ?_⟩
    simp [block, h, enclosed, String.toList_intercalate]

/-- A value is read from its text over several lines. -/
theorem reads_pretty {depth : Nat} {v : Value} (h : v.IsExact depth) (level : Nat) :
    Reads (value depth) (v.prettyAt level).toList v := by
  induction h generalizing level with
  | null =>
      rw [Value.prettyAt]
      exact reads_null _
  | bool b =>
      cases b <;> rw [Value.prettyAt]
      · exact reads_false _
      · exact reads_true _
  | int h =>
      rw [Value.prettyAt]
      exact reads_int h _
  | string s =>
      rw [Value.prettyAt]
      exact reads_quoted s _
  | @array depth elements _ ih =>
      obtain ⟨before, behind, hbefore, hbehind, htext⟩ :=
        exists_toList_block level '[' ']' (prettyElements (level + 1) elements)
      rw [prettyElements_eq_map, List.map_map] at htext
      rw [Value.prettyAt, prettyElements_eq_map]
      exact htext ▸ reads_array (fun v hv => ih v hv (level + 1)) hbefore hbehind
  | @object depth members _ ih =>
      have hblank : IsGaps [' '] := by simp [IsGaps, isGap]
      obtain ⟨before, behind, hbefore, hbehind, htext⟩ :=
        exists_toList_block level '\x7b' '\x7d' (prettyMembers (level + 1) members)
      rw [prettyMembers_eq_map, List.map_map] at htext
      rw [Value.prettyAt, prettyMembers_eq_map]
      refine htext ▸ reads_object (fun m hm => ?_) hbefore hbehind
      simpa using reads_member m.1 (ih m hm (level + 1)) hblank

theorem parse_of_reads {text : String} {v : Value} (h : Reads (value nestingLimit) text.toList v) :
    parse text = some v := by
  have hv := h [] [] isGaps_nil stops_nil
  rw [List.nil_append, List.append_nil] at hv
  exact run_of_takes <| hv.bind <| (takes_gaps isGaps_nil (by simp)).bind (takes_pure v [])

/-- **What is written without blanks is read.** -/
theorem parse_compact {v : Value} (h : v.IsExact nestingLimit) : parse v.compact = some v :=
  parse_of_reads (reads_compact h)

/-- **What is written over several lines is read.** -/
theorem parse_pretty {v : Value} (h : v.IsExact nestingLimit) : parse v.pretty = some v :=
  parse_of_reads (reads_pretty h 0)

end FleetLink.Json
