import FleetLink.Codec.Record

/-!
# What a record is read from

A record is read in one pass over the members of an object, each of which is put where it belongs.
This module says what comes of the pass **field by field**: a record is read exactly if every field
is there once and reads, or is not there and has a default.  The order of the members does not
matter, and neither do members that are no field.

**One field is taken out.**  The pass over an object for a list of fields is a pass for the first
field over the members with its name, and a pass for the others over the members without it
(`Fields.putAll_cons_eq_ok_iff`).  So the fields come apart by recursion over their list.

## Main Definitions

* `Field.Holds`, `Fields.Holds` — a field, and all fields, from the members of an object
* `Json.Value.part?` — what stands at a place of a record, be it an object or an array
* `Fields.Parts` — each field from what stands at its place

## Main Statements

* `Fields.ofMembers_eq_ok_iff` — when a record is read from an object, and which
* `Fields.parts_of_read` — what each field of a record was read from
-/

namespace FleetLink

open Json (Value)

variable {α : Type} {intake : Intake} {members : List (String × Value)}

/-- The members with a name are still there when those with another one are not. -/
theorem filter_filter_ne {name other : String} (h : name ≠ other) :
    (members.filter (·.1 ≠ other)).filter (·.1 = name) = members.filter (·.1 = name) := by
  rw [List.filter_filter]
  refine List.filter_congr ?_
  intro m _
  by_cases hm : m.1 = name
  · simp [hm, h]
  · simp [hm]

theorem exists_of_map_eq_ok {α β : Type} {read : Except Fault α} {wrap : α → β} {b : β}
    (h : read.map wrap = .ok b) : ∃ a, read = .ok a ∧ wrap a = b := by
  cases read with
  | error fault => cases h
  | ok a => exact ⟨a, rfl, Except.ok.inj h⟩

/-- Rows are equal when their parts are. -/
@[simp] theorem Row.ok_cons_inj {F : Type → Type} {αs : List Type} {a b : F α} {as bs : Row F αs} :
    (Except.ok (a, as) : Except Fault (Row F (α :: αs))) = .ok (b, bs) ↔ a = b ∧ as = bs := by
  constructor
  · intro h
    cases h
    exact ⟨rfl, rfl⟩
  · rintro ⟨rfl, rfl⟩
    rfl

/-- A field is read from the members of an object: it is there once and reads, or it is not there
and has a default. -/
def Field.Holds (field : Field α) (intake : Intake) (members : List (String × Value)) (a : α) :
    Prop :=
  (members.filter (·.1 = field.name) = [] ∧ field.default? = some a) ∨
    ∃ v, members.filter (·.1 = field.name) = [(field.name, v)] ∧ field.codec.read intake v = .ok a

/-- The members with the name of a field fill its slot: there is none of them, or one for an empty
slot. -/
def Field.Fills (field : Field α) (intake : Intake) (slot : Option α)
    (own : List (String × Value)) (filled : Option α) : Prop :=
  (own = [] ∧ filled = slot) ∨
    slot = none ∧ ∃ v a, own = [(field.name, v)] ∧ field.codec.read intake v = .ok a ∧
      filled = some a

/-- A slot that is full takes no member. -/
theorem Field.fills_some_iff {field : Field α} {a : α} {own : List (String × Value)}
    {filled : Option α} : field.Fills intake (some a) own filled ↔ own = [] ∧ filled = some a := by
  simp [Fills]

/-- A slot that is empty takes one member, if it reads. -/
theorem Field.fills_none_cons_iff {field : Field α} {v : Value} {own : List (String × Value)}
    {filled : Option α} :
    field.Fills intake none ((field.name, v) :: own) filled ↔
      ∃ a, field.codec.read intake v = .ok a ∧ field.Fills intake (some a) own filled := by
  unfold Fills
  constructor
  · rintro (⟨hnil, -⟩ | ⟨-, w, a, hown, hread, rfl⟩)
    · cases hnil
    · obtain ⟨hpair, rfl⟩ := List.cons.inj hown
      obtain rfl := (Prod.mk.inj hpair).2
      exact ⟨a, hread, .inl ⟨rfl, rfl⟩⟩
  · rintro ⟨a, hread, ⟨rfl, rfl⟩ | ⟨hfull, -⟩⟩
    · exact .inr ⟨rfl, v, a, rfl, hread, rfl⟩
    · cases hfull

namespace Fields

variable {αs : List Type}

/-- Every field is read from the members of an object. -/
def Holds (intake : Intake) (members : List (String × Value)) : {αs : List Type} → Fields αs →
    Row id αs → Prop
  | _, nil, () => True
  | _, cons field rest, (a, as) => field.Holds intake members a ∧ rest.Holds intake members as

/-! ## The pass over an object -/

/-- No field is left, so nothing can be wrong. -/
theorem putAll_nil (members : List (String × Value)) : nil.putAll intake () members = .ok () := by
  induction members with
  | nil => rfl
  | cons m members ih => exact ih

/-- **The first field is taken out:** it is filled from the members with its name, and the others
from those without it. -/
theorem putAll_cons_eq_ok_iff {field : Field α} {rest : Fields αs} {slot filled : Option α}
    {slots full : Row Option αs} :
    (cons field rest).putAll intake (slot, slots) members = .ok (filled, full) ↔
      field.Fills intake slot (members.filter (·.1 = field.name)) filled ∧
        rest.putAll intake slots (members.filter (·.1 ≠ field.name)) = .ok full := by
  induction members generalizing slot slots with
  | nil => simp [putAll, Field.Fills, eq_comm (a := slot), eq_comm (a := slots)]
  | cons m members ih =>
      obtain ⟨name, v⟩ := m
      simp only [putAll]
      by_cases hname : field.name = name
      · subst hname
        rw [List.filter_cons_of_pos (by simp), List.filter_cons_of_neg (by simp)]
        cases slot with
        | some a =>
            rw [Field.fills_some_iff]
            simp [put]
        | none =>
            rw [Field.fills_none_cons_iff]
            cases hread : field.codec.read intake v with
            | error fault => simp [put, hread]
            | ok a => simp [put, hread, ih]
      · rw [List.filter_cons_of_neg (by simpa using Ne.symm hname),
          List.filter_cons_of_pos (by simpa using Ne.symm hname)]
        simp only [putAll]
        cases hput : rest.put intake slots name v with
        | error fault => simp [put, hname, hput]
        | ok slots' => simp only [put, if_neg hname, hput, ih]

/-- The first field of a record is filled or has a default, and the others are finished. -/
theorem finish_cons_eq_ok_iff {field : Field α} {rest : Fields αs} {slot : Option α}
    {slots : Row Option αs} {a : α} {as : Row id αs} :
    (cons field rest).finish (slot, slots) = .ok (a, as) ↔
      slot.or field.default? = some a ∧ rest.finish slots = .ok as := by
  simp only [finish]
  cases slot.or field.default? with
  | none => simp
  | some b =>
      cases rest.finish slots with
      | error fault => simp
      | ok bs =>
          rw [Option.some.injEq, Except.ok.injEq]
          exact Row.ok_cons_inj (F := id)

/-- A field is read exactly if its own members fill a slot, or leave it to the default. -/
theorem holds_iff_fills {field : Field α} {a : α} :
    field.Holds intake members a ↔
      ∃ filled, field.Fills intake none (members.filter (·.1 = field.name)) filled ∧
        filled.or field.default? = some a := by
  unfold Field.Holds Field.Fills
  constructor
  · rintro (⟨hnone, hdefault⟩ | ⟨v, hone, hread⟩)
    · exact ⟨none, .inl ⟨hnone, rfl⟩, hdefault⟩
    · exact ⟨some a, .inr ⟨rfl, v, a, hone, hread, rfl⟩, rfl⟩
  · rintro ⟨_, ⟨hnone, rfl⟩ | ⟨-, v, b, hone, hread, rfl⟩, hvalue⟩
    · exact .inl ⟨hnone, hvalue⟩
    · obtain rfl := Option.some.inj hvalue
      exact .inr ⟨v, hone, hread⟩

/-- The members with another name do not matter. -/
theorem holds_filter_ne_iff {fs : Fields αs} {row : Row id αs} {name : String}
    (h : name ∉ fs.names) :
    fs.Holds intake (members.filter (·.1 ≠ name)) row ↔ fs.Holds intake members row := by
  induction fs with
  | nil => exact Iff.rfl
  | cons field rest ih =>
      obtain ⟨a, as⟩ := row
      rw [names, List.mem_cons, not_or] at h
      simp only [Holds, Field.Holds, filter_filter_ne (Ne.symm h.1), ih h.2]

/-- **A record is read from an object** exactly if each of its fields is. -/
theorem ofMembers_eq_ok_iff {fs : Fields αs} (hnames : fs.names.Nodup) {row : Row id αs} :
    fs.ofMembers intake members = .ok row ↔ fs.Holds intake members row := by
  induction fs generalizing members with
  | nil =>
      rw [ofMembers, blank, putAll_nil]
      exact iff_of_true rfl trivial
  | cons field rest ih =>
      obtain ⟨a, as⟩ := row
      rw [names, List.nodup_cons] at hnames
      have hrest : rest.Holds intake members as ↔
          ∃ full, rest.putAll intake rest.blank (members.filter (·.1 ≠ field.name)) = .ok full ∧
            rest.finish full = .ok as := by
        rw [← holds_filter_ne_iff hnames.1, ← ih hnames.2, ofMembers]
        cases rest.putAll intake rest.blank (members.filter (·.1 ≠ field.name)) <;> simp
      have hpass : (cons field rest).ofMembers intake members = .ok (a, as) ↔
          ∃ filled full, (cons field rest).putAll intake (none, rest.blank) members =
            .ok (filled, full) ∧ (cons field rest).finish (filled, full) = .ok (a, as) := by
        rw [ofMembers, blank]
        cases (cons field rest).putAll intake (none, rest.blank) members with
        | error fault => simp
        | ok row =>
            obtain ⟨filled, full⟩ := row
            simp [and_assoc]
      rw [hpass, Holds, holds_iff_fills, hrest]
      simp only [putAll_cons_eq_ok_iff, finish_cons_eq_ok_iff]
      constructor
      · rintro ⟨filled, full, ⟨hfills, hput⟩, hvalue, hfinish⟩
        exact ⟨⟨filled, hfills, hvalue⟩, full, hput, hfinish⟩
      · rintro ⟨⟨filled, hfills, hvalue⟩, full, hput, hfinish⟩
        exact ⟨filled, full, ⟨hfills, hput⟩, hvalue, hfinish⟩

end Fields

/-! ## Where a field stands -/

/-- What stands at a place of a record: the member with a name, or in an array the element at a
position. -/
def Json.Value.part? : Value → String × Nat → Option Value
  | .object members, (name, _) => (members.find? (·.1 = name)).map (·.2)
  | .array vs, (_, position) => vs[position]?
  | _, _ => none

/-- Members with another name do not matter for what stands under a name. -/
theorem Json.Value.part?_filter_ne {name other : String} (h : name ≠ other) (position : Nat) :
    (Value.object (members.filter (·.1 ≠ other))).part? (name, position) =
      (Value.object members).part? (name, position) := by
  simp only [part?, ← List.head?_filter, filter_filter_ne h]

namespace Fields

variable {αs : List Type}

/-- Each field is read from what stands at its place, the first of which has the given position. -/
def Parts (intake : Intake) (v : Value) : {αs : List Type} → Nat → Fields αs → Row id αs → Prop
  | _, _, nil, () => True
  | _, position, cons field rest, (a, as) =>
    (∀ part, v.part? (field.name, position) = some part → field.codec.read intake part = .ok a) ∧
      rest.Parts intake v (position + 1) as

theorem parts_of_holds {fs : Fields αs} {row : Row id αs} (h : fs.Holds intake members row)
    (position : Nat) : fs.Parts intake (.object members) position row := by
  induction fs generalizing position with
  | nil => trivial
  | cons field rest ih =>
      obtain ⟨a, as⟩ := row
      refine ⟨?_, ih h.2 (position + 1)⟩
      intro part hpart
      obtain ⟨m, hfind, rfl⟩ := Option.map_eq_some_iff.mp hpart
      rw [← List.head?_filter] at hfind
      rcases h.1 with ⟨hnone, -⟩ | ⟨v, hone, hread⟩
      · rw [hnone] at hfind
        cases hfind
      · rw [hone] at hfind
        cases hfind
        exact hread

theorem parts_of_ofElements {what : String} {total length : Nat} {fs : Fields αs} {row : Row id αs}
    {position : Nat} {vs all : List Value} (hall : ∀ k, all[position + k]? = vs[k]?)
    (h : ofElements intake what total length fs position vs = .ok row) :
    fs.Parts intake (.array all) position row := by
  induction fs generalizing position vs with
  | nil => trivial
  | cons field rest ih =>
      obtain ⟨a, as⟩ := row
      cases vs with
      | nil =>
          -- The field and all that follow were left off.
          have hnext : ∀ k, all[position + 1 + k]? = ([] : List Value)[k]? := by
            intro k
            rw [Nat.add_assoc, hall]
            simp
          rw [ofElements] at h
          refine ⟨?_, ?_⟩
          · intro part hpart
            have hnone : all[position]? = none := hall 0
            rw [Json.Value.part?, hnone] at hpart
            cases hpart
          · split at h
            · cases h
            · split at h
              · cases h
              next hrest =>
                obtain ⟨rfl, rfl⟩ := (Row.ok_cons_inj (F := id)).mp h
                exact ih hnext hrest
      | cons v vs =>
          have hnext : ∀ k, all[position + 1 + k]? = vs[k]? := by
            intro k
            rw [Nat.add_assoc, Nat.add_comm 1 k, hall, List.getElem?_cons_succ]
          rw [ofElements] at h
          split at h
          · cases h
          next b hread =>
            split at h
            · cases h
            next hrest =>
              obtain ⟨rfl, rfl⟩ := (Row.ok_cons_inj (F := id)).mp h
              refine ⟨?_, ih hnext hrest⟩
              intro part hpart
              have hfirst := hall 0
              rw [Nat.add_zero, List.getElem?_cons_zero] at hfirst
              obtain rfl := Option.some.inj (hfirst.symm.trans hpart)
              exact hread

/-- **Each field of a record was read from what stands at its place.** -/
theorem parts_of_read {fs : Fields αs} (hnames : fs.names.Nodup) {what : String} {v : Value}
    {row : Row id αs} (h : fs.read what intake v = .ok row) : fs.Parts intake v 0 row := by
  cases v with
  | object members => exact parts_of_holds ((ofMembers_eq_ok_iff hnames).mp h) 0
  | array vs => exact parts_of_ofElements (by simp) h
  | _ => cases h

end Fields

namespace Codec

variable {αs : List Type} {what : String} {fs : Fields αs} {ofRow : Row id αs → α}
  {toRow : α → Row id αs} {v : Value} {a : α}

theorem parts_of_record (hnames : fs.names.Nodup)
    (h : (record what fs ofRow toRow).read intake v = .ok a) :
    ∃ row, a = ofRow row ∧ fs.Parts intake v 0 row := by
  simp only [record] at h
  split at h
  · cases h
  next row hread =>
    cases h
    exact ⟨row, rfl, Fields.parts_of_read hnames hread⟩

theorem parts_of_members (hnames : fs.names.Nodup)
    (h : (Codec.members what fs ofRow toRow).read intake v = .ok a) :
    ∃ row, a = ofRow row ∧ fs.Parts intake v 0 row := by
  cases v with
  | object _ =>
      have hrecord : (record what fs ofRow toRow).read intake (.object _) = .ok a := h
      exact parts_of_record hnames hrecord
  | _ => cases h

end Codec

end FleetLink
