import FleetLink.Proofs.Codec.Record
import FleetLink.Proofs.Text.Base64

/-!
# Edits that a reader does not notice

Data that was written may be edited before it is read: members of an object change their order, a
member that holds what its absence would mean is left out, and members with other names are added.
`Edited` says that a value is another one after such edits, anywhere inside it, and a codec is
**tolerant** if it reads what it wrote after any of them.

**Which members may be left out** is a table of names with what they hold; it is given once for a
whole format.  A record is tolerant if its fields are and the table agrees with their defaults
(`Codec.Tolerant.record`), so that of a format nothing but its table has to be looked at.

## Main Definitions

* `Json.Edited` — a value after edits
* `Codec.Tolerant` — a codec that reads what it wrote, and after edits as well

## Main Statements

* `Codec.Tolerant.scalar`, `Codec.Tolerant.option`, `Codec.Tolerant.list` — parts of records
* `Codec.Tolerant.record`, `Codec.Tolerant.members` — records
-/

namespace FleetLink

open Json (Value)

/-! ## Edits -/

namespace Json

section

variable (omissible : List (String × Value))

mutual

/-- The second value is the first one after edits.  Elements of an array are edited one by one.  Of
an object, each member is still there once, and is edited, or is one that may be left out and is not
there; other members are as they like.  Anything else is as it was. -/
def Edited : Value → Value → Prop
  | .array vs, w => ∃ ws, w = .array ws ∧ EditedElements vs ws
  | .object members, w => ∃ edited, w = .object edited ∧ EditedMembers members edited
  | v, w => w = v

/-- `Edited` for each element. -/
def EditedElements : List Value → List Value → Prop
  | [], ws => ws = []
  | v :: vs, ws => ∃ w rest, ws = w :: rest ∧ Edited v w ∧ EditedElements vs rest

/-- `Edited` for each member. -/
def EditedMembers : List (String × Value) → List (String × Value) → Prop
  | [], _ => True
  | (name, v) :: members, edited =>
    ((name, v) ∈ omissible ∧ edited.filter (·.1 = name) = [] ∨
      ∃ w, edited.filter (·.1 = name) = [(name, w)] ∧ Edited v w) ∧ EditedMembers members edited

end

end

variable {omissible : List (String × Value)}

/-- Neither a container. -/
def Value.IsScalar : Value → Prop
  | .array _ | .object _ => False
  | _ => True

/-- Nothing can be edited in a scalar. -/
theorem edited_scalar_iff {v w : Value} (h : v.IsScalar) : Edited omissible v w ↔ w = v := by
  cases v with
  | array _ => exact h.elim
  | object _ => exact h.elim
  | _ => rw [Edited] <;> simp

theorem edited_null_iff {w : Value} : Edited omissible .null w ↔ w = .null :=
  edited_scalar_iff (v := .null) trivial

/-- An object stays one, and an array too; so only null becomes null. -/
theorem ne_null_of_edited {v w : Value} (h : Edited omissible v w) (hv : v ≠ .null) :
    w ≠ .null := by
  by_cases hscalar : v.IsScalar
  · rw [edited_scalar_iff hscalar] at h
    rwa [h]
  · cases v with
    | array _ =>
        obtain ⟨ws, rfl, -⟩ := h
        exact nofun
    | object _ =>
        obtain ⟨edited, rfl, -⟩ := h
        exact nofun
    | _ => exact absurd trivial hscalar

theorem editedMembers_iff {members edited : List (String × Value)} :
    EditedMembers omissible members edited ↔
      ∀ m ∈ members, m ∈ omissible ∧ edited.filter (·.1 = m.1) = [] ∨
        ∃ w, edited.filter (·.1 = m.1) = [(m.1, w)] ∧ Edited omissible m.2 w := by
  induction members with
  | nil => exact iff_of_true trivial (by simp)
  | cons m members ih =>
      rw [EditedMembers, ih, List.forall_mem_cons]

/-- A member that may not be left out is there. -/
theorem editedMembers_cons {name : String} {v : Value} {members edited : List (String × Value)}
    (h : EditedMembers omissible ((name, v) :: members) edited)
    (hname : ∀ w, (name, w) ∉ omissible) :
    (∃ w, edited.filter (·.1 = name) = [(name, w)] ∧ Edited omissible v w) ∧
      EditedMembers omissible members edited := by
  obtain ⟨⟨hmem, -⟩ | hthere, hrest⟩ := h
  · exact absurd hmem (hname v)
  · exact ⟨hthere, hrest⟩

/-- Members with another name do not matter for those that are edited. -/
theorem editedMembers_filter_ne {members edited : List (String × Value)} {name : String}
    (h : EditedMembers omissible members edited) (hname : ∀ m ∈ members, m.1 ≠ name) :
    EditedMembers omissible members (edited.filter (·.1 ≠ name)) := by
  rw [editedMembers_iff] at h ⊢
  intro m hm
  rw [filter_filter_ne (hname m hm)]
  exact h m hm

/-- Not to edit a member in front of others is an edit too. -/
theorem editedMembers_cons_self {name : String} {v : Value} {members : List (String × Value)}
    (hnames : (name :: members.map (·.1)).Nodup) (hv : Edited omissible v v)
    (h : EditedMembers omissible members members) :
    EditedMembers omissible ((name, v) :: members) ((name, v) :: members) := by
  rw [List.nodup_cons] at hnames
  have hne : ∀ m ∈ members, m.1 ≠ name := fun m hm heq =>
    hnames.1 (heq ▸ List.mem_map_of_mem hm)
  refine ⟨.inr ⟨v, ?_, hv⟩, ?_⟩
  · rw [List.filter_cons_of_pos (by simp), List.filter_eq_nil_iff.mpr (by simpa using hne)]
  · rw [editedMembers_iff] at h ⊢
    intro m hm
    rw [List.filter_cons_of_neg (by simpa using Ne.symm (hne m hm))]
    exact h m hm

end Json

open Json (Edited EditedElements EditedMembers)

/-! ## Codecs -/

/-- A codec reads what it wrote after any edits, and not to edit it is one. -/
structure Codec.Tolerant {α : Type} (omissible : List (String × Value)) (c : Codec α) : Prop where
  self : ∀ a, Edited omissible (c.write a) (c.write a)
  read : ∀ intake a v, Edited omissible (c.write a) v → c.read intake v = .ok a

namespace Codec

variable {α : Type} {omissible : List (String × Value)} {c : Codec α}

/-- A codec that is tolerant is lawful. -/
theorem Tolerant.lawful (h : c.Tolerant omissible) : c.Lawful :=
  fun intake a => h.read intake a _ (h.self a)

/-- What a lawful codec writes tells the value. -/
theorem Lawful.write_inj (h : c.Lawful) {a b : α} (heq : c.write a = c.write b) : a = b := by
  have ha := h .direct a
  rw [heq, h .direct b] at ha
  exact (Except.ok.inj ha).symm

theorem Tolerant.map_read {β : Type} (h : c.Tolerant omissible) (wrap : α → β) (intake : Intake)
    {a : α} {v : Value} (hv : Edited omissible (c.write a) v) :
    (c.read intake v).map wrap = .ok (wrap a) := by
  rw [h.read intake a v hv]
  rfl

/-- What a tolerant codec writes as an object. -/
theorem Tolerant.object (h : c.Tolerant omissible) {a : α} {members : List (String × Value)}
    (hwrite : c.write a = .object members) :
    EditedMembers omissible members members ∧
      ∀ intake edited, EditedMembers omissible members edited →
        c.read intake (.object edited) = .ok a := by
  have hself := h.self a
  rw [hwrite] at hself
  obtain ⟨same, heq, hmembers⟩ := hself
  obtain rfl := Value.object.inj heq
  refine ⟨hmembers, fun intake edited hedited => h.read intake a _ ?_⟩
  rw [hwrite]
  exact ⟨edited, rfl, hedited⟩

/-- Scalars only have to be read back. -/
theorem Tolerant.scalar (hscalar : ∀ a, (c.write a).IsScalar) (h : c.Lawful) :
    c.Tolerant omissible where
  self a := (Json.edited_scalar_iff (hscalar a)).mpr rfl
  read intake a v hv := by
    rw [(Json.edited_scalar_iff (hscalar a)).mp hv]
    exact h intake a

theorem readWord_ofNat {bits n : Nat} (want : String) (h : n < Nat.pow 2 bits) :
    readWord bits want (.ofNat n) = .ok n := by
  have hn : 0 ≤ (n : Int) ∧ (n : Int).toNat < Nat.pow 2 bits := ⟨Int.natCast_nonneg n, h⟩
  simp only [readWord, Value.ofNat]
  rw [if_pos hn, Int.toNat_natCast]

theorem word8_lawful : word8.Lawful := by
  intro intake a
  show (readWord 8 "u8" (.ofNat a.toNat)).map UInt8.ofNat = .ok a
  rw [readWord_ofNat "u8" a.toNat_lt]
  exact congrArg Except.ok a.ofNat_toNat

theorem word32_lawful : word32.Lawful := by
  intro intake a
  show (readWord 32 "u32" (.ofNat a.toNat)).map UInt32.ofNat = .ok a
  rw [readWord_ofNat "u32" a.toNat_lt]
  exact congrArg Except.ok a.ofNat_toNat

theorem float_lawful : float.Lawful := fun _ _ => rfl

theorem string_lawful : string.Lawful := fun _ _ => rfl

theorem bytes_lawful : bytes.Lawful := by
  intro intake bs
  simp only [bytes, string, text, Text.Base64.decode_encode]

/-- Bytes that are read are written as the text they were read from. -/
theorem write_bytes_of_read {intake : Intake} {v : Value} {bs : List UInt8}
    (h : bytes.read intake v = .ok bs) : ∃ s, v = .string s ∧ bytes.write bs = .string s := by
  cases v with
  | string s =>
      refine ⟨s, rfl, ?_⟩
      simp only [bytes, string, text] at h ⊢
      split at h
      next hdecode =>
        obtain rfl := Except.ok.inj h
        rw [Text.Base64.encode_of_decode hdecode]
      next => cases h
  | _ => cases h

/-- A value that may be absent. -/
theorem Tolerant.option (h : c.Tolerant omissible) (hnull : ∀ a, c.write a ≠ .null) :
    c.option.Tolerant omissible where
  self
    | none => Json.edited_null_iff.mpr rfl
    | some a => h.self a
  read intake a v hv := by
    cases a with
    | none =>
        rw [Json.edited_null_iff.mp hv]
        rfl
    | some a =>
        have hread := h.read intake a v hv
        have hne := Json.ne_null_of_edited hv (hnull a)
        cases v with
        | null => exact absurd rfl hne
        | _ => exact congrArg (Except.map some) hread

/-- Elements in order. -/
theorem readElements_of_edited (h : c.Tolerant omissible) (intake : Intake) (as : List α)
    {vs : List Value} (position : Nat) (hvs : EditedElements omissible (as.map c.write) vs) :
    c.readElements intake position vs = .ok as := by
  induction as generalizing vs position with
  | nil =>
      obtain rfl : vs = [] := hvs
      rfl
  | cons a as ih =>
      obtain ⟨w, rest, rfl, hw, hrest⟩ := hvs
      rw [readElements, h.read intake a w hw, ih (position + 1) hrest]

theorem editedElements_self (h : c.Tolerant omissible) (as : List α) :
    EditedElements omissible (as.map c.write) (as.map c.write) := by
  induction as with
  | nil => rfl
  | cons a as ih => exact ⟨_, _, rfl, h.self a, ih⟩

theorem Tolerant.list (h : c.Tolerant omissible) : c.list.Tolerant omissible where
  self as := ⟨_, rfl, editedElements_self h as⟩
  read intake as v := by
    rintro ⟨vs, rfl, hvs⟩
    exact readElements_of_edited h intake as 0 hvs

end Codec

/-! ## Records -/

section

variable {α : Type} {αs : List Type} (omissible : List (String × Value))

/-- A field is tolerant if its codec is, and if it has a default wherever it may be left out. -/
structure Field.Tolerant (field : Field α) : Prop where
  codec : field.codec.Tolerant omissible
  default : ∀ a, (field.name, field.codec.write a) ∈ omissible → field.default? = some a

/-- Every field is tolerant. -/
def Fields.Tolerant : {αs : List Type} → Fields αs → Prop
  | _, nil => True
  | _, cons field rest => field.Tolerant omissible ∧ rest.Tolerant

end

section

variable {α : Type} {αs : List Type} {omissible : List (String × Value)} {c : Codec α}

theorem Field.Tolerant.required {name : String} (hcodec : c.Tolerant omissible)
    (hname : ∀ a, (name, c.write a) ∉ omissible) : (Field.required name c).Tolerant omissible :=
  ⟨hcodec, fun a ha => absurd ha (hname a)⟩

theorem Field.Tolerant.defaulted {name : String} {value : α} (hcodec : c.Tolerant omissible)
    (hname : ∀ v, (name, v) ∈ omissible → v = c.write value) :
    (Field.defaulted name c value).Tolerant omissible :=
  ⟨hcodec, fun _ ha => congrArg some (hcodec.lawful.write_inj (hname _ ha)).symm⟩

theorem Field.Tolerant.optional {name : String} (hcodec : c.Tolerant omissible)
    (hnull : ∀ a, c.write a ≠ .null) (hname : ∀ v, (name, v) ∈ omissible → v = .null) :
    (Field.optional name c).Tolerant omissible :=
  Field.Tolerant.defaulted (hcodec.option hnull) hname

namespace Fields

theorem map_name_write (fs : Fields αs) (row : Row id αs) :
    (fs.write row).map (·.1) = fs.names := by
  induction fs with
  | nil => rfl
  | cons field rest ih => exact congrArg (field.name :: ·) (ih row.2)

theorem Tolerant.self {fs : Fields αs} (h : fs.Tolerant omissible) (hnames : fs.names.Nodup)
    (row : Row id αs) : EditedMembers omissible (fs.write row) (fs.write row) := by
  induction fs with
  | nil => trivial
  | cons field rest ih =>
      refine Json.editedMembers_cons_self ?_ (h.1.codec.self row.1) ?_
      · rw [map_name_write]
        exact hnames
      · exact ih h.2 (List.nodup_cons.mp hnames).2 row.2

/-- The members of a record hold its fields after edits too. -/
theorem Tolerant.holds {fs : Fields αs} (h : fs.Tolerant omissible) (intake : Intake)
    {row : Row id αs} {edited : List (String × Value)}
    (hedited : EditedMembers omissible (fs.write row) edited) : fs.Holds intake edited row := by
  induction fs with
  | nil => trivial
  | cons field rest ih =>
      obtain ⟨a, as⟩ := row
      obtain ⟨hown, hrest⟩ := hedited
      refine ⟨?_, ih h.2 hrest⟩
      rcases hown with ⟨hmem, hnone⟩ | ⟨w, hone, hw⟩
      · exact .inl ⟨hnone, h.1.default a hmem⟩
      · exact .inr ⟨w, hone, h.1.codec.read intake a w hw⟩

theorem Tolerant.ofMembers {fs : Fields αs} (h : fs.Tolerant omissible) (hnames : fs.names.Nodup)
    (intake : Intake) {row : Row id αs} {edited : List (String × Value)}
    (hedited : EditedMembers omissible (fs.write row) edited) :
    fs.ofMembers intake edited = .ok row :=
  (ofMembers_eq_ok_iff hnames).mpr (h.holds intake hedited)

end Fields

section

variable {what : String} {fs : Fields αs} {ofRow : Row id αs → α} {toRow : α → Row id αs}

/-- **A record is tolerant** if its fields are. -/
theorem Codec.Tolerant.record (hnames : fs.names.Nodup) (hrow : ∀ a, ofRow (toRow a) = a)
    (h : fs.Tolerant omissible) : (Codec.record what fs ofRow toRow).Tolerant omissible where
  self a := ⟨_, rfl, h.self hnames (toRow a)⟩
  read intake a v := by
    rintro ⟨edited, rfl, hedited⟩
    have hread : fs.read what intake (.object edited) = .ok (toRow a) :=
      h.ofMembers hnames intake hedited
    simp only [Codec.record, hread, hrow]

theorem Codec.Tolerant.members (hnames : fs.names.Nodup) (hrow : ∀ a, ofRow (toRow a) = a)
    (h : fs.Tolerant omissible) : (Codec.members what fs ofRow toRow).Tolerant omissible where
  self a := ⟨_, rfl, h.self hnames (toRow a)⟩
  read intake a v := by
    rintro ⟨edited, rfl, hedited⟩
    have hread := h.ofMembers hnames intake hedited
    simp only [Codec.members, hread, hrow]

end

end

end FleetLink
