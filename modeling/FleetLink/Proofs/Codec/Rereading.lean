import FleetLink.Proofs.Codec.Edits

/-!
# Reading again what was read

A codec is lawful if every value it can write is read back.  A codec whose values carry something
that only its reader makes, such as a text next to what the text means, is not: it can write values
that no text means.  What it has to do is less: **what was read can be read again**, and is the
same then (`Codec.Faithful`).

A record is read back exactly if its fields are (`rereads_record_iff`), and it is faithful if its
fields are (`Faithful.record`).  A field has two sources, what stands under its name and its
default, and so a default has to be one that can be read again, even if the text never said it.

## Main Definitions

* `Codec.Rereads` — a value is read back, however it comes to the reader
* `Codec.Faithful`, `Field.Faithful`, `Fields.Faithful` — everything that is read is read back

## Main Statements

* `Codec.lawful_iff`, `Codec.Lawful.faithful` — lawful codecs
* `Codec.Rereads.option`, `Codec.Rereads.list`, `Codec.Faithful.list` — parts of records
* `Codec.rereads_record_iff`, `Codec.Lawful.record`, `Codec.Faithful.record` — records
-/

namespace FleetLink

open Json (Value)

/-! ## Codecs -/

namespace Codec

variable {α : Type} {c : Codec α}

/-- A value is read back from what is written of it. -/
def Rereads (c : Codec α) (a : α) : Prop :=
  ∀ intake, c.read intake (c.write a) = .ok a

/-- Whatever was read is read back. -/
def Faithful (c : Codec α) : Prop :=
  ∀ intake v a, c.read intake v = .ok a → c.Rereads a

/-- A codec is lawful if every value is read back. -/
theorem lawful_iff : c.Lawful ↔ ∀ a, c.Rereads a := forall_comm

theorem Lawful.rereads (h : c.Lawful) (a : α) : c.Rereads a := lawful_iff.mp h a

theorem Lawful.faithful (h : c.Lawful) : c.Faithful := fun _ _ a _ => h.rereads a

/-! ### Scalars -/

theorem word64_lawful : word64.Lawful := by
  intro intake a
  show (readWord 64 "u64" (.ofNat a.toNat)).map UInt64.ofNat = .ok a
  rw [readWord_ofNat "u64" a.toNat_lt]
  exact congrArg Except.ok a.ofNat_toNat

theorem count64_lawful : count64.Lawful := by
  intro intake a
  show (readWord 64 "usize" (.ofNat a.toNat)).map UInt64.ofNat = .ok a
  rw [readWord_ofNat "usize" a.toNat_lt]
  exact congrArg Except.ok a.ofNat_toNat

theorem boolean_lawful : boolean.Lawful := fun _ _ => rfl

theorem text_lawful (want : String) : (text want).Lawful := fun _ _ => rfl

/-! ### Parts of records -/

/-- A value that may be absent. -/
theorem Rereads.option {a? : Option α} (hnull : ∀ a, c.write a ≠ .null)
    (h : ∀ a, a? = some a → c.Rereads a) : c.option.Rereads a? := by
  intro intake
  cases a? with
  | none => rfl
  | some a =>
      have hread := h a rfl intake
      have hne := hnull a
      show c.option.read intake (c.write a) = _
      cases hwrite : c.write a with
      | null => exact absurd hwrite hne
      | _ =>
          rw [hwrite] at hread
          exact congrArg (Except.map some) hread

/-- Elements in order. -/
theorem Rereads.readElements {as : List α} (h : ∀ a ∈ as, c.Rereads a) (intake : Intake)
    (position : Nat) : c.readElements intake position (as.map c.write) = .ok as := by
  induction as generalizing position with
  | nil => rfl
  | cons a as ih =>
      rw [List.forall_mem_cons] at h
      rw [List.map_cons, Codec.readElements, h.1 intake, ih h.2 (position + 1)]

theorem Rereads.list {as : List α} (h : ∀ a ∈ as, c.Rereads a) : c.list.Rereads as :=
  fun intake => Rereads.readElements h intake 0

/-- Each element that was read was read from somewhere. -/
theorem exists_of_mem_readElements {intake : Intake} {position : Nat} {vs : List Value}
    {as : List α} (h : c.readElements intake position vs = .ok as) :
    ∀ a ∈ as, ∃ v, c.read intake v = .ok a := by
  induction vs generalizing position as with
  | nil =>
      cases h
      exact nofun
  | cons v vs ih =>
      rw [Codec.readElements] at h
      split at h
      · cases h
      next hfirst =>
        split at h
        · cases h
        next hrest =>
          cases h
          exact List.forall_mem_cons.mpr ⟨⟨v, hfirst⟩, ih hrest⟩

theorem Faithful.list (h : c.Faithful) : c.list.Faithful := by
  intro intake v as hread
  cases v with
  | array vs =>
      refine .list fun a ha => ?_
      obtain ⟨v, hv⟩ := exists_of_mem_readElements hread a ha
      exact h intake v a hv
  | _ => cases hread

end Codec

/-! ## Records -/

section

variable {α : Type} {αs : List Type}

/-- What a field holds is read back, whether it was read or is the default. -/
structure Field.Faithful (field : Field α) : Prop where
  codec : field.codec.Faithful
  default : ∀ a, field.default? = some a → field.codec.Rereads a

/-- Every field is faithful. -/
def Fields.Faithful : {αs : List Type} → Fields αs → Prop
  | _, nil => True
  | _, cons field rest => field.Faithful ∧ rest.Faithful

/-- What each field holds is read back. -/
def Fields.Rereads : {αs : List Type} → Fields αs → Row id αs → Prop
  | _, nil, () => True
  | _, cons field rest, (a, as) => field.codec.Rereads a ∧ rest.Rereads as

/-- A field with a default that is read back. -/
theorem Field.Faithful.defaulted {name : String} {c : Codec α} {value : α} (hcodec : c.Faithful)
    (hvalue : c.Rereads value) : (Field.defaulted name c value).Faithful :=
  ⟨hcodec, fun _ ha => Option.some.inj ha ▸ hvalue⟩

namespace Fields

variable {intake : Intake} {members : List (String × Value)}

/-! ### What was read -/

theorem Faithful.rereads_of_holds {fs : Fields αs} (h : fs.Faithful) {row : Row id αs}
    (hholds : fs.Holds intake members row) : fs.Rereads row := by
  induction fs with
  | nil => trivial
  | cons field rest ih =>
      obtain ⟨a, as⟩ := row
      obtain ⟨hown, hrest⟩ := hholds
      refine ⟨?_, ih h.2 hrest⟩
      rcases hown with ⟨-, hdefault⟩ | ⟨v, -, hread⟩
      · exact h.1.default a hdefault
      · exact h.1.codec intake v a hread

theorem Faithful.rereads_of_ofElements {fs : Fields αs} (h : fs.Faithful) {what : String}
    {total length position : Nat} {vs : List Value} {row : Row id αs}
    (hread : ofElements intake what total length fs position vs = .ok row) : fs.Rereads row := by
  induction fs generalizing position vs with
  | nil => trivial
  | cons field rest ih =>
      obtain ⟨a, as⟩ := row
      cases vs with
      | nil =>
          rw [ofElements] at hread
          split at hread
          · cases hread
          next hdefault =>
            split at hread
            · cases hread
            next hrest =>
              obtain ⟨rfl, rfl⟩ := (Row.ok_cons_inj (F := id)).mp hread
              exact ⟨h.1.default _ hdefault, ih h.2 hrest⟩
      | cons v vs =>
          rw [ofElements] at hread
          split at hread
          · cases hread
          next hfirst =>
            split at hread
            · cases hread
            next hrest =>
              obtain ⟨rfl, rfl⟩ := (Row.ok_cons_inj (F := id)).mp hread
              exact ⟨h.1.codec intake v _ hfirst, ih h.2 hrest⟩

/-- **Each field of a record that was read is read back.** -/
theorem Faithful.rereads_of_read {fs : Fields αs} (h : fs.Faithful) (hnames : fs.names.Nodup)
    {what : String} {v : Value} {row : Row id αs} (hread : fs.read what intake v = .ok row) :
    fs.Rereads row := by
  cases v with
  | object members => exact h.rereads_of_holds ((ofMembers_eq_ok_iff hnames).mp hread)
  | array vs => exact h.rereads_of_ofElements hread
  | _ => cases hread

/-! ### What is written -/

/-- The members that a record is written as hold its fields exactly if each field is read back. -/
theorem forall_holds_write_iff {fs : Fields αs} (hnames : fs.names.Nodup) {row : Row id αs} :
    (∀ intake, fs.Holds intake (fs.write row) row) ↔ fs.Rereads row := by
  induction fs with
  | nil => exact iff_of_true (fun _ => trivial) trivial
  | cons field rest ih =>
      obtain ⟨a, as⟩ := row
      rw [names, List.nodup_cons] at hnames
      have hne : ∀ m ∈ rest.write as, m.1 ≠ field.name := fun m hm heq =>
        hnames.1 (map_name_write rest as ▸ heq ▸ List.mem_map_of_mem hm)
      have hown : (write (cons field rest) (a, as)).filter (·.1 = field.name) =
          [(field.name, field.codec.write a)] := by
        rw [write, List.filter_cons_of_pos (by simp),
          List.filter_eq_nil_iff.mpr (by simpa using hne)]
      have hothers : (write (cons field rest) (a, as)).filter (·.1 ≠ field.name) =
          rest.write as := by
        rw [write, List.filter_cons_of_neg (by simp), List.filter_eq_self.mpr (by simpa using hne)]
      have hparts : ∀ intake, (cons field rest).Holds intake (write (cons field rest) (a, as))
          (a, as) ↔ field.codec.read intake (field.codec.write a) = .ok a ∧
            rest.Holds intake (rest.write as) as := by
        intro intake
        rw [Holds, Field.Holds, hown, ← holds_filter_ne_iff hnames.1, hothers]
        simp
      simp only [hparts, forall_and, ih hnames.2]
      exact Iff.rfl

end Fields

section

variable {what : String} {fs : Fields αs} {ofRow : Row id αs → α} {toRow : α → Row id αs}

/-- **A record is read back** exactly if its fields are. -/
theorem Codec.rereads_record_iff (hnames : fs.names.Nodup) (hrow : ∀ row, toRow (ofRow row) = row)
    {a : α} (ha : ofRow (toRow a) = a) :
    (Codec.record what fs ofRow toRow).Rereads a ↔ fs.Rereads (toRow a) := by
  rw [← Fields.forall_holds_write_iff hnames]
  refine forall_congr' fun intake => ?_
  rw [← Fields.ofMembers_eq_ok_iff hnames]
  simp only [Codec.record, Fields.read]
  cases fs.ofMembers intake (fs.write (toRow a)) with
  | error fault => simp
  | ok row =>
      simp only [Except.ok.injEq]
      exact ⟨fun h => h ▸ (hrow row).symm, fun h => h ▸ ha⟩

theorem Codec.Lawful.record (hnames : fs.names.Nodup) (hrow : ∀ row, toRow (ofRow row) = row)
    (ha : ∀ a, ofRow (toRow a) = a) (h : ∀ a, fs.Rereads (toRow a)) :
    (Codec.record what fs ofRow toRow).Lawful :=
  lawful_iff.mpr fun a => (rereads_record_iff hnames hrow (ha a)).mpr (h a)

/-- **A record is faithful** if its fields are. -/
theorem Codec.Faithful.record (hnames : fs.names.Nodup) (hrow : ∀ row, toRow (ofRow row) = row)
    (h : fs.Faithful) : (Codec.record what fs ofRow toRow).Faithful := by
  intro intake v a hread
  simp only [Codec.record] at hread
  split at hread
  · cases hread
  next row hfields =>
    cases hread
    rw [Codec.rereads_record_iff hnames hrow (by rw [hrow]), hrow]
    exact h.rereads_of_read hnames hfields

end

end

end FleetLink
