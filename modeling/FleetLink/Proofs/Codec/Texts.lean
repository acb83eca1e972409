import FleetLink.Proofs.Codec.Rereading
import FleetLink.Proofs.Json.RoundTrip

/-!
# Codecs and their texts

Data travel as text, so what is written of a value has to survive being printed and scanned, too.
It does if its text says it (`Json.Value.IsExact`).  A codec that writes nothing else is **exact**,
and then what was read of it can be printed in either layout and read again
(`Faithful.read_printed`).

Floats are not covered: how they are printed and how they are scanned are two roundings, and that
the second undoes the first is another matter.

## Main Definitions

* `Codec.IsExact`, `Fields.IsExact` — what is written has a text that says it

## Main Statements

* `Codec.IsExact.record` — records
* `Codec.Faithful.read_printed` — what was read, printed and read again
-/

namespace FleetLink

open Json (Value)

variable {α : Type} {αs : List Type} {depth : Nat}

/-- Whatever is written has a text that says it, with containers nested no deeper than this. -/
def Codec.IsExact (c : Codec α) (depth : Nat) : Prop := ∀ a, (c.write a).IsExact depth

/-- Every field is exact. -/
def Fields.IsExact (depth : Nat) : {αs : List Type} → Fields αs → Prop
  | _, nil => True
  | _, cons field rest => field.codec.IsExact depth ∧ rest.IsExact depth

theorem Fields.IsExact.write {fs : Fields αs} (h : fs.IsExact depth) (row : Row id αs) :
    ∀ m ∈ fs.write row, m.2.IsExact depth := by
  induction fs with
  | nil => exact nofun
  | cons field rest ih =>
      obtain ⟨a, as⟩ := row
      exact List.forall_mem_cons.mpr ⟨h.1 a, ih h.2 as⟩

namespace Codec

variable {c : Codec α}

theorem word64_isExact : word64.IsExact depth := fun n => .int (Json.isWord_toNat n)

theorem count64_isExact : count64.IsExact depth := fun n => .int (Json.isWord_toNat n)

theorem boolean_isExact : boolean.IsExact depth := fun b => .bool b

theorem text_isExact (want : String) : (text want).IsExact depth := fun s => .string s

theorem IsExact.option (h : c.IsExact depth) : c.option.IsExact depth := by
  intro a?
  cases a? with
  | none => exact .null
  | some a => exact h a

theorem IsExact.list (h : c.IsExact depth) : c.list.IsExact (depth + 1) := by
  intro as
  refine .array fun v hv => ?_
  obtain ⟨a, -, rfl⟩ := List.mem_map.mp hv
  exact h a

/-- A record is exact one deeper than its fields. -/
theorem IsExact.record {what : String} {fs : Fields αs} {ofRow : Row id αs → α}
    {toRow : α → Row id αs} (h : fs.IsExact depth) :
    (Codec.record what fs ofRow toRow).IsExact (depth + 1) :=
  fun a => .object (h.write (toRow a))

/-- **What was read can be printed and read again,** in either layout. -/
theorem Faithful.read_printed (hfaithful : c.Faithful) (hexact : c.IsExact Json.nestingLimit)
    {intake : Intake} {v : Value} {a : α} (hread : c.read intake v = .ok a) :
    ∀ text ∈ [(c.write a).compact, (c.write a).pretty], ∃ data, Json.parse text = some data ∧
      ∀ again, c.read again data = .ok a := by
  intro text htext
  refine ⟨c.write a, ?_, hfaithful intake v a hread⟩
  rw [List.mem_cons, List.mem_singleton] at htext
  obtain rfl | rfl := htext
  · exact Json.parse_compact (hexact a)
  · exact Json.parse_pretty (hexact a)

end Codec

end FleetLink
