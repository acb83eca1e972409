/-!
# Digits

The numbers that digits write, and the values of single digits, in the bases that occur.
-/

namespace FleetLink.Text

/-- The value of a hexadecimal digit, of either case. -/
def hexDigit? (c : Char) : Option Nat :=
  if '0' ≤ c ∧ c ≤ '9' then some (c.toNat - '0'.toNat)
  else if 'a' ≤ c ∧ c ≤ 'f' then some (c.toNat - 'a'.toNat + 10)
  else if 'A' ≤ c ∧ c ≤ 'F' then some (c.toNat - 'A'.toNat + 10)
  else none

/-- The number that digits write in a base; what is no digit counts as zero. -/
def digitsValue (base : Nat) (ds : List Char) : Nat :=
  ds.foldl (fun n c => n * base + (hexDigit? c).getD 0) 0

/-- The number that decimal digits write. -/
def decimalValue (ds : List Char) : Nat := digitsValue 10 ds

@[simp] theorem digitsValue_nil (base : Nat) : digitsValue base [] = 0 := rfl

/-- Zeros in front count for nothing, and neither does what is no digit. -/
theorem digitsValue_replicate_append (base count : Nat) {c : Char} (h : (hexDigit? c).getD 0 = 0)
    (ds : List Char) : digitsValue base (List.replicate count c ++ ds) = digitsValue base ds := by
  induction count with
  | zero => rfl
  | succ count ih =>
      rw [List.replicate_succ, List.cons_append]
      simpa [digitsValue, h] using ih

theorem hexDigit?_of_isDigit {c : Char} (h : c.isDigit = true) :
    hexDigit? c = some (c.toNat - '0'.toNat) := by
  rw [Char.isDigit, Bool.and_eq_true, decide_eq_true_iff, decide_eq_true_iff] at h
  exact if_pos h

theorem isDigit_of_mem_toDigits {n : Nat} {c : Char} (h : c ∈ Nat.toDigits 10 n) :
    c.isDigit = true :=
  Nat.isDigit_of_mem_toDigits (by decide) (by decide) h

theorem exists_head?_toDigits (n : Nat) :
    ∃ c, c ∈ (Nat.toDigits 10 n).head? ∧ c.isDigit = true := by
  cases hdigits : Nat.toDigits 10 n with
  | nil => exact absurd hdigits Nat.toDigits_ne_nil
  | cons c ds =>
      refine ⟨c, rfl, isDigit_of_mem_toDigits (n := n) ?_⟩
      rw [hdigits]
      exact List.mem_cons_self

/-- Only zero begins with a zero. -/
theorem head?_toDigits_ne {n : Nat} (h : n ≠ 0) : (Nat.toDigits 10 n).head? ≠ some '0' := by
  induction n using Nat.strongRecOn with
  | ind n ih =>
    by_cases hn : n < 10
    · have hdigit : ∀ n < 10, n ≠ 0 → some (Nat.digitChar n) ≠ some '0' := by decide
      rw [Nat.toDigits_of_lt_base hn]
      exact hdigit n hn h
    · obtain ⟨c, hc, -⟩ := exists_head?_toDigits (n / 10)
      have hfront := ih (n / 10) (by omega) (by omega)
      rw [Nat.toDigits_of_base_le (by decide) (by omega), List.head?_append]
      rw [hc] at hfront ⊢
      exact hfront

/-- The digits of a number write the number. -/
theorem decimalValue_toDigits (n : Nat) : decimalValue (Nat.toDigits 10 n) = n := by
  have hread : ∀ (ds : List Char) (start : Nat), (∀ c ∈ ds, c.isDigit = true) →
      ds.foldl (fun n c => n * 10 + (hexDigit? c).getD 0) start = Nat.ofDigitChars 10 ds start := by
    intro ds
    induction ds with
    | nil => exact fun _ _ => rfl
    | cons c ds ih =>
        intro start hdigits
        rw [List.foldl_cons, ih _ fun d hd => hdigits d (List.mem_cons_of_mem _ hd),
          hexDigit?_of_isDigit (hdigits c List.mem_cons_self), Nat.ofDigitChars_cons, Nat.mul_comm]
        rfl
  calc
    decimalValue (Nat.toDigits 10 n) = Nat.ofDigitChars 10 (Nat.toDigits 10 n) 0 :=
      hread _ 0 fun c hc => isDigit_of_mem_toDigits hc
    _ = n := Nat.ofDigitChars_ten_toDigits

end FleetLink.Text
