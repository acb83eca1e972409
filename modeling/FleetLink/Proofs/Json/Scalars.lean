import FleetLink.Json.Parser
import FleetLink.Json.Printer
import FleetLink.Proofs.Text.Scanner
import Mathlib.Data.List.Basic

/-!
# Strings and integers as text

Every string is read from its quoted text, character by character: what the printer escapes, the
scanner resolves.  Control characters without a letter are the only ones that are written by number,
so no pair of surrogates is ever written.

An integer is read from its sign and its digits if it fits sixty-four bits, with or without a sign;
others are read as floats (`IsWord`).  Its text ends only where no more of a number can follow
(`Stops`).

## Main Statements

* `takes_string` — strings
* `takes_number` — integers
-/

namespace FleetLink.Json

open Text (Scanner hexDigit? decimalValue isDigit_of_mem_toDigits exists_head?_toDigits
  head?_toDigits_ne)
open Text.Scanner

variable {rest : List Char}

/-! ## Strings -/

theorem hexDigit?_hexLetter : ∀ n < 16, hexDigit? (hexLetter n) = some n := by decide

theorem takes_hexDigit {c : Char} {n : Nat} (h : hexDigit? c = some n) {β : Type}
    {next : Nat → Scanner β} {b : β} {behind : List Char} (hnext : Takes (next n) rest b behind) :
    Takes (do next (← given (hexDigit? (← satisfy fun _ => true)))) (c :: rest) b behind :=
  (takes_satisfy (fun _ => true) rfl rest).bind ((takes_given h rest).bind hnext)

theorem takes_numberedChar {n : Nat} (h : n < 256) (rest : List Char) :
    Takes numberedChar ('0' :: '0' :: hexLetter (n / 16) :: hexLetter (n % 16) :: rest)
      (Char.ofNat n) rest := by
  have hunit : Takes hexUnit ('0' :: '0' :: hexLetter (n / 16) :: hexLetter (n % 16) :: rest)
      n rest := by
    have hn : ((0 * 16 + 0) * 16 + n / 16) * 16 + n % 16 = n := by omega
    have hzero : hexDigit? '0' = some 0 := by decide
    refine takes_hexDigit hzero <| takes_hexDigit hzero <|
      takes_hexDigit (hexDigit?_hexLetter (n / 16) (by omega)) <|
      takes_hexDigit (hexDigit?_hexLetter (n % 16) (by omega)) ?_
    exact takes_pure_of_eq hn rest
  refine hunit.bind ?_
  -- No surrogate, as it is too small.
  rw [if_pos (Or.inl (by omega))]
  exact takes_pure _ rest

theorem takes_escape {letter c : Char} (h : simpleEscape? letter = some c) (rest : List Char) :
    Takes escape (letter :: rest) c rest := by
  refine (takes_satisfy (fun _ => true) rfl rest).bind ?_
  split
  · cases h
  · exact takes_given h rest

/-- Every character is read from what stands for it inside quotes. -/
theorem takes_stringChar (c : Char) (rest : List Char) :
    Takes stringChar (escapeChar c ++ rest) c rest := by
  have hescaped : ∀ {letter c : Char}, simpleEscape? letter = some c →
      Takes stringChar ('\\' :: letter :: rest) c rest := fun h =>
    (takes_satisfy _ (by decide) _).bind (takes_escape h rest)
  unfold escapeChar
  split
  iterate 7 exact hescaped rfl
  next hquote hbackslash _ _ _ _ _ =>
    split
    next hcontrol =>
      have hnumbered := takes_numberedChar (n := c.toNat) (by omega) rest
      rw [Char.ofNat_toNat] at hnumbered
      refine (takes_satisfy _ (by decide) _).bind ?_
      exact (takes_satisfy (fun _ => true) rfl _).bind hnumbered
    next hcontrol =>
      refine (takes_satisfy (fun c => c ≠ '"' && 0x20 ≤ c.toNat) ?_ rest).bind ?_
      · simp only [Bool.and_eq_true, decide_eq_true_iff]
        exact ⟨hquote, Nat.le_of_not_lt hcontrol⟩
      · split
        · exact absurd rfl hbackslash
        · exact takes_pure c rest

theorem escapeChar_ne_nil (c : Char) : escapeChar c ≠ [] := by
  unfold escapeChar
  repeat' split
  all_goals exact List.cons_ne_nil _ _

theorem takesAll_stringChar (cs rest : List Char) :
    TakesAll stringChar (cs.flatMap escapeChar ++ '"' :: rest) cs ('"' :: rest) := by
  induction cs with
  | nil => exact .none (fails_satisfy fun c hc => by cases hc; decide).bind
  | cons c cs ih =>
      rw [List.flatMap_cons, List.append_assoc]
      refine .cons (takes_stringChar c _) ?_ ih
      have hlength := List.length_pos_iff.mpr (escapeChar_ne_nil c)
      simp only [List.length_append]
      omega

/-- **A string is read from its quoted text.** -/
theorem takes_string (s : String) (rest : List Char) :
    Takes string ((quoted s).toList ++ rest) s rest := by
  have htext : (quoted s).toList ++ rest =
      '"' :: (s.toList.flatMap escapeChar ++ '"' :: rest) := by
    simp [quoted]
  rw [htext]
  exact (takes_char '"' _).bind <| (takesAll_stringChar s.toList rest).many.bind <|
    (takes_char '"' rest).bind <| takes_pure_of_eq String.ofList_toList rest

/-! ## Integers -/

/-- Nothing that could go on a number: the end, a gap, or what stands between values. -/
def Stops (rest : List Char) : Prop :=
  ∀ c ∈ rest.head?, isGap c = true ∨ c = ',' ∨ c = ']' ∨ c = '\x7d'

theorem stops_nil : Stops [] := by simp [Stops]

theorem Stops.head_ne (h : Stops rest) {c : Char} (hc : c ∈ rest.head?) :
    c.isDigit = false ∧ c ≠ '.' ∧ c ≠ 'e' ∧ c ≠ 'E' := by
  obtain hgap | rfl | rfl | rfl := h c hc
  · simp only [isGap, Bool.or_eq_true, decide_eq_true_iff] at hgap
    obtain ((rfl | rfl) | rfl) | rfl := hgap <;> decide
  all_goals decide

/-- The integers that are read as integers. -/
def IsWord (i : Int) : Prop := -(Nat.pow 2 63 : Int) ≤ i ∧ i < UInt64.size

theorem isWord_toNat (n : UInt64) : IsWord n.toNat := by
  have hn := n.toNat_lt_size
  unfold IsWord
  omega

/-- An integer is written as its sign and its digits. -/
theorem toList_toString (i : Int) :
    (toString i).toList = (if i < 0 then ['-'] else []) ++ Nat.toDigits 10 i.natAbs := by
  rw [Int.toString_eq_repr, Int.repr_eq_if]
  by_cases h : i < 0
  · rw [if_neg (by omega), if_pos h, show (-i).toNat = i.natAbs by omega, String.toList_append,
      Nat.repr_eq_ofList_toDigits, String.toList_ofList, String.toList_ofList]
  · rw [if_pos (by omega), if_neg h, show i.toNat = i.natAbs by omega,
      Nat.repr_eq_ofList_toDigits, String.toList_ofList, List.nil_append]

/-- The text of an integer begins with its sign or a digit. -/
theorem exists_head?_toString (i : Int) :
    ∃ first, first ∈ (toString i).toList.head? ∧
      ∀ c, c ≠ '-' ∧ c.isDigit = false → first ≠ c := by
  rw [toList_toString]
  by_cases h : i < 0
  · rw [if_pos h]
    exact ⟨'-', rfl, fun c hc => hc.1.symm⟩
  · obtain ⟨first, hfirst, hdigit⟩ := exists_head?_toDigits i.natAbs
    rw [if_neg h, List.nil_append]
    refine ⟨first, hfirst, ?_⟩
    rintro c ⟨-, hc⟩ rfl
    rw [hdigit] at hc
    cases hc

theorem ofInteger?_natAbs {i : Int} (h : IsWord i) :
    Number.ofInteger? (decide (i < 0)) i.natAbs = some (.int i) := by
  obtain ⟨hlow, hhigh⟩ := h
  have hpow : Nat.pow 2 63 = 9223372036854775808 := by decide
  have hsize : UInt64.size = 18446744073709551616 := rfl
  unfold Number.ofInteger?
  by_cases hneg : i < 0
  · rw [decide_eq_true hneg, if_pos rfl, if_neg (by omega), if_pos (by omega),
      show -(i.natAbs : Int) = i by omega]
  · rw [decide_eq_false hneg, if_neg (by decide), if_pos (by omega),
      show (i.natAbs : Int) = i by omega]

theorem takes_sign (i : Int) {cs : List Char} (hcs : cs.head? ≠ some '-') :
    ∃ sign : Option Unit, sign.isSome = decide (i < 0) ∧
      Takes (Scanner.optional (char '-')) ((if i < 0 then ['-'] else []) ++ cs) sign cs := by
  by_cases h : i < 0
  · refine ⟨some (), (decide_eq_true h).symm, ?_⟩
    rw [if_pos h]
    exact (takes_char '-' cs).optional
  · refine ⟨none, (decide_eq_false h).symm, ?_⟩
    rw [if_neg h]
    exact (fails_char hcs).optional

/-- **An integer is read from its text.** -/
theorem takes_number {i : Int} (h : IsWord i) (hrest : Stops rest) :
    Takes number ((toString i).toList ++ rest) (.int i) rest := by
  have hdigits : Takes (span1 Char.isDigit) (Nat.toDigits 10 i.natAbs ++ rest)
      (Nat.toDigits 10 i.natAbs) rest :=
    takes_span1 Nat.toDigits_ne_nil (fun _ => isDigit_of_mem_toDigits)
      fun c hc => (hrest.head_ne hc).1
  have hunsigned : (Nat.toDigits 10 i.natAbs ++ rest).head? ≠ some '-' := by
    obtain ⟨c, hc, hdigit⟩ := exists_head?_toDigits i.natAbs
    rw [List.mem_head?_append_of_mem_head? hc]
    rintro ⟨⟩
    cases hdigit
  have hplain : ¬ ((Nat.toDigits 10 i.natAbs).head? = some '0' ∧
      (Nat.toDigits 10 i.natAbs).length ≠ 1) := by
    rintro ⟨hfirst, hlength⟩
    by_cases hi : i.natAbs = 0
    · rw [hi] at hlength
      exact hlength rfl
    · exact head?_toDigits_ne hi hfirst
  have hfraction : Fails fraction rest :=
    (fails_char fun hc => (hrest.head_ne hc).2.1 rfl).bind
  have hpower : Fails power rest := by
    refine (fails_satisfy fun c hc => ?_).bind
    obtain ⟨-, -, hlower, hupper⟩ := hrest.head_ne hc
    simp [hlower, hupper]
  obtain ⟨sign, hsign, hminus⟩ := takes_sign i hunsigned
  rw [toList_toString, List.append_assoc]
  refine hminus.bind <| hdigits.bind ?_
  rw [if_neg hplain]
  refine hfraction.optional.bind <| hpower.optional.bind ?_
  rw [if_pos ⟨rfl, rfl⟩, Text.decimalValue_toDigits, hsign]
  exact takes_given (ofInteger?_natAbs h) rest

end FleetLink.Json
