import Mathlib.Data.List.Induction
import Mathlib.Tactic.IntervalCases
import WebHarvest.Number.Numeral

/-!
# Decimal digits

The digits of a number are decimal digits, and they have the value of the number.
-/

set_option autoImplicit false

namespace WebHarvest.Numeral

theorem isDigit_of_mem_toDigits {n : Nat} {c : Char} (member : c ∈ Nat.toDigits 10 n) :
    c.isDigit = true :=
  Nat.isDigit_of_mem_toDigits (by decide) (by decide) member

theorem toDigits_ne_nil (n : Nat) : Nat.toDigits 10 n ≠ [] := Nat.toDigits_ne_nil

theorem decimalValue_toDigits (n : Nat) : decimalValue (Nat.toDigits 10 n) = n :=
  Nat.ofDigitChars_ten_toDigits

theorem decimalValue_zeros_append (zeros : Nat) (cs : List Char) :
    decimalValue (List.replicate zeros '0' ++ cs) = decimalValue cs := by
  induction zeros with
  | zero => rfl
  | succ zeros ih => exact ih

/-- What digits stand for is less than the power of ten with as many zeros. -/
theorem decimalValue_lt {cs : List Char} (digits : ∀ c ∈ cs, c.isDigit = true) :
    decimalValue cs < 10 ^ cs.length := by
  induction cs using List.reverseRecOn with
  | nil => exact Nat.one_pos
  | append_singleton cs c ih =>
      obtain ⟨front, last⟩ := List.forall_mem_append.mp digits
      have value : decimalValue (cs ++ [c]) = 10 * decimalValue cs + (c.toNat - 48) := by
        rw [decimalValue, List.foldl_append]
        rfl
      have small : c.toNat ≤ 57 := (Char.isDigit_iff_toNat.mp (last c List.mem_cons_self)).2
      have below := ih front
      rw [value, List.length_append, List.length_singleton, Nat.pow_succ]
      omega

theorem toList_toString (n : Nat) : (toString n).toList = Nat.toDigits 10 n := by
  rw [Nat.toString_eq_ofList_toDigits, String.toList_ofList]

theorem length_toString_le {n limit : Nat} (positive : 0 < limit) (small : n < 10 ^ limit) :
    (toString n).length ≤ limit := by
  rw [← String.length_toList, toList_toString]
  exact (Nat.length_toDigits_le_iff (by decide) positive).mpr small

/-- The first digit of a positive number is not a zero. -/
theorem head_toDigits_ne_zero {n : Nat} (positive : 0 < n) :
    (Nat.toDigits 10 n).head? ≠ some '0' := by
  induction n using Nat.strong_induction_on with
  | _ n ih =>
      by_cases small : n < 10
      · rw [Nat.toDigits_of_lt_base small]
        interval_cases n <;> decide
      · have split := Nat.toDigits_append_toDigits (b := 10) (n := n / 10) (d := n % 10)
          (by decide) (by omega) (Nat.mod_lt _ (by decide))
        rw [Nat.div_add_mod] at split
        have before := ih (n / 10) (by omega) (by omega)
        rw [← split, List.head?_append]
        cases digits : Nat.toDigits 10 (n / 10) with
        | nil => exact absurd digits (toDigits_ne_nil _)
        | cons first rest =>
            rw [digits] at before
            exact before

end WebHarvest.Numeral
