import Mathlib.Data.List.Basic
import Mathlib.Tactic.IntervalCases

/-!
# Decimal digits

The digits of a number start with a zero only if the number is zero.
-/

namespace AdGuardHome.Lib

theorem head?_toDigits {n : ℕ} (h : 0 < n) : (Nat.toDigits 10 n).head? ≠ some '0' := by
  induction n using Nat.strong_induction_on with
  | _ n ih =>
    rw [Nat.toDigits_eq_if (by decide)]
    split
    · rename_i hlt
      revert h
      interval_cases n <;> decide
    · have hne := @Nat.toDigits_ne_nil (n / 10) 10
      rw [List.head?_append_of_ne_nil _ hne]
      exact ih (n / 10) (by omega) (by omega)

/-- Digits with a zero before others do not occur. -/
theorem toDigits_no_leading_zero (n : ℕ) :
    ¬ (1 < (Nat.toDigits 10 n).length ∧ (Nat.toDigits 10 n).head? = some '0') := by
  rintro ⟨hlen, hhead⟩
  by_cases h0 : n = 0
  · rw [h0] at hlen
    revert hlen
    decide
  · exact head?_toDigits (by omega) hhead

end AdGuardHome.Lib
