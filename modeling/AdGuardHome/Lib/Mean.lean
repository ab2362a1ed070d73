import Mathlib.Algebra.Order.BigOperators.Group.List
import Mathlib.Algebra.Order.Ring.Nat
import Mathlib.Data.UInt

/-!
# Sums and averages of 32-bit words

A sum that is kept in the type of its summands is the sum modulo `2 ^ 32`; an integer average is between the least and
the greatest of its numbers.
-/

namespace AdGuardHome.Lib

theorem toNat_sum (l : List UInt32) : l.sum.toNat = (l.map UInt32.toNat).sum % 2 ^ 32 := by
  induction l with
  | nil => rfl
  | cons x l ih =>
    rw [List.sum_cons, UInt32.toNat_add, ih, List.map_cons, List.sum_cons, Nat.add_mod_mod]

/-- The sum did not wrap exactly if it fits. -/
theorem toNat_sum_eq_iff (l : List UInt32) :
    l.sum.toNat = (l.map UInt32.toNat).sum ↔ (l.map UInt32.toNat).sum < 2 ^ 32 := by
  rw [toNat_sum]
  constructor
  · intro h
    rw [← h]
    exact Nat.mod_lt _ (by decide)
  · intro h
    exact Nat.mod_eq_of_lt h

theorem sum_map_const {α : Type*} (l : List α) (n : ℕ) : (l.map fun _ => n).sum = n * l.length := by
  rw [List.map_const', List.sum_replicate_nat, Nat.mul_comm]

variable {α : Type*} (f : α → ℕ) {l : List α}

theorem exists_mean_le (hl : l ≠ []) : ∃ x ∈ l, (l.map f).sum / l.length ≤ f x := by
  refine List.exists_le_of_sum_le hl (fun _ => (l.map f).sum / l.length) f ?_
  rw [sum_map_const]
  exact Nat.div_mul_le_self _ _

theorem exists_le_mean (hl : l ≠ []) : ∃ x ∈ l, f x ≤ (l.map f).sum / l.length := by
  have hlt : (l.map f).sum < (l.map fun _ => (l.map f).sum / l.length + 1).sum := by
    rw [sum_map_const, Nat.mul_comm]
    exact Nat.lt_mul_div_succ _ (List.length_pos_iff.2 hl)
  obtain ⟨x, hx, h⟩ := List.exists_lt_of_sum_lt _ _ hlt
  exact ⟨x, hx, Nat.lt_succ_iff.1 h⟩

end AdGuardHome.Lib
