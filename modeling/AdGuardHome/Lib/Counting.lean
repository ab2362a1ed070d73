import Mathlib.Data.List.Basic
import Mathlib.Algebra.GroupWithZero.Nat

/-!
# Counting the elements of a list

What a change of one element does to the number of elements that meet a predicate.
-/

namespace AdGuardHome.Lib

theorem countP_set_add {α : Type} (p : α → Bool) {l : List α} {i : ℕ} {x : α} (h : l[i]? = some x) (y : α) :
    (l.set i y).countP p + (p x).toNat = l.countP p + (p y).toNat := by
  induction l generalizing i with
  | nil => simp at h
  | cons z l ih =>
    cases i with
    | zero =>
      cases (by simpa using h : z = x)
      rw [List.set_cons_zero, List.countP_cons, List.countP_cons]
      cases p x <;> cases p y <;> simp
    | succ i =>
      have := ih (by simpa using h)
      rw [List.set_cons_succ, List.countP_cons, List.countP_cons]
      omega

theorem countP_le_add {α : Type} {p q r : α → Bool} {l : List α}
    (h : ∀ x ∈ l, p x = true → q x = true ∨ r x = true) : l.countP p ≤ l.countP q + l.countP r := by
  induction l with
  | nil => simp
  | cons x l ih =>
    have hl := ih fun y hy => h y (List.mem_cons_of_mem _ hy)
    have hx := h x List.mem_cons_self
    simp only [List.countP_cons]
    cases hp : p x with
    | false => simp; omega
    | true =>
      rcases hx hp with hq | hr
      · simp [hq]; omega
      · simp [hr]; omega

/-- The elements of the first `n` classes are those that have one of these classes. -/
theorem sum_countP_class {α : Type} (cls : α → Option ℕ) (n : ℕ) (l : List α) :
    ((List.range n).map fun j => l.countP fun a => cls a = some j).sum
      = l.countP fun a => (cls a).any fun j => j < n := by
  induction n with
  | zero => simp
  | succ n ih =>
    rw [List.range_succ, List.map_append, List.sum_append, ih]
    simp only [List.map_cons, List.map_nil, List.sum_cons, List.sum_nil, Nat.add_zero]
    clear ih
    induction l with
    | nil => rfl
    | cons a l ih =>
      simp only [List.countP_cons]
      cases hcls : cls a with
      | none => simpa using ih
      | some j =>
        -- `a` is counted on the left once for its class and once on the right when the class is below `n + 1`.
        have hone : decide (some j = some n) = decide (j = n) := by
          by_cases hj : j = n <;> simp [hj]
        simp only [Option.any_some, hone, decide_eq_true_eq]
        by_cases hj : j = n
        · rw [if_pos hj, if_neg (by omega), if_pos (by omega)]
          omega
        · by_cases hjn : j < n
          · rw [if_neg hj, if_pos hjn, if_pos (by omega)]
            omega
          · rw [if_neg hj, if_neg hjn, if_neg (by omega)]
            omega

end AdGuardHome.Lib
