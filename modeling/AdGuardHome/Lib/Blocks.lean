import Mathlib.Algebra.BigOperators.Group.Finset.Basic
import Mathlib.Algebra.BigOperators.Intervals
import Mathlib.Algebra.Order.BigOperators.Group.Finset

/-!
# Sums over blocks of one width

`block g w s d` is the sum over the block `d` of those of width `w` that begin at `s`.  Moving the beginning by `a`
moves a part of each block to the block before it, so that all the sums stay the same only if all these parts have one
sum, which is zero if there is nothing after the last block (`block_shift_iff`).
-/

namespace AdGuardHome.Lib

section Block

variable {M : Type} [AddCommMonoid M] (g : ℕ → M) (w s d : ℕ)

/-- The sum of the first `a` values from the beginning of the block on. -/
def blockPart (a : ℕ) : M := ∑ t ∈ Finset.range a, g (s + w * d + t)

def block : M := blockPart g w s d w

variable {g w s d} {n a : ℕ}

theorem sum_ite_block (hg : ∀ i, n ≤ i → g i = 0) :
    (∑ i ∈ Finset.range n, if s + w * d ≤ i ∧ i < s + w * d + w then g i else 0) = block g w s d := by
  have hpart : block g w s d = ∑ i ∈ Finset.Ico (s + w * d) (s + w * d + w), g i := by
    rw [Finset.sum_Ico_eq_sum_range, Nat.add_sub_cancel_left]
    rfl
  rw [hpart, ← Finset.sum_filter]
  refine Finset.sum_subset (fun i hi => ?_) fun i hi hout => hg i ?_
  · rw [Finset.mem_Ico]
    exact (Finset.mem_filter.1 hi).2
  · rw [Finset.mem_filter, Finset.mem_range, not_and'] at hout
    exact Nat.le_of_not_lt (hout (Finset.mem_Ico.1 hi))

theorem block_eq_add (ha : a ≤ w) : block g w s d = blockPart g w s d a + blockPart g w (s + a) d (w - a) := by
  obtain ⟨b, rfl⟩ := Nat.exists_eq_add_of_le ha
  rw [block, blockPart, Finset.sum_range_add, Nat.add_sub_cancel_left]
  congr 1
  refine Finset.sum_congr rfl fun t _ => ?_
  rw [Nat.add_right_comm s a, Nat.add_assoc _ a t]

theorem block_shift_eq_add (ha : a ≤ w) :
    block g w (s + a) d = blockPart g w (s + a) d (w - a) + blockPart g w s (d + 1) a := by
  rw [block_eq_add (Nat.sub_le w a), Nat.sub_sub_self ha]
  congr 1
  refine Finset.sum_congr rfl fun t _ => ?_
  rw [Nat.mul_succ]
  congr 1
  omega

end Block

/-- Values that are the same from one to the next are the last of them. -/
theorem forall_eq_succ_iff {α : Type} {h : ℕ → α} {n : ℕ} :
    (∀ d < n, h d = h (d + 1)) ↔ ∀ d < n, h d = h n := by
  induction n with
  | zero => simp
  | succ n ih =>
    constructor
    · intro hsucc d hd
      have hlast : h n = h (n + 1) := hsucc n (Nat.lt_succ_self n)
      rcases Nat.lt_succ_iff_lt_or_eq.1 hd with hd | rfl
      · rw [← hlast]
        exact ih.1 (fun e he => hsucc e (he.trans (Nat.lt_succ_self n))) d hd
      · exact hlast
    · intro hall d hd
      rw [hall d hd]
      rcases Nat.lt_succ_iff_lt_or_eq.1 hd with hd | rfl
      · exact (hall (d + 1) (Nat.succ_lt_succ hd)).symm
      · rfl

/-- Blocks that are moved have the same sums exactly when there is nothing in the parts by which they are moved. -/
theorem block_shift_iff {g : ℕ → ℕ} {w s n a : ℕ} (ha : a ≤ w) (hg : ∀ i, s + w * n ≤ i → g i = 0) :
    (∀ d < n, block g w (s + a) d = block g w s d) ↔ ∀ d < n, ∀ t < a, g (s + w * d + t) = 0 := by
  have hstep : ∀ d, block g w (s + a) d = block g w s d ↔ blockPart g w s d a = blockPart g w s (d + 1) a := by
    intro d
    rw [block_shift_eq_add ha, block_eq_add (s := s) ha, Nat.add_comm, Nat.add_right_cancel_iff, eq_comm]
  have hlast : blockPart g w s n a = 0 := Finset.sum_eq_zero fun t _ => hg _ (Nat.le_add_right _ t)
  simp only [hstep]
  rw [forall_eq_succ_iff (h := fun d => blockPart g w s d a), hlast]
  simp only [blockPart, Finset.sum_eq_zero_iff, Finset.mem_range]

end AdGuardHome.Lib
