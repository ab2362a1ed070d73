import Mathlib.Data.List.Forall2

/-!
# Numbered lists

`Each P i as` says that every element of a list meets `P` with its number, where the first one has the number `i`.
-/

namespace AdGuardHome.Lib

variable {α : Type} {P : ℕ → α → Prop} {i : ℕ} {as : List α}

/-- Every element meets the predicate with its number, from `i` on. -/
def Each (P : ℕ → α → Prop) : ℕ → List α → Prop
  | _, [] => True
  | i, a :: as => P i a ∧ Each P (i + 1) as

theorem Each.take (h : Each P i as) (j : ℕ) : Each P i (as.take j) := by
  induction as generalizing i j with
  | nil => simpa using h
  | cons a as ih =>
    cases j with
    | zero => trivial
    | succ j => exact ⟨h.1, ih h.2 j⟩

theorem Each.drop (h : Each P i as) (j : ℕ) : Each P (i + j) (as.drop j) := by
  induction as generalizing i j with
  | nil => simp [Each]
  | cons a as ih =>
    cases j with
    | zero => exact h
    | succ j =>
      have := ih h.2 j
      rwa [show i + 1 + j = i + (j + 1) by omega] at this

/-- The elements from the number `j` up to the number `k` of a list that is numbered from zero. -/
theorem Each.slice (h : Each P 0 as) (j k : ℕ) : Each P j ((as.take k).drop j) := by
  have h := (h.take k).drop j
  rwa [Nat.zero_add] at h

/-! ## Related lists -/

theorem exists_left_of_forall₂ {α β : Type} {R : α → β → Prop} {as : List α} {bs : List β}
    (h : List.Forall₂ R as bs) {b : β} (hb : b ∈ bs) : ∃ a ∈ as, R a b := by
  induction h with
  | nil => cases hb
  | cons hab _ ih =>
    rcases List.mem_cons.1 hb with rfl | hb
    · exact ⟨_, by simp, hab⟩
    · obtain ⟨a, ha, hr⟩ := ih hb
      exact ⟨a, List.mem_cons_of_mem _ ha, hr⟩

theorem exists_right_of_forall₂ {α β : Type} {R : α → β → Prop} {as : List α} {bs : List β}
    (h : List.Forall₂ R as bs) {a : α} (ha : a ∈ as) : ∃ b ∈ bs, R a b :=
  exists_left_of_forall₂ h.flip ha

end AdGuardHome.Lib
