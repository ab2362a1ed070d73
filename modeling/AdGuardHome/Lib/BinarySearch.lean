import Mathlib.Data.List.TakeWhile
import Mathlib.Tactic.Linarith

/-!
# Binary search in a partitioned list

`searchLoop x below fuel i j` is the loop of Go's `slices.BinarySearchFunc`: it halves the interval
`[i, j)` and keeps the part where `below` changes from true to false.  On a list that `below` splits
into a prefix where it holds and a rest where it does not, the loop finds the length of the prefix
(`search_eq`).
-/

namespace AdGuardHome.Lib

variable {α : Type}

/-- The interval halving of a binary search for the first element that is not `below`. -/
def searchLoop (x : List α) (below : α → Bool) : ℕ → ℕ → ℕ → ℕ
  | 0, i, _ => i
  | fuel + 1, i, j =>
    if i < j then
      let h := (i + j) / 2
      if (x[h]?).any below then searchLoop x below fuel (h + 1) j else searchLoop x below fuel i h
    else i

/-- The position of the first element that is not `below`. -/
def search (x : List α) (below : α → Bool) : ℕ := searchLoop x below x.length 0 x.length

/-- `below` holds on the first `p` elements of the list and on no later one. -/
def Splits (x : List α) (below : α → Bool) (p : ℕ) : Prop :=
  p ≤ x.length ∧ ∀ k, k < x.length → ((x[k]?).any below = true ↔ k < p)

theorem searchLoop_eq {x : List α} {below : α → Bool} {p : ℕ} (hx : Splits x below p) :
    ∀ fuel i j, j - i ≤ fuel → i ≤ p → p ≤ j → j ≤ x.length → searchLoop x below fuel i j = p := by
  intro fuel
  induction fuel with
  | zero =>
    intro i j hf hip hpj _
    simp only [searchLoop]
    omega
  | succ fuel ih =>
    intro i j hf hip hpj hj
    simp only [searchLoop]
    split
    · rename_i hij
      have hh : (i + j) / 2 < x.length := by omega
      have hb := hx.2 ((i + j) / 2) hh
      split
      · rename_i hbelow
        have := hb.1 hbelow
        exact ih _ _ (by omega) (by omega) hpj hj
      · rename_i hbelow
        have : ¬ (i + j) / 2 < p := fun h => hbelow (hb.2 h)
        exact ih _ _ (by omega) hip (by omega) (by omega)
    · omega

theorem search_eq {x : List α} {below : α → Bool} {p : ℕ} (hx : Splits x below p) :
    search x below = p :=
  searchLoop_eq hx _ _ _ (by omega) (Nat.zero_le _) hx.1 le_rfl

/-- A list whose elements are below in turn as long as any later one is splits at its longest prefix
of elements that are below. -/
theorem splits_takeWhile {x : List α} {below : α → Bool}
    (hx : x.Pairwise fun a b => below b = true → below a = true) :
    Splits x below (x.takeWhile below).length := by
  induction x with
  | nil => exact ⟨by simp, by simp⟩
  | cons a x ih =>
    obtain ⟨ha, hx⟩ := List.pairwise_cons.1 hx
    obtain ⟨ih₁, ih₂⟩ := ih hx
    cases hb : below a with
    | true =>
      simp only [List.takeWhile_cons, hb, if_true, List.length_cons]
      refine ⟨Nat.succ_le_succ ih₁, fun k hk => ?_⟩
      cases k with
      | zero => simp [hb]
      | succ k =>
        have := ih₂ k (by simpa using hk)
        simpa using this
    | false =>
      simp only [List.takeWhile_cons, hb, Bool.false_eq_true, if_false, List.length_nil]
      refine ⟨by omega, fun k hk => ?_⟩
      cases k with
      | zero => simp [hb]
      | succ k =>
        have hk' : k < x.length := by simpa using hk
        have hnot : below x[k] = false := by
          cases hbk : below x[k] with
          | false => rfl
          | true => exact absurd (ha _ (List.getElem_mem hk') hbk) (by simp [hb])
        simp [hk', hnot]

/-- The position of a search splits the list. -/
theorem search_split {x : List α} {below : α → Bool} (hx : x.Pairwise fun a b => below b = true → below a = true) :
    ∃ lo hi, x = lo ++ hi ∧ search x below = lo.length ∧ (∀ a ∈ lo, below a = true) ∧
      ∀ a ∈ hi, below a = false := by
  refine ⟨x.takeWhile below, x.dropWhile below, List.takeWhile_append_dropWhile.symm, search_eq (splits_takeWhile hx),
    fun a ha => List.mem_takeWhile_imp ha, ?_⟩
  induction x with
  | nil => simp
  | cons b x ih =>
    obtain ⟨hb, hx⟩ := List.pairwise_cons.1 hx
    by_cases hbelow : below b = true
    · rw [List.dropWhile_cons_of_pos hbelow]
      exact ih hx
    · rw [List.dropWhile_cons_of_neg hbelow]
      refine List.forall_mem_cons.2 ⟨by simpa using hbelow, fun a ha => ?_⟩
      by_contra h
      exact hbelow (hb a ha (by simpa using h))

end AdGuardHome.Lib
