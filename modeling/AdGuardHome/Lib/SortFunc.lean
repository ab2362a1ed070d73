import Mathlib.Data.List.Sort
import Mathlib.Data.Nat.Notation

/-!
# Sorting by a comparison function

`slices.SortFunc` sorts by a function that says by its sign which element comes first.  It need not be stable, so where
elements compare as equal their order is arbitrary; but it looks at them by comparisons only (`SortFunc.map`).
-/

namespace AdGuardHome.Lib

variable {α β : Type}

/-- What `slices.SortFunc` asks of a comparison: that "not after" is total and transitive. -/
structure WeakOrder (cmp : α → α → ℤ) : Prop where
  total : ∀ a b, ¬ cmp b a < 0 ∨ ¬ cmp a b < 0
  trans : ∀ a b c, ¬ cmp b a < 0 → ¬ cmp c b < 0 → ¬ cmp c a < 0

/-- A sort. -/
structure SortFunc where
  sort : {α : Type} → (α → α → ℤ) → List α → List α
  perm : ∀ {α : Type} (cmp : α → α → ℤ) (l : List α), (sort cmp l).Perm l
  sorted : ∀ {α : Type} {cmp : α → α → ℤ}, WeakOrder cmp → ∀ l, (sort cmp l).Pairwise fun a b => ¬ cmp b a < 0
  map : ∀ {α β : Type} (f : α → β) (cmp : β → β → ℤ) (l : List α),
    sort cmp (l.map f) = (sort (fun a b => cmp (f a) (f b)) l).map f

/-- Sorting by insertion is one. -/
def SortFunc.insertion : SortFunc where
  sort cmp l := l.insertionSort fun a b => ¬ cmp b a < 0
  perm _ l := List.perm_insertionSort _ l
  sorted := by
    intro α cmp h l
    have : Std.Total fun a b => ¬ cmp b a < 0 := ⟨h.total⟩
    have : IsTrans α fun a b => ¬ cmp b a < 0 := ⟨h.trans⟩
    exact List.pairwise_insertionSort _ l
  map f _ l := (List.map_insertionSort _ _ f l fun _ _ _ _ => Iff.rfl).symm

/-- Lists whose elements compare alike are sorted alike. -/
theorem SortFunc.forall₂ (s : SortFunc) {R : α → β → Prop} {cmp : α → α → ℤ} {cmp' : β → β → ℤ}
    (hcmp : ∀ {a b a' b'}, R a a' → R b b' → cmp a b = cmp' a' b') {l : List α} {l' : List β}
    (h : List.Forall₂ R l l') : List.Forall₂ R (s.sort cmp l) (s.sort cmp' l') := by
  -- the pairs of related elements
  obtain ⟨ps, rfl, rfl⟩ : ∃ ps : List {p : α × β // R p.1 p.2}, ps.map (·.1.1) = l ∧ ps.map (·.1.2) = l' := by
    induction h with
    | nil => exact ⟨[], rfl, rfl⟩
    | cons hab _ ih =>
      obtain ⟨ps, rfl, rfl⟩ := ih
      exact ⟨⟨(_, _), hab⟩ :: ps, rfl, rfl⟩
  rw [s.map, s.map, show (fun a b : {p : α × β // R p.1 p.2} => cmp a.1.1 b.1.1) = fun a b => cmp' a.1.2 b.1.2 from
    funext fun a => funext fun b => hcmp a.2 b.2]
  exact List.forall₂_map_left_iff.2 (List.forall₂_map_right_iff.2 (List.forall₂_same.2 fun p _ => p.2))

end AdGuardHome.Lib
