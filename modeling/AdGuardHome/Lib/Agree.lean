import Mathlib.Data.List.Forall2

/-!
# Two computations that agree

`Agree E R x y` says that two fallible computations fail together with errors that `E` relates, or succeed with
results that `R` relates.  The rules follow the shape of a program: results, failures, `bind`, `map` and loops over
related lists.  `bind_eq_ok`, `map_eq_ok` and `getElem?_of_mapIdxM` take a computation that succeeds apart.
-/

namespace AdGuardHome.Lib

variable {ε α β α' β' : Type}

/-- Both computations fail with related errors, or both succeed with related results. -/
def Agree (E : ε → ε → Prop) (R : α → β → Prop) : Except ε α → Except ε β → Prop
  | .ok a, .ok b => R a b
  | .error e, .error e' => E e e'
  | _, _ => False

namespace Agree

variable {E : ε → ε → Prop} {R : α → β → Prop} {S : α' → β' → Prop}

theorem ok {a : α} {b : β} (h : R a b) : Agree E R (.ok a) (.ok b) := h

theorem error {e e' : ε} (h : E e e') : Agree E R (.error e) (.error e') := h

theorem bind {x : Except ε α} {y : Except ε β} {f : α → Except ε α'} {g : β → Except ε β'} (h : Agree E R x y)
    (hfg : ∀ a b, R a b → Agree E S (f a) (g b)) : Agree E S (x >>= f) (y >>= g) := by
  cases x <;> cases y
  · exact h
  · exact h.elim
  · exact h.elim
  · exact hfg _ _ h

theorem map {x : Except ε α} {y : Except ε β} {f : α → α'} {g : β → β'} (h : Agree E R x y)
    (hfg : ∀ a b, R a b → S (f a) (g b)) : Agree E S (x.map f) (y.map g) := by
  cases x <;> cases y
  · exact h
  · exact h
  · exact h
  · exact hfg _ _ h

/-- A result that may be missing is missing on both sides, or on none. -/
theorem bindOption {x : Except ε (Option α)} {y : Except ε (Option β)} {f : Option α → Except ε α'}
    {g : Option β → Except ε β'} (h : Agree E (Option.Rel R) x y) (hnone : Agree E S (f none) (g none))
    (hsome : ∀ a b, R a b → Agree E S (f (some a)) (g (some b))) : Agree E S (x >>= f) (y >>= g) := by
  refine h.bind fun a b hab => ?_
  cases hab with
  | none => exact hnone
  | some hab => exact hsome _ _ hab

/-- Two computations that agree both fail, or both succeed. -/
theorem cases {x : Except ε α} {y : Except ε β} (h : Agree E R x y) :
    (∃ e e', x = .error e ∧ y = .error e' ∧ E e e') ∨ ∃ a b, x = .ok a ∧ y = .ok b ∧ R a b := by
  cases x <;> cases y
  · exact .inl ⟨_, _, rfl, rfl, h⟩
  · exact h.elim
  · exact h.elim
  · exact .inr ⟨_, _, rfl, rfl, h⟩

end Agree

theorem bind_eq_ok {x : Except ε α} {f : α → Except ε β} {b : β} :
    (x >>= f) = .ok b ↔ ∃ a, x = .ok a ∧ f a = .ok b := by
  cases x with
  | error e => exact ⟨nofun, nofun⟩
  | ok a =>
    constructor
    · exact fun h => ⟨a, rfl, h⟩
    · rintro ⟨_, ⟨⟩, h⟩
      exact h

theorem map_eq_ok {x : Except ε α} {f : α → β} {b : β} : x.map f = .ok b ↔ ∃ a, x = .ok a ∧ f a = b := by
  cases x with
  | error e => exact ⟨nofun, nofun⟩
  | ok a => simp [Except.map]

/-- A loop over the elements of a list with their indexes, from `i` on. -/
def mapIdxM (f : ℕ → α → Except ε α') : ℕ → List α → Except ε (List α')
  | _, [] => .ok []
  | i, a :: as => do
    let b ← f i a
    let bs ← mapIdxM f (i + 1) as
    .ok (b :: bs)

theorem Agree.mapIdxM {E : ε → ε → Prop} {R : α → β → Prop} {S : α' → β' → Prop} {f : ℕ → α → Except ε α'}
    {g : ℕ → β → Except ε β'} (hfg : ∀ i a b, R a b → Agree E S (f i a) (g i b)) {as : List α} {bs : List β}
    (h : List.Forall₂ R as bs) (i : ℕ) :
    Agree E (List.Forall₂ S) (Lib.mapIdxM f i as) (Lib.mapIdxM g i bs) := by
  induction h generalizing i with
  | nil => exact .nil
  | cons hab _ ih =>
    refine (hfg i _ _ hab).bind fun a' b' hs => ?_
    exact (ih (i + 1)).bind fun _ _ hss => .cons hs hss

/-- The results of a loop, one for each element. -/
theorem getElem?_of_mapIdxM {f : ℕ → α → Except ε α'} {as : List α} {bs : List α'} {i : ℕ}
    (h : mapIdxM f i as = .ok bs) :
    bs.length = as.length ∧ ∀ j a, as[j]? = some a → ∃ b, bs[j]? = some b ∧ f (i + j) a = .ok b := by
  induction as generalizing i bs with
  | nil =>
    cases h
    exact ⟨rfl, by simp⟩
  | cons a as ih =>
    obtain ⟨b, hb, h⟩ := bind_eq_ok.1 h
    obtain ⟨bs', hbs, h⟩ := bind_eq_ok.1 h
    cases h
    obtain ⟨hlen, hget⟩ := ih hbs
    refine ⟨by rw [List.length_cons, List.length_cons, hlen], fun j x hx => ?_⟩
    cases j with
    | zero =>
      cases hx
      exact ⟨b, rfl, hb⟩
    | succ j =>
      obtain ⟨y, hy, hf⟩ := hget j x hx
      exact ⟨y, hy, by rwa [show i + (j + 1) = i + 1 + j by omega]⟩

end AdGuardHome.Lib
