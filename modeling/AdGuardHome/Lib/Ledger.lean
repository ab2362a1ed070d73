import Mathlib.Data.List.Nodup
import Mathlib.Logic.Function.Basic

/-!
# Objects with one holder

Objects are numbered in the order in which they are made.  `held u` is the object that the holder `u` has, and
`closed` are the objects that have been closed, in turn.  In a balanced ledger every object is closed once or held by
one holder (`Balanced`); making an object for a holder that has none and closing the one that a holder has keep the
balance.
-/

namespace AdGuardHome.Lib

variable {U : Type}

/-- Every one of the first `n` objects is in exactly one place. -/
structure Balanced (held : U → Option ℕ) (closed : List ℕ) (n : ℕ) : Prop where
  closed_lt : ∀ i ∈ closed, i < n
  held_lt : ∀ {u i}, held u = some i → i < n
  /-- No object is closed twice. -/
  nodup : closed.Nodup
  open_of_held : ∀ {u i}, held u = some i → i ∉ closed
  holder_unique : ∀ {u v i}, held u = some i → held v = some i → u = v
  /-- An object that is not closed has a holder. -/
  held_of_open : ∀ {i}, i < n → i ∉ closed → ∃ u, held u = some i

theorem balanced_empty : Balanced (fun _ : U => none) [] 0 where
  closed_lt := by simp
  held_lt := by simp
  nodup := List.nodup_nil
  open_of_held := by simp
  holder_unique := by simp
  held_of_open := by simp

namespace Balanced

variable {held held' : U → Option ℕ} {closed : List ℕ} {n : ℕ} {u : U}

theorem congr (h : Balanced held closed n) (hheld : ∀ u, held' u = held u) : Balanced held' closed n := by
  obtain rfl : held' = held := funext hheld
  exact h

/-- Closing the object that a holder has. -/
theorem close {i : ℕ} (h : Balanced held closed n) (hu : held u = some i) (hu' : held' u = none)
    (hother : ∀ v, v ≠ u → held' v = held v) : Balanced held' (i :: closed) n := by
  have hheld : ∀ {v j}, held' v = some j → v ≠ u ∧ held v = some j := by
    intro v j hj
    by_cases hv : v = u
    · rw [hv, hu'] at hj
      cases hj
    · exact ⟨hv, hother v hv ▸ hj⟩
  refine ⟨?_, fun hj => h.held_lt (hheld hj).2, List.nodup_cons.2 ⟨h.open_of_held hu, h.nodup⟩, ?_, ?_, ?_⟩
  · intro j hj
    rcases List.mem_cons.1 hj with rfl | hj
    · exact h.held_lt hu
    · exact h.closed_lt j hj
  · intro v j hj hmem
    obtain ⟨hv, hj⟩ := hheld hj
    rcases List.mem_cons.1 hmem with rfl | hmem
    · exact hv (h.holder_unique hj hu)
    · exact h.open_of_held hj hmem
  · exact fun hj hj' => h.holder_unique (hheld hj).2 (hheld hj').2
  · intro j hj hmem
    obtain ⟨hne, hmem⟩ := not_or.1 (fun hor => hmem (List.mem_cons.2 hor))
    obtain ⟨v, hv⟩ := h.held_of_open hj hmem
    have hvu : v ≠ u := fun heq => hne (by rw [heq, hu] at hv; exact (Option.some.inj hv).symm)
    exact ⟨v, (hother v hvu).trans hv⟩

/-- A holder gives up what it has, which is closed. -/
theorem release (h : Balanced held closed n) (hu' : held' u = none) (hother : ∀ v, v ≠ u → held' v = held v) :
    Balanced held' ((held u).toList ++ closed) n := by
  cases hu : held u with
  | none =>
    refine h.congr fun v => ?_
    by_cases hv : v = u
    · rw [hv, hu, hu']
    · exact hother v hv
  | some i => exact h.close hu hu' hother

/-- Making an object for a holder that has none. -/
theorem make (h : Balanced held closed n) (hu : held u = none) (hu' : held' u = some n)
    (hother : ∀ v, v ≠ u → held' v = held v) : Balanced held' closed (n + 1) := by
  have hheld : ∀ {v j}, held' v = some j → (v = u ∧ j = n) ∨ (v ≠ u ∧ held v = some j) := by
    intro v j hj
    by_cases hv : v = u
    · rw [hv, hu'] at hj
      exact .inl ⟨hv, (Option.some.inj hj).symm⟩
    · exact .inr ⟨hv, hother v hv ▸ hj⟩
  refine ⟨fun j hj => Nat.lt_succ_of_lt (h.closed_lt j hj), ?_, h.nodup, ?_, ?_, ?_⟩
  · intro v j hj
    rcases hheld hj with ⟨_, rfl⟩ | ⟨_, hj⟩
    · exact Nat.lt_succ_self j
    · exact Nat.lt_succ_of_lt (h.held_lt hj)
  · intro v j hj hmem
    rcases hheld hj with ⟨_, rfl⟩ | ⟨_, hj⟩
    · exact absurd (h.closed_lt j hmem) (Nat.lt_irrefl j)
    · exact h.open_of_held hj hmem
  · intro v w j hj hj'
    rcases hheld hj with ⟨hv, hjn⟩ | ⟨_, hj⟩ <;> rcases hheld hj' with ⟨hw, hjn'⟩ | ⟨_, hj'⟩
    · rw [hv, hw]
    · exact absurd (h.held_lt hj') (by omega)
    · exact absurd (h.held_lt hj) (by omega)
    · exact h.holder_unique hj hj'
  · intro j hj hmem
    rcases Nat.lt_succ_iff_lt_or_eq.1 hj with hj | rfl
    · obtain ⟨v, hv⟩ := h.held_of_open hj hmem
      have hvu : v ≠ u := fun heq => by rw [heq, hu] at hv; cases hv
      exact ⟨v, (hother v hvu).trans hv⟩
    · exact ⟨u, hu'⟩

end Balanced

end AdGuardHome.Lib
