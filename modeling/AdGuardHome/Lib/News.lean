import Mathlib.Data.List.Basic

/-!
# News

Values are found one after another, and a cache has the last of them, or none when it has lost it.  Only news are passed
on: a value that is not blank and not the one in the cache.  What is shown after that is still the last value found that
is not blank (`Tracks.find`), whenever the cache loses its value (`Tracks.lose`).
-/

namespace AdGuardHome.Lib.News

variable {V : Type} [DecidableEq V]

/-- The last of the values that is not blank. -/
def last (blank : V) (vs : List V) : Option V := vs.reverse.find? (· ≠ blank)

/-- Whether a value is passed on when the cache has this value. -/
def IsNews (blank : V) (cache : Option V) (v : V) : Prop := v ≠ blank ∧ cache ≠ some v

instance (blank : V) (cache : Option V) (v : V) : Decidable (IsNews blank cache v) :=
  inferInstanceAs (Decidable (_ ∧ _))

/-- Of the values found the last one is shown, and the cache has no other. -/
structure Tracks (blank : V) (cache shown : Option V) (vs : List V) : Prop where
  eq_last : shown = last blank vs
  cached : ∀ v ∈ cache, v ≠ blank → shown = some v

variable {blank : V} {cache shown : Option V} {vs : List V}

theorem last_concat (blank v : V) (vs : List V) :
    last blank (vs ++ [v]) = if v ≠ blank then some v else last blank vs := by
  unfold last
  rw [List.reverse_concat, List.find?_cons]
  by_cases h : v = blank <;> simp [h]

theorem tracks_nil (blank : V) : Tracks blank none none [] := ⟨rfl, nofun⟩

/-- A value is found, and shown if it is news. -/
theorem Tracks.find (h : Tracks blank cache shown vs) (v : V) :
    Tracks blank (some v) (if IsNews blank cache v then some v else shown) (vs ++ [v]) := by
  have hshown : v ≠ blank → (if IsNews blank cache v then some v else shown) = some v := by
    intro hv
    by_cases hcache : cache = some v
    · rw [if_neg fun hnews => hnews.2 hcache]
      exact h.cached v hcache hv
    · rw [if_pos ⟨hv, hcache⟩]
  constructor
  · rw [last_concat]
    by_cases hv : v = blank
    · rw [if_neg fun hnews => hnews.1 hv, if_neg (not_not_intro hv)]
      exact h.eq_last
    · rw [if_pos hv]
      exact hshown hv
  · rintro _ ⟨⟩ hv
    exact hshown hv

theorem Tracks.lose (h : Tracks blank cache shown vs) : Tracks blank none shown vs := ⟨h.eq_last, nofun⟩

end AdGuardHome.Lib.News
