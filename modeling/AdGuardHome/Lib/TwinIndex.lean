import AdGuardHome.Lib.GoMap

/-!
# Two indexes over one set of values

`Twin A B f g` says that the maps `A` and `B` index the same values, `A` under the keys `f v` and `B` under the
keys `g v`.  Deleting the same value from both, or writing a value under both of its keys, keeps it; the keys of
a value that is not indexed are free to change.
-/

namespace AdGuardHome.Lib

variable {K L V : Type} [DecidableEq K] [DecidableEq L]

/-- `B` has a value under a key exactly if `A` has it and the key is the second key of the value. -/
structure Twin (A : GoMap K V) (B : GoMap L V) (f : V → K) (g : V → L) : Prop where
  iff : ∀ k v, B.get k = some v ↔ A.get (f v) = some v ∧ k = g v
  key : ∀ a v, A.get a = some v → f v = a

namespace Twin

variable {A A' : GoMap K V} {B B' : GoMap L V} {f f' : V → K} {g g' : V → L}

theorem empty : Twin (GoMap.empty : GoMap K V) (GoMap.empty : GoMap L V) f g := by
  constructor <;> simp

theorem congr_get (h : Twin A B f g) (hA : ∀ a, A'.get a = A.get a) (hB : ∀ b, B'.get b = B.get b) :
    Twin A' B' f g where
  iff := by
    intro k v
    rw [hA, hB]
    exact h.iff k v
  key := by
    intro a v
    rw [hA]
    exact h.key a v

/-- Only the keys of the indexed values matter. -/
theorem congr_keys (h : Twin A B f g) (hk : ∀ a v, A.get a = some v → f' v = f v ∧ g' v = g v) : Twin A B f' g' where
  iff := by
    intro k v
    constructor
    · intro hv
      obtain ⟨hA, hkv⟩ := (h.iff k v).1 hv
      obtain ⟨hf, hg⟩ := hk _ v hA
      rw [hf, hg]
      exact ⟨hA, hkv⟩
    · rintro ⟨hA, hkv⟩
      obtain ⟨hf, hg⟩ := hk _ v hA
      rw [hf] at hA
      rw [hg] at hkv
      exact (h.iff k v).2 ⟨hA, hkv⟩
  key := by
    intro a v hv
    rw [(hk a v hv).1]
    exact h.key a v hv

/-- Deleting the keys of one value, or two keys that have none. -/
theorem del (h : Twin A B f g) {a : K} {b : L} (hab : A.get a = B.get b) : Twin (A.del a) (B.del b) f g where
  iff := by
    intro k v
    rw [GoMap.get_del, GoMap.get_del]
    constructor
    · intro hv
      split at hv
      · cases hv
      · rename_i hkb
        obtain ⟨hA, hkv⟩ := (h.iff k v).1 hv
        refine ⟨?_, hkv⟩
        rw [if_neg]
        · exact hA
        · -- otherwise `v` is the value under `b`, and `k` is `b`
          intro hfa
          rw [hfa, hab] at hA
          exact hkb (hkv.trans ((h.iff b v).1 hA).2.symm)
    · rintro ⟨hA, hkv⟩
      split at hA
      · cases hA
      · rename_i hfa
        rw [if_neg]
        · exact (h.iff k v).2 ⟨hA, hkv⟩
        · intro hkb
          have hB := (h.iff k v).2 ⟨hA, hkv⟩
          rw [hkb, ← hab] at hB
          exact hfa (h.key a v hB)
  key := by
    intro c v hv
    rw [GoMap.get_del] at hv
    split at hv
    · cases hv
    · exact h.key c v hv

/-- Writing a value under its two keys, which are free. -/
theorem setFree (h : Twin A B f g) {v : V} (hA : A.get (f v) = none) (hB : B.get (g v) = none) :
    Twin (A.set (f v) v) (B.set (g v) v) f g where
  iff := by
    intro k w
    rw [GoMap.get_set, GoMap.get_set]
    constructor
    · intro hw
      split at hw
      · rename_i hk
        cases hw
        exact ⟨if_pos rfl, hk⟩
      · obtain ⟨hAw, hkw⟩ := (h.iff k w).1 hw
        refine ⟨?_, hkw⟩
        rw [if_neg]
        · exact hAw
        · intro hf
          rw [hf, hA] at hAw
          cases hAw
    · rintro ⟨hw, hk⟩
      split at hw
      · cases hw
        exact if_pos hk
      · have hBw := (h.iff k w).2 ⟨hw, hk⟩
        rw [if_neg]
        · exact hBw
        · intro hkv
          rw [hkv, hB] at hBw
          cases hBw
  key := by
    intro a w hw
    rw [GoMap.get_set] at hw
    split at hw
    · rename_i ha
      cases hw
      exact ha.symm
    · exact h.key a w hw

/-- Writing a value under its two keys, which are free or have one value. -/
theorem set (h : Twin A B f g) {v : V} (hv : A.get (f v) = B.get (g v)) :
    Twin (A.set (f v) v) (B.set (g v) v) f g := by
  refine ((h.del hv).setFree (GoMap.get_del_self _ _) (GoMap.get_del_self _ _)).congr_get (fun a => ?_) (fun b => ?_)
  · rw [GoMap.get_set, GoMap.get_set, GoMap.get_del]
    split <;> rfl
  · rw [GoMap.get_set, GoMap.get_set, GoMap.get_del]
    split <;> rfl

end Twin

end AdGuardHome.Lib
