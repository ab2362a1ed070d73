import Mathlib.Data.List.AList

/-!
# Finite maps

`GoMap K V` is an association list without repeated keys; `get`, `set` and `del` are the lookup,
the assignment and the `delete` of a Go `map[K]V`.  `setAll` and `delAll` assign or delete a whole
list of keys, as the loops over the identifiers of an entry do.  `All m P` says that every entry of
`m` meets `P`.
-/

namespace AdGuardHome.Lib

/-- A finite map with at most one value for a key. -/
abbrev GoMap (K V : Type) : Type := AList (fun _ : K => V)

namespace GoMap

variable {K V : Type} [DecidableEq K]

/-- The value of a key, `none` for an absent one. -/
def get (m : GoMap K V) (k : K) : Option V := AList.lookup k m

def set (m : GoMap K V) (k : K) (v : V) : GoMap K V := AList.insert k v m

def del (m : GoMap K V) (k : K) : GoMap K V := AList.erase k m

/-- The empty map. -/
def empty : GoMap K V := (∅ : AList _)

@[simp] theorem get_empty (k : K) : (empty : GoMap K V).get k = none := AList.lookup_empty k

theorem get_set (m : GoMap K V) (k k' : K) (v : V) :
    (m.set k v).get k' = if k' = k then some v else m.get k' := by
  unfold get set
  by_cases h : k' = k
  · subst h; simp
  · simp [h, AList.lookup_insert_ne h]

@[simp] theorem get_set_self (m : GoMap K V) (k : K) (v : V) : (m.set k v).get k = some v := by
  simp [get_set]

theorem get_set_ne (m : GoMap K V) {k k' : K} (h : k' ≠ k) (v : V) :
    (m.set k v).get k' = m.get k' := by simp [get_set, h]

theorem get_del (m : GoMap K V) (k k' : K) :
    (m.del k).get k' = if k' = k then none else m.get k' := by
  unfold get del
  by_cases h : k' = k
  · subst h; simp
  · simp [h, AList.lookup_erase_ne h]

@[simp] theorem get_del_self (m : GoMap K V) (k : K) : (m.del k).get k = none := by simp [get_del]

theorem get_del_ne (m : GoMap K V) {k k' : K} (h : k' ≠ k) : (m.del k).get k' = m.get k' := by
  simp [get_del, h]

/-- Nothing is deleted. -/
theorem del_of_get_none {m : GoMap K V} {k : K} (h : m.get k = none) : m.del k = m := by
  have hkeys : k ∉ m.entries.keys := AList.lookup_eq_none.1 h
  exact AList.ext (List.kerase_of_notMem_keys hkeys)

/-- What is there after a deletion was there before. -/
theorem get_of_get_del {m : GoMap K V} {k k' : K} {v : V} (h : (m.del k).get k' = some v) : m.get k' = some v := by
  rw [get_del] at h
  split at h
  · cases h
  · exact h

/-- What is there after an assignment was there before or is what was assigned. -/
theorem get_or_eq_of_get_set {m : GoMap K V} {k k' : K} {v w : V} (h : (m.set k v).get k' = some w) :
    m.get k' = some w ∨ w = v := by
  rw [get_set] at h
  split at h
  · exact .inr (Option.some.inj h).symm
  · exact .inl h

/-- Assigns every key of a map to another map, in any order: a key has one value only. -/
theorem get_foldl_entries {W : Type} (m : GoMap K V) (f : K → V → W) (c : GoMap K W) (k : K) :
    (m.entries.foldl (fun c e => c.set e.1 (f e.1 e.2)) c).get k
      = ((m.get k).map (f k)).or (c.get k) := by
  have hget : m.get k = m.entries.dlookup k := rfl
  have hnodup := m.nodupKeys
  rw [hget]
  generalize m.entries = l at hnodup
  induction l generalizing c with
  | nil => simp
  | cons e l ih =>
    obtain ⟨hnot, hl⟩ := List.nodupKeys_cons.1 hnodup
    rw [List.foldl_cons, ih _ hl, get_set]
    by_cases hk : k = e.1
    · subst hk
      rw [List.dlookup_eq_none.2 hnot, List.dlookup_cons_eq]
      simp
    · rw [List.dlookup_cons_ne _ _ hk, if_neg hk]

/-! ## Whole lists of keys -/

/-- Assigns `v` to every key of the list, from left to right. -/
def setAll (m : GoMap K V) (ks : List K) (v : V) : GoMap K V := ks.foldl (fun m k => m.set k v) m

/-- Deletes every key of the list, from left to right. -/
def delAll (m : GoMap K V) (ks : List K) : GoMap K V := ks.foldl (fun m k => m.del k) m

theorem get_setAll (ks : List K) (v : V) (m : GoMap K V) (k : K) :
    (m.setAll ks v).get k = if k ∈ ks then some v else m.get k := by
  induction ks generalizing m with
  | nil => simp [setAll]
  | cons k₀ ks ih =>
    have hcons : m.setAll (k₀ :: ks) v = (m.set k₀ v).setAll ks v := rfl
    rw [hcons, ih, get_set]
    by_cases h : k ∈ ks <;> by_cases h₀ : k = k₀ <;> simp [h, h₀]

theorem get_delAll (ks : List K) (m : GoMap K V) (k : K) :
    (m.delAll ks).get k = if k ∈ ks then none else m.get k := by
  induction ks generalizing m with
  | nil => simp [delAll]
  | cons k₀ ks ih =>
    have hcons : m.delAll (k₀ :: ks) = (m.del k₀).delAll ks := rfl
    rw [hcons, ih, get_del]
    by_cases h : k ∈ ks <;> by_cases h₀ : k = k₀ <;> simp [h, h₀]

/-- Deletes every entry that meets `p`, as a loop over the map with `delete` in its body does. -/
def delWhere (m : GoMap K V) (p : K → V → Bool) : GoMap K V :=
  m.delAll ((m.entries.filter fun e => p e.1 e.2).map Sigma.fst)

theorem get_delWhere (m : GoMap K V) (p : K → V → Bool) (k : K) :
    (m.delWhere p).get k = (m.get k).filter fun v => !p k v := by
  have hmem : ∀ v, m.get k = some v ↔ ⟨k, v⟩ ∈ m.entries := fun v => AList.mem_lookup_iff
  rw [delWhere, get_delAll]
  cases hk : m.get k with
  | none => simp
  | some v =>
    have hkeys : k ∈ (m.entries.filter fun e => p e.1 e.2).map Sigma.fst ↔ p k v = true := by
      simp only [List.mem_map, List.mem_filter]
      constructor
      · rintro ⟨⟨k', v'⟩, ⟨he, hp⟩, rfl⟩
        have : v' = v := Option.some.inj (((hmem v').2 he).symm.trans hk)
        rwa [← this]
      · intro hp
        exact ⟨⟨k, v⟩, ⟨(hmem v).1 hk, hp⟩, rfl⟩
    cases hp : p k v <;> simp [hkeys, hp, Option.filter]

/-! ## Loops over all entries -/

section Sift

variable {W : Type} (f : K → V → Option W)

/-- One entry in the body of the loop of `sift`. -/
def siftEntry (acc : GoMap K W × List K) (e : Sigma fun _ : K => V) : GoMap K W × List K :=
  match f e.1 e.2 with
  | some w => (acc.1.set e.1 w, acc.2)
  | none => (acc.1, acc.2 ++ [e.1])

/-- The values that `f` makes of the entries, and the keys of the entries of which it makes none. -/
def sift (m : GoMap K V) : GoMap K W × List K := m.entries.foldl (siftEntry f) (empty, [])

theorem foldl_siftEntry {l : List (Sigma fun _ : K => V)} (hnodup : l.NodupKeys) (acc : GoMap K W × List K) (k : K) :
    (l.foldl (siftEntry f) acc).1.get k = ((l.dlookup k).bind (f k)).or (acc.1.get k) ∧
      (k ∈ (l.foldl (siftEntry f) acc).2 ↔ k ∈ acc.2 ∨ ∃ v, l.dlookup k = some v ∧ f k v = none) := by
  induction l generalizing acc with
  | nil => simp
  | cons e l ih =>
    obtain ⟨hnot, hl⟩ := List.nodupKeys_cons.1 hnodup
    obtain ⟨ih₁, ih₂⟩ := ih hl (siftEntry f acc e)
    rw [List.foldl_cons, ih₁, ih₂]
    by_cases hk : k = e.1
    · subst hk
      rw [List.dlookup_eq_none.2 hnot, List.dlookup_cons_eq]
      cases hf : f e.1 e.2 <;> simp [siftEntry, hf]
    · rw [List.dlookup_cons_ne _ _ hk]
      cases hf : f e.1 e.2 <;> simp [siftEntry, hf, hk, get_set]

theorem get_sift (m : GoMap K V) (k : K) : (m.sift f).1.get k = (m.get k).bind (f k) := by
  have h := (foldl_siftEntry f m.nodupKeys (empty, []) k).1
  rwa [get_empty, Option.or_none] at h

theorem get_delAll_sift (m : GoMap K V) (k : K) :
    (m.delAll (m.sift f).2).get k = (m.get k).filter fun v => (f k v).isSome := by
  have hmem : k ∈ (m.sift f).2 ↔ ∃ v, m.get k = some v ∧ f k v = none := by
    refine (foldl_siftEntry f m.nodupKeys (empty, []) k).2.trans ?_
    exact or_iff_right List.not_mem_nil
  rw [get_delAll]
  cases hk : m.get k with
  | none => simp
  | some v =>
    cases hf : f k v <;> simp [hmem, hk, hf, Option.filter]

end Sift

/-! ## Entries that meet a predicate -/

section All

variable {m : GoMap K V} {P : K → V → Prop}

/-- Every entry meets the predicate. -/
def All (m : GoMap K V) (P : K → V → Prop) : Prop := ∀ k v, m.get k = some v → P k v

theorem all_empty : (empty : GoMap K V).All P := by
  intro k v h
  rw [get_empty] at h
  cases h

theorem All.set (h : m.All P) {k : K} {v : V} (hv : P k v) : (m.set k v).All P := by
  intro k' v' hget
  rw [get_set] at hget
  split at hget
  next hk =>
    cases hget
    rwa [hk]
  · exact h k' v' hget

theorem All.del (h : m.All P) (k : K) : (m.del k).All P := by
  intro k' v' hget
  rw [get_del] at hget
  split at hget
  · cases hget
  · exact h k' v' hget

theorem All.delAll (h : m.All P) (ks : List K) : (m.delAll ks).All P := by
  intro k' v' hget
  rw [get_delAll] at hget
  split at hget
  · cases hget
  · exact h k' v' hget

end All

end GoMap

end AdGuardHome.Lib
