import AdGuardHome.Lib.BinarySearch
import AdGuardHome.Lib.GoMap
import AdGuardHome.Lib.Run
import Mathlib.Data.List.InsertIdx

/-!
# The sorted map (`internal/aghalg/sortedmap.go`)

A map together with the list of its keys in the order of a comparison function.  `Valid m` says that
the key list is strictly sorted and has exactly the keys of the map; `set`, `del` and `clear` keep it.
-/

namespace AdGuardHome.Aghalg

open AdGuardHome.Lib

/-- `SortedMap`. -/
structure SortedMap (K V : Type) where
  vals : GoMap K V
  cmp : K → K → Ordering
  keys : List K

namespace SortedMap

variable {K V : Type} [DecidableEq K]

/-- `NewSortedMapFunc`. -/
def new (cmp : K → K → Ordering) : SortedMap K V := ⟨GoMap.empty, cmp, []⟩

/-- `slices.BinarySearchFunc(m.keys, key, m.cmp)`. -/
def searchKey (m : SortedMap K V) (key : K) : ℕ × Bool :=
  let i := search m.keys fun k => m.cmp k key == .lt
  (i, (m.keys[i]?).any fun k => m.cmp k key == .eq)

/-- `SortedMap.Set`. -/
def set (m : SortedMap K V) (key : K) (val : V) : SortedMap K V :=
  let (i, has) := m.searchKey key
  { m with
    vals := m.vals.set key val
    keys := if has then m.keys.set i key else m.keys.insertIdx i key }

/-- `SortedMap.Get`. -/
def get (m : SortedMap K V) (key : K) : Option V := m.vals.get key

/-- `SortedMap.Del`. -/
def del (m : SortedMap K V) (key : K) : SortedMap K V :=
  if (m.vals.get key).isSome then
    { m with
      vals := m.vals.del key
      keys := m.keys.eraseIdx (m.searchKey key).1 }
  else m

/-- `SortedMap.Clear`. -/
def clear (m : SortedMap K V) : SortedMap K V := { m with vals := GoMap.empty, keys := [] }

/-- The pairs that `SortedMap.Range` passes to its callback, in order, if it is never stopped. -/
def range [Inhabited V] (m : SortedMap K V) : List (K × V) :=
  m.keys.map fun k => (k, (m.vals.get k).getD default)

/-! ## The order of the keys -/

/-- The key list is strictly sorted and has exactly the keys of the map. -/
structure Valid (m : SortedMap K V) : Prop where
  sorted : m.keys.Pairwise fun a b => m.cmp a b = .lt
  mem_keys : ∀ k, k ∈ m.keys ↔ (m.vals.get k).isSome

theorem insertIdx_between {α : Type} (lo hi : List α) (a : α) :
    (lo ++ hi).insertIdx lo.length a = lo ++ a :: hi := by
  induction lo with
  | nil => rfl
  | cons b lo ih => simpa using ih

section Search

variable {m : SortedMap K V} [Std.TransCmp m.cmp]

omit [DecidableEq K] in
/-- The search splits a sorted key list at the position it finds. -/
theorem searchKey_split (h : m.keys.Pairwise fun a b => m.cmp a b = .lt) (key : K) :
    ∃ lo hi, m.keys = lo ++ hi ∧
      m.searchKey key = (lo.length, (hi.head?).any fun k => m.cmp k key == .eq) ∧
      (∀ k ∈ lo, m.cmp k key = .lt) ∧ (∀ k ∈ hi, m.cmp k key ≠ .lt) := by
  set below : K → Bool := fun k => m.cmp k key == .lt with hbelow
  have hmono : m.keys.Pairwise fun a b => below b = true → below a = true := by
    refine h.imp fun {a b} hab hb => ?_
    simp only [hbelow, beq_iff_eq] at hb ⊢
    exact Std.TransCmp.lt_trans hab hb
  obtain ⟨lo, hi, hkeys, hsearch, hlo, hhi⟩ := search_split hmono
  have hget : m.keys[lo.length]? = hi.head? := by
    rw [hkeys, List.getElem?_append_right le_rfl, Nat.sub_self, List.head?_eq_getElem?]
  refine ⟨lo, hi, hkeys, ?_, fun k hk => ?_, fun k hk => ?_⟩
  · simp only [searchKey]
    rw [hsearch, hget]
  · simpa [hbelow] using hlo k hk
  · simpa [hbelow] using hhi k hk

omit [DecidableEq K] in
/-- A key that is not below and not equal is above. -/
theorem gt_of_head {key k' : K} {rest : List K} (hs : (k' :: rest).Pairwise fun a b => m.cmp a b = .lt)
    (hlt : m.cmp k' key ≠ .lt) (heq : m.cmp k' key ≠ .eq) : ∀ k ∈ k' :: rest, m.cmp key k = .lt := by
  have hk' : m.cmp key k' = .lt := by
    have hswap : m.cmp key k' = (m.cmp k' key).swap := Std.OrientedCmp.eq_swap
    rw [hswap]
    cases hc : m.cmp k' key <;> simp_all
  intro k hk
  rcases List.mem_cons.1 hk with rfl | hk
  · exact hk'
  · exact Std.TransCmp.lt_trans hk' ((List.pairwise_cons.1 hs).1 k hk)

end Search

theorem new_valid (cmp : K → K → Ordering) : (new cmp : SortedMap K V).Valid :=
  ⟨List.Pairwise.nil, by simp [new]⟩

theorem clear_valid (m : SortedMap K V) : m.clear.Valid := ⟨List.Pairwise.nil, by simp [clear]⟩

@[simp] theorem set_vals (m : SortedMap K V) (key : K) (val : V) :
    (m.set key val).vals = m.vals.set key val := rfl

@[simp] theorem del_cmp (m : SortedMap K V) (key : K) : (m.del key).cmp = m.cmp := by
  unfold del; split <;> rfl

theorem get_del_vals (m : SortedMap K V) (key k : K) :
    (m.del key).vals.get k = if k = key then none else m.vals.get k := by
  unfold del
  split
  · exact GoMap.get_del _ _ _
  · rename_i h
    split
    · rename_i hk; subst hk; simpa using h
    · rfl

theorem set_valid (m : SortedMap K V) [Std.TransCmp m.cmp] [Std.LawfulEqCmp m.cmp] (h : m.Valid)
    (key : K) (val : V) : (m.set key val).Valid := by
  obtain ⟨lo, hi, hkeys, hi', hlo, hhi⟩ := searchKey_split h.sorted key
  have hs := h.sorted
  rw [hkeys, List.pairwise_append] at hs
  obtain ⟨hslo, hshi, hcross⟩ := hs
  -- the new key list is the old one, or the old one with the key between its two parts
  have hnew : ((m.set key val).keys = lo ++ hi ∧ key ∈ lo ++ hi) ∨
      ((m.set key val).keys = lo ++ key :: hi ∧ ∀ k ∈ hi, m.cmp key k = .lt) := by
    rcases hi with _ | ⟨k', rest⟩
    · right
      simp [set, hi', hkeys]
    · by_cases heq : m.cmp k' key = .eq
      · left
        obtain rfl := Std.LawfulEqCmp.eq_of_compare heq
        simp [set, hi', hkeys, heq]
      · right
        refine ⟨?_, gt_of_head hshi (hhi k' (by simp)) heq⟩
        simp [set, hi', hkeys, heq, insertIdx_between]
  rcases hnew with ⟨hk, hmem⟩ | ⟨hk, hgt⟩
  · refine ⟨by rw [hk, ← hkeys]; exact h.sorted, fun k => ?_⟩
    rw [hk, ← hkeys, set_vals, GoMap.get_set, h.mem_keys]
    split
    · rename_i hkk
      subst hkk
      rw [← hkeys, h.mem_keys] at hmem
      simp [hmem]
    · rfl
  · refine ⟨?_, fun k => ?_⟩
    · rw [hk]
      refine List.pairwise_append.2 ⟨hslo, List.pairwise_cons.2 ⟨hgt, hshi⟩, fun a ha b hb => ?_⟩
      rcases List.mem_cons.1 hb with rfl | hb
      · exact hlo a ha
      · exact hcross a ha b hb
    · have := h.mem_keys k
      rw [hkeys] at this
      rw [hk, set_vals, GoMap.get_set]
      by_cases hkk : k = key <;> simp_all

theorem del_valid (m : SortedMap K V) [Std.TransCmp m.cmp] [Std.LawfulEqCmp m.cmp] (h : m.Valid)
    (key : K) : (m.del key).Valid := by
  by_cases hmem : (m.vals.get key).isSome
  swap
  · simpa [del, hmem] using h
  obtain ⟨lo, hi, hkeys, hi', hlo, hhi⟩ := searchKey_split h.sorted key
  have hs := h.sorted
  rw [hkeys, List.pairwise_append] at hs
  obtain ⟨hslo, hshi, hcross⟩ := hs
  have hin : key ∈ lo ++ hi := by rw [← hkeys]; exact (h.mem_keys key).2 hmem
  have hself : m.cmp key key = .eq := Std.ReflCmp.compare_self
  -- the key is the head of the upper part
  obtain ⟨k', rest, rfl⟩ : ∃ k' rest, hi = k' :: rest := by
    rcases hi with _ | ⟨k', rest⟩
    · exact absurd (hlo key (by simpa using hin)) (by simp [hself])
    · exact ⟨k', rest, rfl⟩
  have hk' : k' = key := by
    by_contra hne
    have heq : m.cmp k' key ≠ .eq := fun e => hne (Std.LawfulEqCmp.eq_of_compare e)
    have hgt := gt_of_head hshi (hhi k' (by simp)) heq
    rcases List.mem_append.1 hin with hl | hr
    · exact absurd (hlo key hl) (by simp [hself])
    · exact absurd (hgt key hr) (by simp [hself])
  subst hk'
  have hdel : (m.del k').keys = lo ++ rest := by
    simp only [del, hmem, if_true, hi']
    rw [hkeys, List.eraseIdx_append_of_length_le (le_refl _)]
    simp
  have hnotin : k' ∉ lo ++ rest := by
    intro hc
    rcases List.mem_append.1 hc with hl | hr
    · exact absurd (hlo k' hl) (by simp [hself])
    · exact absurd ((List.pairwise_cons.1 hshi).1 k' hr) (by simp [hself])
  refine ⟨?_, fun k => ?_⟩
  · rw [del_cmp, hdel]
    exact List.pairwise_append.2 ⟨hslo, (List.pairwise_cons.1 hshi).2,
      fun a ha b hb => hcross a ha b (List.mem_cons_of_mem _ hb)⟩
  · have := h.mem_keys k
    rw [hkeys] at this
    rw [hdel, get_del_vals]
    by_cases hkk : k = k'
    · subst hkk; simpa using hnotin
    · simp only [hkk, if_false, ← this]
      simp [hkk]

/-- A lookup by a walk over the sorted pairs finds the map's own value. -/
theorem find_range [Inhabited V] {m : SortedMap K V} (h : m.Valid) (key : K) :
    (m.range.find? fun p => p.1 == key).map Prod.snd = m.vals.get key := by
  have hwalk : ∀ ks : List K, ((ks.map fun k => (k, (m.vals.get k).getD default)).find?
      fun p => p.1 == key).map Prod.snd = if key ∈ ks then some ((m.vals.get key).getD default) else none := by
    intro ks
    induction ks with
    | nil => simp
    | cons k ks ih =>
      simp only [List.map_cons, List.find?_cons]
      by_cases hk : k = key
      · subst hk; simp
      · have hk' : ¬ key = k := fun e => hk e.symm
        simp only [beq_eq_false_iff_ne.2 hk]
        rw [ih]
        simp [hk']
  unfold range
  rw [hwalk]
  by_cases hmem : key ∈ m.keys
  · obtain ⟨v, hv⟩ := Option.isSome_iff_exists.1 ((h.mem_keys key).1 hmem)
    simp [hmem, hv]
  · have hnone : m.vals.get key = none := by
      rw [h.mem_keys] at hmem
      simpa using hmem
    simp [hmem, hnone]

/-- The keys of a walk are those of the map. -/
theorem mem_range [Inhabited V] {m : SortedMap K V} {k : K} {v : V} (h : m.Valid) (hmem : (k, v) ∈ m.range) :
    m.vals.get k = some v := by
  obtain ⟨k', hk', heq⟩ := List.mem_map.1 hmem
  obtain ⟨rfl, rfl⟩ := Prod.mk.inj heq
  obtain ⟨v, hv⟩ := Option.isSome_iff_exists.1 ((h.mem_keys k').1 hk')
  rw [hv, Option.getD_some]

theorem exists_mem_range [Inhabited V] {m : SortedMap K V} {k : K} {v : V} (h : m.Valid) (hv : m.vals.get k = some v) :
    (k, v) ∈ m.range := by
  have hk : k ∈ m.keys := (h.mem_keys k).2 (by rw [hv]; rfl)
  exact List.mem_map.2 ⟨k, hk, by rw [hv, Option.getD_some]⟩

/-- The first key of a walk that satisfies the predicate is before all others that do. -/
theorem first_of_find_range [Inhabited V] {m : SortedMap K V} (h : m.Valid) {P : K → Bool} {k : K} {v : V}
    (hfind : (m.range.find? fun p => P p.1) = some (k, v)) :
    P k = true ∧ m.vals.get k = some v ∧
      ∀ k', (m.vals.get k').isSome → P k' = true → k' = k ∨ m.cmp k k' = .lt := by
  obtain ⟨hP, pre, post, hsplit, hpre⟩ := List.find?_eq_some_iff_append.1 hfind
  have hmem : (k, v) ∈ m.range := by simp [hsplit]
  refine ⟨hP, mem_range h hmem, fun k' hk' hP' => ?_⟩
  have hkeys : m.keys = pre.map Prod.fst ++ k :: post.map Prod.fst := by
    have hfst : m.range.map Prod.fst = m.keys := by simp [range, Function.comp_def]
    rw [← hfst, hsplit]
    simp
  have hin : k' ∈ pre.map Prod.fst ++ k :: post.map Prod.fst := by
    rw [← hkeys]
    exact (h.mem_keys k').2 hk'
  rcases List.mem_append.1 hin with hbefore | hafter
  · obtain ⟨p, hp, rfl⟩ := List.mem_map.1 hbefore
    have hnot := hpre p hp
    rw [hP'] at hnot
    cases hnot
  · rcases List.mem_cons.1 hafter with rfl | hafter
    · exact .inl rfl
    · have hsorted := h.sorted
      rw [hkeys] at hsorted
      exact .inr ((List.pairwise_cons.1 (List.pairwise_append.1 hsorted).2.1).1 k' hafter)

/-! ## Runs -/

/-- An operation that changes the map. -/
inductive Op (K V : Type)
  | set (key : K) (val : V)
  | del (key : K)
  | clear

def step (m : SortedMap K V) : Op K V → SortedMap K V
  | .set key val => m.set key val
  | .del key => m.del key
  | .clear => m.clear

/-- After any operations the key list is strictly sorted and has exactly the keys of the map. -/
theorem run_valid {cmp : K → K → Ordering} [Std.TransCmp cmp] [Std.LawfulEqCmp cmp] (ops : List (Op K V)) :
    (run step (new cmp : SortedMap K V) ops).Valid ∧ (run step (new cmp : SortedMap K V) ops).cmp = cmp := by
  have hstep : ∀ (m : SortedMap K V) (o : Op K V), m.Valid ∧ m.cmp = cmp → (step m o).Valid ∧ (step m o).cmp = cmp := by
    rintro m o ⟨h, rfl⟩
    cases o with
    | set key val => exact ⟨m.set_valid h key val, rfl⟩
    | del key => exact ⟨m.del_valid h key, m.del_cmp key⟩
    | clear => exact ⟨m.clear_valid, rfl⟩
  exact run_invariant hstep ⟨new_valid cmp, rfl⟩ ops

theorem Valid.nodup {m : SortedMap K V} (h : m.Valid) [Std.ReflCmp m.cmp] : m.keys.Nodup := by
  refine h.sorted.imp ?_
  rintro a _ hlt rfl
  have heq : m.cmp a a = .eq := Std.ReflCmp.compare_self
  rw [heq] at hlt
  cases hlt

end SortedMap

end AdGuardHome.Aghalg
