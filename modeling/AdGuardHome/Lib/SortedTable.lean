import AdGuardHome.Lib.BinarySearch
import Mathlib.Data.List.InsertIdx

/-!
# Sorted lists as tables

A list that is sorted by a key of its elements is a table: a binary search finds the element with a key, and deleting,
replacing and inserting at the position of the search keep the order.
-/

namespace AdGuardHome.Lib

variable {α : Type} {f : α → ℕ} {l : List α} {k : ℕ} {a : α}

/-- The keys get larger. -/
def SortedBy (f : α → ℕ) (l : List α) : Prop := l.Pairwise fun a b => f a < f b

/-- `slices.BinarySearchFunc` with a comparison of keys: the position and whether the element there has the key. -/
def searchBy (f : α → ℕ) (l : List α) (k : ℕ) : ℕ × Bool :=
  let i := search l fun a => f a < k
  (i, (l[i]?).any fun a => f a = k)

/-- The element with the key. -/
def lookupBy (f : α → ℕ) (l : List α) (k : ℕ) : Option α := l.find? fun a => f a = k

theorem searchBy_split (h : SortedBy f l) (k : ℕ) :
    ∃ lo hi, l = lo ++ hi ∧ searchBy f l k = (lo.length, hi.head?.any fun a => f a = k) ∧ (∀ a ∈ lo, f a < k) ∧
      ∀ a ∈ hi, k ≤ f a := by
  have hmono : l.Pairwise fun a b => decide (f b < k) = true → decide (f a < k) = true := h.imp fun hab hb => by
    simp only [decide_eq_true_eq] at hb ⊢
    omega
  obtain ⟨lo, hi, rfl, hsearch, hlo, hhi⟩ := search_split hmono
  refine ⟨lo, hi, rfl, ?_, fun a ha => by simpa using hlo a ha, fun a ha => by simpa using hhi a ha⟩
  simp only [searchBy]
  rw [hsearch, List.head?_eq_getElem?, List.getElem?_append_right (Nat.le_refl _), Nat.sub_self]

theorem lookupBy_eq_none (h : ∀ a ∈ l, f a ≠ k) : lookupBy f l k = none :=
  List.find?_eq_none.2 fun a ha => by simpa using h a ha

theorem lookupBy_append (lo hi : List α) : lookupBy f (lo ++ hi) k = (lookupBy f lo k).or (lookupBy f hi k) :=
  List.find?_append

theorem lookupBy_cons : lookupBy f (a :: l) k = if f a = k then some a else lookupBy f l k := by
  unfold lookupBy
  rw [List.find?_cons]
  by_cases h : f a = k <;> simp [h]

theorem lookupBy_eq_some (h : SortedBy f l) : lookupBy f l k = some a ↔ a ∈ l ∧ f a = k := by
  constructor
  · intro hfind
    exact ⟨List.mem_of_find?_eq_some hfind, by simpa using List.find?_some hfind⟩
  · rintro ⟨hmem, rfl⟩
    induction l with
    | nil => cases hmem
    | cons b l ih =>
      obtain ⟨hb, hl⟩ := List.pairwise_cons.1 h
      rw [lookupBy_cons]
      rcases List.mem_cons.1 hmem with rfl | hmem
      · rw [if_pos rfl]
      · have := hb a hmem
        rw [if_neg (by omega), ih hl hmem]

/-! ## Changes at the position of a search -/

/-- What a search finds is what the table has. -/
theorem searchBy_found (h : SortedBy f l) (k : ℕ) :
    if (searchBy f l k).2 then l[(searchBy f l k).1]? = lookupBy f l k ∧ (lookupBy f l k).isSome = true
    else lookupBy f l k = none := by
  obtain ⟨lo, hi, rfl, hsearch, hlo, hhi⟩ := searchBy_split h k
  have hnone : lookupBy f lo k = none := lookupBy_eq_none fun a ha => (hlo a ha).ne
  rw [hsearch]
  simp only [lookupBy_append, hnone, Option.none_or]
  cases hi with
  | nil => rfl
  | cons b hi =>
    simp only [List.head?_cons, Option.any_some, decide_eq_true_eq]
    by_cases hb : f b = k
    · simp [hb, lookupBy_cons]
    · rw [if_neg hb, lookupBy_cons, if_neg hb]
      have hsorted := (List.pairwise_append.1 h).2.1
      refine lookupBy_eq_none fun a ha => ?_
      have hba := (List.pairwise_cons.1 hsorted).1 a ha
      have hkb := hhi b List.mem_cons_self
      omega

/-- Deletes the element with the key. -/
def deleteBy (f : α → ℕ) (l : List α) (k : ℕ) : List α :=
  if (searchBy f l k).2 then l.eraseIdx (searchBy f l k).1 else l

theorem deleteBy_eq (h : SortedBy f l) (k : ℕ) : deleteBy f l k = l.filter fun a => f a ≠ k := by
  obtain ⟨lo, hi, rfl, hsearch, hlo, hhi⟩ := searchBy_split h k
  have hsorted := (List.pairwise_append.1 h).2.1
  have hkeep : lo.filter (fun a => f a ≠ k) = lo :=
    List.filter_eq_self.2 fun a ha => by simpa using (hlo a ha).ne
  unfold deleteBy
  rw [hsearch, List.filter_append, hkeep]
  cases hi with
  | nil => simp
  | cons b hi =>
    have hgt : hi.filter (fun a => f a ≠ k) = hi := List.filter_eq_self.2 fun a ha => by
      have hba := (List.pairwise_cons.1 hsorted).1 a ha
      have hkb := hhi b List.mem_cons_self
      simp
      omega
    by_cases hb : f b = k
    · rw [List.filter_cons_of_neg (by simpa using hb), hgt]
      simp [hb, List.eraseIdx_append_of_length_le]
    · rw [List.filter_cons_of_pos (by simpa using hb), hgt]
      simp [hb]

theorem insertIdx_between (lo hi : List α) (a : α) : (lo ++ hi).insertIdx lo.length a = lo ++ a :: hi := by
  induction lo with
  | nil => rfl
  | cons b lo ih => simpa using ih

/-- Replaces the element with the key of the given one, or inserts that. -/
def upsertBy (f : α → ℕ) (l : List α) (a : α) : List α :=
  if (searchBy f l (f a)).2 then l.set (searchBy f l (f a)).1 a else l.insertIdx (searchBy f l (f a)).1 a

/-- The list after the element is put into it. -/
theorem upsertBy_split (h : SortedBy f l) (a : α) :
    ∃ lo hi, upsertBy f l a = lo ++ a :: hi ∧ (∀ b ∈ lo, f b < f a) ∧ (∀ b ∈ hi, f a < f b) ∧
      SortedBy f lo ∧ SortedBy f hi ∧ l.filter (fun b => f b ≠ f a) = lo ++ hi := by
  obtain ⟨lo, hi, rfl, hsearch, hlo, hhi⟩ := searchBy_split h (f a)
  obtain ⟨hsortedlo, hsortedhi, -⟩ := List.pairwise_append.1 h
  have hkeep : lo.filter (fun b => f b ≠ f a) = lo := List.filter_eq_self.2 fun b hb => by simpa using (hlo b hb).ne
  unfold upsertBy
  rw [hsearch, List.filter_append, hkeep]
  cases hi with
  | nil => exact ⟨lo, [], by simp [List.insertIdx_length_self], hlo, by simp, hsortedlo, hsortedhi, by simp⟩
  | cons b hi =>
    have hle := hhi b List.mem_cons_self
    obtain ⟨hb, hsortedrest⟩ := List.pairwise_cons.1 hsortedhi
    by_cases heq : f b = f a
    · refine ⟨lo, hi, by simp [heq], hlo, fun c hc => heq ▸ hb c hc, hsortedlo, hsortedrest, ?_⟩
      rw [List.filter_cons_of_neg (by simpa using heq), List.filter_eq_self.2]
      intro c hc
      have := hb c hc
      simp
      omega
    · refine ⟨lo, b :: hi, ?_, hlo, fun c hc => ?_, hsortedlo, hsortedhi, ?_⟩
      · have hins : (lo ++ b :: hi).insertIdx lo.length a = lo ++ a :: b :: hi := by
          exact insertIdx_between lo (b :: hi) a
        simp [heq, insertIdx_between]
      · have := hhi c hc
        rcases List.mem_cons.1 hc with rfl | hc
        · omega
        · have := hb c hc
          omega
      · rw [List.filter_eq_self.2]
        intro c hc
        rcases List.mem_cons.1 hc with rfl | hc
        · simpa using heq
        · have := hb c hc
          simp
          omega

theorem SortedBy.upsertBy (h : SortedBy f l) (a : α) : SortedBy f (upsertBy f l a) := by
  obtain ⟨lo, hi, hnew, hlo, hhi, hsortedlo, hsortedhi, -⟩ := upsertBy_split h a
  rw [hnew]
  refine List.pairwise_append.2 ⟨hsortedlo, List.pairwise_cons.2 ⟨hhi, hsortedhi⟩, fun b hb c hc => ?_⟩
  rcases List.mem_cons.1 hc with rfl | hc
  · exact hlo b hb
  · exact (hlo b hb).trans (hhi c hc)

theorem lookupBy_upsertBy (h : SortedBy f l) (a : α) (k : ℕ) :
    lookupBy f (upsertBy f l a) k = if f a = k then some a else lookupBy f l k := by
  obtain ⟨lo, hi, hnew, hlo, hhi, -, -, hold⟩ := upsertBy_split h a
  rw [hnew, lookupBy_append, lookupBy_cons]
  by_cases hk : f a = k
  · rw [if_pos hk, if_pos hk, lookupBy_eq_none fun b hb => by have := hlo b hb; omega]
    rfl
  · rw [if_neg hk, if_neg hk, ← lookupBy_append, ← hold]
    unfold lookupBy
    rw [List.find?_filter]
    congr 1
    funext b
    by_cases hb : f b = k
    · simp [hb, Ne.symm hk]
    · simp [hb]

end AdGuardHome.Lib
