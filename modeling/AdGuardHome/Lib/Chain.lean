import Mathlib.Data.List.Basic
import Mathlib.Data.List.Perm.Subperm

/-!
# Following a partial function

From an element to the next one, and on: a chain of elements is determined by its first, so that a chain that comes to
an element for the first time has one length only.  A walk that never visits an element twice ends.
-/

namespace AdGuardHome.Lib

section Follows

variable {α : Type} {next : α → Option α} {a t : α} {as bs : List α}

/-- The elements are the next ones, one after the other. -/
def Follows (next : α → Option α) : α → List α → Prop
  | _, [] => True
  | a, b :: bs => next a = some b ∧ Follows next b bs

instance decidableFollows [DecidableEq α] : ∀ (a : α) (bs : List α), Decidable (Follows next a bs)
  | _, [] => .isTrue trivial
  | a, b :: bs =>
    have := decidableFollows b bs
    inferInstanceAs (Decidable (next a = some b ∧ Follows next b bs))

theorem Follows.append (h : Follows next a (as ++ bs)) : Follows next a as ∧ Follows next (as.getLastD a) bs := by
  induction as generalizing a with
  | nil => exact ⟨trivial, h⟩
  | cons b as ih =>
    obtain ⟨hnext, hrest⟩ := h
    obtain ⟨has, hbs⟩ := ih hrest
    exact ⟨⟨hnext, has⟩, by rwa [List.getLastD_cons]⟩

theorem Follows.exists_next (h : Follows next a bs) (ht : t ∈ bs) : ∃ c, next c = some t := by
  induction bs generalizing a with
  | nil => cases ht
  | cons b bs ih =>
    rcases List.mem_cons.1 ht with rfl | ht
    · exact ⟨a, h.1⟩
    · exact ih h.2 ht

/-- A chain that comes back to its first element is one that each of its elements starts, too. -/
theorem Follows.cycle (h : Follows next a bs) (ha : a ∈ bs) :
    ∃ c cs, next c = some a ∧ Follows next c (a :: cs) ∧ c ∈ a :: cs := by
  obtain ⟨as, cs, rfl⟩ := List.append_of_mem ha
  obtain ⟨has, hnext, -⟩ := h.append
  exact ⟨as.getLastD a, as, hnext, ⟨hnext, has⟩, List.getLastD_mem_cons⟩

/-- The elements after `a` up to the first time that `t` is reached. -/
inductive FirstReach (next : α → Option α) (t : α) : α → List α → Prop
  | last {a : α} : next a = some t → FirstReach next t a [t]
  | step {a b : α} {bs : List α} :
      next a = some b → b ≠ t → FirstReach next t b bs → FirstReach next t a (b :: bs)

theorem FirstReach.unique (h : FirstReach next t a as) (h' : FirstReach next t a bs) : as = bs := by
  induction h generalizing bs with
  | last hnext =>
    cases h' with
    | last => rfl
    | step hnext' hne => exact absurd (Option.some.inj (hnext'.symm.trans hnext)) hne
  | step hnext hne _ ih =>
    cases h' with
    | last hnext' => exact absurd (Option.some.inj (hnext.symm.trans hnext')) hne
    | step hnext' _ hrest =>
      cases Option.some.inj (hnext'.symm.trans hnext)
      rw [ih hrest]

theorem Follows.firstReach [DecidableEq α] (h : Follows next a bs) (ht : t ∈ bs) :
    ∃ cs, FirstReach next t a cs := by
  induction bs generalizing a with
  | nil => cases ht
  | cons b bs ih =>
    obtain ⟨hnext, hrest⟩ := h
    by_cases hbt : b = t
    · exact ⟨[t], .last (hbt ▸ hnext)⟩
    · obtain ⟨cs, hcs⟩ := ih hrest (List.mem_of_ne_of_mem (Ne.symm hbt) ht)
      exact ⟨b :: cs, .step hnext hbt hcs⟩

/-- There are chains of every length that visit no element twice. -/
def Endless (next : α → Option α) (a : α) : Prop :=
  ∀ n, ∃ bs : List α, bs.length = n ∧ Follows next a bs ∧ (a :: bs).Nodup

/-- A function with finitely many values has no endless chains. -/
theorem not_endless_of_values {values : List α} (hvalues : ∀ a b, next a = some b → b ∈ values) (a : α) :
    ¬ Endless next a := by
  intro hendless
  obtain ⟨bs, hlength, hfollows, hnodup⟩ := hendless (values.length + 1)
  have hsub : bs ⊆ values := by
    intro b hb
    obtain ⟨c, hc⟩ := hfollows.exists_next hb
    exact hvalues c b hc
  have hle := (List.subperm_of_subset (List.nodup_cons.1 hnodup).2 hsub).length_le
  omega

end Follows

/-- The elements that are not visited get fewer when one of them is. -/
theorem countP_unvisited_lt {α : Type} [DecidableEq α] {a : α} {l seen : List α} (ha : a ∈ l) (hseen : a ∉ seen) :
    (l.countP fun b => b ∉ a :: seen) < l.countP fun b => b ∉ seen := by
  have hfilter : (l.filter fun b => b ∉ a :: seen) = (l.filter fun b => b ∉ seen).filter fun b => b ≠ a := by
    rw [List.filter_filter]
    refine List.filter_congr fun b _ => ?_
    simp [not_or]
  rw [List.countP_eq_length_filter, List.countP_eq_length_filter, hfilter, List.length_filter_lt_length_iff_exists]
  exact ⟨a, List.mem_filter.2 ⟨ha, by simpa using hseen⟩, by simp⟩

end AdGuardHome.Lib
