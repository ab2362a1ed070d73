import AdGuardHome.Lib.Chain
import Mathlib.Data.List.Nodup

/-!
# Worklists

A list that is extended while it is gone through, and the set of all elements that were ever on it.  What an element
leads to is put at the end, if it has not been seen.  As the list never holds an element twice, it is at its end after
as many turns as there are elements, and then all that can be reached is done.
-/

namespace AdGuardHome.Lib

/-- What can be reached from a list of elements. -/
inductive Reach {α : Type} (start : List α) (next : α → List α) : α → Prop
  | start {a : α} : a ∈ start → Reach start next a
  | next {a b : α} : Reach start next a → b ∈ next a → Reach start next b

namespace Worklist

variable {α : Type}

/-- The elements that have not been seen are put into the set and to the end of the list. -/
def extend [DecidableEq α] (seen sub : List α) : List α → List α × List α
  | [] => (seen, sub)
  | a :: as => if a ∈ seen then extend seen sub as else extend (a :: seen) (sub ++ [a]) as

/-- The set `seen'` is `seen` with the new elements among `as`, each of them once. -/
structure Extended (seen as seen' new : List α) : Prop where
  mem : ∀ a, a ∈ seen' ↔ a ∈ seen ∨ a ∈ new
  nodup : new.Nodup
  fresh : ∀ a ∈ new, a ∉ seen
  subset : ∀ a ∈ new, a ∈ as
  all : ∀ a ∈ as, a ∈ seen'

variable {seen seen' seen'' sub as bs new new' done todo univ : List α} {a : α}

theorem Extended.nil : Extended seen [] seen [] := by
  constructor <;> simp

theorem Extended.append (h : Extended seen as seen' new) (h' : Extended seen' bs seen'' new') :
    Extended seen (as ++ bs) seen'' (new ++ new') where
  mem a := by rw [h'.mem, h.mem, List.mem_append, or_assoc]
  nodup := by
    refine List.Nodup.append h.nodup h'.nodup fun a ha ha' => ?_
    exact h'.fresh a ha' ((h.mem a).2 (.inr ha))
  fresh a ha hseen := by
    rcases List.mem_append.1 ha with ha | ha
    · exact h.fresh a ha hseen
    · exact h'.fresh a ha ((h.mem a).2 (.inl hseen))
  subset a ha := by
    rcases List.mem_append.1 ha with ha | ha
    · exact List.mem_append_left _ (h.subset a ha)
    · exact List.mem_append_right _ (h'.subset a ha)
  all a ha := by
    rcases List.mem_append.1 ha with ha | ha
    · exact (h'.mem a).2 (.inl (h.all a ha))
    · exact h'.all a ha

theorem Extended.of_mem (h : a ∈ seen) : Extended seen [a] seen [] := by
  constructor <;> simp [h]

theorem Extended.of_not_mem (h : a ∉ seen) : Extended seen [a] (a :: seen) [a] := by
  constructor <;> simp [h, or_comm]

theorem extend_extended [DecidableEq α] (seen sub as : List α) :
    ∃ new, (extend seen sub as).2 = sub ++ new ∧ Extended seen as (extend seen sub as).1 new := by
  induction as generalizing seen sub with
  | nil => exact ⟨[], by simp [extend], .nil⟩
  | cons a as ih =>
    unfold extend
    by_cases ha : a ∈ seen
    · obtain ⟨new, hsub, hext⟩ := ih seen sub
      rw [if_pos ha]
      exact ⟨new, hsub, (Extended.of_mem ha).append hext⟩
    · obtain ⟨new, hsub, hext⟩ := ih (a :: seen) (sub ++ [a])
      rw [if_neg ha]
      exact ⟨a :: new, by simp [hsub], (Extended.of_not_mem ha).append hext⟩

/-! ## The number of turns -/

/-- The elements of a list that have not been seen, counted. -/
def unseenCount [DecidableEq α] (univ seen : List α) : ℕ := univ.countP fun a => a ∉ seen

/-- What is new is no longer unseen. -/
theorem Extended.length_add_unseenCount [DecidableEq α] (h : Extended seen as seen' new) (huniv : ∀ a ∈ new, a ∈ univ) :
    new.length + unseenCount univ seen' ≤ unseenCount univ seen := by
  have hnew : ∀ new : List α, new.Nodup → (∀ a ∈ new, a ∉ seen) → (∀ a ∈ new, a ∈ univ) →
      new.length + unseenCount univ (new ++ seen) ≤ unseenCount univ seen := by
    intro new
    induction new with
    | nil => simp
    | cons b bs ih =>
      intro hnodup hfresh huniv
      obtain ⟨hb, hbs⟩ := List.nodup_cons.1 hnodup
      obtain ⟨hbseen, hfresh⟩ := List.forall_mem_cons.1 hfresh
      obtain ⟨hbuniv, huniv⟩ := List.forall_mem_cons.1 huniv
      have hrest := ih hbs hfresh huniv
      have hnew : b ∉ bs ++ seen := by simp [hb, hbseen]
      have hlt := countP_unvisited_lt hbuniv hnew
      unfold unseenCount at hrest ⊢
      rw [List.length_cons, List.cons_append]
      omega
  have hcount : unseenCount univ seen' = unseenCount univ (new ++ seen) := by
    unfold unseenCount
    refine List.countP_congr fun a _ => ?_
    simp [h.mem a, or_comm]
  rw [hcount]
  exact hnew new h.nodup h.fresh huniv

/-! ## The invariant -/

/-- Some elements are done, and the others that have been seen are on the list. -/
structure Walking (start : List α) (next : α → List α) (seen done todo : List α) : Prop where
  mem : ∀ a, a ∈ seen ↔ a ∈ done ++ todo
  nodup : (done ++ todo).Nodup
  reach : ∀ a ∈ seen, Reach start next a
  start : ∀ a ∈ start, a ∈ seen
  closed : ∀ a ∈ done, ∀ b ∈ next a, b ∈ seen

variable {start : List α} {next : α → List α}

theorem Walking.init (h : Extended [] start seen new) : Walking start next seen [] new where
  mem a := by simp [h.mem a]
  nodup := h.nodup
  reach a ha := by
    have hnew : a ∈ new := by simpa [h.mem a] using ha
    exact .start (h.subset a hnew)
  start := h.all
  closed a ha := by cases ha

theorem Walking.step (h : Walking start next seen done (a :: todo)) (hext : Extended seen (next a) seen' new) :
    Walking start next seen' (done ++ [a]) (todo ++ new) where
  mem b := by
    rw [hext.mem, h.mem]
    simp [or_assoc]
  nodup := by
    have heq : done ++ [a] ++ (todo ++ new) = done ++ a :: todo ++ new := by simp
    rw [heq]
    exact List.Nodup.append h.nodup hext.nodup fun b hb hb' => hext.fresh b hb' ((h.mem b).2 hb)
  reach b hb := by
    rcases (hext.mem b).1 hb with hb | hb
    · exact h.reach b hb
    · exact .next (h.reach a ((h.mem a).2 (by simp))) (hext.subset b hb)
  start b hb := (hext.mem b).2 (.inl (h.start b hb))
  closed b hb c hc := by
    rcases List.mem_append.1 hb with hb | hb
    · exact (hext.mem c).2 (.inl (h.closed b hb c hc))
    · rw [List.mem_singleton.1 hb] at hc
      exact hext.all c hc

/-- The part of the list up to its first element is without repetitions and can be reached. -/
theorem Walking.first (h : Walking start next seen done (a :: todo)) :
    (done ++ [a]).Nodup ∧ ∀ b ∈ done ++ [a], Reach start next b := by
  have heq : done ++ a :: todo = done ++ [a] ++ todo := by simp
  have hnodup := h.nodup
  rw [heq] at hnodup
  refine ⟨hnodup.of_append_left, fun b hb => h.reach b ((h.mem b).2 ?_)⟩
  rw [heq]
  exact List.mem_append_left _ hb

/-- At the end of the list, all is done that can be reached. -/
theorem Walking.finish (h : Walking start next seen done []) (hreach : Reach start next a) : a ∈ done := by
  have hseen : a ∈ seen := by
    induction hreach with
    | start ha => exact h.start _ ha
    | next _ hb ih => exact h.closed _ (by simpa [h.mem] using ih) _ hb
  simpa [h.mem] using hseen

end Worklist

end AdGuardHome.Lib
