import Mathlib.Data.List.Infix
import Mathlib.Data.Nat.Notation

/-!
# Trimming words off a text

`trim words xs` is the text without the words at its beginning and its end, as many of them as there are.  Trimming
again changes nothing (`trim_trim`), no word is left at either end, and a word of one element that ends no other word
makes no difference at the end of the text (`trim_concat`).
-/

namespace AdGuardHome.Lib

variable {α : Type} [DecidableEq α] (words : List (List α))

/-- The text after at most so many words. -/
def trimLeftLoop : ℕ → List α → List α
  | 0, xs => xs
  | n + 1, xs =>
    match words.find? (·.isPrefixOf xs) with
    | some w => trimLeftLoop n (xs.drop w.length)
    | none => xs

def trimLeft (xs : List α) : List α := trimLeftLoop words xs.length xs

def trimRight (xs : List α) : List α := (trimLeft (words.map List.reverse) xs.reverse).reverse

def trim (xs : List α) : List α := trimRight words (trimLeft words xs)

variable {words} {xs ys : List α}

/-! ## The beginning -/

theorem trimLeftLoop_suffix (n : ℕ) (xs : List α) : trimLeftLoop words n xs <:+ xs := by
  induction n generalizing xs with
  | zero => exact List.suffix_rfl
  | succ n ih =>
    unfold trimLeftLoop
    split
    · exact (ih _).trans (List.drop_suffix _ _)
    · exact List.suffix_rfl

theorem trimLeft_suffix (xs : List α) : trimLeft words xs <:+ xs := trimLeftLoop_suffix _ xs

theorem trimLeft_of_not_prefix (h : ∀ w ∈ words, ¬ w <+: xs) : trimLeft words xs = xs := by
  unfold trimLeft
  cases hn : xs.length with
  | zero => rfl
  | succ n =>
    have hnone : words.find? (·.isPrefixOf xs) = none := by
      rw [List.find?_eq_none]
      intro w hw
      simpa using h w hw
    rw [trimLeftLoop, hnone]

/-- Every word that is dropped makes the text shorter, so the loop goes on as long as it has to. -/
theorem not_prefix_trimLeftLoop (hwords : [] ∉ words) {n : ℕ} (hn : xs.length ≤ n) :
    ∀ w ∈ words, ¬ w <+: trimLeftLoop words n xs := by
  induction n generalizing xs with
  | zero =>
    intro w hw hpre
    rw [trimLeftLoop, List.eq_nil_of_length_eq_zero (Nat.le_zero.1 hn), List.prefix_nil] at hpre
    exact hwords (hpre ▸ hw)
  | succ n ih =>
    unfold trimLeftLoop
    split
    · rename_i w hw
      have hpos : 0 < w.length := List.length_pos_of_ne_nil fun h => hwords (h ▸ List.mem_of_find?_eq_some hw)
      refine ih ?_
      rw [List.length_drop]
      omega
    · rename_i hnone
      intro w hw
      simpa using List.find?_eq_none.1 hnone w hw

theorem not_prefix_trimLeft (hwords : [] ∉ words) (xs : List α) : ∀ w ∈ words, ¬ w <+: trimLeft words xs :=
  not_prefix_trimLeftLoop hwords le_rfl

/-! ## The end -/

omit [DecidableEq α] in
theorem nil_not_mem_reverse (hwords : [] ∉ words) : [] ∉ words.map List.reverse := by
  simpa using hwords

theorem prefix_trimRight (xs : List α) : trimRight words xs <+: xs := by
  rw [trimRight, ← List.reverse_suffix, List.reverse_reverse]
  exact trimLeft_suffix _

theorem trimRight_of_not_suffix (h : ∀ w ∈ words, ¬ w <:+ xs) : trimRight words xs = xs := by
  rw [trimRight, trimLeft_of_not_prefix, List.reverse_reverse]
  intro w hw hpre
  obtain ⟨v, hv, rfl⟩ := List.mem_map.1 hw
  exact h v hv (List.reverse_prefix.1 hpre)

theorem not_suffix_trimRight (hwords : [] ∉ words) (xs : List α) : ∀ w ∈ words, ¬ w <:+ trimRight words xs := by
  intro w hw hsuf
  rw [trimRight, ← List.reverse_prefix, List.reverse_reverse] at hsuf
  exact not_prefix_trimLeft (nil_not_mem_reverse hwords) _ _ (List.mem_map_of_mem hw) hsuf

/-! ## Both ends -/

theorem infix_trim (xs : List α) : trim words xs <:+: xs :=
  (prefix_trimRight _).isInfix.trans (trimLeft_suffix xs).isInfix

theorem not_prefix_trim (hwords : [] ∉ words) (xs : List α) : ∀ w ∈ words, ¬ w <+: trim words xs :=
  fun w hw hpre => not_prefix_trimLeft hwords xs w hw (hpre.trans (prefix_trimRight _))

theorem not_suffix_trim (hwords : [] ∉ words) (xs : List α) : ∀ w ∈ words, ¬ w <:+ trim words xs :=
  not_suffix_trimRight hwords _

theorem trim_of_not_prefix_suffix (hpre : ∀ w ∈ words, ¬ w <+: xs) (hsuf : ∀ w ∈ words, ¬ w <:+ xs) :
    trim words xs = xs := by
  rw [trim, trimLeft_of_not_prefix hpre, trimRight_of_not_suffix hsuf]

theorem trim_trim (hwords : [] ∉ words) (xs : List α) : trim words (trim words xs) = trim words xs :=
  trim_of_not_prefix_suffix (not_prefix_trim hwords xs) (not_suffix_trim hwords xs)

/-! ## A word of one element -/

section Concat

variable {c : α}

theorem trimLeftLoop_nil (hwords : [] ∉ words) (n : ℕ) : trimLeftLoop words n [] = [] := by
  cases n with
  | zero => rfl
  | succ n =>
    have hnone : words.find? (·.isPrefixOf []) = none := by
      rw [List.find?_eq_none]
      intro w hw hpre
      rw [List.isPrefixOf_iff_prefix, List.prefix_nil] at hpre
      exact hwords (hpre ▸ hw)
    rw [trimLeftLoop, hnone]

/-- The word at which a text begins, if no other word can be there. -/
theorem find?_prefix_of_forall {w : List α} (hw : w ∈ words) (hpre : w <+: xs) (h : ∀ v ∈ words, v <+: xs → v = w) :
    words.find? (·.isPrefixOf xs) = some w := by
  cases hfind : words.find? (·.isPrefixOf xs) with
  | none => exact absurd (List.isPrefixOf_iff_prefix.2 hpre) (List.find?_eq_none.1 hfind w hw)
  | some v => rw [h v (List.mem_of_find?_eq_some hfind) (by simpa using List.find?_some hfind)]

/-- No longer word reaches the last element. -/
theorem find?_prefix_concat (hlast : ∀ w ∈ words, w.getLast? = some c → w = [c]) (hxs : xs ≠ []) :
    words.find? (·.isPrefixOf (xs ++ [c])) = words.find? (·.isPrefixOf xs) := by
  rw [← List.head?_filter, ← List.head?_filter]
  congr 1
  refine List.filter_congr fun w hw => ?_
  rw [Bool.eq_iff_iff, List.isPrefixOf_iff_prefix, List.isPrefixOf_iff_prefix, List.prefix_concat_iff]
  refine or_iff_right fun hall => hxs ?_
  have hsingle : w = [c] := hlast w hw (by rw [hall, List.getLast?_concat])
  rw [hsingle] at hall
  simpa using hall.symm

theorem trimLeftLoop_concat (hwords : [] ∉ words) (hc : [c] ∈ words)
    (hlast : ∀ w ∈ words, w.getLast? = some c → w = [c]) {n : ℕ} (hn : xs.length ≤ n) :
    trimLeftLoop words (n + 1) (xs ++ [c]) =
      if trimLeftLoop words n xs = [] then [] else trimLeftLoop words n xs ++ [c] := by
  have hsingle : words.find? (·.isPrefixOf [c]) = some [c] := by
    refine find?_prefix_of_forall hc List.prefix_rfl fun v hv hpre => ?_
    rcases List.prefix_cons_iff.1 hpre with rfl | ⟨t, rfl, ht⟩
    · exact absurd hv hwords
    · rw [List.prefix_nil.1 ht]
  induction n generalizing xs with
  | zero =>
    obtain rfl : xs = [] := List.eq_nil_of_length_eq_zero (Nat.le_zero.1 hn)
    rw [List.nil_append, if_pos (trimLeftLoop_nil hwords 0), trimLeftLoop, hsingle]
    rfl
  | succ n ih =>
    by_cases hxs : xs = []
    · rw [hxs, List.nil_append, trimLeftLoop, hsingle, if_pos (trimLeftLoop_nil hwords _)]
      exact trimLeftLoop_nil hwords _
    · rw [trimLeftLoop, find?_prefix_concat hlast hxs]
      conv_rhs => rw [trimLeftLoop]
      cases hfind : words.find? (·.isPrefixOf xs) with
      | none => exact (if_neg hxs).symm
      | some w =>
        have hpre : w <+: xs := by simpa using List.find?_some hfind
        have hpos : 0 < w.length := List.length_pos_of_ne_nil fun h => hwords (h ▸ List.mem_of_find?_eq_some hfind)
        dsimp only
        rw [List.drop_append_of_le_length hpre.length_le]
        refine ih ?_
        rw [List.length_drop]
        omega

theorem trimRight_concat (hc : [c] ∈ words) (hwords : [] ∉ words) (hlast : ∀ w ∈ words, w.getLast? = some c → w = [c])
    (xs : List α) : trimRight words (xs ++ [c]) = trimRight words xs := by
  have hfirst : (words.map List.reverse).find? (·.isPrefixOf (c :: xs.reverse)) = some [c] := by
    refine find?_prefix_of_forall (List.mem_map.2 ⟨[c], hc, rfl⟩) (List.prefix_append [c] _) fun v hv hpre => ?_
    obtain ⟨w, hw, rfl⟩ := List.mem_map.1 hv
    rcases List.prefix_cons_iff.1 hpre with hnil | ⟨t, ht, -⟩
    · exact absurd (hnil ▸ hv) (nil_not_mem_reverse hwords)
    · rw [hlast w hw (by rw [← List.head?_reverse, ht, List.head?_cons])]
      rfl
  rw [trimRight, List.reverse_concat, trimLeft, List.length_cons, trimLeftLoop, hfirst]
  rfl

/-- An element that is a word, and ends no other word, is trimmed off alone. -/
theorem trim_concat (hc : [c] ∈ words) (hwords : [] ∉ words) (hlast : ∀ w ∈ words, w.getLast? = some c → w = [c])
    (xs : List α) : trim words (xs ++ [c]) = trim words xs := by
  unfold trim trimLeft
  rw [List.length_append, List.length_singleton, trimLeftLoop_concat hwords hc hlast le_rfl]
  split
  · rename_i hall
    rw [hall]
  · exact trimRight_concat hc hwords hlast _

end Concat

end AdGuardHome.Lib
