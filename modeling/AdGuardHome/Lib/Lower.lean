import Mathlib.Data.List.Basic

/-!
# Lower case

`Char.toLower` changes the letters from `A` to `Z` only, and splitting a text at a separator commutes with every map
that keeps the separator apart.
-/

namespace AdGuardHome.Lib

/-- A character is its own lower case, or an upper case letter. -/
theorem toLower_spec (c : Char) :
    c.toLower = c ∨ 65 ≤ c.val.toNat ∧ c.val.toNat ≤ 90 ∧ c.toLower.val.toNat = c.val.toNat + 32 := by
  by_cases h : c.val ≥ 'A'.val ∧ c.val ≤ 'Z'.val
  · have hlow : 65 ≤ c.val.toNat := UInt32.le_iff_toNat_le.1 h.1
    have hhigh : c.val.toNat ≤ 90 := UInt32.le_iff_toNat_le.1 h.2
    refine .inr ⟨hlow, hhigh, ?_⟩
    have hval : c.toLower.val = c.val + 32 := congrArg Char.val (dif_pos h)
    rw [hval, UInt32.toNat_add, show (32 : UInt32).toNat = 32 from rfl]
    omega
  · exact .inl (dif_neg h)

theorem toLower_toLower_char (c : Char) : c.toLower.toLower = c.toLower := by
  rcases toLower_spec c.toLower with h | ⟨-, hhigh, -⟩
  · exact h
  · rcases toLower_spec c with h | ⟨hlow, -, hc⟩
    · rw [h, h]
    · omega

theorem toLower_eq_iff {s t : String} : s.toLower = t ↔ s.toList.map Char.toLower = t.toList := by
  rw [← String.toList_inj]
  show (s.map Char.toLower).toList = t.toList ↔ _
  rw [String.toList_map]

theorem toList_toLower (s : String) : s.toLower.toList = s.toList.map Char.toLower :=
  (toLower_eq_iff.1 rfl).symm

theorem toLower_toLower (s : String) : s.toLower.toLower = s.toLower := by
  rw [toLower_eq_iff, toList_toLower, List.map_map]
  exact List.map_congr_left fun c _ => toLower_toLower_char c

theorem toLower_eq_empty {s : String} : s.toLower = "" ↔ s = "" := by
  rw [toLower_eq_iff, ← String.toList_inj]
  simp

theorem isAlpha_iff {c : Char} :
    c.isAlpha = true ↔
      (65 ≤ c.val.toNat ∧ c.val.toNat ≤ 90) ∨ (97 ≤ c.val.toNat ∧ c.val.toNat ≤ 122) := by
  have hupper : c.isUpper = true ↔ c.val ≥ 'A'.val ∧ c.val ≤ 'Z'.val := decide_eq_true_iff
  have hlower : c.isLower = true ↔ c.val ≥ 'a'.val ∧ c.val ≤ 'z'.val :=
    (Bool.and_eq_true_iff).trans (and_congr decide_eq_true_iff decide_eq_true_iff)
  have halpha : c.isAlpha = true ↔ c.isUpper = true ∨ c.isLower = true := Bool.or_eq_true_iff
  rw [halpha, hupper, hlower]
  simp only [ge_iff_le, UInt32.le_iff_toNat_le]
  rfl

theorem isAlpha_of_toLower_ne {c : Char} (h : c.toLower ≠ c) : c.isAlpha = true ∧ c.toLower.isAlpha = true := by
  obtain ⟨hlow, hhigh, hc⟩ := (toLower_spec c).resolve_left h
  exact ⟨isAlpha_iff.2 (.inl ⟨hlow, hhigh⟩), isAlpha_iff.2 (.inr ⟨by omega, by omega⟩)⟩

/-- No letter is made of a character that is not one, and no such character of a letter. -/
theorem toLower_eq_of_not_isAlpha {c d : Char} (hd : d.isAlpha = false) : c.toLower = d ↔ c = d := by
  by_cases hc : c.toLower = c
  · rw [hc]
  · obtain ⟨halpha, hlower⟩ := isAlpha_of_toLower_ne hc
    constructor
    · rintro rfl
      rw [hlower] at hd
      cases hd
    · rintro rfl
      rw [halpha] at hd
      cases hd

section Split

variable {α : Type} [BEq α] [LawfulBEq α] {f : α → α} {sep : α}

/-- A map that keeps the separator apart maps the pieces. -/
theorem splitOn_map (hf : ∀ a, f a = sep ↔ a = sep) (as : List α) :
    (as.map f).splitOn sep = (as.splitOn sep).map (List.map f) := by
  induction as with
  | nil => simp
  | cons a as ih =>
    have hmodify : ∀ ls : List (List α), (ls.map (List.map f)).modifyHead (List.cons (f a)) =
        (ls.modifyHead (List.cons a)).map (List.map f) := by
      intro ls
      cases ls <;> rfl
    rw [List.map_cons, List.splitOn_cons_eq_if_modifyHead, List.splitOn_cons_eq_if_modifyHead, ih]
    by_cases ha : a = sep
    · have hfa : f sep = sep := (hf sep).2 rfl
      simp [ha, hfa]
    · have hfa : f a ≠ sep := fun h => ha ((hf a).1 h)
      simp [ha, hfa, hmodify]

end Split

end AdGuardHome.Lib
