import Mathlib.Data.List.Basic
import Mathlib.Algebra.Order.Group.Nat

/-!
# Lines of a text and the scans for their bounds

`unlines sep ls` is the text of the lines `ls`, each ended by the separator.  `scanBack` and `scanFwd` are the
two loops that look for a separator around an offset.  Both may run over a window of the text, that is, over a
buffer that agrees with the text from some offset on; as long as the window reaches far enough they find the
bounds of the line around the offset (`scanBack_window`, `scanFwd_window`).  `lines sep xs` are the lines of a text
whose last line need not be ended, so that those of `unlines sep ls` are `ls` again (`lines_unlines`).
-/

namespace AdGuardHome.Lib

variable {α : Type} (sep : α)

/-- The text of the lines, each followed by the separator. -/
def unlines (ls : List (List α)) : List α := ls.flatMap (· ++ [sep])

/-- The offset after the last separator before `n`, zero if there is none. -/
def scanBack [DecidableEq α] (xs : List α) : ℕ → ℕ
  | 0 => 0
  | i + 1 => if xs[i]? = some sep then i + 1 else scanBack xs i

/-- The offset of the first separator among the `fuel` elements from `i` on. -/
def scanFwd [DecidableEq α] (xs : List α) : ℕ → ℕ → Option ℕ
  | 0, _ => none
  | fuel + 1, i => if xs[i]? = some sep then some i else scanFwd xs fuel (i + 1)

/-- The text has a line from `s` to the separator at `e`. -/
structure LineAt (xs : List α) (s e : ℕ) : Prop where
  le : s ≤ e
  /-- The line begins the text or follows a separator. -/
  start : s = 0 ∨ xs[s - 1]? = some sep
  /-- The line has no separator inside. -/
  inner : ∀ j, s ≤ j → j < e → xs[j]? ≠ some sep
  stop : xs[e]? = some sep

/-- The first `n` elements of the buffer are those of the text from `off` on. -/
def Window (xs b : List α) (off n : ℕ) : Prop := ∀ j, j < n → b[j]? = xs[off + j]?

variable {sep} {xs b : List α} {s e off n : ℕ}

theorem LineAt.lt_length (h : LineAt sep xs s e) : e < xs.length := (List.getElem?_eq_some_iff.1 h.stop).1

/-! ## Windows -/

theorem Window.mono {m : ℕ} (h : Window xs b off n) (hm : m ≤ n) : Window xs b off m :=
  fun j hj => h j (hj.trans_le hm)

theorem window_take_drop (xs : List α) (off n : ℕ) (rest : List α) :
    Window xs ((xs.drop off).take n ++ rest) off (min n (xs.length - off)) := by
  intro j hj
  have hlen : j < ((xs.drop off).take n).length := by simpa using hj
  rw [List.getElem?_append_left hlen, List.getElem?_take_of_lt (by omega), List.getElem?_drop]

/-- A slice of the buffer inside the window is the same slice of the text. -/
theorem Window.slice {i j : ℕ} (h : Window xs b off n) (hj : j ≤ n) :
    (b.take j).drop i = (xs.take (off + j)).drop (off + i) := by
  refine List.ext_getElem? fun k => ?_
  rw [List.getElem?_drop, List.getElem?_drop]
  by_cases hk : i + k < j
  · rw [List.getElem?_take_of_lt hk, List.getElem?_take_of_lt (by omega), h _ (by omega)]
    congr 1
    omega
  · rw [List.getElem?_take_eq_none (by omega), List.getElem?_take_eq_none (by omega)]

/-! ## Scans -/

section scans

variable [DecidableEq α]

theorem scanBack_eq {m : ℕ} (hm : m ≤ n) (hstart : m = 0 ∨ b[m - 1]? = some sep)
    (hinner : ∀ j, m ≤ j → j < n → b[j]? ≠ some sep) : scanBack sep b n = m := by
  induction n with
  | zero =>
    have : m = 0 := by omega
    rw [this, scanBack]
  | succ n ih =>
    rw [scanBack]
    by_cases hmn : m = n + 1
    · subst hmn
      obtain h | h := hstart
      · omega
      · rw [if_pos (by simpa using h)]
    · rw [if_neg (hinner n (by omega) (by omega))]
      exact ih (by omega) fun j hj hjn => hinner j hj (by omega)

/-- The scan to the left finds where the line around the offset begins, if the window begins with the text or
reaches the separator before the line. -/
theorem scanBack_window (h : LineAt sep xs s e) (hw : Window xs b off n) (hoff : off = 0 ∨ off < s)
    (hs : s ≤ off + n) (he : off + n ≤ e) : off + scanBack sep b n = s := by
  have hm : scanBack sep b n = s - off := by
    apply scanBack_eq (by omega)
    · obtain h0 | h0 := h.start
      · left
        omega
      · by_cases hz : s = 0
        · left
          omega
        · right
          rw [hw _ (by omega)]
          have : off + (s - off - 1) = s - 1 := by omega
          rw [this, h0]
    · intro j hj hjn
      rw [hw j hjn]
      exact h.inner _ (by omega) (by omega)
  omega

theorem scanFwd_eq {fuel i m : ℕ} (him : i ≤ m) (hf : m < i + fuel) (hstop : b[m]? = some sep)
    (hinner : ∀ j, i ≤ j → j < m → b[j]? ≠ some sep) : scanFwd sep b fuel i = some m := by
  induction fuel generalizing i with
  | zero => omega
  | succ fuel ih =>
    rw [scanFwd]
    by_cases hi : i = m
    · subst hi
      rw [if_pos hstop]
    · rw [if_neg (hinner i le_rfl (by omega))]
      exact ih (by omega) (by omega) fun j hj hjm => hinner j (by omega) hjm

/-- The scan to the right finds where the line around the offset ends, if the window has its separator. -/
theorem scanFwd_window {i fuel : ℕ} (h : LineAt sep xs s e) (hw : Window xs b off n) (hs : s ≤ off + i)
    (he : off + i ≤ e) (hn : e < off + n) (hf : e < off + i + fuel) : scanFwd sep b fuel i = some (e - off) := by
  apply scanFwd_eq (by omega) (by omega)
  · rw [hw _ (by omega)]
    have : off + (e - off) = e := by omega
    rw [this, h.stop]
  · intro j hj hje
    rw [hw j (by omega)]
    exact h.inner _ (by omega) (by omega)

end scans

/-! ## Texts -/

@[simp] theorem unlines_nil : unlines sep [] = [] := rfl

@[simp] theorem unlines_cons (l : List α) (ls : List (List α)) :
    unlines sep (l :: ls) = l ++ sep :: unlines sep ls := by
  simp [unlines]

@[simp] theorem unlines_append (ls ms : List (List α)) :
    unlines sep (ls ++ ms) = unlines sep ls ++ unlines sep ms := by
  simp [unlines]

theorem getElem?_unlines_last {ls : List (List α)} (h : ls ≠ []) :
    (unlines sep ls)[(unlines sep ls).length - 1]? = some sep := by
  obtain ⟨ms, l, rfl⟩ := List.eq_nil_or_concat ls |>.resolve_left h
  have : unlines sep (ms ++ [l]) = unlines sep ms ++ l ++ [sep] := by simp
  rw [List.concat_eq_append, this]
  simp

theorem lineAt_unlines (ls ms : List (List α)) {l : List α} (hl : sep ∉ l) :
    LineAt sep (unlines sep (ls ++ l :: ms)) (unlines sep ls).length ((unlines sep ls).length + l.length) where
  le := Nat.le_add_right ..
  start := by
    by_cases hls : ls = []
    · left
      simp [hls]
    · right
      have hlast : (unlines sep ls)[(unlines sep ls).length - 1]? = some sep := getElem?_unlines_last hls
      have hlt : (unlines sep ls).length - 1 < (unlines sep ls).length := by
        by_contra hc
        rw [List.getElem?_eq_none (by omega)] at hlast
        cases hlast
      rw [unlines_append, List.getElem?_append_left hlt, hlast]
  inner := by
    intro j hj hje hsep
    rw [unlines_append, List.getElem?_append_right hj, unlines_cons,
      List.getElem?_append_left (by omega)] at hsep
    exact hl (List.mem_of_getElem? hsep)
  stop := by
    rw [unlines_append, List.getElem?_append_right (by omega), unlines_cons,
      List.getElem?_append_right (by omega)]
    simp

/-- Every offset of the text is in a line or at its separator. -/
theorem exists_line {ls : List (List α)} {k : ℕ} (hk : k < (unlines sep ls).length) :
    ∃ as l bs, ls = as ++ l :: bs ∧ (unlines sep as).length ≤ k ∧ k ≤ (unlines sep as).length + l.length := by
  induction ls generalizing k with
  | nil => simp at hk
  | cons l ls ih =>
    by_cases hl : k ≤ l.length
    · exact ⟨[], l, ls, rfl, by simp, by simpa using hl⟩
    · rw [unlines_cons, List.length_append, List.length_cons] at hk
      obtain ⟨as, m, bs, rfl, hle, hge⟩ := ih (k := k - l.length - 1) (by omega)
      refine ⟨l :: as, m, bs, rfl, ?_, ?_⟩
      all_goals
        rw [unlines_cons, List.length_append, List.length_cons]
        omega

/-- The line between its bounds. -/
theorem slice_unlines (ls ms : List (List α)) (l : List α) :
    ((unlines sep (ls ++ l :: ms)).take ((unlines sep ls).length + l.length)).drop (unlines sep ls).length = l := by
  rw [unlines_append, unlines_cons, List.take_length_add_append, List.drop_left, List.take_left]

/-! ## The lines of a text -/

section lines

variable [DecidableEq α]

variable (sep) in
/-- The lines of the text without the separators. -/
def lines : List α → List (List α)
  | [] => []
  | x :: xs =>
    if x = sep then [] :: lines xs
    else
      match lines xs with
      | [] => [[x]]
      | l :: ls => (x :: l) :: ls

theorem lines_cons_sep (xs : List α) : lines sep (sep :: xs) = [] :: lines sep xs := by
  rw [lines, if_pos rfl]

theorem lines_append_sep {l : List α} (hl : sep ∉ l) (xs : List α) :
    lines sep (l ++ sep :: xs) = l :: lines sep xs := by
  induction l with
  | nil => exact lines_cons_sep xs
  | cons x l ih =>
    rw [List.mem_cons, not_or] at hl
    rw [List.cons_append, lines, if_neg (Ne.symm hl.1), ih hl.2]

theorem lines_unlines {ls : List (List α)} (h : ∀ l ∈ ls, sep ∉ l) : lines sep (unlines sep ls) = ls := by
  induction ls with
  | nil => rfl
  | cons l ls ih =>
    rw [unlines_cons, lines_append_sep (h l List.mem_cons_self), ih fun m hm => h m (List.mem_cons_of_mem _ hm)]

theorem not_mem_of_mem_lines {xs l : List α} (h : l ∈ lines sep xs) : sep ∉ l := by
  induction xs generalizing l with
  | nil => cases h
  | cons x xs ih =>
    rw [lines] at h
    split at h
    · rcases List.mem_cons.1 h with rfl | h
      · exact List.not_mem_nil
      · exact ih h
    · rename_i hx
      split at h
      · rw [List.mem_singleton] at h
        simp [h, Ne.symm hx]
      · rename_i m ms heq
        rcases List.mem_cons.1 h with rfl | h
        · have hm := ih (heq ▸ List.mem_cons_self)
          simp [Ne.symm hx, hm]
        · exact ih (heq ▸ List.mem_cons_of_mem _ h)

end lines

end AdGuardHome.Lib
