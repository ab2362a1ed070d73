import Mathlib.Data.List.Basic
import Mathlib.Tactic.Cases

/-!
# Cursors

A client that asks for one page after the other, each time from the cursor that came with the page before, until a page
comes without one.  If each page is what is between its cursor and the next one, the pages together are what remained
at the first cursor.
-/

namespace AdGuardHome.Lib

variable {κ β : Type}

/-- The results of at most `n` pages from the cursor on; `none` if a page fails or there are more. -/
def pages (page : κ → Option (List β × Option κ)) : ℕ → κ → Option (List β)
  | 0, _ => none
  | n + 1, t =>
    match page t with
    | none => none
    | some (es, none) => some es
    | some (es, some u) => (pages page n u).map (es ++ ·)

/-- The cursors of the first `n` pages. -/
def cursors (page : κ → Option (List β × Option κ)) : ℕ → κ → List κ
  | 0, _ => []
  | n + 1, t =>
    t :: match page t with
      | some (_, some u) => cursors page n u
      | _ => []

/-- The page has all that remains at its cursor and not at the next one, of which there is less. -/
def Accounts (page : κ → Option (List β × Option κ)) (remaining : κ → List β) (size : κ → ℕ) (inv : κ → Prop) (t : κ) :
    Prop :=
  ∃ es next, page t = some (es, next) ∧
    match next with
    | none => remaining t = es
    | some u => remaining t = es ++ remaining u ∧ size u < size t ∧ inv u

variable {page : κ → Option (List β × Option κ)} {remaining : κ → List β} {size : κ → ℕ} {inv : κ → Prop}

/-- The pages together are what remains at the first cursor. -/
theorem pages_eq {n : ℕ} {t : κ} (hn : size t < n) (ht : inv t)
    (h : ∀ u ∈ cursors page n t, inv u → Accounts page remaining size inv u) :
    pages page n t = some (remaining t) := by
  induction n generalizing t with
  | zero => exact absurd hn (Nat.not_lt_zero _)
  | succ n ih =>
    obtain ⟨es, next, hpage, hnext⟩ := h t (by simp [cursors]) ht
    cases next with
    | none =>
      rw [pages, hpage]
      exact congrArg some hnext.symm
    | some u =>
      obtain ⟨hremaining, hsize, hu⟩ := hnext
      have hrest := ih (t := u) (by omega) hu fun v hv => h v (by simp [cursors, hpage, hv])
      rw [pages, hpage]
      simp only [hrest, Option.map_some, hremaining]

end AdGuardHome.Lib
