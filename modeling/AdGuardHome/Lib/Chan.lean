import Mathlib.Data.List.Basic

/-!
# Buffered channels

First in, first out, with at most `cap` values inside.  An operation that cannot proceed gives `none`.
-/

namespace AdGuardHome.Lib

/-- A channel with a buffer. -/
structure Chan (α : Type) (cap : ℕ) where
  buf : List α
  closed : Bool
  length_le : buf.length ≤ cap

namespace Chan

variable {α : Type} {cap : ℕ}

/-- A new channel. -/
def make (α : Type) (cap : ℕ) : Chan α cap := ⟨[], false, Nat.zero_le cap⟩

/-- A value is put into the buffer; `none` if that is full, or if the channel is closed, which is a panic. -/
def send (c : Chan α cap) (a : α) : Option (Chan α cap) :=
  if h : c.closed = false ∧ c.buf.length < cap then
    some { c with buf := c.buf ++ [a], length_le := by rw [List.length_append]; exact h.2 }
  else none

/-- The first value in the buffer, and no value if the channel is closed and empty. -/
def recv (c : Chan α cap) : Option (Option α × Chan α cap) :=
  match h : c.buf with
  | a :: buf => some (some a, { c with buf := buf, length_le := Nat.le_of_succ_le (by simpa [h] using c.length_le) })
  | [] => if c.closed then some (none, c) else none

def close (c : Chan α cap) : Chan α cap := { c with closed := true }

variable {c c' : Chan α cap} {a : α}

theorem send_eq_some (h : c.send a = some c') :
    c'.buf = c.buf ++ [a] ∧ c'.closed = false ∧ c.buf.length < cap := by
  unfold send at h
  split at h
  · rename_i hready
    cases h
    exact ⟨rfl, hready.1, hready.2⟩
  · cases h

/-- A send to an open channel proceeds just if the buffer is not full. -/
theorem send_isSome (hopen : c.closed = false) : (c.send a).isSome = true ↔ c.buf.length < cap := by
  unfold send
  by_cases h : c.buf.length < cap <;> simp [hopen, h]

theorem recv_eq_some_some (h : c.recv = some (some a, c')) : c.buf = a :: c'.buf ∧ c'.closed = c.closed := by
  unfold recv at h
  split at h
  · rename_i hbuf
    cases h
    exact ⟨hbuf, rfl⟩
  · split at h <;> cases h

theorem recv_eq_some_none (h : c.recv = some (none, c')) : c.buf = [] ∧ c.closed = true ∧ c' = c := by
  unfold recv at h
  split at h
  · cases h
  · rename_i hbuf
    split at h
    · rename_i hclosed
      cases h
      exact ⟨hbuf, hclosed, rfl⟩
    · cases h

theorem buf_of_recv_none (h : c.recv = none) : c.buf = [] := by
  unfold recv at h
  split at h
  · cases h
  · assumption

/-- A receive from an open channel proceeds just if the buffer is not empty. -/
theorem recv_isSome (hopen : c.closed = false) : c.recv.isSome = true ↔ c.buf ≠ [] := by
  unfold recv
  split
  · rename_i hbuf
    simp [hbuf]
  · rename_i hbuf
    simp [hbuf, hopen]

/-- A buffer is never both empty and full, so that one of the operations proceeds. -/
theorem send_or_recv (hcap : 0 < cap) (hopen : c.closed = false) (a : α) :
    (c.send a).isSome = true ∨ c.recv.isSome = true := by
  rw [send_isSome hopen, recv_isSome hopen]
  cases hbuf : c.buf with
  | nil => exact .inl hcap
  | cons b bs => exact .inr (List.cons_ne_nil b bs)

end Chan

end AdGuardHome.Lib
