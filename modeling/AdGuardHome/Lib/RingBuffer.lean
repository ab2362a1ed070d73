import Mathlib.Data.List.Basic

/-!
# Ring buffers

A buffer with room for a fixed number of elements.  An element that is pushed to a full buffer takes the place of the
oldest one; up to then the buffer has all elements that were pushed, in their order.
-/

namespace AdGuardHome.Lib

/-- The operations of ring buffers with so much room, and what is documented of them. -/
structure RingBuffers (α : Type) (cap : ℕ) where
  Buffer : Type
  new : Buffer
  /-- Adds an element, over the oldest one if there is no room. -/
  push : Buffer → α → Buffer
  clear : Buffer → Buffer
  /-- The number of the elements. -/
  len : Buffer → ℕ
  /-- The elements from the oldest to the newest. -/
  toList : Buffer → List α
  toList_new : toList new = []
  toList_push : ∀ b a, toList (push b a) = (toList b ++ [a]).drop ((toList b).length + 1 - cap)
  toList_clear : ∀ b, toList (clear b) = []
  len_eq : ∀ b, len b = (toList b).length
  length_le : ∀ b, (toList b).length ≤ cap

namespace RingBuffers

variable {α : Type} {cap : ℕ} (R : RingBuffers α cap)

attribute [simp] toList_new toList_clear

@[simp] theorem len_new : R.len R.new = 0 := by
  rw [R.len_eq, R.toList_new]
  rfl

@[simp] theorem len_clear (b : R.Buffer) : R.len (R.clear b) = 0 := by
  rw [R.len_eq, R.toList_clear]
  rfl

theorem len_push_eq (b : R.Buffer) (a : α) : R.len (R.push b a) = R.len b + 1 - (R.len b + 1 - cap) := by
  rw [R.len_eq, R.len_eq, R.toList_push, List.length_drop, List.length_append, List.length_singleton]

theorem len_le (b : R.Buffer) : R.len b ≤ cap := R.len_eq b ▸ R.length_le b

theorem toList_push_of_lt {b : R.Buffer} (h : R.len b < cap) (a : α) : R.toList (R.push b a) = R.toList b ++ [a] := by
  rw [R.len_eq] at h
  rw [R.toList_push, Nat.sub_eq_zero_of_le h, List.drop_zero]

/-- Nothing is gained by pushing to a full buffer. -/
theorem len_push_of_not_lt {b : R.Buffer} (h : ¬ R.len b < cap) (a : α) : R.len (R.push b a) = R.len b := by
  have hle := R.len_le b
  rw [len_push_eq]
  omega

theorem len_le_push (b : R.Buffer) (a : α) : R.len b ≤ R.len (R.push b a) := by
  have hle := R.len_le b
  rw [len_push_eq]
  omega

theorem len_push_pos (h : 0 < cap) (b : R.Buffer) (a : α) : 0 < R.len (R.push b a) := by
  have hle := R.len_le b
  rw [len_push_eq]
  omega

theorem mem_push {b : R.Buffer} {a c : α} (h : c ∈ R.toList (R.push b a)) : c ∈ R.toList b ∨ c = a := by
  rw [R.toList_push] at h
  have hc : c ∈ R.toList b ++ [a] := List.mem_of_mem_drop h
  rwa [List.mem_append, List.mem_singleton] at hc

/-- The ring buffers that are lists of their elements. -/
def list : RingBuffers α cap where
  Buffer := { l : List α // l.length ≤ cap }
  new := ⟨[], Nat.zero_le cap⟩
  push b a := ⟨(b.1 ++ [a]).drop (b.1.length + 1 - cap), by
    have hle := b.2
    rw [List.length_drop, List.length_append, List.length_singleton]
    omega⟩
  clear _ := ⟨[], Nat.zero_le cap⟩
  len b := b.1.length
  toList b := b.1
  toList_new := rfl
  toList_push _ _ := rfl
  toList_clear _ := rfl
  len_eq _ := rfl
  length_le b := b.2

end RingBuffers

end AdGuardHome.Lib
