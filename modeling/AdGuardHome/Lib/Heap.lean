import Mathlib.Data.Nat.Notation
import Mathlib.Logic.Function.Basic

/-!
# Heaps of mutable cells

A pointer `Ref` is the number of a cell.  Reading, overwriting and allocating a cell is what a
program does with pointers to records of one type; two holders of one `Ref` see each other's writes.
-/

namespace AdGuardHome.Lib

/-- The address of a cell. -/
abbrev Ref := ℕ

/-- The cells below `next` are allocated. -/
structure Heap (α : Type) where
  cells : Ref → α
  next : Ref

namespace Heap

variable {α : Type}

/-- The heap with no allocated cell. -/
def empty [Inhabited α] : Heap α := ⟨fun _ => default, 0⟩

def get (h : Heap α) (r : Ref) : α := h.cells r

/-- Rewrites the record at `r`. -/
def modify (h : Heap α) (r : Ref) (f : α → α) : Heap α := { h with cells := Function.update h.cells r (f (h.cells r)) }

/-- Puts `v` into a fresh cell, `h.next`. -/
def alloc (h : Heap α) (v : α) : Heap α := ⟨Function.update h.cells h.next v, h.next + 1⟩

theorem get_modify (h : Heap α) (r r' : Ref) (f : α → α) :
    (h.modify r f).get r' = if r' = r then f (h.get r) else h.get r' := by
  unfold get modify
  by_cases hr : r' = r
  · subst hr; simp
  · simp [hr]

@[simp] theorem get_alloc_next (h : Heap α) (v : α) : (h.alloc v).get h.next = v := by simp [get, alloc]

theorem get_alloc_of_lt (h : Heap α) {r : Ref} (hr : r < h.next) (v : α) : (h.alloc v).get r = h.get r := by
  simp [get, alloc, Function.update_of_ne (Nat.ne_of_lt hr)]

/-- A field that the write keeps reads the same everywhere. -/
theorem apply_get_modify {β : Type} (g : α → β) {f : α → α} (hf : ∀ a, g (f a) = g a) (h : Heap α) (r r' : Ref) :
    g ((h.modify r f).get r') = g (h.get r') := by
  rw [get_modify]
  split
  · rename_i hr; rw [hr, hf]
  · rfl

end Heap

end AdGuardHome.Lib
