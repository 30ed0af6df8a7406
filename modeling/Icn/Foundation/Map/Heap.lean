import Mathlib.Logic.Function.Basic
import Mathlib.Data.Nat.Notation

/-!
# Shared cells

Values behind shared handles. A handle is copied freely, and everything written
through one copy is read through the others; two components share a cell exactly
when they hold the same handle. `alloc` makes a cell no earlier handle refers to.
-/

namespace Foundation

/-- Cells addressed by number, of which the first `next` are in use. -/
structure Heap (ν : Type*) where
  next : ℕ
  cells : ℕ → ν

namespace Heap

variable {ν : Type*}

def read (heap : Heap ν) (handle : ℕ) : ν := heap.cells handle

def write (heap : Heap ν) (handle : ℕ) (v : ν) : Heap ν :=
  { heap with cells := Function.update heap.cells handle v }

def alloc (heap : Heap ν) (v : ν) : ℕ × Heap ν :=
  (heap.next, { next := heap.next + 1, cells := Function.update heap.cells heap.next v })

@[simp] theorem read_write_self (heap : Heap ν) (handle : ℕ) (v : ν) :
    (heap.write handle v).read handle = v := by
  simp only [read, write, Function.update_self]

theorem read_write_of_ne (heap : Heap ν) {handle other : ℕ} (v : ν) (h : other ≠ handle) :
    (heap.write handle v).read other = heap.read other := by
  simp only [read, write, Function.update_of_ne h]

@[simp] theorem read_alloc (heap : Heap ν) (v : ν) :
    (heap.alloc v).2.read (heap.alloc v).1 = v := by
  simp only [read, alloc, Function.update_self]

end Heap

end Foundation
