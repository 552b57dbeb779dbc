import Mathlib.Logic.Function.Basic

/-!
A heap of cells behind pointers.  A pointer is the number of its allocation, so
a cell allocated later never shares a pointer with one that is still held.
-/

namespace Heaps

structure Heap (α : Type) where
  cell : Nat → α
  size : Nat

variable {α : Type}

def Heap.empty [Inhabited α] : Heap α := ⟨fun _ => default, 0⟩

def Heap.read (heap : Heap α) (pointer : Nat) : α := heap.cell pointer

def Heap.write (heap : Heap α) (pointer : Nat) (value : α) : Heap α :=
  { heap with cell := Function.update heap.cell pointer value }

def Heap.alloc (heap : Heap α) (value : α) : Heap α :=
  { cell := Function.update heap.cell heap.size value, size := heap.size + 1 }

variable (heap : Heap α)
include heap

@[simp] theorem size_write (ptr : Nat) (value : α) :
    (heap.write ptr value).size = heap.size := rfl

@[simp] theorem size_alloc (value : α) :
    (heap.alloc value).size = heap.size + 1 := rfl

theorem read_write (ptr query : Nat) (value : α) :
    (heap.write ptr value).read query = if query = ptr then value else heap.read query := by
  simp [Heap.read, Heap.write, Function.update_apply]

@[simp] theorem read_write_same (ptr : Nat) (value : α) :
    (heap.write ptr value).read ptr = value := by
  simp [read_write]

@[simp] theorem read_alloc_same (value : α) : (heap.alloc value).read heap.size = value := by
  simp [Heap.read, Heap.alloc]

theorem read_alloc_old (value : α) {ptr : Nat} (old : ptr < heap.size) :
    (heap.alloc value).read ptr = heap.read ptr := by
  have apart : ptr ≠ heap.size := by omega
  simp [Heap.read, Heap.alloc, apart]

end Heaps
