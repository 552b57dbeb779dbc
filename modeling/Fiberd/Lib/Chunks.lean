import Mathlib.Data.List.Basic
import Mathlib.Data.List.Induction

/-!
A stream cut into chunks of one size, each with its index and a mark on the last.
The last chunk is known by what is behind it, so a stream has one however it is
read.  Marks and indices that match chunk by chunk leave no chunk out.
-/

namespace Chunks

variable {α : Type}

structure Chunk (α : Type) where
  index : Nat
  last : Bool
  data : List α
  deriving DecidableEq, Repr

/-- The chunks of what is left of a stream, from the index on. -/
def cut (size : Nat) (index : Nat) (stream : List α) : List (Chunk α) :=
  if more : 0 < size ∧ size < stream.length then
    ⟨index, false, stream.take size⟩ :: cut size (index + 1) (stream.drop size)
  else [⟨index, true, stream⟩]
termination_by stream.length
decreasing_by
  rw [List.length_drop]
  omega

variable {size : Nat}

theorem cut_ne_nil (index : Nat) (stream : List α) : cut size index stream ≠ [] := by
  rw [cut]
  split <;> simp

/-- The chunks put together are the stream. -/
theorem cut_data (index : Nat) (stream : List α) :
    (cut size index stream).flatMap Chunk.data = stream := by
  fun_induction cut size index stream with
  | case1 index stream more ih => rw [List.flatMap_cons, ih, List.take_append_drop]
  | case2 index stream short => simp

theorem length_cut_le (index : Nat) (stream : List α) :
    (cut size index stream).length ≤ stream.length + 1 := by
  fun_induction cut size index stream with
  | case1 index stream more ih =>
    rw [List.length_cons]
    rw [List.length_drop] at ih
    omega
  | case2 index stream short => simp

/-- A chunk knows its place, and the last one that it is. -/
theorem cut_at {index : Nat} {stream : List α} {place : Nat} {chunk : Chunk α}
    (got : (cut size index stream)[place]? = some chunk) : chunk.index = index + place ∧
      (chunk.last = true ↔ place + 1 = (cut size index stream).length) := by
  fun_induction cut size index stream generalizing place with
  | case1 index stream more ih =>
    cases place with
    | zero =>
      simp only [List.getElem?_cons_zero] at got
      cases got
      have rest : 0 < (cut size (index + 1) (stream.drop size)).length :=
        List.length_pos_of_ne_nil (cut_ne_nil _ _)
      simp only [Nat.add_zero, List.length_cons, true_and, Bool.false_eq_true, false_iff]
      omega
    | succ place =>
      rw [List.getElem?_cons_succ] at got
      obtain ⟨position, last⟩ := ih got
      rw [List.length_cons, last]
      omega
  | case2 index stream short =>
    cases place with
    | zero =>
      simp only [List.getElem?_cons_zero] at got
      cases got
      simp
    | succ place => simp at got

/-- Chunks that match those of a stream in index and mark, one after the other up to one marked
last, are all of them. -/
theorem whole_of_matches {stream : List α} {opened : List (Chunk α)} (some_ : opened ≠ [])
    (indices : ∀ (place : Nat) (chunk : Chunk α), opened[place]? = some chunk → chunk.index = place)
    (ends : ∀ (place : Nat) (chunk : Chunk α), opened[place]? = some chunk →
      (chunk.last = true ↔ place + 1 = opened.length))
    (among : ∀ chunk ∈ opened, chunk ∈ cut size 0 stream) : opened = cut size 0 stream := by
  have placed : ∀ (place : Nat) (chunk : Chunk α), opened[place]? = some chunk →
      (cut size 0 stream)[place]? = some chunk := by
    intro place chunk got
    obtain ⟨other, inside⟩ := List.mem_iff_getElem?.mp (among chunk (List.mem_of_getElem? got))
    have position := (cut_at inside).1
    rw [indices place chunk got, Nat.zero_add] at position
    rw [position]
    exact inside
  have positive := List.length_pos_of_ne_nil some_
  obtain ⟨final, atEnd⟩ : ∃ final, opened[opened.length - 1]? = some final :=
    ⟨_, List.getElem?_eq_getElem (by omega)⟩
  have marked := (ends _ _ atEnd).mpr (by omega)
  have length := (cut_at (placed _ _ atEnd)).2.mp marked
  refine List.ext_getElem? fun place => ?_
  by_cases inside : place < opened.length
  · obtain ⟨chunk, got⟩ : ∃ chunk, opened[place]? = some chunk :=
      ⟨_, List.getElem?_eq_getElem inside⟩
    rw [got, placed place chunk got]
  · rw [List.getElem?_eq_none (by omega), List.getElem?_eq_none (by omega)]

end Chunks
