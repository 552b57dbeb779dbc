import Fiberd.Lib.Messages

/-!
A plain text for rows of numbers, from which they come back.
-/

namespace Rows

open Messages

/-- Rows of numbers in unary, each number closed by a 0 and each row by a 2. -/
def rowsText (rows : List (List Nat)) : Bytes :=
  rows.flatMap fun row => (row.flatMap fun number => List.replicate number 1 ++ [0]) ++ [2]

def readRows (number : Nat) (row : List Nat) (rows : List (List Nat)) : Bytes → List (List Nat)
  | [] => rows
  | byte :: rest =>
    if byte = 1 then readRows (number + 1) row rows rest
    else if byte = 0 then readRows 0 (row ++ [number]) rows rest
    else readRows 0 [] (rows ++ [row]) rest

theorem readRows_number (count number : Nat) (row : List Nat) (rows : List (List Nat))
    (rest : Bytes) : readRows number row rows (List.replicate count 1 ++ [0] ++ rest) =
      readRows 0 (row ++ [number + count]) rows rest := by
  induction count generalizing number with
  | zero => simp [readRows]
  | succ count ih =>
    rw [List.replicate_succ, List.cons_append, List.cons_append, readRows, if_pos rfl, ih,
      Nat.add_right_comm, Nat.add_assoc]

theorem readRows_row (row old : List Nat) (rows : List (List Nat)) (rest : Bytes) :
    readRows 0 old rows
        ((row.flatMap fun number => List.replicate number 1 ++ [0]) ++ [2] ++ rest) =
      readRows 0 [] (rows ++ [old ++ row]) rest := by
  induction row generalizing old with
  | nil => simp [readRows]
  | cons number row ih =>
    rw [List.flatMap_cons, List.append_assoc, List.append_assoc, readRows_number,
      ← List.append_assoc, ih, Nat.zero_add, List.append_assoc, List.singleton_append]

theorem readRows_rowsText (rows old : List (List Nat)) :
    readRows 0 [] old (rowsText rows) = old ++ rows := by
  induction rows generalizing old with
  | nil => simp [rowsText, readRows]
  | cons row rows ih =>
    have text : rowsText (row :: rows) =
        (row.flatMap fun number => List.replicate number 1 ++ [0]) ++ [2] ++ rowsText rows := rfl
    rw [text, readRows_row, ih, List.nil_append, List.append_assoc, List.singleton_append]

end Rows
