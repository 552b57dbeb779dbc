import Mathlib.Algebra.GroupWithZero.Nat
import Mathlib.Algebra.Order.BigOperators.Group.List

/-!
Parties that stand at points of a program.  A resource is owned by the one party
whose point passes a test, and the work that is left is the total of the parties'
weights.  The rules say what a move of one party does to both.
-/

namespace Parties

variable {α : Type}

/-- The owner is the party that passes the test: there is no other, and none without an owner. -/
def Owned (test : α → Bool) (owner : Option Nat) (parties : List α) : Prop :=
  ∀ index, owner = some index ↔ ∃ party, parties[index]? = some party ∧ test party = true

variable {test : α → Bool} {owner : Option Nat} {parties : List α} {index : Nat} {old new : α}

theorem Owned.owns (owned : Owned test owner parties) (here : parties[index]? = some old)
    (passes : test old = true) : owner = some index :=
  (owned index).mpr ⟨old, here, passes⟩

theorem Owned.fails (owned : Owned test none parties) (here : parties[index]? = some old) :
    test old = false := by
  by_contra passes
  have owns := owned.owns here (by simpa using passes)
  simp at owns

theorem Owned.set_same (owned : Owned test owner parties) (here : parties[index]? = some old)
    (same : test new = test old) : Owned test owner (parties.set index new) := by
  obtain ⟨bound, item⟩ := List.getElem?_eq_some_iff.mp here
  intro other
  rw [owned other, List.getElem?_set]
  by_cases mine : index = other
  · subst other
    simp [bound, item, same]
  · simp [mine]

theorem Owned.take (owned : Owned test none parties) (bound : index < parties.length)
    (passes : test new = true) : Owned test (some index) (parties.set index new) := by
  intro other
  rw [List.getElem?_set]
  by_cases mine : index = other
  · subst other
    simp [bound, passes]
  · have free := owned other
    simp only [reduceCtorEq, false_iff] at free
    simp only [Option.some.injEq, mine, if_false, false_iff]
    exact free

theorem Owned.release (owned : Owned test owner parties) (here : parties[index]? = some old)
    (passed : test old = true) (fails : test new = false) :
    Owned test none (parties.set index new) := by
  obtain ⟨bound, _⟩ := List.getElem?_eq_some_iff.mp here
  have mine := owned.owns here passed
  intro other
  rw [List.getElem?_set]
  by_cases same : index = other
  · subst other
    simp [bound, fails]
  · simp only [reduceCtorEq, same, if_false, false_iff]
    intro passes
    have theirs := (owned other).mpr passes
    rw [mine, Option.some.injEq] at theirs
    exact same theirs

/-- How a resource changes hands when a party moves that had it, or comes to have it. -/
inductive Turns (index : Nat) : Option Nat → Option Nat → Bool → Bool → Prop
  | same {owner : Option Nat} {has : Bool} : Turns index owner owner has has
  | take {had : Bool} : Turns index none (some index) had true
  | release {owner : Option Nat} : Turns index owner none true false

theorem Owned.turns {later : Option Nat} (owned : Owned test owner parties)
    (here : parties[index]? = some old) (turns : Turns index owner later (test old) (test new)) :
    Owned test later (parties.set index new) := by
  generalize was : test old = had at turns
  generalize now : test new = has at turns
  cases turns with
  | same => exact owned.set_same here (now.trans was.symm)
  | take => exact owned.take (List.getElem?_eq_some_iff.mp here).1 now
  | release => exact owned.release here was now

theorem Owned.snoc (owned : Owned test owner parties) (fails : test new = false) :
    Owned test owner (parties ++ [new]) := by
  intro other
  rw [owned other, List.getElem?_append]
  by_cases bound : other < parties.length
  · simp [bound]
  · have outside : parties[other]? = none := by simpa using bound
    simp only [outside, bound, if_false, reduceCtorEq, false_and, exists_false, false_iff]
    rintro ⟨party, here, passes⟩
    have mem := List.mem_of_getElem? here
    rw [List.mem_singleton.mp mem, fails] at passes
    simp at passes

theorem Owned.map (owned : Owned test owner parties) {move : α → α}
    (same : ∀ party, test (move party) = test party) : Owned test owner (parties.map move) := by
  intro other
  rw [owned other, List.getElem?_map]
  cases parties[other]? with
  | none => simp
  | some party => simp [same]

def total (weight : α → Nat) (parties : List α) : Nat := (parties.map weight).sum

theorem total_set (weight : α → Nat) (here : parties[index]? = some old) :
    total weight (parties.set index new) + weight old = total weight parties + weight new := by
  induction parties generalizing index with
  | nil => simp at here
  | cons head tail ih =>
    cases index with
    | zero =>
      simp only [List.getElem?_cons_zero] at here
      cases here
      simp only [total, List.set_cons_zero, List.map_cons, List.sum_cons]
      omega
    | succ index =>
      have rest := ih (by simpa using here)
      simp only [total, List.set_cons_succ, List.map_cons, List.sum_cons] at rest ⊢
      omega

theorem total_map_le (weight : α → Nat) {move : α → α} {extra : Nat}
    (bound : ∀ party, weight (move party) ≤ weight party + extra) (parties : List α) :
    total weight (parties.map move) ≤ total weight parties + parties.length * extra := by
  induction parties with
  | nil => simp [total]
  | cons head tail ih =>
    have first := bound head
    simp only [total, List.map_cons, List.sum_cons, List.length_cons, Nat.succ_mul] at ih ⊢
    omega

end Parties
