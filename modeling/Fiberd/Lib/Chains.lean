import Mathlib.Data.List.Induction

/-!
Chains of linked items.  Each item names the link of the item before it, and the
first one names a link that no item has.  Where links determine their items, the
last link of a chain determines the chain.
-/

namespace Chains

variable {α η : Type} (link back : α → η)

def Linked : η → List α → Prop
  | _, [] => True
  | previous, item :: items => back item = previous ∧ Linked (link item) items

def lastLink : η → List α → η
  | previous, [] => previous
  | _, item :: items => lastLink (link item) items

variable {link back}

theorem lastLink_snoc (start : η) (items : List α) (item : α) :
    lastLink link start (items ++ [item]) = link item := by
  induction items generalizing start with
  | nil => rfl
  | cons _ items ih => exact ih _

theorem lastLink_eq (start : η) (items : List α) :
    lastLink link start items = (items.getLast?.map link).getD start := by
  cases items using List.reverseRecOn with
  | nil => rfl
  | append_singleton items item => simp [lastLink_snoc]

theorem linked_snoc {start : η} {items : List α} {item : α} :
    Linked link back start (items ++ [item]) ↔
      Linked link back start items ∧ back item = lastLink link start items := by
  induction items generalizing start with
  | nil => simp [Linked, lastLink]
  | cons head items ih =>
    rw [List.cons_append, Linked, ih, Linked, lastLink, and_assoc]

/-- Two chains that end in one link are one chain. -/
theorem linked_unique {start : η} {first second : List α}
    (linked : Linked link back start first) (other : Linked link back start second)
    (inj : ∀ item ∈ first, ∀ twin ∈ second, link item = link twin → item = twin)
    (genesis : ∀ item, item ∈ first ∨ item ∈ second → link item ≠ start)
    (ends : lastLink link start first = lastLink link start second) : first = second := by
  induction first using List.reverseRecOn generalizing second with
  | nil =>
    cases second using List.reverseRecOn with
    | nil => rfl
    | append_singleton twins twin =>
      rw [lastLink_snoc] at ends
      exact (genesis twin (by simp) ends.symm).elim
  | append_singleton items item ih =>
    cases second using List.reverseRecOn with
    | nil =>
      rw [lastLink_snoc] at ends
      exact (genesis item (by simp) ends).elim
    | append_singleton twins twin =>
      rw [lastLink_snoc, lastLink_snoc] at ends
      have same : item = twin := inj item (by simp) twin (by simp) ends
      subst twin
      obtain ⟨linkedFront, backward⟩ := linked_snoc.mp linked
      obtain ⟨otherFront, otherBackward⟩ := linked_snoc.mp other
      have front : items = twins := by
        refine ih linkedFront otherFront ?_ ?_ (backward.symm.trans otherBackward)
        · intro one isOne two isTwo
          exact inj one (by simp [isOne]) two (by simp [isTwo])
        · intro one either
          refine genesis one ?_
          rcases either with isFirst | isSecond
          · exact .inl (by simp [isFirst])
          · exact .inr (by simp [isSecond])
      rw [front]

end Chains
