import Fiberd.Lib.Heaps
import Fiberd.Lib.Tables
import Mathlib.Logic.Function.Basic

/-!
Things that are spent once.  A thing that is not spent is in one place: in a row of
a table, or in the hand of one party.  The four moves take a thing from one place to
the next, and only the last of them spends it.
-/

namespace Custody

open Heaps Tables

variable {κ : Type} [DecidableEq κ] {rows : Table κ Nat} {spent : Heap Bool}
  {hands : Nat → Option Nat} {party thing : Nat}

/-- The thing has been made and not been spent. -/
def Unspent (spent : Heap Bool) (thing : Nat) : Prop :=
  thing < spent.size ∧ spent.read thing = false

structure Kept (rows : Table κ Nat) (spent : Heap Bool) (hands : Nat → Option Nat) : Prop where
  hand : ∀ party thing, hands party = some thing → Unspent spent thing
  row : ∀ key thing, rows.get key = some thing → Unspent spent thing
  apart : ∀ party thing key, hands party = some thing → rows.get key ≠ some thing
  alone : ∀ first second thing, hands first = some thing → hands second = some thing →
    first = second
  single : ∀ first second thing, rows.get first = some thing → rows.get second = some thing →
    first = second
  placed : ∀ thing, Unspent spent thing →
    (∃ key, rows.get key = some thing) ∨ ∃ party, hands party = some thing

variable (kept : Kept rows spent hands)
include kept

theorem Kept.make (free : hands party = none) :
    Kept rows (spent.alloc false) (Function.update hands party (some spent.size)) := by
  have old : ∀ {thing}, Unspent spent thing → Unspent (spent.alloc false) thing := by
    rintro thing ⟨bound, fresh⟩
    exact ⟨by simp; omega, by rw [read_alloc_old _ _ bound, fresh]⟩
  have other : ∀ {query thing}, query ≠ party →
      Function.update hands party (some spent.size) query = some thing →
        hands query = some thing := by
    intro query thing apart held
    simpa [apart] using held
  refine ⟨?_, ?_, ?_, ?_, kept.single, ?_⟩
  · intro query thing held
    by_cases same : query = party
    · subst query
      simp only [Function.update_self, Option.some.injEq] at held
      exact ⟨by simp [← held], by simp [← held]⟩
    · exact old (kept.hand query thing (other same held))
  · intro key thing got
    exact old (kept.row key thing got)
  · intro query thing key held got
    by_cases same : query = party
    · subst query
      simp only [Function.update_self, Option.some.injEq] at held
      have bound := (kept.row key thing got).1
      omega
    · exact kept.apart query thing key (other same held) got
  · intro first second thing one two
    by_cases here : first = party
    · by_cases there : second = party
      · rw [here, there]
      · subst first
        simp only [Function.update_self, Option.some.injEq] at one
        have bound := (kept.hand second thing (other there two)).1
        omega
    · by_cases there : second = party
      · subst second
        simp only [Function.update_self, Option.some.injEq] at two
        have bound := (kept.hand first thing (other here one)).1
        omega
      · exact kept.alone first second thing (other here one) (other there two)
  · rintro thing ⟨bound, fresh⟩
    by_cases new : thing = spent.size
    · exact .inr ⟨party, by rw [new, Function.update_self]⟩
    · have older : thing < spent.size := by
        simp only [size_alloc] at bound
        omega
      rw [read_alloc_old _ _ older] at fresh
      rcases kept.placed thing ⟨older, fresh⟩ with row | ⟨query, held⟩
      · exact .inl row
      · have apart : query ≠ party := by
          rintro rfl
          simp [free] at held
        exact .inr ⟨query, by rw [Function.update_of_ne apart, held]⟩

/-- A party may swap what it has in hand for a row, if no thing comes to be in two places or is
lost. -/
theorem Kept.exchange {table : Table κ Nat} {place : Option Nat}
    (given : ∀ key thing, table.get key = some thing → rows.get key = some thing ∨
      hands party = some thing)
    (took : ∀ thing, place = some thing → ∃ key, rows.get key = some thing ∧ ∀ query,
      table.get query ≠ some thing)
    (single : ∀ first second thing, table.get first = some thing → table.get second = some thing →
      first = second)
    (filled : ∀ key thing, rows.get key = some thing → (∃ query, table.get query = some thing) ∨
      place = some thing)
    (emptied : ∀ thing, hands party = some thing → ∃ query, table.get query = some thing) :
    Kept table spent (Function.update hands party place) := by
  have other : ∀ {query thing}, query ≠ party →
      Function.update hands party place query = some thing → hands query = some thing := by
    intro query thing apart held
    simpa [apart] using held
  refine ⟨?_, ?_, ?_, ?_, single, ?_⟩
  · intro query thing held
    by_cases same : query = party
    · subst query
      rw [Function.update_self] at held
      obtain ⟨key, got, _⟩ := took thing held
      exact kept.row key thing got
    · exact kept.hand query thing (other same held)
  · intro key thing got
    rcases given key thing got with row | hand
    · exact kept.row key thing row
    · exact kept.hand party thing hand
  · intro query thing key held got
    by_cases same : query = party
    · subst query
      rw [Function.update_self] at held
      obtain ⟨_, _, gone⟩ := took thing held
      exact gone key got
    · rcases given key thing got with row | hand
      · exact kept.apart query thing key (other same held) row
      · exact same (kept.alone query party thing (other same held) hand)
  · intro first second thing one two
    by_cases here : first = party
    · by_cases there : second = party
      · rw [here, there]
      · subst first
        rw [Function.update_self] at one
        obtain ⟨key, got, _⟩ := took thing one
        exact (kept.apart second thing key (other there two) got).elim
    · by_cases there : second = party
      · subst second
        rw [Function.update_self] at two
        obtain ⟨key, got, _⟩ := took thing two
        exact (kept.apart first thing key (other here one) got).elim
      · exact kept.alone first second thing (other here one) (other there two)
  · intro thing unspent
    rcases kept.placed thing unspent with ⟨key, got⟩ | ⟨query, held⟩
    · rcases filled key thing got with row | took
      · exact .inl row
      · exact .inr ⟨party, by rw [Function.update_self, took]⟩
    · by_cases same : query = party
      · subst query
        exact .inl (emptied thing held)
      · exact .inr ⟨query, by rw [Function.update_of_ne same, held]⟩

/-- What was in the row comes into the hand, and the hand's thing into the row. -/
theorem Kept.put (key : κ) (held : hands party = some thing) :
    Kept (rows.put key thing) spent (Function.update hands party (rows.get key)) := by
  refine kept.exchange ?_ ?_ ?_ ?_ ?_
  · intro query got row
    rw [get_put] at row
    split at row
    · rw [Option.some.injEq] at row
      exact .inr (row ▸ held)
    · exact .inl row
  · intro old got
    refine ⟨key, got, ?_⟩
    intro query row
    rw [get_put] at row
    split at row
    · rw [Option.some.injEq] at row
      exact kept.apart party thing key held (row ▸ got)
    · rename_i apart
      exact apart (kept.single query key old row got)
  · intro first second got one two
    rw [get_put] at one two
    split at one <;> split at two
    · rename_i here there
      rw [here, there]
    · rw [Option.some.injEq] at one
      exact (kept.apart party thing second held (one ▸ two)).elim
    · rw [Option.some.injEq] at two
      exact (kept.apart party thing first held (two ▸ one)).elim
    · exact kept.single first second got one two
  · intro query got row
    by_cases same : query = key
    · exact .inr (same ▸ row)
    · exact .inl ⟨query, by rw [get_put_other _ _ same, row]⟩
  · intro got mine
    rw [held, Option.some.injEq] at mine
    exact ⟨key, by rw [get_put_same, mine]⟩

theorem Kept.take (key : κ) (free : hands party = none) :
    Kept (rows.drop key) spent (Function.update hands party (rows.get key)) := by
  have row : ∀ {query got}, (rows.drop key).get query = some got →
      query ≠ key ∧ rows.get query = some got := by
    intro query got left
    obtain ⟨apart, left⟩ := get_drop_eq_some left
    exact ⟨apart, left⟩
  refine kept.exchange ?_ ?_ ?_ ?_ (by simp [free])
  · intro query got left
    exact .inl (row left).2
  · intro old got
    refine ⟨key, got, ?_⟩
    intro query left
    exact (row left).1 (kept.single query key old (row left).2 got)
  · intro first second got one two
    exact kept.single first second got (row one).2 (row two).2
  · intro query got there
    by_cases same : query = key
    · exact .inr (same ▸ there)
    · exact .inl ⟨query, by rw [get_drop_other _ same, there]⟩

theorem Kept.spend (held : hands party = some thing) :
    Kept rows (spent.write thing true) (Function.update hands party none) := by
  have unspent : ∀ {query}, query ≠ thing → Unspent spent query →
      Unspent (spent.write thing true) query := by
    rintro query apart ⟨bound, fresh⟩
    exact ⟨by simpa using bound, by simp [read_write, apart, fresh]⟩
  have other : ∀ {query got}, Function.update hands party none query = some got →
      query ≠ party ∧ hands query = some got := by
    intro query got left
    by_cases same : query = party
    · subst query
      simp at left
    · exact ⟨same, by simpa [same] using left⟩
  refine ⟨?_, ?_, ?_, ?_, kept.single, ?_⟩
  · intro query got left
    obtain ⟨apart, there⟩ := other left
    refine unspent ?_ (kept.hand query got there)
    rintro rfl
    exact apart (kept.alone query party got there held)
  · intro key got row
    refine unspent ?_ (kept.row key got row)
    rintro rfl
    exact kept.apart party got key held row
  · intro query got key left
    exact kept.apart query got key (other left).2
  · intro first second got one two
    exact kept.alone first second got (other one).2 (other two).2
  · rintro query ⟨bound, fresh⟩
    rw [size_write] at bound
    have apart : query ≠ thing := by
      rintro rfl
      simp at fresh
    rw [read_write, if_neg apart] at fresh
    rcases kept.placed query ⟨bound, fresh⟩ with row | ⟨holder, there⟩
    · exact .inl row
    · have elsewhere : holder ≠ party := by
        rintro rfl
        rw [held, Option.some.injEq] at there
        exact apart there.symm
      exact .inr ⟨holder, by rw [Function.update_of_ne elsewhere, there]⟩

end Custody
