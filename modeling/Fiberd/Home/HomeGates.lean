import Fiberd.Home.HomeEffects

/-!
The session gates.  A gate stays in the map while anyone holds a reference on it,
so all who want one session wait at one gate, and one of them passes it at a time.
-/

namespace Fiberd

open Heaps Tables Programs

structure GatesKept (ledger : Ledger) (holds : Table Nat (String × Nat)) : Prop where
  placed : ∀ key pointer, ledger.perSession.get key = some pointer → pointer < ledger.gates.size
  single : ∀ first second pointer, ledger.perSession.get first = some pointer →
    ledger.perSession.get second = some pointer → first = second
  joined : ∀ thread key pointer, holds.get thread = some (key, pointer) →
    ledger.perSession.get key = some pointer
  counted : ∀ pointer, pointer < ledger.gates.size →
    (ledger.gates.read pointer).refs = holds.count fun _ hold => decide (hold.2 = pointer)
  holder : ∀ pointer thread, pointer < ledger.gates.size →
    (ledger.gates.read pointer).holder = some thread →
      ∃ key, holds.get thread = some (key, pointer)

variable {ledger : Ledger} {holds : Table Nat (String × Nat)} {thread : Nat}

theorem GatesKept.same (kept : GatesKept ledger holds) {next : Ledger}
    (gates : next.gates = ledger.gates) (perSession : next.perSession = ledger.perSession) :
    GatesKept next holds := by
  refine ⟨?_, ?_, ?_, ?_, ?_⟩
  · rw [perSession, gates]
    exact kept.placed
  · rw [perSession]
    exact kept.single
  · rw [perSession]
    exact kept.joined
  · rw [gates]
    exact kept.counted
  · rw [gates]
    exact kept.holder

variable {key : String} {pointer other : Nat}

section

variable (kept : GatesKept ledger holds)
include kept

theorem GatesKept.bound (joined : holds.get thread = some (key, pointer)) :
    pointer < ledger.gates.size :=
  kept.placed key pointer (kept.joined thread key pointer joined)

theorem GatesKept.pointer_eq {first second : Nat} (one : holds.get thread = some (key, first))
    (two : holds.get other = some (key, second)) : first = second := by
  have here := kept.joined thread key first one
  have there := kept.joined other key second two
  exact Option.some.inj (here.symm.trans there)

theorem GatesKept.joinNew (free : holds.get thread = none)
    (gone : ledger.perSession.get key = none) :
    GatesKept { ledger with
        perSession := ledger.perSession.put key ledger.gates.size
        gates := ledger.gates.alloc { refs := 1 } }
      (holds.put thread (key, ledger.gates.size)) := by
  refine ⟨?_, ?_, ?_, ?_, ?_⟩
  · intro query pointer got
    simp only [get_put] at got
    simp only [size_alloc]
    split at got
    · simp only [Option.some.injEq] at got
      omega
    · have bound := kept.placed query pointer got
      omega
  · intro first second pointer one two
    simp only [get_put] at one two
    split at one <;> split at two
    · rename_i mine its
      exact mine.trans its.symm
    · simp only [Option.some.injEq] at one
      have bound := kept.placed second pointer two
      omega
    · simp only [Option.some.injEq] at two
      have bound := kept.placed first pointer one
      omega
    · exact kept.single first second pointer one two
  · intro query other pointer got
    simp only [get_put] at got ⊢
    split at got
    · cases got
      simp
    · have there := kept.joined query other pointer got
      have apart : other ≠ key := by
        rintro rfl
        simp [gone] at there
      simp [apart, there]
  · intro pointer bound
    simp only [size_alloc] at bound
    rw [count_put_fresh _ _ _ free]
    by_cases last : pointer = ledger.gates.size
    · subst pointer
      have none : holds.count (fun _ hold => decide (hold.2 = ledger.gates.size)) = 0 := by
        apply (count_eq_zero_iff _ _).mpr
        rintro query ⟨other, pointer⟩ got
        have older := kept.bound got
        have apart : pointer ≠ ledger.gates.size := by omega
        simpa using apart
      simp [none]
    · have older : pointer < ledger.gates.size := by omega
      have apart : ledger.gates.size ≠ pointer := by omega
      dsimp only
      rw [read_alloc_old _ _ older, kept.counted pointer older]
      simp [apart]
  · intro pointer query bound held
    simp only [size_alloc] at bound
    by_cases last : pointer = ledger.gates.size
    · subst pointer
      simp at held
    · have older : pointer < ledger.gates.size := by omega
      dsimp only at held
      rw [read_alloc_old _ _ older] at held
      obtain ⟨other, got⟩ := kept.holder pointer query older held
      have apart : query ≠ thread := by
        rintro rfl
        simp [free] at got
      exact ⟨other, by simp [get_put, apart, got]⟩

theorem GatesKept.joinOld (free : holds.get thread = none)
    (here : ledger.perSession.get key = some pointer) :
    GatesKept { ledger with
        gates := ledger.gates.write pointer
          { ledger.gates.read pointer with refs := (ledger.gates.read pointer).refs + 1 } }
      (holds.put thread (key, pointer)) := by
  refine ⟨kept.placed, kept.single, ?_, ?_, ?_⟩
  · intro query other got joined
    simp only [get_put] at joined
    split at joined
    · cases joined
      exact here
    · exact kept.joined query other got joined
  · intro query bound
    rw [count_put_fresh _ _ _ free]
    have counted := kept.counted query bound
    simp only [read_write]
    by_cases mine : query = pointer
    · subst query
      simp [counted]
    · simp [mine, Ne.symm mine, counted]
  · intro query other bound held
    simp only [read_write] at held
    have older : (ledger.gates.read query).holder = some other := by
      split at held
      · rename_i mine
        rw [mine]
        exact held
      · exact held
    obtain ⟨name, got⟩ := kept.holder query other bound older
    have apart : other ≠ thread := by
      rintro rfl
      simp [free] at got
    exact ⟨name, by simp [get_put, apart, got]⟩

theorem GatesKept.join (key : String) (free : holds.get thread = none) :
    GatesKept (ledger.joinGate key).2 (holds.put thread (key, (ledger.joinGate key).1)) := by
  unfold Ledger.joinGate
  cases here : ledger.perSession.get key with
  | none => exact kept.joinNew free here
  | some pointer => exact kept.joinOld free here

theorem GatesKept.hold {holder : Option Nat}
    (mine : ∀ other, holder = some other → ∃ key, holds.get other = some (key, pointer)) :
    GatesKept { ledger with
      gates := ledger.gates.write pointer
        { ledger.gates.read pointer with holder := holder } } holds := by
  refine ⟨kept.placed, kept.single, kept.joined, ?_, ?_⟩
  · intro query bound
    simp only [read_write]
    split
    · rename_i same
      rw [← kept.counted query bound, same]
    · exact kept.counted query bound
  · intro query other bound held
    simp only [read_write] at held
    split at held
    · rename_i same
      exact same ▸ mine other held
    · exact kept.holder query other bound held

theorem GatesKept.lock {next : Ledger} (joined : holds.get thread = some (key, pointer))
    (took : ledger.lockGate pointer thread = some next) : GatesKept next holds := by
  unfold Ledger.lockGate at took
  split at took <;> cases took
  apply kept.hold
  rintro other same
  exact ⟨key, Option.some.inj same ▸ joined⟩

theorem GatesKept.unlock (pointer : Nat) : GatesKept (ledger.unlockGate pointer) holds :=
  kept.hold fun _ never => by simp at never

theorem GatesKept.leave (joined : holds.get thread = some (key, pointer))
    (unheld : (ledger.gates.read pointer).holder ≠ some thread) :
    GatesKept (ledger.leaveGate key pointer) (holds.drop thread) := by
  have bound := kept.bound joined
  have counted := kept.counted pointer bound
  have dropped := count_drop_add (fun _ hold => decide (hold.2 = pointer)) holds joined
  simp only [decide_true, if_true] at dropped
  have others : ∀ query other got, (holds.drop thread).get query = some (other, got) →
      query ≠ thread ∧ holds.get query = some (other, got) := by
    intro query other got there
    obtain ⟨apart, there⟩ := get_drop_eq_some there
    exact ⟨apart, there⟩
  have stays : ∀ query other, (holds.drop thread).get query = some (other, pointer) →
      0 < (ledger.gates.read pointer).refs - 1 := by
    intro query other there
    have positive := (count_pos_iff (fun _ hold => decide (hold.2 = pointer))
      (holds.drop thread)).mpr ⟨query, (other, pointer), there, by simp⟩
    omega
  have older : ∀ name place, (ledger.leaveGate key pointer).perSession.get name = some place →
      ledger.perSession.get name = some place := by
    intro name place got
    simp only [Ledger.leaveGate] at got
    split at got
    · obtain ⟨_, got⟩ := get_drop_eq_some got
      exact got
    · exact got
  refine ⟨?_, ?_, ?_, ?_, ?_⟩
  · intro name place got
    exact kept.placed name place (older name place got)
  · intro first second place one two
    exact kept.single first second place (older first place one) (older second place two)
  · intro query other place there
    obtain ⟨_, got⟩ := others query other place there
    have here := kept.joined query other place got
    simp only [Ledger.leaveGate]
    split
    · rename_i last
      have apart : other ≠ key := by
        rintro rfl
        have same := kept.pointer_eq got joined
        subst place
        have positive := stays query other there
        omega
      rw [get_drop_other _ apart]
      exact here
    · exact here
  · intro query inside
    simp only [Ledger.leaveGate, read_write]
    split
    · rename_i same
      subst query
      simp only
      omega
    · rename_i apart
      rw [kept.counted query inside]
      have moved := count_drop_add (fun _ hold => decide (hold.2 = query)) holds joined
      simp only [Ne.symm apart, decide_false, Bool.false_eq_true, if_false] at moved
      omega
  · intro query other inside held
    simp only [Ledger.leaveGate, read_write] at held
    have old : (ledger.gates.read query).holder = some other := by
      split at held
      · rename_i same
        rw [same]
        exact held
      · exact held
    obtain ⟨name, got⟩ := kept.holder query other inside old
    have apart : other ≠ thread := by
      rintro rfl
      rw [joined, Option.some.injEq, Prod.mk.injEq] at got
      exact unheld (got.2 ▸ old)
    exact ⟨name, by simp [get_drop, apart, got]⟩

end

def GateAt (thread : Nat) (gate : GateHold) (home : Home) : Prop :=
  match gate with
  | .free => home.holds.get thread = none
  | .joined key | .left key => ∃ pointer, home.holds.get thread = some (key, pointer) ∧
      (home.ledger.gates.read pointer).holder ≠ some thread
  | .locked key => ∃ pointer, home.holds.get thread = some (key, pointer) ∧
      (home.ledger.gates.read pointer).holder = some thread

theorem GateAt.carry {gate : GateHold} {home next : Home} (stands : GateAt thread gate home)
    (holds : next.holds.get thread = home.holds.get thread)
    (holder : ∀ key pointer, home.holds.get thread = some (key, pointer) →
      ((next.ledger.gates.read pointer).holder = some thread ↔
        (home.ledger.gates.read pointer).holder = some thread)) : GateAt thread gate next := by
  cases gate with
  | free => exact holds.trans stands
  | joined key | left key =>
    obtain ⟨pointer, got, unheld⟩ := stands
    exact ⟨pointer, holds.trans got, fun held => unheld ((holder key pointer got).mp held)⟩
  | locked key =>
    obtain ⟨pointer, got, held⟩ := stands
    exact ⟨pointer, holds.trans got, (holder key pointer got).mpr held⟩

theorem GatesKept.exclusive {home : Home} (kept : GatesKept home.ledger home.holds)
    (one : GateAt thread (.locked key) home)
    (two : GateAt other (.locked key) home) : thread = other := by
  obtain ⟨first, oneJoined, oneHeld⟩ := one
  obtain ⟨second, twoJoined, twoHeld⟩ := two
  have same := kept.pointer_eq oneJoined twoJoined
  subst second
  exact Option.some.inj (oneHeld.symm.trans twoHeld)

end Fiberd
