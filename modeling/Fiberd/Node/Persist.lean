import Fiberd.Lib.Tables
import Fiberd.Node.EpochStore

/-!
`SnapshotStore.Persist` of `pkg/core/snapshot.go`: any number of calls that share the
writes of the ledger's snapshots, in any order of their sections with the ledger's changes.
-/

namespace Fiberd

open Tables Machines

/-- A moment of the run: how far it is, and the changes made to the ledger. -/
structure Moment where
  time : Nat := 0
  changes : Nat := 0
  deriving DecidableEq, Repr

def Moment.Before (first second : Moment) : Prop :=
  first.time < second.time ∧ first.changes ≤ second.changes

inductive PersistStage where
  | locked
  | loaded
  | captured (snapshot : Moment)
  deriving DecidableEq, Repr

structure PersistStore where
  now : Moment := { time := 1 }
  asked : Nat := 0
  covered : Nat := 0
  /-- `lastErr` is not nil. -/
  failed : Bool := false
  /-- When each call that waits for the lock began, by the number it was given. -/
  waiting : Table Nat Moment := ∅
  /-- The call that has the lock, by when it began. -/
  holder : Option (Moment × PersistStage) := none
  file : Option Moment := none
  /-- The call that has just returned, and whether with an error. -/
  returned : Option (Moment × Bool) := none

inductive PersistLabel where
  | change
  | add
  | lock (number : Nat)
  | load
  | capture
  | write (ends : AtomicWrite)
  deriving DecidableEq, Repr

namespace PersistStore

variable (store : PersistStore)

def tick : PersistStore :=
  { store with now := { store.now with time := store.now.time + 1 }, returned := none }

def step : PersistLabel → Option PersistStore
  | .change => some { store.tick with now := ⟨store.now.time + 1, store.now.changes + 1⟩ }
  | .add => some { store.tick with
      asked := store.asked + 1
      waiting := store.waiting.put (store.asked + 1) store.now }
  | .lock number =>
    match store.holder, store.waiting.get number with
    | none, some began =>
      let next := { store.tick with waiting := store.waiting.drop number }
      if number ≤ store.covered then some { next with returned := some (began, store.failed) }
      else some { next with holder := some (began, .locked) }
    | _, _ => none
  | .load =>
    match store.holder with
    | some (began, .locked) =>
      some { store.tick with covered := store.asked, holder := some (began, .loaded) }
    | _ => none
  | .capture =>
    match store.holder with
    | some (began, .loaded) => some { store.tick with holder := some (began, .captured store.now) }
    | _ => none
  | .write ends =>
    match store.holder with
    | some (began, .captured snapshot) => some { store.tick with
        file := if ends = .unchanged then store.file else some snapshot
        failed := ends ≠ .done
        holder := none
        returned := some (began, ends ≠ .done) }
    | _ => none

end PersistStore

def persistMachine : Machine PersistStore PersistLabel where
  start store := ∃ file, store = { file := file } ∧ ∀ old, file = some old → old = {}
  step := PersistStore.step

namespace PersistStore

variable {store next : PersistStore}

/-- The file holds a snapshot captured after the moment. -/
def Reflects (store : PersistStore) (began : Moment) : Prop :=
  ∃ snapshot, store.file = some snapshot ∧ began.Before snapshot

def Serves (store : PersistStore) (began : Moment) : Prop :=
  match store.holder with
  | some (_, .loaded) => True
  | some (_, .captured snapshot) => began.Before snapshot
  | _ => store.failed = false → store.Reflects began

structure Kept (store : PersistStore) : Prop where
  covered : store.covered ≤ store.asked
  file : ∀ old, store.file = some old → old.Before store.now
  waits : ∀ number began, store.waiting.get number = some began →
    number ≤ store.asked ∧ began.Before store.now ∧ (number ≤ store.covered → store.Serves began)
  holder : ∀ began stage, store.holder = some (began, stage) → began.Before store.now ∧
    ∀ snapshot, stage = .captured snapshot → began.Before snapshot ∧
      snapshot.Before store.now ∧ ∀ old, store.file = some old → old.Before snapshot
  returned : ∀ began, store.returned = some (began, false) → store.Reflects began

theorem Moment.Before.trans {first second third : Moment} (here : first.Before second)
    (there : second.Before third) : first.Before third :=
  ⟨Nat.lt_trans here.1 there.1, Nat.le_trans here.2 there.2⟩

theorem Kept.step {label : PersistLabel} (kept : store.Kept)
    (taken : persistMachine.step store label = some next) : next.Kept := by
  obtain ⟨covered, file, waits, holder, _⟩ := kept
  have onward : ∀ {old : Moment}, old.Before store.now → old.Before store.tick.now :=
    fun past => ⟨Nat.lt_succ_of_lt past.1, past.2⟩
  have ticked : store.now.Before store.tick.now := ⟨Nat.lt_succ_self _, Nat.le_refl _⟩
  cases label with
  | change =>
    cases taken
    refine ⟨covered, ?_, ?_, ?_, ?_⟩ <;> grind [Moment.Before, tick, Serves, Reflects]
  | add =>
    cases taken
    refine ⟨Nat.le_succ_of_le covered, ?_, ?_, ?_, ?_⟩ <;> grind [tick, Serves, Reflects, get_put]
  | lock number =>
    simp only [persistMachine, PersistStore.step] at taken
    split at taken
    · rename_i free got
      have served := waits number _ got
      split at taken <;> cases taken <;> refine ⟨covered, ?_, ?_, ?_, ?_⟩ <;>
        grind [tick, Serves, Reflects, get_drop]
    · cases taken
  | load =>
    simp only [persistMachine, PersistStore.step] at taken
    split at taken <;> cases taken
    refine ⟨Nat.le_refl _, ?_, ?_, ?_, ?_⟩ <;> grind [tick, Serves, Reflects]
  | capture =>
    simp only [persistMachine, PersistStore.step] at taken
    split at taken <;> cases taken
    refine ⟨covered, ?_, ?_, ?_, ?_⟩ <;> grind [tick, Serves, Reflects]
  | write ends =>
    simp only [persistMachine, PersistStore.step] at taken
    split at taken <;> cases taken
    refine ⟨covered, ?_, ?_, ?_, ?_⟩ <;> grind [tick, Serves, Reflects, Moment.Before.trans]

theorem kept_of_reachable (reached : persistMachine.Reachable store) : store.Kept := by
  refine Machine.Reachable.keeps ?_ (fun _ _ _ kept taken => kept.step taken) reached
  rintro _ ⟨file, rfl, old⟩
  refine ⟨Nat.le_refl _, ?_, by simp, by simp, by simp⟩
  intro snapshot same
  rw [old snapshot same]
  exact ⟨Nat.zero_lt_one, Nat.le_refl _⟩

end PersistStore

theorem persist_misses_nothing {store : PersistStore} (reached : persistMachine.Reachable store) :
    (∀ began, store.returned = some (began, false) → store.Reflects began) ∧
    ∀ label next old, persistMachine.step store label = some next → store.file = some old →
      ∃ new, next.file = some new ∧ (new = old ∨ old.Before new) := by
  have kept := PersistStore.kept_of_reachable reached
  refine ⟨kept.returned, fun label next old taken held => ?_⟩
  -- Only a write changes the file.
  obtain same | ⟨began, snapshot, writing, wrote⟩ : next.file = store.file ∨
      ∃ began snapshot, store.holder = some (began, .captured snapshot) ∧
        next.file = some snapshot := by
    cases label <;> simp only [persistMachine, PersistStore.step] at taken <;>
      grind [PersistStore.tick]
  · exact ⟨old, same.trans held, .inl rfl⟩
  · exact ⟨snapshot, wrote, .inr (((kept.holder _ _ writing).2 _ rfl).2.2 old held)⟩

/-- The first call returns the result of the second one's write. -/
def sharedRun : List PersistLabel :=
  [.add, .change, .add, .lock 2, .load, .capture, .write .done, .lock 1]

theorem shared_write_reflects : ∃ store, persistMachine.exec {} sharedRun = some store ∧
    store.returned = some (⟨1, 0⟩, false) ∧ store.Reflects ⟨1, 0⟩ := by
  have ran : persistMachine.exec {} sharedRun = some _ := rfl
  exact ⟨_, ran, rfl, (persist_misses_nothing ⟨{}, _, ⟨none, rfl, by simp⟩, ran⟩).1 _ rfl⟩

end Fiberd
