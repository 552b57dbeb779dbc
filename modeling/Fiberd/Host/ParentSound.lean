import Fiberd.Host.ParentStore

/-!
What holds of the parent store between any two actions, and what a call in the middle
of a section or of a prune knows of it.
-/

namespace Fiberd

open Heaps Tables Programs Machines

/-- A failed park moves its directory only while no prune scans. -/
def movesUnscanned (store : ParentStore) (_ : Nat) (action : ParentAct) (_ : Bool) : Bool :=
  match action with
  | .renameFailed _ _ => store.scans.rows.isEmpty
  | _ => true

inductive ParentStage where
  /-- In no section; a claim's manifest may name a parent its section will ensure. -/
  | outside (claim : Option String)
  /-- In a section that knows some entries to be there and may hold a parent it loaded. -/
  | inside (claim : Option String) (sure : List String) (own : Option Nat)
  | counted
  | seen (count : Nat)
  | warmed (count : Nat) (keep : List String)
  | scanning (count : Nat) (keep grants : List String) (grant : String) (names : List String)
  | locked (count : Nat) (keep : List String)
  | removing (keep : List String)
  /-- The loaded parents that were not kept are closed, but for those left. -/
  | closing (keep left : List String)
  | released

namespace ParentStore

structure NameSound (store : ParentStore) (name : ParentName) : Prop where
  stamped : ∀ count, name.ended = some count → count ≤ store.uses
  inSection : name.parent ≠ "" → name.counts → name.ended = none →
    (store.sections.get name.recorder).isSome
  kept : name.parent ≠ "" → name.state = .recorded ∨ name.state = .ensured →
    (store.entries.get name.parent).isSome
  awaits : name.state = .awaiting → name.ended = none

structure NamesSound (store : ParentStore) : Prop where
  warms : ∀ uid name, store.warms.get uid = some name →
    store.NameSound name ∧ name.state = .recorded
  deltas : ∀ key name, store.deltas.get key = some name → store.NameSound name

structure Sound (store : ParentStore) : Prop where
  exclusive : store.pruning.isSome → ∀ thread, store.sections.get thread = none
  loaded : ∀ sha parent, store.parents.get sha = some parent →
    (store.entries.get sha).isSome ∧ parent < store.loads.size ∧
      store.loads.read parent = .shared
  apart : ∀ one other parent, store.parents.get one = some parent →
    store.parents.get other = some parent → one = other
  obtained : ∀ thread parents, store.sections.get thread = some parents →
    ∀ parent ∈ parents, parent < store.loads.size ∧ store.loads.read parent = .shared
  names : store.NamesSound
  pruned : ∀ entry ∈ store.removed, entry.named = false

def Covers {κ : Type} [DecidableEq κ] (count : Nat) (names : Table κ ParentName)
    (good : κ → String → Prop) : Prop :=
  ∀ key name ended, names.get key = some name → name.ended = some ended → ended ≤ count →
    name.parent ≠ "" → good key name.parent

def Awaits (store : ParentStore) (thread : Nat) (claim : Option String) : Prop :=
  ∀ key name, store.deltas.get key = some name → name.recorder = thread →
    name.state = .awaiting → claim = some name.parent

def Ended (store : ParentStore) (thread : Nat) : Prop :=
  (∀ uid name, store.warms.get uid = some name → name.recorder = thread → name.parent ≠ "" →
    name.ended ≠ none) ∧
  ∀ key name, store.deltas.get key = some name → name.recorder = thread → name.parent ≠ "" →
    name.ended ≠ none

def Scans (store : ParentStore) (thread count : Nat) (keep : List String)
    (good : String × String → String → Prop) : Prop :=
  count ≤ store.uses ∧ (store.scans.get thread).isSome ∧
    Covers count store.warms (fun _ parent => parent ∈ keep) ∧ Covers count store.deltas good

def Ahead (keep grants : List String) (grant : String) (names : List String)
    (key : String × String) (parent : String) : Prop :=
  parent ∈ keep ∨ key.1 ∈ grants ∨ (key.1 = grant ∧ key.2 ∈ names)

def KeepsAll (store : ParentStore) (keep : List String) : Prop :=
  (∀ uid name, store.warms.get uid = some name → name.parent ≠ "" → name.parent ∈ keep) ∧
  ∀ key name, store.deltas.get key = some name → name.counts → name.parent ≠ "" →
    name.parent ∈ keep

def At (store : ParentStore) (thread : Nat) : ParentStage → Prop
  | .outside claim => store.sections.get thread = none ∧ store.Awaits thread claim
  | .inside claim sure own =>
    (store.sections.get thread).isSome ∧ store.Awaits thread claim ∧
      (∀ sha ∈ sure, (store.entries.get sha).isSome) ∧
      ∀ parent, own = some parent → parent < store.loads.size ∧
        store.loads.read parent = .own thread
  | .counted =>
    (store.sections.get thread).isSome ∧ store.Awaits thread none ∧ store.Ended thread
  | .seen count =>
    store.sections.get thread = none ∧ store.Awaits thread none ∧ count ≤ store.uses ∧
      (store.scans.get thread).isSome
  | .warmed count keep =>
    store.sections.get thread = none ∧ store.Awaits thread none ∧
      store.Scans thread count keep fun _ _ => True
  | .scanning count keep grants grant names =>
    store.sections.get thread = none ∧ store.Awaits thread none ∧
      store.Scans thread count keep (Ahead keep grants grant names)
  | .locked count keep =>
    store.pruning = some thread ∧ store.Awaits thread none ∧
      store.Scans thread count keep fun _ parent => parent ∈ keep
  | .removing keep =>
    store.pruning = some thread ∧ store.Awaits thread none ∧
      (store.scans.get thread).isSome ∧ store.KeepsAll keep
  | .closing keep left =>
    store.pruning = some thread ∧ store.Awaits thread none ∧
      (store.scans.get thread).isSome ∧ store.KeepsAll keep ∧
      ∀ sha, (store.parents.get sha).isSome → sha ∈ keep ∨ sha ∈ left
  | .released => store.sections.get thread = none ∧ store.Awaits thread none

def NamesFrom {κ : Type} [DecidableEq κ] (store : ParentStore) (thread : Nat)
    (old new : Table κ ParentName) : Prop :=
  ∀ key name, new.get key = some name →
    old.get key = some name ∨
    (store.scans.rows = [] ∧ ∃ other, old.get other = some name) ∨
    (name.recorder = thread ∧ (∀ count, name.ended = some count → store.uses < count) ∧
      (name.parent = "" ∨ name.state = .awaiting ∨ (store.sections.get thread).isSome))

structure Moves (thread : Nat) (store next : ParentStore) : Prop where
  uses : store.uses ≤ next.uses
  sections : ∀ other, other ≠ thread → next.sections.get other = store.sections.get other
  pruning : ∀ other, other ≠ thread → store.pruning = some other → next.pruning = some other
  scans : ∀ other, other ≠ thread → next.scans.get other = store.scans.get other
  entries : store.pruning ≠ some thread → ∀ sha, (store.entries.get sha).isSome →
    (next.entries.get sha).isSome
  loads : ∀ other parent, other ≠ thread → parent < store.loads.size →
    store.loads.read parent = .own other →
      parent < next.loads.size ∧ next.loads.read parent = .own other
  parents : ∀ sha, (next.parents.get sha).isSome → (store.parents.get sha).isSome ∨
    (store.sections.get thread).isSome
  warms : NamesFrom store thread store.warms next.warms
  deltas : NamesFrom store thread store.deltas next.deltas

section Others

variable {store next : ParentStore} {thread other : Nat}

theorem NamesFrom.same {κ : Type} [DecidableEq κ] (names : Table κ ParentName) :
    NamesFrom store thread names names :=
  fun _ _ got => .inl got

theorem NamesFrom.drop {κ : Type} [DecidableEq κ] (names : Table κ ParentName) (key : κ) :
    NamesFrom store thread names (names.drop key) := by
  intro query name got
  obtain ⟨_, got⟩ := get_drop_eq_some got
  exact .inl got

theorem Covers.moves {κ : Type} [DecidableEq κ] {count : Nat} {old new : Table κ ParentName}
    {good : κ → String → Prop} (covers : Covers count old good)
    (from_ : NamesFrom store thread old new) (bound : count ≤ store.uses)
    (scanning : store.scans.rows ≠ []) : Covers count new good := by
  intro key name ended got stamped early named
  obtain same | ⟨free, _⟩ | ⟨_, late, _⟩ := from_ key name got
  · exact covers key name ended same stamped early named
  · exact absurd free scanning
  · have := late ended stamped
    omega

theorem Awaits.moves {claim : Option String} (awaits : store.Awaits other claim)
    (moves : Moves thread store next) (apart : other ≠ thread) : next.Awaits other claim := by
  intro key name got mine waiting
  obtain same | ⟨_, old, same⟩ | ⟨its, _⟩ := moves.deltas key name got
  · exact awaits key name same mine waiting
  · exact awaits old name same mine waiting
  · exact absurd (mine.symm.trans its) apart

theorem scans_ne {store : ParentStore} {thread : Nat} (here : (store.scans.get thread).isSome) :
    store.scans.rows ≠ [] := by
  intro empty
  obtain ⟨value, got⟩ := Option.isSome_iff_exists.mp here
  have mem := (mem_rows_iff _ _ _).mpr got
  simp [empty] at mem

theorem Scans.moves {count : Nat} {keep : List String} {good : String × String → String → Prop}
    (scans : store.Scans other count keep good) (moves : Moves thread store next)
    (apart : other ≠ thread) : next.Scans other count keep good := by
  obtain ⟨bound, here, warms, deltas⟩ := scans
  exact ⟨Nat.le_trans bound moves.uses, by rwa [moves.scans other apart],
    warms.moves moves.warms bound (scans_ne here), deltas.moves moves.deltas bound (scans_ne here)⟩

theorem Ended.moves (ended : store.Ended other) (moves : Moves thread store next)
    (apart : other ≠ thread) : next.Ended other := by
  refine ⟨?_, ?_⟩
  · intro uid name got mine named
    obtain same | ⟨_, old, same⟩ | ⟨its, _⟩ := moves.warms uid name got
    · exact ended.1 uid name same mine named
    · exact ended.1 old name same mine named
    · exact absurd (mine.symm.trans its) apart
  · intro key name got mine named
    obtain same | ⟨_, old, same⟩ | ⟨its, _⟩ := moves.deltas key name got
    · exact ended.2 key name same mine named
    · exact ended.2 old name same mine named
    · exact absurd (mine.symm.trans its) apart

theorem KeepsAll.moves {keep : List String} (sound : store.Sound) (after : next.Sound)
    (keeps : store.KeepsAll keep) (moves : Moves thread store next)
    (locked : store.pruning.isSome) : next.KeepsAll keep := by
  have unused : ¬(store.sections.get thread).isSome := by simp [sound.exclusive locked thread]
  refine ⟨?_, ?_⟩
  · intro uid name got named
    have noted := (after.names.warms uid name got).2
    obtain same | ⟨_, old, same⟩ | ⟨_, _, empty | waiting | inside⟩ := moves.warms uid name got
    · exact keeps.1 uid name same named
    · exact keeps.1 old name same named
    · exact absurd empty named
    · simp [waiting] at noted
    · exact absurd inside unused
  · intro key name got counts named
    obtain same | ⟨_, old, same⟩ | ⟨_, _, empty | waiting | inside⟩ :=
      moves.deltas key name got
    · exact keeps.2 key name same counts named
    · exact keeps.2 old name same counts named
    · exact absurd empty named
    · simp [ParentName.counts, waiting] at counts
    · exact absurd inside unused

theorem At.moves {stage : ParentStage} (sound : store.Sound) (after : next.Sound)
    (here : store.At other stage) (moves : Moves thread store next) (apart : other ≠ thread) :
    next.At other stage := by
  have section_ := moves.sections other apart
  cases stage with
  | outside claim | released => exact ⟨section_ ▸ here.1, here.2.moves moves apart⟩
  | inside claim sure own =>
    obtain ⟨inside, awaits, there, mine⟩ := here
    refine ⟨section_ ▸ inside, awaits.moves moves apart, ?_, ?_⟩
    · intro sha known
      refine moves.entries ?_ sha (there sha known)
      intro pruning
      simp [sound.exclusive (by simp [pruning]) other] at inside
    · intro parent own_
      exact moves.loads other parent apart (mine parent own_).1 (mine parent own_).2
  | counted | warmed count keep | scanning count keep grants grant names =>
    exact ⟨section_ ▸ here.1, here.2.1.moves moves apart, here.2.2.moves moves apart⟩
  | seen count =>
    exact ⟨section_ ▸ here.1, here.2.1.moves moves apart, Nat.le_trans here.2.2.1 moves.uses,
      by rw [moves.scans other apart]; exact here.2.2.2⟩
  | locked count keep =>
    exact ⟨moves.pruning other apart here.1, here.2.1.moves moves apart,
      here.2.2.moves moves apart⟩
  | removing keep =>
    obtain ⟨pruning, awaits, scans, keeps⟩ := here
    exact ⟨moves.pruning other apart pruning, awaits.moves moves apart,
      by rwa [moves.scans other apart], keeps.moves sound after moves (by simp [pruning])⟩
  | closing keep left =>
    obtain ⟨pruning, awaits, scans, keeps, loaded⟩ := here
    refine ⟨moves.pruning other apart pruning, awaits.moves moves apart,
      by rwa [moves.scans other apart], keeps.moves sound after moves (by simp [pruning]), ?_⟩
    intro sha there
    obtain old | inside := moves.parents sha there
    · exact loaded sha old
    · simp [sound.exclusive (by simp [pruning]) thread] at inside

end Others

section Updates

variable {store next : ParentStore} {thread : Nat} {name : ParentName}

theorem NameSound.mono (sound : store.NameSound name) (uses : store.uses ≤ next.uses)
    (sections : (store.sections.get name.recorder).isSome →
      (next.sections.get name.recorder).isSome)
    (entries : (store.entries.get name.parent).isSome → (next.entries.get name.parent).isSome) :
    next.NameSound name :=
  ⟨fun count ended => Nat.le_trans (sound.stamped count ended) uses,
    fun named counts open_ => sections (sound.inSection named counts open_),
    fun named state => entries (sound.kept named state), sound.awaits⟩

section

variable (sound : store.NamesSound) (warms : next.warms = store.warms)
  (deltas : next.deltas = store.deltas)
include sound warms deltas

theorem NamesSound.mono (uses : store.uses ≤ next.uses)
    (sections : ∀ thread, (store.sections.get thread).isSome → (next.sections.get thread).isSome)
    (entries : ∀ sha, (store.entries.get sha).isSome → (next.entries.get sha).isSome) :
    next.NamesSound := by
  refine ⟨?_, ?_⟩
  · intro uid name got
    obtain ⟨has, noted⟩ := sound.warms uid name (warms ▸ got)
    exact ⟨has.mono uses (sections _) (entries _), noted⟩
  · intro key name got
    exact (sound.deltas key name (deltas ▸ got)).mono uses (sections _) (entries _)

theorem NamesSound.congr (uses : next.uses = store.uses) (sections : next.sections = store.sections)
    (entries : next.entries = store.entries) : next.NamesSound :=
  sound.mono warms deltas (Nat.le_of_eq uses.symm) (fun _ => by rw [sections]; exact id)
    fun _ => by rw [entries]; exact id

end

theorem isSome_put {κ ν : Type} [DecidableEq κ] (table : Table κ ν) (key query : κ) (value : ν)
    (here : (table.get query).isSome) : ((table.put key value).get query).isSome := by
  simp only [get_put]
  split
  · rfl
  · exact here

theorem Sound.openSection (sound : store.Sound) (free : store.pruning = none) (thread : Nat) :
    ({ store with sections := store.sections.put thread [] } : ParentStore).Sound := by
  refine ⟨by simp [free], sound.loaded, sound.apart, ?_,
    sound.names.mono rfl rfl (Nat.le_refl _) (fun _ => isSome_put _ _ _ _) fun _ => id,
    sound.pruned⟩
  intro other parents got parent mem
  obtain ⟨_, got⟩ | ⟨_, got⟩ := get_put_eq_some got
  · simp [← got] at mem
  · exact sound.obtained other parents got parent mem

theorem Sound.closeSection (sound : store.Sound) (ended : store.Ended thread) :
    ({ store with sections := store.sections.drop thread } : ParentStore).Sound := by
  have names : ∀ {name}, store.NameSound name →
      (name.recorder = thread → name.parent ≠ "" → name.ended ≠ none) →
      ({ store with sections := store.sections.drop thread } : ParentStore).NameSound name := by
    intro name has over_
    refine ⟨has.stamped, ?_, has.kept, has.awaits⟩
    intro named counts open_
    have apart : name.recorder ≠ thread := fun mine => over_ mine named open_
    rw [get_drop_other _ apart]
    exact has.inSection named counts open_
  refine ⟨?_, sound.loaded, sound.apart, ?_, ⟨?_, ?_⟩, sound.pruned⟩
  · intro locked other
    simp only [get_drop]
    split
    · rfl
    · exact sound.exclusive locked other
  · intro other parents got parent mem
    obtain ⟨_, got⟩ := get_drop_eq_some got
    exact sound.obtained other parents got parent mem
  · exact fun uid name got => ⟨names (sound.names.warms uid name got).1
      fun mine named => ended.1 uid name got mine named, (sound.names.warms uid name got).2⟩
  · exact fun key name got => names (sound.names.deltas key name got)
      fun mine named => ended.2 key name got mine named

theorem stamp_recorder (name : ParentName) (thread count : Nat) (got : Bool) :
    (name.stamp thread count got).recorder = name.recorder := by
  unfold ParentName.stamp
  split <;> rfl

theorem stamp_cases (name : ParentName) (thread count : Nat) (got : Bool) :
    ((name.recorder ≠ thread ∨ name.ended ≠ none) ∧ name.stamp thread count got = name) ∨
    (name.recorder = thread ∧ name.ended = none ∧ (name.stamp thread count got).ended = some count ∧
      (name.stamp thread count got).state ≠ .awaiting ∧
      ((name.stamp thread count got).state = name.state ∨ name.state = .awaiting ∧
          ((name.stamp thread count got).state = .ensured → got = true) ∧
          (name.stamp thread count got).state ≠ .recorded)) := by
  by_cases mine : name.recorder = thread ∧ name.ended = none
  · refine .inr ⟨mine.1, mine.2, ?_⟩
    by_cases waiting : name.state = .awaiting
    · cases got <;> simp [ParentName.stamp, mine, waiting]
    · simp [ParentName.stamp, mine, waiting]
  · refine .inl ⟨?_, by simp only [ParentName.stamp, if_neg mine]⟩
    by_contra both
    push Not at both
    exact mine both

theorem NameSound.endUse {got : Bool} (sound : store.NameSound name)
    (ensured : name.recorder = thread → name.state = .awaiting → got = true →
      (store.entries.get name.parent).isSome) :
    (store.endUse thread got).NameSound (name.stamp thread (store.uses + 1) got) := by
  obtain ⟨_, same⟩ | ⟨mine, open_, ended, counts, state⟩ :=
    stamp_cases name thread (store.uses + 1) got
  · rw [same]
    exact sound.mono (Nat.le_succ _) id id
  · refine ⟨?_, ?_, ?_, fun waiting => absurd waiting counts⟩
    · intro count same
      rw [ended, Option.some.injEq] at same
      exact Nat.le_of_eq same.symm
    · intro _ _ unended
      simp [ended] at unended
    · have stamped : (name.stamp thread (store.uses + 1) got).parent = name.parent := by
        unfold ParentName.stamp
        split <;> rfl
      rw [stamped]
      intro named kept
      obtain same | ⟨waiting, whenFound, other⟩ := state
      · exact sound.kept named (same ▸ kept)
      · obtain noted | here := kept
        · exact absurd noted other
        · exact ensured mine waiting (whenFound here)

theorem Sound.endUse {got : Bool} (sound : store.Sound)
    (ensured : got = true → ∀ key name, store.deltas.get key = some name →
      name.recorder = thread → name.state = .awaiting → (store.entries.get name.parent).isSome) :
    (store.endUse thread got).Sound := by
  refine ⟨sound.exclusive, sound.loaded, sound.apart, sound.obtained, ⟨?_, ?_⟩, sound.pruned⟩
  · intro uid name found_
    simp only [ParentStore.endUse, get_map, Option.map_eq_some_iff] at found_
    obtain ⟨old, there, rfl⟩ := found_
    obtain ⟨has, noted⟩ := sound.names.warms uid old there
    refine ⟨has.endUse fun _ waiting => by simp [noted] at waiting, ?_⟩
    unfold ParentName.stamp
    split
    · simp [noted]
    · exact noted
  · intro key name found_
    simp only [ParentStore.endUse, get_map, Option.map_eq_some_iff] at found_
    obtain ⟨old, there, rfl⟩ := found_
    exact (sound.names.deltas key old there).endUse
      fun mine waiting ok => ensured ok key old there mine waiting

theorem Sound.setNames {warms : Table String ParentName}
    {deltas : Table (String × String) ParentName} (sound : store.Sound)
    (warmNames : ∀ uid name, warms.get uid = some name →
      store.NameSound name ∧ name.state = .recorded)
    (deltaNames : ∀ key name, deltas.get key = some name → store.NameSound name) :
    ({ store with warms := warms, deltas := deltas } : ParentStore).Sound :=
  ⟨sound.exclusive, sound.loaded, sound.apart, sound.obtained,
    ⟨fun uid name got => ⟨(warmNames uid name got).1.mono (Nat.le_refl _) id id,
      (warmNames uid name got).2⟩,
    fun key name got => (deltaNames key name got).mono (Nat.le_refl _) id id⟩, sound.pruned⟩

theorem forall_put {κ : Type} [DecidableEq κ] {names : Table κ ParentName} {key : κ}
    (good : ParentName → Prop) (old : ∀ query name, names.get query = some name → good name)
    (new : good name) (query : κ) (other : ParentName)
    (got : (names.put key name).get query = some other) : good other := by
  obtain ⟨_, got⟩ | ⟨_, got⟩ := get_put_eq_some got
  · exact got ▸ new
  · exact old query other got

theorem forall_drop {κ : Type} [DecidableEq κ] {names : Table κ ParentName} {key : κ}
    (good : ParentName → Prop) (old : ∀ query name, names.get query = some name → good name)
    (query : κ) (other : ParentName) (got : (names.drop key).get query = some other) :
    good other := by
  obtain ⟨_, got⟩ := get_drop_eq_some got
  exact old query other got

variable {sha : String}

theorem nameSound_recorded (inside : sha ≠ "" → (store.sections.get thread).isSome)
    (there : sha ≠ "" → (store.entries.get sha).isSome) :
    store.NameSound { parent := sha, recorder := thread } :=
  ⟨by simp, fun named _ _ => inside named, fun named _ => there named, by simp⟩

theorem nameSound_awaiting (sha : String) :
    store.NameSound { parent := sha, recorder := thread, state := .awaiting } :=
  ⟨by simp, fun _ counts => by simp [ParentName.counts] at counts, fun _ state => by simp at state,
    fun _ => rfl⟩

theorem Sound.publishWarm {uid : String} (sound : store.Sound)
    (inside : sha ≠ "" → (store.sections.get thread).isSome)
    (there : sha ≠ "" → (store.entries.get sha).isSome) :
    ({ store with warms := store.warms.put uid { parent := sha, recorder := thread } } :
      ParentStore).Sound :=
  sound.setNames (forall_put _ sound.names.warms ⟨nameSound_recorded inside there, rfl⟩) sound.names.deltas

theorem Sound.dropWarm (sound : store.Sound) (uid : String) :
    ({ store with warms := store.warms.drop uid } : ParentStore).Sound :=
  sound.setNames (forall_drop _ sound.names.warms) sound.names.deltas

theorem Sound.putDelta {key : String × String} (sound : store.Sound) (new : store.NameSound name) :
    ({ store with deltas := store.deltas.put key name } : ParentStore).Sound :=
  sound.setNames sound.names.warms (forall_put _ sound.names.deltas new)

theorem Sound.dropDelta (sound : store.Sound) (key : String × String) :
    ({ store with deltas := store.deltas.drop key } : ParentStore).Sound :=
  sound.setNames sound.names.warms (forall_drop _ sound.names.deltas)

theorem Sound.addEntry (sound : store.Sound) (sha : String) :
    ({ store with entries := store.entries.put sha () } : ParentStore).Sound :=
  ⟨sound.exclusive,
    fun query parent got => ⟨isSome_put _ _ _ _ (sound.loaded query parent got).1,
      (sound.loaded query parent got).2⟩,
    sound.apart, sound.obtained,
    sound.names.mono rfl rfl (Nat.le_refl _) (fun _ => id) fun _ => isSome_put _ _ _ _,
    sound.pruned⟩

theorem Sound.setLoads {loads : Heap LoadState} (sound : store.Sound)
    (kept : ∀ parent, parent < store.loads.size → store.loads.read parent = .shared →
      parent < loads.size ∧ loads.read parent = .shared) :
    ({ store with loads := loads } : ParentStore).Sound :=
  ⟨sound.exclusive,
    fun sha parent got => ⟨(sound.loaded sha parent got).1,
      kept parent (sound.loaded sha parent got).2.1 (sound.loaded sha parent got).2.2⟩,
    sound.apart,
    fun thread parents got parent mem =>
      kept parent (sound.obtained thread parents got parent mem).1
        (sound.obtained thread parents got parent mem).2,
    sound.names.congr rfl rfl rfl rfl rfl, sound.pruned⟩

theorem shared_write {loads : Heap LoadState} {own : Nat} (mine : loads.read own = .own thread)
    (state : LoadState) (parent : Nat) (old : parent < loads.size)
    (shared : loads.read parent = .shared) :
    parent < (loads.write own state).size ∧ (loads.write own state).read parent = .shared := by
  refine ⟨old, ?_⟩
  rw [read_write]
  split
  · rename_i same
    simp [same, mine] at shared
  · exact shared

theorem Sound.obtain (sound : store.Sound) {parent : Nat} (bound : parent < store.loads.size)
    (shared : store.loads.read parent = .shared) : (store.obtain thread parent).Sound := by
  unfold ParentStore.obtain
  split
  · rename_i obtained here
    refine ⟨?_, sound.loaded, sound.apart, ?_,
      sound.names.mono rfl rfl (Nat.le_refl _) (fun _ => isSome_put _ _ _ _) fun _ => id,
      sound.pruned⟩
    · intro locked
      simp [sound.exclusive locked thread] at here
    · intro other parents got loaded mem
      obtain ⟨_, rfl⟩ | ⟨_, got⟩ := get_put_eq_some got
      · obtain rfl | mem := List.mem_cons.mp mem
        · exact ⟨bound, shared⟩
        · exact sound.obtained thread obtained here loaded mem
      · exact sound.obtained other parents got loaded mem
  · exact sound

theorem Sound.share {own : Nat} (sound : store.Sound) (there : (store.entries.get sha).isSome)
    (bound : own < store.loads.size) (mine : store.loads.read own = .own thread) :
    ({ store with
      parents := store.parents.put sha own
      loads := store.loads.write own .shared } : ParentStore).Sound := by
  have old := sound.setLoads (shared_write mine .shared)
  refine ⟨old.exclusive, ?_, ?_, old.obtained, sound.names.congr rfl rfl rfl rfl rfl, old.pruned⟩
  · intro query parent got
    obtain ⟨same, rfl⟩ | ⟨_, got⟩ := get_put_eq_some got
    · subst query
      exact ⟨there, bound, by simp⟩
    · exact old.loaded query parent got
  · have other : ∀ query, store.parents.get query ≠ some own := by
      intro query got
      have shared := (sound.loaded query own got).2.2
      simp [mine] at shared
    intro one two parent first second
    simp only [get_put] at first second
    split at first
    · rename_i same
      cases first
      subst one
      split at second
      · rename_i same
        exact same.symm
      · exact absurd second (other two)
    · split at second
      · cases second
        exact absurd first (other one)
      · exact sound.apart one two parent first second

theorem Sound.lock (sound : store.Sound) (unused : store.sections.rows = []) :
    ({ store with pruning := some thread } : ParentStore).Sound := by
  refine ⟨?_, sound.loaded, sound.apart, sound.obtained, sound.names.congr rfl rfl rfl rfl rfl,
    sound.pruned⟩
  intro _ other
  cases got : store.sections.get other with
  | none => rfl
  | some parents =>
    have mem := (mem_rows_iff _ _ _).mpr got
    simp [unused] at mem

theorem Sound.unlock (sound : store.Sound) :
    ({ store with pruning := none } : ParentStore).Sound :=
  ⟨by simp, sound.loaded, sound.apart, sound.obtained, sound.names.congr rfl rfl rfl rfl rfl,
    sound.pruned⟩

theorem Sound.setScans (sound : store.Sound) (scans : Table Nat Unit) :
    ({ store with scans := scans } : ParentStore).Sound :=
  ⟨sound.exclusive, sound.loaded, sound.apart, sound.obtained,
    sound.names.congr rfl rfl rfl rfl rfl, sound.pruned⟩

theorem Sound.closeParent (sound : store.Sound) (locked : store.pruning.isSome) (sha : String) :
    (store.closeParent sha).Sound := by
  unfold ParentStore.closeParent
  split
  · rename_i parent got
    have unused := sound.exclusive locked
    refine ⟨sound.exclusive, ?_, ?_, ?_, sound.names.congr rfl rfl rfl rfl rfl, sound.pruned⟩
    · intro query other there
      obtain ⟨apart, there⟩ := get_drop_eq_some there
      obtain ⟨entry, bound, shared⟩ := sound.loaded query other there
      refine ⟨entry, bound, ?_⟩
      rw [read_write]
      split
      · rename_i same
        subst other
        exact absurd (sound.apart _ _ _ there got) apart
      · exact shared
    · intro one two other first second
      simp only [get_drop] at first second
      split at first
      · simp at first
      · split at second
        · simp at second
        · exact sound.apart one two other first second
    · intro other parents here
      simp [unused other] at here
  · exact sound

theorem KeepsAll.unnamed {keep : List String} (keeps : store.KeepsAll keep) (out : sha ∉ keep) :
    store.named sha = false := by
  by_cases proper : sha = ""
  · simp [ParentStore.named, proper]
  · simp only [ParentStore.named, Bool.and_eq_false_iff, Bool.or_eq_false_iff, List.any_eq_false]
    refine .inr ⟨?_, ?_⟩
    · rintro ⟨uid, name⟩ mem same
      simp only [decide_eq_true_eq] at same
      subst sha
      exact out (keeps.1 uid name ((mem_rows_iff _ _ _).mp mem) proper)
    · rintro ⟨key, name⟩ mem same
      simp only [Bool.and_eq_true, decide_eq_true_eq] at same
      obtain ⟨rfl, counts⟩ := same
      exact out (keeps.2 key name ((mem_rows_iff _ _ _).mp mem) counts proper)

theorem Sound.removeEntry {keep : List String} (sound : store.Sound) (keeps : store.KeepsAll keep)
    (out : sha ∉ keep) (unloaded : store.parents.get sha = none) :
    ({ store with
      entries := store.entries.drop sha
      removed := ⟨sha, store.named sha⟩ :: store.removed } : ParentStore).Sound := by
  have stays : ∀ other, other ∈ keep → (store.entries.get other).isSome →
      ((store.entries.drop sha).get other).isSome := by
    intro other kept there
    rwa [get_drop_other]
    rintro rfl
    exact out kept
  refine ⟨sound.exclusive, ?_, sound.apart, sound.obtained, ⟨?_, ?_⟩, ?_⟩
  · intro other parent got
    obtain ⟨there, loaded⟩ := sound.loaded other parent got
    refine ⟨?_, loaded⟩
    rwa [get_drop_other]
    rintro rfl
    simp [unloaded] at got
  · intro uid name got
    obtain ⟨has, noted⟩ := sound.names.warms uid name got
    refine ⟨⟨has.stamped, has.inSection, ?_, has.awaits⟩, noted⟩
    intro named state
    exact stays _ (keeps.1 uid name got named) (has.kept named state)
  · intro key name got
    have has := sound.names.deltas key name got
    refine ⟨has.stamped, has.inSection, ?_, has.awaits⟩
    intro named state
    have counts : name.counts := by
      obtain noted | ensured := state
      · simp [ParentName.counts, noted]
      · simp [ParentName.counts, ensured]
    exact stays _ (keeps.2 key name got counts named) (has.kept named state)
  · intro entry mem
    obtain rfl | mem := List.mem_cons.mp mem
    · exact keeps.unnamed out
    · exact sound.pruned entry mem

theorem Sound.renameFailed (sound : store.Sound) (grant name : String) (fine : Bool) :
    (store.renameFailed grant name fine).Sound := by
  have cleared := sound.dropDelta (grant, name ++ ".failed")
  unfold ParentStore.renameFailed
  split
  · rename_i got here
    have has := sound.names.deltas _ _ here
    exact sound.setNames sound.names.warms
      (forall_put _ (forall_drop _ (forall_drop _ sound.names.deltas)) has)
  · exact cleared

end Updates

end ParentStore

end Fiberd
