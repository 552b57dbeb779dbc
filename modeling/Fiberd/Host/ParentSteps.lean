import Fiberd.Host.ParentSound

/-!
The actions of a section and of a prune, stage by stage.  Each keeps the store sound
and leaves alone what the other calls know of it.
-/

namespace Fiberd

open Heaps Tables Programs Machines

namespace ParentStage

def outsideAfter (claim : Option String) : (action : ParentAct) → action.Result →
    Option ParentStage
  | .openSection, _ => some (.inside claim [] none)
  | .claimManifest _ _ sha, written =>
    if claim = none then some (.outside (if written then some sha else none)) else none
  | .publishWarm _ sha, _ => if sha = "" then some (.outside claim) else none
  | .removeDelta _ _, _ => some (.outside claim)
  | .renameFailed _ _, _ => some (.outside claim)
  | .dropWarm _, _ => some (.outside claim)
  | .work, _ => some (.outside claim)
  | .beginScan, count => if claim = none then some (.seen count) else none
  | _, _ => none

def insideAfter (claim : Option String) (sure : List String) (own : Option Nat) :
    (action : ParentAct) → action.Result → Option ParentStage
  | .lookLoaded sha, found => some (.inside claim (if found.isSome then sha :: sure else sure) own)
  | .hasEntry sha, there => some (.inside claim (if there then sha :: sure else sure) own)
  | .fileEntry sha, filed => some (.inside claim (if filed then sha :: sure else sure) own)
  | .pullEntry sha, pulled => some (.inside claim (if pulled then sha :: sure else sure) own)
  | .loadStored sha, loaded =>
    if own = none then
      some (.inside claim (if loaded.isSome then sha :: sure else sure) loaded)
    else none
  | .loadImages, loaded => if own = none then some (.inside claim sure loaded) else none
  | .dropOwn parent, _ => if own = some parent then some (.inside claim sure none) else none
  | .keepLoaded sha parent, _ =>
    if own = some parent ∧ sha ∈ sure then some (.inside claim sure none) else none
  | .publishWarm _ sha, _ =>
    if sha = "" ∨ sha ∈ sure then some (.inside claim sure own) else none
  | .writeManifest _ _ sha, _ =>
    if sha = "" ∨ sha ∈ sure then some (.inside claim sure own) else none
  | .warmOf _, _ => some (.inside claim sure own)
  | .work, _ => some (.inside claim sure own)
  | .endUse found, _ =>
    if found = true → claim.all (· ∈ sure) then some .counted else none
  | _, _ => none

def scanAfter : ParentStage → (action : ParentAct) → action.Result → Option ParentStage
  | .seen count, .readWarms, keep => some (.warmed count keep)
  | .warmed count keep, .listGrants, .found grants => some (.scanning count keep grants "" [])
  | .warmed count keep, .listGrants, .missing => some (.scanning count keep [] "" [])
  | .warmed count keep, .listGrants, .failed => some (.warmed count keep)
  | .warmed _ _, .endScan, _ => some (.outside none)
  | .scanning count keep (next :: grants) _ [], .listDeltas grant, .found names =>
    if next = grant then some (.scanning count keep grants grant names) else none
  | .scanning count keep (next :: grants) _ [], .listDeltas grant, .missing =>
    if next = grant then some (.scanning count keep grants "" []) else none
  | .scanning count keep grants current [], .listDeltas _, .failed =>
    some (.scanning count keep grants current [])
  | .scanning count keep grants current (next :: names), .readManifest grant name, parent =>
    if current = grant ∧ next = name then
      some (.scanning count (if parent = "" then keep else parent :: keep) grants current names)
    else none
  | .scanning count keep [] current [], .tryLock, taken =>
    if taken then some (.locked count keep) else some (.scanning count keep [] current [])
  | .scanning _ _ _ _ _, .endScan, _ => some (.outside none)
  | _, _, _ => none

def pruneAfter : ParentStage → (action : ParentAct) → action.Result → Option ParentStage
  | .locked count keep, .loadUses, now =>
    some (if now = count then .removing keep else .locked count keep)
  | .locked _ _, .unlock, _ => some .released
  | .removing keep, .loadedParents, loaded => some (.closing keep loaded)
  | .closing keep left, .closeParent sha, _ =>
    some (.closing keep (left.filter (· ≠ sha)))
  | .closing keep left, .listStore, _ => some (.closing keep left)
  | .closing keep left, .removeEntry sha, _ =>
    if sha ∉ keep ∧ ∀ other ∈ left, other ∈ keep then some (.closing keep left) else none
  | .closing _ _, .unlock, _ => some .released
  | .released, .endScan, _ => some (.outside none)
  | _, _, _ => none

def after : ParentStage → (action : ParentAct) → action.Result → Option ParentStage
  | .outside claim, action, result => outsideAfter claim action result
  | .inside claim sure own, action, result => insideAfter claim sure own action result
  | .counted, .closeSection, _ => some (.outside none)
  | .counted, _, _ => none
  | .seen count, action, result => scanAfter (.seen count) action result
  | .warmed count keep, action, result => scanAfter (.warmed count keep) action result
  | .scanning count keep grants grant names, action, result =>
    scanAfter (.scanning count keep grants grant names) action result
  | stage, action, result => pruneAfter stage action result

end ParentStage

namespace ParentStore

structure Step (thread : Nat) (later : ParentStage) (store next : ParentStore) : Prop where
  sound : next.Sound
  here : next.At thread later
  moves : Moves thread store next

section Steps

variable {store next : ParentStore} {tid : Nat} {later : ParentStage} {fine : Bool}
  {claim : Option String}

theorem Moves.refl (store : ParentStore) (tid : Nat) : Moves tid store store :=
  ⟨Nat.le_refl _, fun _ _ => rfl, fun _ _ => id, fun _ _ => rfl, fun _ _ => id,
    fun _ _ _ bound own => ⟨bound, own⟩, fun _ => .inl, .same _, .same _⟩

theorem Moves.names {warms : Table String ParentName} {deltas : Table (String × String) ParentName}
    (fromWarms : NamesFrom store tid store.warms warms)
    (fromDeltas : NamesFrom store tid store.deltas deltas) :
    Moves tid store { store with warms := warms, deltas := deltas } :=
  { Moves.refl store tid with warms := fromWarms, deltas := fromDeltas }

theorem Moves.setSections {sections : Table Nat (List Nat)}
    (others : ∀ other, other ≠ tid → sections.get other = store.sections.get other) :
    Moves tid store { store with sections := sections } :=
  { Moves.refl store tid with sections := others }

theorem Moves.setScans {scans : Table Nat Unit}
    (others : ∀ other, other ≠ tid → scans.get other = store.scans.get other) :
    Moves tid store { store with scans := scans } :=
  { Moves.refl store tid with scans := others }

theorem NamesFrom.put {κ : Type} [DecidableEq κ] (names : Table κ ParentName) (key : κ)
    {name : ParentName} (mine : name.recorder = tid) (open_ : name.ended = none)
    (free : name.parent = "" ∨ name.state = .awaiting ∨ (store.sections.get tid).isSome) :
    NamesFrom store tid names (names.put key name) := by
  intro query other got
  obtain ⟨_, rfl⟩ | ⟨_, got⟩ := get_put_eq_some got
  · exact .inr (.inr ⟨mine, by simp [open_], free⟩)
  · exact .inl got

theorem Awaits.put {key : String × String} {name : ParentName} (awaits : store.Awaits tid claim)
    (settled : name.state ≠ .awaiting) :
    ({ store with deltas := store.deltas.put key name } : ParentStore).Awaits tid claim := by
  intro query other got mine waiting
  obtain ⟨_, got⟩ | ⟨_, got⟩ := get_put_eq_some got
  · exact absurd (got ▸ waiting) settled
  · exact awaits query other got mine waiting

theorem Awaits.drop (awaits : store.Awaits tid claim) (key : String × String) :
    ({ store with deltas := store.deltas.drop key } : ParentStore).Awaits tid claim :=
  fun query _ got => forall_drop (fun name => name.recorder = tid →
    name.state = .awaiting → claim = some name.parent) awaits query _ got

theorem renameFailed_names (store : ParentStore) (grant name : String) (fine : Bool)
    (key : String × String) (got : ParentName)
    (there : (store.renameFailed grant name fine).deltas.get key = some got) :
    ∃ old, store.deltas.get old = some got := by
  unfold ParentStore.renameFailed at there
  split at there
  · rename_i moved here
    obtain ⟨_, there⟩ | ⟨_, there⟩ := get_put_eq_some there
    · exact ⟨_, there ▸ here⟩
    · exact forall_drop (fun name => ∃ old, store.deltas.get old = some name)
        (forall_drop _ fun query _ same => ⟨query, same⟩) key got there
  · exact forall_drop (fun name => ∃ old, store.deltas.get old = some name)
      (fun query _ same => ⟨query, same⟩) key got there

variable {action : ParentAct}

variable {result : action.Result}

theorem outside_step (sound : store.Sound) (here : store.At tid (.outside claim))
    (may : ParentStage.outsideAfter claim action result = some later)
    (free : movesUnscanned store tid action fine = true)
    (ran : store.perform tid action fine = some (result, next)) : Step tid later store next := by
  obtain ⟨out, awaits⟩ := here
  cases action with
  | openSection =>
    cases may
    simp only [perform] at ran
    split at ran <;> cases ran
    rename_i unlocked
    exact ⟨sound.openSection unlocked tid, ⟨by simp, awaits, by simp, by simp⟩,
      .setSections fun _ apart => get_put_other _ _ apart⟩
  | claimManifest grant name sha =>
    simp only [ParentStage.outsideAfter] at may
    split at may <;> cases may
    rename_i unclaimed
    subst claim
    simp only [perform] at ran
    split at ran
    · cases ran
      refine ⟨sound.putDelta (nameSound_awaiting sha), ⟨out, ?_⟩,
        .names (.same _) (.put _ _ rfl rfl (.inr (.inl rfl)))⟩
      intro key other got mine waiting
      obtain ⟨_, got⟩ | ⟨_, got⟩ := get_put_eq_some got
      · simp [← got]
      · exact absurd (awaits key other got mine waiting) (by simp)
    · cases ran
      exact ⟨sound, ⟨out, awaits⟩, .refl store tid⟩
  | publishWarm uid sha =>
    simp only [ParentStage.outsideAfter] at may
    split at may
    · rename_i empty
      simp only [Option.some.injEq] at may
      cases ran
      subst sha later
      exact ⟨sound.publishWarm (by simp) (by simp), ⟨out, awaits⟩,
        .names (.put _ _ rfl rfl (.inl rfl)) (.same _)⟩
    · simp at may
  | removeDelta grant name =>
    cases may
    cases ran
    exact ⟨sound.dropDelta _, ⟨out, awaits.drop _⟩, .names (.same _) (.drop _ _)⟩
  | renameFailed grant name =>
    cases may
    cases ran
    have unscanned : store.scans.rows = [] := by simpa [movesUnscanned] using free
    have back := renameFailed_names store grant name fine
    have same : store.renameFailed grant name fine =
        { store with deltas := (store.renameFailed grant name fine).deltas } := by
      unfold ParentStore.renameFailed
      split <;> rfl
    refine ⟨sound.renameFailed grant name fine, ⟨?_, ?_⟩, ?_⟩
    · rw [same]
      exact out
    · intro key other got mine waiting
      obtain ⟨old, there⟩ := back key other got
      exact awaits old other there mine waiting
    · rw [same]
      exact .names (.same _) fun key other got => .inr (.inl ⟨unscanned, back key other got⟩)
  | dropWarm uid =>
    cases may
    cases ran
    exact ⟨sound.dropWarm uid, ⟨out, awaits⟩, .names (.drop _ _) (.same _)⟩
  | work =>
    cases may
    cases ran
    exact ⟨sound, ⟨out, awaits⟩, .refl store tid⟩
  | beginScan =>
    simp only [ParentStage.outsideAfter] at may
    split at may
    · rename_i unclaimed
      simp only [Option.some.injEq] at may
      cases ran
      subst claim later
      exact ⟨sound.setScans _, ⟨out, awaits, Nat.le_refl _, by simp⟩,
        .setScans fun _ apart => get_put_other _ _ apart⟩
    · simp at may
  | _ => cases may

variable {own : Option Nat} {sha grant current : String}

theorem At.sure {sure : List String} {known : Bool}
    (here : store.At tid (.inside claim sure own))
    (there : known = true → (store.entries.get sha).isSome) :
    store.At tid (.inside claim (if known then sha :: sure else sure) own) := by
  cases known with
  | false => exact here
  | true =>
    obtain ⟨inside, awaits, known, mine⟩ := here
    refine ⟨inside, awaits, ?_, mine⟩
    intro other mem
    obtain rfl | mem := List.mem_cons.mp mem
    · exact there rfl
    · exact known other mem

theorem Moves.addEntry (sha : String) :
    Moves tid store { store with entries := store.entries.put sha () } :=
  { Moves.refl store tid with entries := fun _ _ => isSome_put _ _ _ _ }

theorem addEntry_step {sure : List String} (sound : store.Sound)
    (here : store.At tid (.inside claim sure own)) (sha : String) :
    Step tid (.inside claim (sha :: sure) own) store
      { store with entries := store.entries.put sha () } := by
  obtain ⟨inside, awaits, known, mine⟩ := here
  refine ⟨sound.addEntry sha, ⟨inside, awaits, ?_, mine⟩, .addEntry sha⟩
  intro other mem
  obtain rfl | mem := List.mem_cons.mp mem
  · simp
  · exact isSome_put _ _ _ _ (known other mem)

theorem obtain_fields (store : ParentStore) (tid parent : Nat) :
    store.obtain tid parent =
      { store with sections := (store.obtain tid parent).sections } := by
  unfold ParentStore.obtain
  split <;> rfl

theorem obtain_others (store : ParentStore) (tid parent : Nat) {other : Nat} (apart : other ≠ tid) :
    (store.obtain tid parent).sections.get other = store.sections.get other := by
  unfold ParentStore.obtain
  split
  · exact get_put_other _ _ apart
  · rfl

variable {parent count : Nat}

theorem obtain_step {sure : List String} (sound : store.Sound)
    (here : store.At tid (.inside claim sure own)) (bound : parent < store.loads.size)
    (shared : store.loads.read parent = .shared) :
    Step tid (.inside claim sure own) store (store.obtain tid parent) := by
  obtain ⟨inside, awaits, known, mine⟩ := here
  have after : (store.obtain tid parent).Sound := sound.obtain bound shared
  have kept : ((store.obtain tid parent).sections.get tid).isSome := by
    unfold ParentStore.obtain
    split
    · simp
    · exact inside
  have others : ∀ other, other ≠ tid →
      (store.obtain tid parent).sections.get other = store.sections.get other :=
    fun _ => obtain_others store tid parent
  rw [obtain_fields] at after kept others ⊢
  exact ⟨after, ⟨kept, awaits, known, mine⟩, .setSections others⟩

theorem alloc_step {sure : List String} (sound : store.Sound)
    (here : store.At tid (.inside claim sure none)) :
    Step tid (.inside claim sure (some store.loads.size)) store
      { store with loads := store.loads.alloc (.own tid) } := by
  obtain ⟨inside, awaits, known, _⟩ := here
  refine ⟨sound.setLoads fun _ old shared => ⟨Nat.lt_succ_of_lt old, by
    rw [read_alloc_old _ _ old, shared]⟩, ⟨inside, awaits, known, ?_⟩,
    { Moves.refl store tid with loads := ?_ }⟩
  · intro parent mine
    cases mine
    exact ⟨Nat.lt_succ_self _, by simp⟩
  · intro other parent _ bound its
    exact ⟨Nat.lt_succ_of_lt bound, by rw [read_alloc_old _ _ bound, its]⟩

theorem own_write {own : Nat} (mine : store.loads.read own = .own tid) (state : LoadState)
    (other parent : Nat) (apart : other ≠ tid) (bound : parent < store.loads.size)
    (its : store.loads.read parent = .own other) : parent < (store.loads.write own state).size ∧
      (store.loads.write own state).read parent = .own other := by
  refine ⟨bound, ?_⟩
  rw [read_write]
  split
  · rename_i same
    subst parent
    rw [mine, LoadState.own.injEq] at its
    exact absurd its.symm apart
  · exact its

theorem dropOwn_step {sure : List String} {own : Nat} (sound : store.Sound)
    (here : store.At tid (.inside claim sure (some own))) :
    Step tid (.inside claim sure none) store
      { store with loads := store.loads.write own .closed } := by
  obtain ⟨inside, awaits, known, mine⟩ := here
  have its := (mine own rfl).2
  exact ⟨sound.setLoads (shared_write its .closed), ⟨inside, awaits, known, by simp⟩,
    { Moves.refl store tid with loads := own_write its .closed }⟩

theorem share_step {sure : List String} {own : Nat} (sound : store.Sound)
    (here : store.At tid (.inside claim sure (some own))) (there : sha ∈ sure) :
    Step tid (.inside claim sure none) store
      { store with
        parents := store.parents.put sha own
        loads := store.loads.write own .shared } := by
  obtain ⟨inside, awaits, known, mine⟩ := here
  obtain ⟨bound, its⟩ := mine own rfl
  exact ⟨sound.share (known sha there) bound its, ⟨inside, awaits, known, by simp⟩,
    { Moves.refl store tid with
      loads := own_write its .shared
      parents := fun _ _ => .inr inside }⟩

theorem Step.then_obtain {sure : List String} {mid : ParentStore}
    (first : Step tid (.inside claim sure own) store mid)
    (bound : parent < mid.loads.size) (shared : mid.loads.read parent = .shared) :
    Step tid (.inside claim sure own) store (mid.obtain tid parent) := by
  obtain ⟨sound, here, moves⟩ := obtain_step first.sound first.here bound shared
  have others : ∀ other, other ≠ tid →
      (mid.obtain tid parent).sections.get other = mid.sections.get other :=
    fun _ => obtain_others mid tid parent
  refine ⟨sound, here, ?_⟩
  rw [obtain_fields]
  exact { first.moves with
    sections := fun other apart => (others other apart).trans
      (first.moves.sections other apart) }

theorem keepLoaded_step {sure : List String} {own : Nat} (sound : store.Sound)
    (here : store.At tid (.inside claim sure (some own))) (there : sha ∈ sure) :
    Step tid (.inside claim sure none) store (store.keepLoaded tid sha own).2 := by
  obtain ⟨bound, its⟩ := here.2.2.2 own rfl
  unfold ParentStore.keepLoaded
  split
  · rename_i parent loaded
    obtain ⟨_, old, shared⟩ := sound.loaded sha parent loaded
    have kept := shared_write its .closed parent old shared
    exact (dropOwn_step sound here).then_obtain kept.1 kept.2
  · exact (share_step sound here there).then_obtain bound (by simp)

theorem recorded_step {sure : List String}
    (here : store.At tid (.inside claim sure own)) (known : sha = "" ∨ sha ∈ sure) :
    store.NameSound { parent := sha, recorder := tid } := by
  refine nameSound_recorded (fun _ => here.1) ?_
  intro named
  obtain empty | mem := known
  · exact absurd empty named
  · exact here.2.2.1 sha mem

section

variable (sound : store.Sound)
include sound

theorem endUse_step {sure : List String} {got : Bool} (here : store.At tid (.inside claim sure own))
    (ensured : got = true → claim.all (· ∈ sure)) :
    Step tid .counted store (store.endUse tid got) := by
  obtain ⟨inside, awaits, known, _⟩ := here
  have stampFrom : ∀ {κ : Type} [DecidableEq κ] (names : Table κ ParentName),
      NamesFrom store tid names
        (names.map fun name => name.stamp tid (store.uses + 1) got) := by
    intro κ _ names key name there
    simp only [get_map, Option.map_eq_some_iff] at there
    obtain ⟨old, before, rfl⟩ := there
    obtain ⟨_, same⟩ | ⟨mine, _, ended, _⟩ := stamp_cases old tid (store.uses + 1) got
    · rw [same]
      exact .inl before
    · refine .inr (.inr ⟨(stamp_recorder _ _ _ _).trans mine, ?_, .inr (.inr inside)⟩)
      intro count same
      rw [ended, Option.some.injEq] at same
      omega
  have stampEnded : ∀ {name : ParentName}, name.recorder = tid →
      (name.stamp tid (store.uses + 1) got).ended ≠ none := by
    intro name mine
    obtain ⟨other | over_, same⟩ | ⟨_, _, ended, _⟩ :=
      stamp_cases name tid (store.uses + 1) got
    · exact absurd mine other
    · rwa [same]
    · simp [ended]
  refine ⟨sound.endUse ?_, ⟨inside, ?_, ?_, ?_⟩, ?_⟩
  · intro ok key name there mine waiting
    have wanted := awaits key name there mine waiting
    have mem := ensured ok
    simp only [wanted, Option.all_some, decide_eq_true_eq] at mem
    exact known _ mem
  · intro key name there mine waiting
    simp only [ParentStore.endUse, get_map, Option.map_eq_some_iff] at there
    obtain ⟨old, before, rfl⟩ := there
    rw [stamp_recorder] at mine
    obtain ⟨other | over_, same⟩ | ⟨_, _, _, counts, _⟩ :=
      stamp_cases old tid (store.uses + 1) got
    · exact absurd mine other
    · rw [same] at waiting
      exact absurd ((sound.names.deltas key old before).awaits waiting) over_
    · exact absurd waiting counts
  · intro uid name there mine _
    simp only [ParentStore.endUse, get_map, Option.map_eq_some_iff] at there
    obtain ⟨old, _, rfl⟩ := there
    exact stampEnded ((stamp_recorder _ _ _ _).symm.trans mine)
  · intro key name there mine _
    simp only [ParentStore.endUse, get_map, Option.map_eq_some_iff] at there
    obtain ⟨old, _, rfl⟩ := there
    exact stampEnded ((stamp_recorder _ _ _ _).symm.trans mine)
  · exact { Moves.refl store tid with
      uses := Nat.le_succ _
      warms := stampFrom store.warms
      deltas := stampFrom store.deltas }

theorem inside_step {sure : List String} (here : store.At tid (.inside claim sure own))
    (may : ParentStage.insideAfter claim sure own action result = some later)
    (ran : store.perform tid action fine = some (result, next)) : Step tid later store next := by
  cases action with
  | lookLoaded sha =>
    cases may
    simp only [perform] at ran
    split at ran
    · rename_i parent loaded
      cases ran
      obtain ⟨there, bound, shared⟩ := sound.loaded sha parent loaded
      exact obtain_step sound (here.sure fun _ => there) bound shared
    · cases ran
      exact ⟨sound, here, .refl store tid⟩
  | hasEntry sha =>
    cases may
    cases ran
    exact ⟨sound, here.sure id, .refl store tid⟩
  | fileEntry sha | pullEntry sha =>
    cases may
    cases fine <;> simp only [perform, Bool.false_eq_true, if_true, if_false, Option.some.injEq,
      Prod.mk.injEq] at ran <;> obtain ⟨rfl, rfl⟩ := ran
    · exact ⟨sound, here, .refl store tid⟩
    · exact addEntry_step sound here sha
  | loadStored sha =>
    simp only [ParentStage.insideAfter] at may
    split at may <;> cases may
    rename_i without
    subst own
    simp only [perform] at ran
    split at ran
    · rename_i stored
      cases ran
      exact alloc_step sound (here.sure fun _ => stored.2)
    · cases ran
      exact ⟨sound, here, .refl store tid⟩
  | loadImages =>
    simp only [ParentStage.insideAfter] at may
    split at may <;> cases may
    rename_i without
    subst own
    cases fine <;> simp only [perform, Bool.false_eq_true, if_true, if_false,
      Option.some.injEq, Prod.mk.injEq] at ran <;> obtain ⟨rfl, rfl⟩ := ran
    · exact ⟨sound, here, .refl store tid⟩
    · exact alloc_step sound here
  | dropOwn parent =>
    simp only [ParentStage.insideAfter] at may
    split at may
    · rename_i mine
      simp only [Option.some.injEq] at may
      cases ran
      subst own later
      exact dropOwn_step sound here
    · simp at may
  | keepLoaded sha parent =>
    simp only [ParentStage.insideAfter] at may
    split at may
    · rename_i mine
      simp only [Option.some.injEq] at may
      replace ran := Option.some.inj ran
      obtain ⟨_, rfl⟩ := Prod.ext_iff.mp ran.symm
      obtain ⟨rfl, there⟩ := mine
      subst later
      exact keepLoaded_step sound here there
    · simp at may
  | publishWarm uid sha =>
    simp only [ParentStage.insideAfter] at may
    split at may
    · rename_i known
      simp only [Option.some.injEq] at may
      cases ran
      subst later
      have name := recorded_step here known
      refine ⟨sound.setNames (forall_put _ sound.names.warms ⟨name, rfl⟩) sound.names.deltas,
        here, .names (.put _ _ rfl rfl (.inr (.inr here.1))) (.same _)⟩
    · simp at may
  | writeManifest grant name sha =>
    simp only [ParentStage.insideAfter] at may
    split at may <;> cases may
    rename_i known
    have noted := recorded_step here known
    obtain ⟨inside, awaits, sure_, mine⟩ := here
    cases fine <;> simp only [perform, Bool.false_eq_true, if_true, if_false,
      Option.some.injEq, Prod.mk.injEq] at ran <;> obtain ⟨rfl, rfl⟩ := ran
    · exact ⟨sound.dropDelta _, ⟨inside, awaits.drop _, sure_, mine⟩,
        .names (.same _) (.drop _ _)⟩
    · exact ⟨sound.putDelta noted, ⟨inside, awaits.put (by simp), sure_, mine⟩,
        .names (.same _) (.put _ _ rfl rfl (.inr (.inr inside)))⟩
  | warmOf uid | work =>
    cases may
    cases ran
    exact ⟨sound, here, .refl store tid⟩
  | endUse got =>
    simp only [ParentStage.insideAfter] at may
    split at may
    · rename_i ensured
      simp only [Option.some.injEq] at may
      cases ran
      subst later
      exact endUse_step sound here ensured
    · simp at may
  | _ => cases may

theorem counted_step (here : store.At tid .counted)
    (may : ParentStage.after .counted action result = some later)
    (ran : store.perform tid action fine = some (result, next)) : Step tid later store next := by
  obtain ⟨_, awaits, ended⟩ := here
  cases action with
  | closeSection =>
    cases may
    cases ran
    exact ⟨sound.closeSection ended, ⟨by simp, awaits⟩,
      .setSections fun _ apart => get_drop_other _ apart⟩
  | _ => cases may

theorem endScan_step (out : store.sections.get tid = none) (awaits : store.Awaits tid none) :
    Step tid (.outside none) store { store with scans := store.scans.drop tid } :=
  ⟨sound.setScans _, ⟨out, awaits⟩, .setScans fun _ apart => get_drop_other _ apart⟩

theorem seen_step (here : store.At tid (.seen count))
    (may : ParentStage.scanAfter (.seen count) action result = some later)
    (ran : store.perform tid action fine = some (result, next)) : Step tid later store next := by
  obtain ⟨out, awaits, bound, scanning⟩ := here
  cases action with
  | readWarms =>
    cases may
    cases ran
    refine ⟨sound, ⟨out, awaits, bound, scanning, ?_, fun _ _ _ _ _ _ _ => trivial⟩,
      .refl store tid⟩
    intro uid name ended got _ _ _
    exact List.mem_map.mpr ⟨(uid, name), (mem_rows_iff _ _ _).mpr got, rfl⟩
  | _ => cases may

end

variable {keep grants left : List String}

theorem warmed_step (sound : store.Sound) (here : store.At tid (.warmed count keep))
    (may : ParentStage.scanAfter (.warmed count keep) action result = some later)
    (ran : store.perform tid action fine = some (result, next)) : Step tid later store next := by
  obtain ⟨out, awaits, bound, scanning, warms, _⟩ := here
  cases action with
  | listGrants =>
    cases fine with
    | true =>
      simp only [perform, if_true] at ran
      cases ran
      cases may
      refine ⟨sound, ⟨out, awaits, bound, scanning, warms, ?_⟩, .refl store tid⟩
      intro key name _ got _ _ _
      exact .inr (.inl (List.mem_map.mpr ⟨(key, name), (mem_rows_iff _ _ _).mpr got, rfl⟩))
    | false =>
      simp only [perform, Bool.false_eq_true, if_false] at ran
      cases ran
      by_cases empty : store.deltas.rows.isEmpty
      · simp only [empty, if_true, ParentStage.scanAfter] at may
        cases may
        refine ⟨sound, ⟨out, awaits, bound, scanning, warms, ?_⟩, .refl store tid⟩
        intro key name _ got _ _ _
        have mem := (mem_rows_iff _ _ _).mpr got
        simp [List.isEmpty_iff.mp empty] at mem
      · simp only [empty, Bool.false_eq_true, if_false, ParentStage.scanAfter] at may
        cases may
        exact ⟨sound, ⟨out, awaits, bound, scanning, warms, fun _ _ _ _ _ _ _ => trivial⟩,
          .refl store tid⟩
  | endScan =>
    cases may
    cases ran
    exact endScan_step sound out awaits
  | _ => cases may

variable {names : List String}

theorem listed_ahead (covers : Covers count store.deltas (Ahead keep (grant :: grants) current []))
    (listed : ∀ key name, store.deltas.get key = some name → key.1 = grant → key.2 ∈ names) :
    Covers count store.deltas (Ahead keep grants grant names) := by
  intro key name ended got stamped early named
  obtain kept | ahead | ⟨_, none⟩ := covers key name ended got stamped early named
  · exact .inl kept
  · obtain same | later := List.mem_cons.mp ahead
    · exact .inr (.inr ⟨same, listed key name got same⟩)
    · exact .inr (.inl later)
  · simp at none

theorem read_ahead {next parent : String}
    (covers : Covers count store.deltas (Ahead keep grants grant (next :: names)))
    (read : ∀ name, store.deltas.get (grant, next) = some name → name.parent = parent) :
    Covers count store.deltas
      (Ahead (if parent = "" then keep else parent :: keep) grants grant names) := by
  have more : ∀ sha, sha ∈ keep → sha ∈ (if parent = "" then keep else parent :: keep) := by
    intro sha mem
    split
    · exact mem
    · exact List.mem_cons_of_mem _ mem
  intro key name ended got stamped early named
  obtain kept | ahead | ⟨same, ahead⟩ := covers key name ended got stamped early named
  · exact .inl (more _ kept)
  · exact .inr (.inl ahead)
  · obtain first | later := List.mem_cons.mp ahead
    · obtain ⟨keyGrant, keyName⟩ := key
      simp only at same first
      subst keyGrant keyName
      have equal := read name got
      have proper : parent ≠ "" := equal ▸ named
      refine .inl ?_
      rw [if_neg proper, equal]
      exact List.mem_cons_self
    · exact .inr (.inr ⟨same, later⟩)

variable (sound : store.Sound)
include sound

theorem scanning_step (here : store.At tid (.scanning count keep grants current names))
    (may : ParentStage.scanAfter (.scanning count keep grants current names) action result =
      some later) (ran : store.perform tid action fine = some (result, next)) :
    Step tid later store next := by
  obtain ⟨out, awaits, bound, scanning, warms, deltas⟩ := here
  cases action with
  | listDeltas grant =>
    have unchanged : next = store := by
      cases fine <;> simp only [perform, Bool.false_eq_true, if_true, if_false,
        Option.some.injEq, Prod.mk.injEq] at ran <;> exact ran.2.symm
    subst next
    cases names with
    | cons name names => simp [ParentStage.scanAfter] at may
    | nil =>
      cases result with
      | failed =>
        simp only [ParentStage.scanAfter] at may
        cases may
        exact ⟨sound, ⟨out, awaits, bound, scanning, warms, deltas⟩, .refl store tid⟩
      | missing =>
        cases grants with
        | nil => cases may
        | cons first grants =>
          obtain ⟨rfl, rfl⟩ := passed_eq may
          have listed : ∀ key name, store.deltas.get key = some name → key.1 = first →
              False := by
            intro key name found mine
            cases fine with
            | true => cases ran
            | false =>
              simp only [perform, Bool.false_eq_true, if_false, Option.some.injEq,
                Prod.mk.injEq, and_true, ite_eq_right_iff, reduceCtorEq, imp_false,
                Bool.not_eq_true, List.any_eq_false, decide_eq_true_eq] at ran
              exact ran (key, name) ((mem_rows_iff _ _ _).mpr found) mine
          refine ⟨sound, ⟨out, awaits, bound, scanning, warms, ?_⟩, .refl store tid⟩
          have ahead : Covers count store.deltas (Ahead keep grants first []) :=
            listed_ahead deltas fun key name found mine =>
              (listed key name found mine).elim
          intro key name ended found stamped early named
          obtain kept | later | ⟨mine, _⟩ := ahead key name ended found stamped early named
          · exact .inl kept
          · exact .inr (.inl later)
          · exact (listed key name found mine).elim
      | found listing =>
        cases grants with
        | nil => cases may
        | cons first grants =>
          obtain ⟨rfl, rfl⟩ := passed_eq may
          refine ⟨sound, ⟨out, awaits, bound, scanning, warms, listed_ahead deltas ?_⟩,
            .refl store tid⟩
          intro key name found mine
          cases fine with
          | false =>
            simp only [perform, Bool.false_eq_true, if_false, Option.some.injEq,
              Prod.mk.injEq, and_true] at ran
            split at ran <;> simp at ran
          | true =>
            simp only [perform, if_true, Option.some.injEq, Prod.mk.injEq,
              ReadResult.found.injEq, and_true] at ran
            rw [← ran]
            refine List.mem_map.mpr ⟨(key, name), List.mem_filter.mpr ⟨?_, ?_⟩, rfl⟩
            · exact (mem_rows_iff _ _ _).mpr found
            · simpa using mine
  | readManifest grant name =>
    cases names with
    | nil =>
      cases grants <;> simp [ParentStage.scanAfter] at may
    | cons first names =>
      simp only [ParentStage.scanAfter, Option.ite_none_right_eq_some, Option.some.injEq]
        at may
      obtain ⟨⟨rfl, rfl⟩, rfl⟩ := may
      have unchanged : next = store ∧ ∀ found,
          store.deltas.get (current, first) = some found → found.parent = result := by
        simp only [perform] at ran
        split at ran
        · rename_i there here
          replace ran := outcome_eq ran
          refine ⟨ran.2.symm, ?_⟩
          intro found same
          rw [here, Option.some.injEq] at same
          rw [← ran.1, same]
        · rename_i gone
          cases ran
          exact ⟨rfl, fun found same => by simp [gone] at same⟩
      obtain ⟨rfl, read⟩ := unchanged
      refine ⟨sound, ⟨out, awaits, bound, scanning, ?_, read_ahead deltas read⟩,
        .refl _ tid⟩
      intro uid name ended found stamped early named
      have kept := warms uid name ended found stamped early named
      split
      · exact kept
      · exact List.mem_cons_of_mem _ kept
  | tryLock =>
    cases grants with
    | cons first grants => cases names <;> simp [ParentStage.scanAfter] at may
    | nil =>
      cases names with
      | cons first names => cases may
      | nil =>
        simp only [perform] at ran
        split at ran
        · rename_i free
          cases ran
          simp only [ParentStage.scanAfter, if_true] at may
          cases may
          refine ⟨sound.lock free.2, ⟨rfl, awaits, bound, scanning, warms, ?_⟩, ?_⟩
          · intro key name ended found stamped early named
            obtain kept | ahead | ⟨_, ahead⟩ :=
              deltas key name ended found stamped early named
            · exact kept
            · simp at ahead
            · simp at ahead
          · exact { Moves.refl store tid with
              pruning := fun other _ taken => by simp [free.1] at taken }
        · cases ran
          simp only [ParentStage.scanAfter, Bool.false_eq_true, if_false] at may
          cases may
          exact ⟨sound, ⟨out, awaits, bound, scanning, warms, deltas⟩, .refl store tid⟩
  | endScan =>
    have same : later = .outside none := by
      cases grants <;> cases names <;>
        simpa [ParentStage.scanAfter, eq_comm] using may
    cases ran
    subst later
    exact endScan_step sound out awaits
  | _ => simp [ParentStage.scanAfter] at may

theorem Scans.keepsAll (locked : store.pruning.isSome)
    (scans : store.Scans tid store.uses keep fun _ parent => parent ∈ keep) :
    store.KeepsAll keep := by
  obtain ⟨_, _, warms, deltas⟩ := scans
  have ended : ∀ name, store.NameSound name → name.counts → name.parent ≠ "" →
      ∃ count, name.ended = some count ∧ count ≤ store.uses := by
    intro name has counts named
    cases stamp : name.ended with
    | none =>
      have inside := has.inSection named counts stamp
      simp [sound.exclusive locked] at inside
    | some count => exact ⟨count, rfl, has.stamped count stamp⟩
  refine ⟨?_, ?_⟩
  · intro uid name got named
    obtain ⟨has, noted⟩ := sound.names.warms uid name got
    obtain ⟨count, stamp, early⟩ := ended name has (by simp [ParentName.counts, noted]) named
    exact warms uid name count got stamp early named
  · intro key name got counts named
    obtain ⟨count, stamp, early⟩ := ended name (sound.names.deltas key name got) counts named
    exact deltas key name count got stamp early named

theorem unlock_step (mine : store.pruning = some tid) (awaits : store.Awaits tid none) :
    Step tid .released store { store with pruning := none } := by
  refine ⟨sound.unlock, ⟨sound.exclusive (by simp [mine]) tid, awaits⟩, ?_⟩
  exact { Moves.refl store tid with
    pruning := fun other apart took => by
      rw [mine, Option.some.injEq] at took
      exact absurd took.symm apart }

theorem locked_step (here : store.At tid (.locked count keep))
    (may : ParentStage.pruneAfter (.locked count keep) action result = some later)
    (ran : store.perform tid action fine = some (result, next)) : Step tid later store next := by
  obtain ⟨mine, awaits, scans⟩ := here
  cases action with
  | loadUses =>
    cases may
    cases ran
    refine ⟨sound, ?_, .refl store tid⟩
    split
    · rename_i same
      subst count
      exact ⟨mine, awaits, scans.2.1, scans.keepsAll sound (by simp [mine])⟩
    · exact ⟨mine, awaits, scans⟩
  | unlock =>
    cases may
    cases ran
    exact unlock_step sound mine awaits
  | _ => cases may

theorem removing_step (here : store.At tid (.removing keep))
    (may : ParentStage.pruneAfter (.removing keep) action result = some later)
    (ran : store.perform tid action fine = some (result, next)) : Step tid later store next := by
  obtain ⟨mine, awaits, scanning, keeps⟩ := here
  cases action with
  | loadedParents =>
    cases may
    cases ran
    refine ⟨sound, ⟨mine, awaits, scanning, keeps, ?_⟩, .refl store tid⟩
    intro sha loaded
    obtain ⟨parent, got⟩ := Option.isSome_iff_exists.mp loaded
    exact .inr (List.mem_map.mpr ⟨(sha, parent), (mem_rows_iff _ _ _).mpr got, rfl⟩)
  | _ => cases may

theorem closeParent_step (here : store.At tid (.closing keep left)) (sha : String) :
    Step tid (.closing keep (left.filter (· ≠ sha))) store (store.closeParent sha) := by
  obtain ⟨mine, awaits, scanning, keeps, loaded⟩ := here
  have after : (store.closeParent sha).Sound := sound.closeParent (by simp [mine]) sha
  have still : ∀ other, other ≠ sha → (store.parents.get other).isSome →
      other ∈ keep ∨ other ∈ left.filter (· ≠ sha) := by
    intro other apart there
    obtain kept | left := loaded other there
    · exact .inl kept
    · exact .inr (List.mem_filter.mpr ⟨left, by simpa using apart⟩)
  unfold ParentStore.closeParent at after ⊢
  split at after
  · rename_i parent got
    refine ⟨after, ⟨mine, awaits, scanning, keeps, ?_⟩, ?_⟩
    · intro other there
      simp only [get_drop] at there
      split at there
      · simp at there
      · rename_i apart
        exact still other apart there
    · refine { Moves.refl store tid with loads := ?_, parents := ?_ }
      · intro other load _ bound its
        refine ⟨bound, ?_⟩
        rw [read_write]
        split
        · rename_i same
          subst load
          simp [(sound.loaded sha parent got).2.2] at its
        · exact its
      · intro other there
        simp only [get_drop] at there
        split at there
        · simp at there
        · exact .inl there
  · rename_i gone
    refine ⟨after, ⟨mine, awaits, scanning, keeps, ?_⟩, .refl store tid⟩
    intro other there
    refine still other ?_ there
    rintro rfl
    simp [gone] at there

theorem closing_step (here : store.At tid (.closing keep left))
    (may : ParentStage.pruneAfter (.closing keep left) action result = some later)
    (ran : store.perform tid action fine = some (result, next)) : Step tid later store next := by
  cases action with
  | closeParent sha =>
    cases may
    cases ran
    exact closeParent_step sound here sha
  | listStore =>
    cases may
    cases ran
    exact ⟨sound, here, .refl store tid⟩
  | removeEntry sha =>
    simp only [ParentStage.pruneAfter, Option.ite_none_right_eq_some, Option.some.injEq]
      at may
    obtain ⟨⟨out, closed⟩, rfl⟩ := may
    cases fine with
    | false =>
      simp only [perform, Bool.false_eq_true, if_false] at ran
      cases ran
      exact ⟨sound, here, .refl store tid⟩
    | true =>
      simp only [perform, if_true] at ran
      cases ran
      obtain ⟨mine, awaits, scanning, keeps, loaded⟩ := here
      have unloaded : store.parents.get sha = none := by
        by_contra present
        have there := Option.isSome_iff_ne_none.mpr present
        obtain kept | mem := loaded sha there
        · exact out kept
        · exact out (closed sha mem)
      exact ⟨sound.removeEntry keeps out unloaded, ⟨mine, awaits, scanning, keeps, loaded⟩,
        { Moves.refl store tid with entries := fun other => absurd mine other }⟩
  | unlock =>
    cases may
    cases ran
    exact unlock_step sound here.1 here.2.1
  | _ => cases may

theorem stage_step {stage : ParentStage} (here : store.At tid stage)
    (may : stage.after action result = some later)
    (free : movesUnscanned store tid action fine = true)
    (ran : store.perform tid action fine = some (result, next)) : Step tid later store next := by
  cases stage with
  | outside claim => exact outside_step sound here may free ran
  | inside claim sure own => exact inside_step sound here may ran
  | counted => exact counted_step sound here may ran
  | seen count => exact seen_step sound here may ran
  | warmed count keep => exact warmed_step sound here may ran
  | scanning count keep grants grant names => exact scanning_step sound here may ran
  | locked count keep => exact locked_step sound here may ran
  | removing keep => exact removing_step sound here may ran
  | closing keep left => exact closing_step sound here may ran
  | released =>
    cases action with
    | endScan =>
      cases may
      cases ran
      exact endScan_step sound here.1 here.2
    | _ => cases may

end Steps

theorem sound_newParentStore : newParentStore.Sound := by
  refine ⟨?_, ?_, ?_, ?_, ⟨?_, ?_⟩, ?_⟩ <;> simp [newParentStore]

end ParentStore

end Fiberd
