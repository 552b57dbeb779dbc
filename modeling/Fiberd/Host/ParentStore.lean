import Fiberd.File
import Fiberd.Lib.Heaps
import Fiberd.Lib.Programs

/-!
A home's store of template checkpoints (`pkg/runtime/host/parents_linux.go`): the
warms and delta manifests that name its entries, the sections that use them, and
the prune.  A section is a call between its `RLock` of `storeMu` and its `RUnlock`;
the prune scans the names without the lock and removes under `TryLock`.
-/

namespace Fiberd

open Heaps Tables Programs

/-- Whether a name was recorded in the section of its call, or by a claim before its section, and
then what that section did. -/
inductive NameState where
  | recorded
  | awaiting
  | ensured
  | refused
  deriving DecidableEq, Repr

/-- A parent's name, in a published warm or in a readable manifest; `""` where none is named.
The other fields are marks of the model: the call that recorded it, and the number of sections
that had ended when that call's section ended. -/
structure ParentName where
  parent : String
  recorder : Nat
  state : NameState := .recorded
  ended : Option Nat := none
  deriving DecidableEq, Repr

structure PrunedEntry where
  sha : String
  named : Bool
  deriving DecidableEq, Repr

/-- A loaded parent: still its loader's alone, in the map of loaded ones, or closed. -/
inductive LoadState where
  | own (thread : Nat)
  | shared
  | closed
  deriving DecidableEq, Repr

instance : Inhabited LoadState := ⟨.closed⟩

structure ParentStore where
  /-- The open sections, each with the loaded parents it has obtained. -/
  sections : Table Nat (List Nat)
  pruning : Option Nat
  uses : Nat
  warms : Table String ParentName
  deltas : Table (String × String) ParentName
  entries : Table String Unit
  parents : Table String Nat
  loads : Heap LoadState
  /-- The scans under way.  This field and the next are marks of the model. -/
  scans : Table Nat Unit
  removed : List PrunedEntry

def newParentStore : ParentStore where
  sections := ∅
  pruning := none
  uses := 0
  warms := ∅
  deltas := ∅
  entries := ∅
  parents := ∅
  loads := Heap.empty
  scans := ∅
  removed := []

inductive ParentAct where
  | openSection
  /-- `storeUses.Add(1)`.  The flag says whether a claim's section found or pulled its parent. -/
  | endUse (found : Bool)
  | closeSection
  | beginScan
  /-- The scan is over.  No step of the source. -/
  | endScan
  | loadUses
  | readWarms
  | listGrants
  | listDeltas (grant : String)
  | readManifest (grant name : String)
  | tryLock
  | unlock
  | loadedParents
  | closeParent (sha : String)
  | listStore
  | removeEntry (sha : String)
  | loadImages
  | hasEntry (sha : String)
  | fileEntry (sha : String)
  | pullEntry (sha : String)
  | dropOwn (parent : Nat)
  | loadStored (sha : String)
  | lookLoaded (sha : String)
  | keepLoaded (sha : String) (parent : Nat)
  | publishWarm (uid sha : String)
  | dropWarm (uid : String)
  | warmOf (uid : String)
  | writeManifest (grant name sha : String)
  | claimManifest (grant name sha : String)
  | removeDelta (grant name : String)
  | renameFailed (grant name : String)
  /-- Work of the call's own that may fail. -/
  | work

abbrev ParentAct.Result : ParentAct → Type
  | .beginScan | .loadUses => Nat
  | .readWarms | .loadedParents => List String
  | .listGrants | .listDeltas _ | .listStore => ReadResult (List String)
  | .readManifest _ _ => String
  | .loadImages | .loadStored _ | .lookLoaded _ => Option Nat
  | .keepLoaded _ _ => Nat
  | .warmOf _ => String
  | .tryLock | .hasEntry _ | .fileEntry _ | .pullEntry _ | .removeEntry _ | .writeManifest _ _ _
  | .claimManifest _ _ _ | .work => Bool
  | _ => Unit

namespace ParentName

/-- A claim's manifest counts once its section has run. -/
def counts (name : ParentName) : Bool := name.state ≠ .awaiting

def stamp (name : ParentName) (thread count : Nat) (found : Bool) : ParentName :=
  if name.recorder = thread ∧ name.ended = none then
    { name with
      ended := some count
      state := if name.state = .awaiting then if found then .ensured else .refused
        else name.state }
  else name

end ParentName

namespace ParentStore

def named (store : ParentStore) (sha : String) : Bool :=
  sha ≠ "" && (store.warms.rows.any (fun row => row.2.parent = sha) ||
    store.deltas.rows.any fun row => row.2.parent = sha && row.2.counts)

def obtain (store : ParentStore) (thread parent : Nat) : ParentStore :=
  match store.sections.get thread with
  | some obtained => { store with sections := store.sections.put thread (parent :: obtained) }
  | none => store

def endUse (store : ParentStore) (thread : Nat) (found : Bool) : ParentStore :=
  { store with
    uses := store.uses + 1
    warms := store.warms.map fun name => name.stamp thread (store.uses + 1) found
    deltas := store.deltas.map fun name => name.stamp thread (store.uses + 1) found }

def closeParent (store : ParentStore) (sha : String) : ParentStore :=
  match store.parents.get sha with
  | some parent => { store with
      parents := store.parents.drop sha
      loads := store.loads.write parent .closed }
  | none => store

def keepLoaded (store : ParentStore) (thread : Nat) (sha : String) (own : Nat) :
    Nat × ParentStore :=
  match store.parents.get sha with
  | some parent =>
    (parent, { store with loads := store.loads.write own .closed }.obtain thread parent)
  | none =>
    (own, { store with
      parents := store.parents.put sha own
      loads := store.loads.write own .shared }.obtain thread own)

/-- `os.RemoveAll(dir + ".failed")` and `os.Rename(dir, dir+".failed")`. -/
def renameFailed (store : ParentStore) (grant name : String) (fine : Bool) : ParentStore :=
  let cleared := store.deltas.drop (grant, name ++ ".failed")
  match store.deltas.get (grant, name), fine with
  | some found, true => { store with
      deltas := (cleared.drop (grant, name)).put (grant, name ++ ".failed") found }
  | _, _ => { store with deltas := cleared }

def perform (store : ParentStore) (thread : Nat) (action : ParentAct) (fine : Bool) :
    Option (action.Result × ParentStore) :=
  match action with
  | .openSection =>
    match store.pruning with
    | some _ => none
    | none => some ((), { store with sections := store.sections.put thread [] })
  | .endUse found => some ((), store.endUse thread found)
  | .closeSection => some ((), { store with sections := store.sections.drop thread })
  | .beginScan => some (store.uses, { store with scans := store.scans.put thread () })
  | .endScan => some ((), { store with scans := store.scans.drop thread })
  | .loadUses => some (store.uses, store)
  | .readWarms => some (store.warms.rows.map fun row => row.2.parent, store)
  | .listGrants =>
    if fine then some (.found (store.deltas.rows.map fun row => row.1.1), store)
    else some (if store.deltas.rows.isEmpty then .missing else .failed, store)
  | .listDeltas grant =>
    if fine then
      some (.found ((store.deltas.rows.filter fun row => row.1.1 = grant).map
        fun row => row.1.2), store)
    else
      some (if store.deltas.rows.any fun row => row.1.1 = grant then .failed else .missing, store)
  | .readManifest grant name =>
    match store.deltas.get (grant, name) with
    | some found => some (found.parent, store)
    | none => some ("", store)
  | .tryLock =>
    if store.pruning = none ∧ store.sections.rows = [] then
      some (true, { store with pruning := some thread })
    else some (false, store)
  | .unlock => some ((), { store with pruning := none })
  | .loadedParents => some (store.parents.rows.map Prod.fst, store)
  | .closeParent sha => some ((), store.closeParent sha)
  | .listStore =>
    some (if fine then .found (store.entries.rows.map Prod.fst) else .failed, store)
  | .removeEntry sha =>
    if fine then
      some (true, { store with
        entries := store.entries.drop sha
        removed := ⟨sha, store.named sha⟩ :: store.removed })
    else some (false, store)
  | .loadImages =>
    if fine then
      some (some store.loads.size, { store with loads := store.loads.alloc (.own thread) })
    else some (none, store)
  | .hasEntry sha => some ((store.entries.get sha).isSome, store)
  | .fileEntry sha =>
    if fine then some (true, { store with entries := store.entries.put sha () })
    else some (false, store)
  | .pullEntry sha =>
    if fine then some (true, { store with entries := store.entries.put sha () })
    else some (false, store)
  | .dropOwn parent => some ((), { store with loads := store.loads.write parent .closed })
  | .loadStored sha =>
    if fine ∧ (store.entries.get sha).isSome then
      some (some store.loads.size, { store with loads := store.loads.alloc (.own thread) })
    else some (none, store)
  | .lookLoaded sha =>
    match store.parents.get sha with
    | some parent => some (some parent, store.obtain thread parent)
    | none => some (none, store)
  | .keepLoaded sha own => some (store.keepLoaded thread sha own)
  | .publishWarm uid sha =>
    some ((), { store with warms := store.warms.put uid { parent := sha, recorder := thread } })
  | .dropWarm uid => some ((), { store with warms := store.warms.drop uid })
  | .warmOf uid => some (((store.warms.get uid).map ParentName.parent).getD "", store)
  | .writeManifest grant name sha =>
    if fine then
      some (true, { store with
        deltas := store.deltas.put (grant, name) { parent := sha, recorder := thread } })
    else some (false, { store with deltas := store.deltas.drop (grant, name) })
  | .claimManifest grant name sha =>
    if fine then
      some (true, { store with
        deltas := store.deltas.put (grant, name)
          { parent := sha, recorder := thread, state := .awaiting } })
    else some (false, store)
  | .removeDelta grant name =>
    some ((), { store with deltas := store.deltas.drop (grant, name) })
  | .renameFailed grant name => some ((), store.renameFailed grant name fine)
  | .work => some (fine, store)

end ParentStore

abbrev ParentProg := Prog ParentAct ParentAct.Result

namespace ParentProg

def act (action : ParentAct) : ParentProg action.Result := Prog.act action

/-- `useParents()` around a section's work. -/
def useParents (inner : ParentProg Bool) : ParentProg Bool := do
  act .openSection
  let found ← inner
  act (.endUse found)
  act .closeSection
  pure found

/-- `Runtime.parent`: in memory, or on disk in the store. -/
def parent (sha : String) : ParentProg (Option Nat) := do
  match ← act (.lookLoaded sha) with
  | some loaded => pure (some loaded)
  | none =>
    if ← act (.hasEntry sha) then
      match ← act (.loadStored sha) with
      | some own => some <$> act (.keepLoaded sha own)
      | none => pure none
    else pure none

def keepStored (sha : String) : ParentProg Bool := do
  match ← act (.loadStored sha) with
  | some own => do
      let _ ← act (.keepLoaded sha own)
      pure true
  | none => pure false

def registerParent (sha : String) (move : Bool) : ParentProg Bool := do
  match ← act .loadImages with
  | none => pure false
  | some own =>
    if ← act .work then
      if ← act (.hasEntry sha) then
        if move then do
          act (.dropOwn own)
          keepStored sha
        else do
          let _ ← act (.keepLoaded sha own)
          pure true
      else if ← act (.fileEntry sha) then do
        act (.dropOwn own)
        keepStored sha
      else do
        act (.dropOwn own)
        pure false
    else do
      act (.dropOwn own)
      pure false

def warm (uid sha : String) (move : Bool) : ParentProg Unit := do
  let _ ← useParents do
    let filed ← registerParent sha move
    act (.publishWarm uid (if filed then sha else ""))
    pure true
  pure ()

/-- From the warm that names the parent to the manifest that names it next, one section. -/
def recordPark (grant name : String) : ParentProg Bool := useParents do
  let sha ← act (.warmOf grant)
  let stripped ←
    if sha = "" then pure false
    else
      match ← parent sha with
      | some _ => act .work
      | none => pure false
  act (.writeManifest grant name (if stripped then sha else ""))

/-- `Park` into the directory; a park that fails keeps it aside as `.failed`. -/
def park (grant name : String) (sync : Bool) : ParentProg Bool := do
  act (.removeDelta grant name)
  if ← act .work then
    if ← recordPark grant name then
      if !sync then pure true
      else if ← act .work then pure true
      else do
        act (.renameFailed grant name)
        pure false
    else if sync then do
      act (.renameFailed grant name)
      pure false
    else pure true
  else do
    act (.renameFailed grant name)
    pure false

def merge (sha : String) : ParentProg Bool := useParents do
  match ← parent sha with
  | some _ => act .work
  | none => pure false

def publishParent (sha : String) : ParentProg Bool := useParents do
  if ← act (.hasEntry sha) then act .work else pure false

def ensureParent (sha : String) : ParentProg Bool := useParents do
  match ← parent sha with
  | some _ => pure true
  | none => act (.pullEntry sha)

/-- `ClaimDelta`: the pulled manifest names its parent before the section that ensures it. -/
def claim (grant name sha : String) : ParentProg Bool := do
  if ← act (.claimManifest grant name sha) then
    if ← ensureParent sha then
      if ← act .work then pure true
      else do
        act (.removeDelta grant name)
        pure false
    else do
      act (.removeDelta grant name)
      pure false
  else do
    act (.removeDelta grant name)
    pure false

def scanDeltas (grant : String) : List String → List String → ParentProg (List String)
  | keep, [] => pure keep
  | keep, name :: names => do
      let parent ← act (.readManifest grant name)
      scanDeltas grant (if parent = "" then keep else parent :: keep) names

def scanGrants : List String → List String → ParentProg (Option (List String))
  | keep, [] => pure (some keep)
  | keep, grant :: grants => do
      match ← act (.listDeltas grant) with
      | .failed => pure none
      | .missing => scanGrants keep grants
      | .found names => do
          let more ← scanDeltas grant keep names
          scanGrants more grants

def namedParents : ParentProg (Option (List String)) := do
  let keep ← act .readWarms
  match ← act .listGrants with
  | .failed => pure none
  | .missing => pure (some keep)
  | .found grants => scanGrants keep grants

def closeUnnamed (keep : List String) : List String → ParentProg Unit
  | [] => pure ()
  | sha :: shas => do
      if sha ∈ keep then closeUnnamed keep shas
      else do
        act (.closeParent sha)
        closeUnnamed keep shas

def removeEntries (keep : List String) : List String → ParentProg Unit
  | [] => pure ()
  | sha :: shas => do
      if sha ∈ keep then removeEntries keep shas
      else do
        let _ ← act (.removeEntry sha)
        removeEntries keep shas

def removeUnnamed (keep : List String) : ParentProg Unit := do
  closeUnnamed keep (← act .loadedParents)
  match ← act .listStore with
  | .found shas => removeEntries keep shas
  | _ => pure ()

def pruneScan : ParentProg (Option Bool) := do
  let seen ← act .beginScan
  match ← namedParents with
  | none => do
      act .endScan
      pure (some false)
  | some keep =>
    if ← act .tryLock then
      if (← act .loadUses) = seen then do
        removeUnnamed keep
        act .unlock
        act .endScan
        pure (some true)
      else do
        act .unlock
        act .endScan
        pure none
    else do
      act .endScan
      pure (some false)

def pruneScans : Nat := 3

def pruneTimes : Nat → ParentProg Bool
  | 0 => pure false
  | count + 1 => do
      match ← pruneScan with
      | some pruned => pure pruned
      | none => pruneTimes count

def pruneParents : ParentProg Bool := pruneTimes pruneScans

end ParentProg

inductive ParentCall where
  | warm (uid sha : String) (move : Bool)
  | warmPlain (uid : String)
  | dropWarm (uid : String)
  | park (grant name : String) (sync : Bool)
  | merge (sha : String)
  | publishParent (sha : String)
  | claim (grant name sha : String)
  | discard (grant name : String)
  | prune
  deriving DecidableEq, Repr

def ParentCall.body : ParentCall → ParentProg Bool
  | .warm uid sha move => do ParentProg.warm uid sha move; pure true
  | .warmPlain uid => do ParentProg.act (.publishWarm uid ""); pure true
  | .dropWarm uid => do ParentProg.act (.dropWarm uid); pure true
  | .park grant name sync => .park grant name sync
  | .merge sha => .merge sha
  | .publishParent sha => .publishParent sha
  | .claim grant name sha => .claim grant name sha
  | .discard grant name => do ParentProg.act (.removeDelta grant name); pure true
  | .prune => .pruneParents

def parentKernel : Kernel ParentStore ParentAct ParentAct.Result Bool ParentCall Bool where
  start store := store = newParentStore
  perform := ParentStore.perform
  body := ParentCall.body

abbrev ParentThreads := Threads ParentStore ParentAct ParentAct.Result Bool

abbrev ParentEvent := Event ParentCall Bool

end Fiberd
