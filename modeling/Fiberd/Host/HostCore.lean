import Fiberd.Grant
import Fiberd.Lib.Heaps
import Fiberd.Lib.Programs

/-!
The templates a host keeps warm, from `pkg/runtime/host`: warm instances, the
backend's instances, device engines and their directories, opened snapshots and
handoff identities.  Each action below is one hold of `r.mu` or `r.enginesMu`,
or one call of the backend, which names its warm instances by grant.
-/

namespace Fiberd

open Heaps Tables Programs

structure Warm where
  number : Nat
  snapshot : Option Nat := none
  deriving DecidableEq, Repr

structure EngineCell where
  stopping : Bool := false
  ended : Bool := false
  deriving DecidableEq, Repr

instance : Inhabited EngineCell := ⟨{}⟩

/-- The channel waiting prepares wait on.  The call that made it is a mark of the model. -/
structure PrepareChannel where
  closed : Bool := false
  owner : Nat := 0
  deriving DecidableEq, Repr

instance : Inhabited PrepareChannel := ⟨{}⟩

structure Host where
  warms : Table String Warm
  preparing : Table String Nat
  prepared : Heap PrepareChannel
  identities : Table String String
  engines : Table String Nat
  engineCells : Heap EngineCell
  engineDirs : Table String Unit
  instances : Table String Nat
  instanceCount : Nat
  snapshots : Heap Bool
  /-- The device channel the core attached for each grant's engine or warm instance. -/
  attached : Table String Nat
  /-- The grants whose warm instance ended on its own.  The source keeps no such map. -/
  died : Table String Unit

def newHost : Host where
  warms := ∅
  preparing := ∅
  prepared := Heap.empty
  identities := ∅
  engines := ∅
  engineCells := Heap.empty
  engineDirs := ∅
  instances := ∅
  instanceCount := 0
  snapshots := Heap.empty
  attached := ∅
  died := ∅

structure HostConfig where
  canHandoff : Bool := false
  engine : Bool := false

def HostConfig.wantsEngine (config : HostConfig) (grant : Grant) : Bool :=
  config.engine && decide (0 < grant.deviceBudget.bytes)

/-- What the host asks of the machine under it.  Each is answered yes or no. -/
inductive HostQuestion where
  | derives
  | mapsRoot
  | resolvesTemplate
  | hasSnapshot
  | makesCgroups
  | makesEngineDir
  | warmsFirst
  | warmsBetween
  | warms
  | engineReady
  | engineAnswers
  | relaysEngine
  | opensDelta
  | deltaHandsOff
  deriving DecidableEq, Repr

inductive PrepareSlot where
  | warm
  | running (channel : Nat)
  | entered (channel : Nat)
  deriving DecidableEq, Repr

inductive EngineSlot where
  | stopping (engine : Nat)
  | found (engine : Nat)
  | started (engine : Nat)
  deriving DecidableEq, Repr

inductive HostAct where
  | able (question : HostQuestion)
  | identityOf (uid : String)
  | recordIdentity (uid caller : String)
  | forgetIdentity (uid : String)
  | enterPrepare (uid : String)
  | awaitPrepare (channel : Nat)
  | leavePrepare (uid : String)
  | closePrepare (channel : Nat)
  | openSnapshot
  | removeSnapshot (snapshot : Nat)
  | ensureEngineDir (uid : String)
  | dropEngineDir (uid : String)
  | enterEngine (uid : String) (gone : Option Nat)
  | awaitEngine (engine : Nat)
  | engineOf (uid : String)
  | stopEngine (engine : Nat)
  | endEngine (engine : Nat)
  | forgetEngine (uid : String) (engine : Nat)
  | warm (uid : String)
  | unwarm (uid : String)
  | publish (uid : String) (warm : Warm)
  | takeWarm (uid : String)
  | warmOf (uid : String)
  | attachDevices (uid : String) (channel : Nat)
  | lose (uid : String) (number : Nat)
  | warmGone (uid : String) (number : Nat)
  | spin
  deriving DecidableEq, Repr

abbrev HostAct.Result : HostAct → Type
  | .able _ => Bool
  | .identityOf _ => Option String
  | .enterPrepare _ => PrepareSlot
  | .awaitPrepare _ => Bool
  | .openSnapshot => Nat
  | .enterEngine _ _ => EngineSlot
  | .awaitEngine _ => Bool
  | .engineOf _ => Option Nat
  | .warm _ => Nat
  | .takeWarm _ => Option Warm
  | .warmOf _ => Option Warm
  | .warmGone _ _ => Option (Option Warm)
  | .spin => Empty
  | _ => Unit

namespace Host

def enterPrepare (host : Host) (thread : Nat) (uid : String) : PrepareSlot × Host :=
  match host.warms.get uid with
  | some _ => (.warm, host)
  | none =>
    match host.preparing.get uid with
    | some channel => (.running channel, host)
    | none =>
      (.entered host.prepared.size,
        { host with
          preparing := host.preparing.put uid host.prepared.size
          prepared := host.prepared.alloc { owner := thread } })

/-- The grant's engine, made when it has none.  `gone` is the engine the caller waited out. -/
def enterEngine (host : Host) (uid : String) (gone : Option Nat) : EngineSlot × Host :=
  let kept :=
    if gone.isSome ∧ host.engines.get uid = gone then host.engines.drop uid else host.engines
  match kept.get uid with
  | some engine =>
    if (host.engineCells.read engine).stopping then
      (.stopping engine, { host with engines := kept })
    else (.found engine, { host with engines := kept })
  | none =>
    (.started host.engineCells.size,
      { host with
        engines := kept.put uid host.engineCells.size
        engineCells := host.engineCells.alloc {} })

/-- The end of an instance the host already replaced is ignored. -/
def warmGone (host : Host) (uid : String) (number : Nat) : Option (Option Warm) × Host :=
  match host.warms.get uid with
  | some warm =>
    if warm.number ≠ number then (none, host)
    else (some (some warm), { host with warms := host.warms.drop uid })
  | none => (some none, host)

def perform (host : Host) (thread : Nat) (action : HostAct) (answer : Bool) :
    Option (action.Result × Host) :=
  match action with
  | .able _ => some (answer, host)
  | .identityOf uid => some (host.identities.get uid, host)
  | .recordIdentity uid caller =>
    some ((), { host with identities := host.identities.put uid caller })
  | .forgetIdentity uid => some ((), { host with identities := host.identities.drop uid })
  | .enterPrepare uid => some (host.enterPrepare thread uid)
  | .awaitPrepare channel =>
    if answer then some (false, host)
    else if (host.prepared.read channel).closed then some (true, host) else none
  | .leavePrepare uid => some ((), { host with preparing := host.preparing.drop uid })
  | .closePrepare channel =>
    some ((), { host with
      prepared := host.prepared.write channel
        { host.prepared.read channel with closed := true } })
  | .openSnapshot =>
    some (host.snapshots.size, { host with snapshots := host.snapshots.alloc true })
  | .removeSnapshot snapshot =>
    some ((), { host with snapshots := host.snapshots.write snapshot false })
  | .ensureEngineDir uid => some ((), { host with engineDirs := host.engineDirs.put uid () })
  | .dropEngineDir uid => some ((), { host with engineDirs := host.engineDirs.drop uid })
  | .enterEngine uid gone => some (host.enterEngine uid gone)
  | .awaitEngine engine =>
    if answer then some (false, host)
    else if (host.engineCells.read engine).ended then some (true, host) else none
  | .engineOf uid => some (host.engines.get uid, host)
  | .stopEngine engine => some ((), { host with
      engineCells := host.engineCells.write engine
        { host.engineCells.read engine with stopping := true } })
  | .endEngine engine => some ((), { host with
      engineCells := host.engineCells.write engine
        { host.engineCells.read engine with ended := true } })
  | .forgetEngine uid engine => some ((),
      if host.engines.get uid = some engine
      then { host with engines := host.engines.drop uid } else host)
  | .warm uid => some (host.instanceCount,
      { host with
        instances := host.instances.put uid host.instanceCount
        instanceCount := host.instanceCount + 1 })
  | .unwarm uid => some ((), { host with instances := host.instances.drop uid })
  | .publish uid warm => some ((), { host with warms := host.warms.put uid warm })
  | .takeWarm uid => some (host.warms.get uid, { host with warms := host.warms.drop uid })
  | .warmOf uid => some (host.warms.get uid, host)
  | .attachDevices uid channel => some ((), { host with attached := host.attached.put uid channel })
  | .lose uid number =>
    if host.instances.get uid = some number
    then some ((), { host with
      instances := host.instances.drop uid
      died := host.died.put uid () }) else none
  | .warmGone uid number => some (host.warmGone uid number)
  | .spin => none

end Host

abbrev HostCall := Prog HostAct HostAct.Result

namespace HostCall

def act (action : HostAct) : HostCall action.Result := Prog.act action

def able (question : HostQuestion) : HostCall Bool := act (.able question)

/-- A loop that has used up its rounds goes on no further. -/
def spin {β : Type} : HostCall β := .call .spin fun never => never.elim

def prepareIdentity (uid caller : String) : HostCall Bool := do
  match ← act (.identityOf uid) with
  | some _ =>
    act (.recordIdentity uid caller)
    pure true
  | none =>
    if ← able .derives then
      act (.recordIdentity uid caller)
      pure true
    else pure false

def dropEngine (uid : String) (engine : Nat) : HostCall Unit := do
  act (.stopEngine engine)
  act (.endEngine engine)
  act (.forgetEngine uid engine)

/-- The engine the grant has now, and whether this call made it; `none` when the wait for a
stopping one was given up. -/
def startEngine (uid : String) : Nat → Option Nat → HostCall (Option (Nat × Bool))
  | 0, _ => spin
  | rounds + 1, gone => do
      match ← act (.enterEngine uid gone) with
      | .found engine => pure (some (engine, false))
      | .started engine => pure (some (engine, true))
      | .stopping engine =>
        if ← act (.awaitEngine engine) then startEngine uid rounds (some engine)
        else pure none

/-- Waits for the engine's first start to end. -/
def settleEngine (uid : String) (entered : Option (Nat × Bool)) :
    HostCall (Option (Nat × Bool)) :=
  match entered with
  | none => pure none
  | some (engine, started) => do
      if ← able .engineAnswers then
        if ← able .engineReady then pure (some (engine, started))
        else
          dropEngine uid engine
          pure none
      else
        if started then dropEngine uid engine
        pure none

def ensureEngine (uid : String) (rounds : Nat) : HostCall (Option (Nat × Bool)) := do
  settleEngine uid (← startEngine uid rounds none)

def warmBackend (uid : String) : HostCall (Option Nat) := do
  if ← able .warms then
    let number ← act (.warm uid)
    pure (some number)
  else pure none

/-- The engine starts beside the warm instance, so the two go in any order. -/
def warmBesideEngine (uid : String) (rounds : Nat) :
    HostCall (Option Nat × Option (Nat × Bool)) := do
  if ← able .warmsFirst then
    let number ← warmBackend uid
    let engine ← ensureEngine uid rounds
    pure (number, engine)
  else
    let entered ← startEngine uid rounds none
    if ← able .warmsBetween then
      let number ← warmBackend uid
      let engine ← settleEngine uid entered
      pure (number, engine)
    else
      let engine ← settleEngine uid entered
      let number ← warmBackend uid
      pure (number, engine)

def warmWithEngine (uid : String) (rounds : Nat) : HostCall (Option Nat) := do
  if ← able .makesEngineDir then
    act (.ensureEngineDir uid)
    match ← warmBesideEngine uid rounds with
    | (none, none) => pure none
    | (some _, none) =>
      act (.unwarm uid)
      pure none
    | (none, some (engine, started)) =>
      if started then dropEngine uid engine
      pure none
    | (some number, some (engine, started)) =>
      if ← able .relaysEngine then pure (some number)
      else
        act (.unwarm uid)
        if started then dropEngine uid engine
        pure none
  else pure none

def warmInstance (config : HostConfig) (rounds : Nat) (grant : Grant) :
    HostCall (Option Nat) := do
  if ← able .makesCgroups then
    if config.wantsEngine grant then warmWithEngine grant.uid rounds
    else warmBackend grant.uid
  else pure none

def removeSnapshot : Option Nat → HostCall Unit
  | some snapshot => act (.removeSnapshot snapshot)
  | none => pure ()

def openSnapshot : HostCall (Option Nat) := do
  if ← able .hasSnapshot then
    let snapshot ← act .openSnapshot
    pure (some snapshot)
  else pure none

/-- What `PrepareTemplate` does once it is the one that prepares the grant. -/
def warmTemplate (config : HostConfig) (rounds : Nat) (grant : Grant) : HostCall Bool := do
  if ← able .mapsRoot then
    if ← able .resolvesTemplate then
      let snapshot ← openSnapshot
      match ← warmInstance config rounds grant with
      | some number =>
        act (.publish grant.uid { number := number, snapshot := snapshot })
        pure true
      | none =>
        removeSnapshot snapshot
        pure false
    else pure false
  else pure false

inductive PrepareEntry where
  | warm
  | ended
  | entered (channel : Nat)

def enterPrepare (uid : String) : Nat → HostCall PrepareEntry
  | 0 => spin
  | rounds + 1 => do
      match ← act (.enterPrepare uid) with
      | .warm => pure .warm
      | .entered channel => pure (.entered channel)
      | .running channel =>
        if ← act (.awaitPrepare channel) then enterPrepare uid rounds
        else pure .ended

def prepareSlot (config : HostConfig) (rounds : Nat) (grant : Grant) : HostCall Bool := do
  match ← enterPrepare grant.uid rounds with
  | .warm => pure true
  | .ended => pure false
  | .entered channel =>
    let ready ← warmTemplate config rounds grant
    act (.leavePrepare grant.uid)
    act (.closePrepare channel)
    pure ready

def prepareTemplate (config : HostConfig) (rounds : Nat) (grant : Grant) : HostCall Bool := do
  if grant.policy.endpointMode = .handoff then
    if config.canHandoff then
      if ← prepareIdentity grant.uid grant.callerThumbprint then prepareSlot config rounds grant
      else pure false
    else pure false
  else prepareSlot config rounds grant

def stopEngine (uid : String) : HostCall Unit := do
  match ← act (.engineOf uid) with
  | some engine => dropEngine uid engine
  | none => pure ()

def dropTemplate (uid : String) : HostCall Unit := do
  let warm ← act (.takeWarm uid)
  act (.forgetIdentity uid)
  stopEngine uid
  match warm with
  | none => act (.dropEngineDir uid)
  | some warm =>
    act (.unwarm uid)
    removeSnapshot warm.snapshot
    act (.dropEngineDir uid)

/-- What a birth from the warm instance needs of the templates: it warms one on demand. -/
def needWarm (config : HostConfig) (rounds : Nat) (grant : Grant) : HostCall Bool := do
  match ← act (.warmOf grant.uid) with
  | some _ => pure true
  | none =>
    if ← prepareTemplate config rounds grant then
      let warm ← act (.warmOf grant.uid)
      pure warm.isSome
    else pure false

/-- What a resume needs of them: no warm instance, but the engine and the identity. -/
def needEngine (config : HostConfig) (rounds : Nat) (grant : Grant) : HostCall Bool := do
  if ← able .opensDelta then
    if config.wantsEngine grant then
      if ← able .makesEngineDir then
        act (.ensureEngineDir grant.uid)
        match ← ensureEngine grant.uid rounds with
        | some _ => pure true
        | none => pure false
      else pure false
    else pure true
  else pure false

def needIdentity (config : HostConfig) (grant : Grant) : HostCall Bool := do
  if ← able .deltaHandsOff then
    if config.canHandoff then prepareIdentity grant.uid grant.callerThumbprint else pure false
  else pure true

/-- A warm instance that died on its own: the backend lost it, and then the host hears of it. -/
def instanceDied (uid : String) (number : Nat) : HostCall Unit := do
  act (.lose uid number)
  match ← act (.warmGone uid number) with
  | none => pure ()
  | some warm =>
    act (.forgetIdentity uid)
    match warm with
    | some warm => removeSnapshot warm.snapshot
    | none => pure ()

end HostCall

end Fiberd
