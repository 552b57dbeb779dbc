import Fiberd.Host.HostCore
import Fiberd.Ledger.LedgerSystem
import Fiberd.Revoked

/-!
The state the verbs of `pkg/core/core.go` share, and the atomic actions they take
on it.  An action is one critical section of the source, or one question to what
surrounds the core: the verifier, the runtime, the shared store, the audit spool,
the clock.  Any answer may come back, so what is proved holds for every runtime.
-/

namespace Fiberd

open Heaps Tables Programs

inductive StatusCode where
  | ok
  | deferredFallback
  | shed
  | invalid
  | unauthenticated
  | needsTier
  | notFound
  | noWorkspace
  | overBudget
  | internal
  deriving DecidableEq, Repr

inductive CoreError where
  | payloadTooLarge
  | verifyUnavailable
  | verify
  | draining
  | wrongAudience
  | callerMismatch
  | unboundGrant
  | handoffUnbound
  | noTenant
  | grantUnknown
  | grantExpired
  | grantRevoked
  | grantChanged
  | grantFull
  | needsTier
  | needsIsolation
  | needsHandoff
  | needsWorkspace
  | needsDevice
  | deviceMismatch
  | notReady
  | contextDone
  | rateLimit
  | pressure
  | deadline
  | runtime
  | audit
  | store
  | deltaTooLarge
  | deltaQuota
  | noDeltaRef
  | fiberUnknown
  | anonymousPark
  | noSession
  | sessionRunning
  | sessionUnknown
  | noEpochStore
  | remoteMiss (error : CoreError) (home : String)
  deriving DecidableEq, Repr

/-- The gaps `missCode` answers with `NeedsTier`, seen through a wrapped miss. -/
def CoreError.isGap : CoreError → Bool
  | .needsTier | .needsDevice | .deviceMismatch | .needsIsolation | .needsHandoff
  | .needsWorkspace | .noTenant => true
  | .remoteMiss error _ => error.isGap
  | _ => false

def ResolveError.toCore : ResolveError → CoreError
  | .grantUnknown => .grantUnknown
  | .grantExpired => .grantExpired
  | .needsTier => .needsTier
  | .grantFull => .grantFull

structure FiberExit where
  fiberID : String
  reason : String
  detail : String := ""
  deriving DecidableEq, Repr

structure RemoteDelta where
  wBytes : Nat := 0
  home : String := ""
  handle : String := ""
  deriving DecidableEq, Repr

structure FindAnswer where
  delta : RemoteDelta := {}
  found : Bool := false
  error : Option CoreError := none
  deriving DecidableEq, Repr

/-- What the core fills in of an audit record. -/
structure CoreRecord where
  event : String
  fence : Fence
  session : String := ""
  fiberID : String := ""
  detail : String := ""
  deriving DecidableEq, Repr

inductive Question where
  | verify (token : String)
  | ownToken
  | rateLimit
  | shedding (uid : String)
  | healthy
  | now
  | owned (ref : String)
  | findDelta (uid session : String)
  | claimDelta (uid session handle : String)
  | deleteDelta (uid session handle : String)
  | append (record : CoreRecord)
  | clone (fence : Fence) (ref : String)
  | park (fiberID : String) (sync : Bool)
  | release (fiberID : String) (discard : Bool)
  | retire (ref : String)
  | discard (ref : String)
  | publish (ref session : String)
  | deviceOffer (uid : String)
  | bumpStore
  | stats (fiberID : String)
  deriving DecidableEq, Repr

abbrev Question.Reply : Question → Type
  | .verify _ => Except CoreError Grant
  | .ownToken => Option String
  | .now => Time
  | .findDelta _ _ => FindAnswer
  | .claimDelta _ _ _ => Option String
  | .deleteDelta _ _ _ => Except CoreError (String × Bool)
  | .clone _ _ => Except CoreError (String × Bool)
  | .park _ _ => String × Option CoreError
  | .publish _ _ => Option String
  | .deviceOffer _ => String × Nat
  | .bumpStore => Option Nat
  | .stats _ => Option Nat
  | _ => Bool

inductive Answer where
  | flag (value : Bool)
  | time (now : Time)
  | number (value : Option Nat)
  | text (value : Option String)
  | verified (result : Except CoreError Grant)
  | found (answer : FindAnswer)
  | named (result : Except CoreError (String × Bool))
  | parked (ref : String) (error : Option CoreError)
  | offer (deviceClass : String) (capacity : Nat)

def Question.read (question : Question) (answer : Answer) : Option question.Reply :=
  match question, answer with
  | .verify _, .verified result => some result
  | .ownToken, .text token => some token
  | .rateLimit, .flag value => some value
  | .shedding _, .flag value => some value
  | .healthy, .flag value => some value
  | .now, .time moment => some moment
  | .owned _, .flag value => some value
  | .findDelta _ _, .found result => some result
  | .claimDelta _ _ _, .text ref => some ref
  | .deleteDelta _ _ _, .named result => some result
  | .append _, .flag value => some value
  | .clone _ _, .named result => some result
  | .park _ _, .parked ref error => some (ref, error)
  | .release _ _, .flag value => some value
  | .retire _, .flag value => some value
  | .discard _, .flag value => some value
  | .publish _ _, .text remote => some remote
  | .deviceOffer _, .offer deviceClass capacity => some (deviceClass, capacity)
  | .bumpStore, .number next => some next
  | .stats _, .number bytes => some bytes
  | _, _ => none

namespace Ledger

def joinGate (ledger : Ledger) (key : String) : Nat × Ledger :=
  match ledger.perSession.get key with
  | some pointer =>
    (pointer, { ledger with
      gates := ledger.gates.write pointer
        { ledger.gates.read pointer with refs := (ledger.gates.read pointer).refs + 1 } })
  | none =>
    (ledger.gates.size, { ledger with
      perSession := ledger.perSession.put key ledger.gates.size
      gates := ledger.gates.alloc { refs := 1 } })

/-- `gate.mu.Lock`, which waits while the gate is held. -/
def lockGate (ledger : Ledger) (pointer thread : Nat) : Option Ledger :=
  if (ledger.gates.read pointer).holder = none then
    some { ledger with
      gates := ledger.gates.write pointer
        { ledger.gates.read pointer with holder := some thread } }
  else none

def unlockGate (ledger : Ledger) (pointer : Nat) : Ledger :=
  { ledger with
    gates := ledger.gates.write pointer { ledger.gates.read pointer with holder := none } }

def leaveGate (ledger : Ledger) (key : String) (pointer : Nat) : Ledger :=
  let refs := (ledger.gates.read pointer).refs - 1
  { ledger with
    gates := ledger.gates.write pointer { ledger.gates.read pointer with refs := refs }
    perSession := if refs = 0 then ledger.perSession.drop key else ledger.perSession }

def statuses (ledger : Ledger) : List String :=
  sortIDs (ledger.grants.rows.map Prod.fst)

end Ledger

/-- The channel waiting admissions wait on.  The call that made it and whether that admission
went through its deny check are marks of the model. -/
structure AdmitChannel where
  closed : Bool := false
  owner : Nat := 0
  passed : Bool := false
  deriving DecidableEq, Repr

instance : Inhabited AdmitChannel := ⟨{}⟩

structure Home where
  system : LedgerSystem
  /-- The gate each call holds a reference on, with its key: the call's `sessionHold`. -/
  holds : Table Nat (String × Nat)
  admitting : Table String Nat
  channels : Heap AdmitChannel
  revoked : Option Revoked
  pending : Table String FiberExit
  held : Table String (List SessionSnapshot)
  devices : Table String Nat
  /-- The device channels provisioned so far, each with whether it was released. -/
  provisioned : Heap Bool
  draining : Bool
  host : Host
  /-- The epoch of the ledger when the call resolved, and the fence it got.  The source keeps
  no such map. -/
  resolvedAt : Table Nat (Nat × Fence)
  /-- The UID each call is yielding and the number of entries there were at its revocation, from
  then until the yield returns.  The source keeps no such map. -/
  yielding : Table Nat (String × Nat)

def newHome (epoch : Nat) (revoked : Option Revoked) : Home where
  system := newSystem epoch
  holds := ∅
  admitting := ∅
  channels := Heap.empty
  revoked := revoked
  pending := ∅
  held := ∅
  devices := ∅
  provisioned := Heap.empty
  draining := false
  host := newHost
  resolvedAt := ∅
  yielding := ∅

abbrev Home.ledger (home : Home) : Ledger := home.system.ledger

inductive AdmitSlot where
  | inFlight (channel : Nat)
  | entered (channel : Nat)
  deriving DecidableEq, Repr

inductive Act where
  | ask (question : Question)
  | host (action : HostAct)
  | grant (uid : String)
  | admitGrant (grant : Grant)
  | revokeGrant (uid : String)
  | yielded
  | bumpEpoch (epoch : Nat)
  | epoch
  | sessionState (uid session : String)
  | forgetSession (uid session : String)
  | fiber (fiberID : String)
  | fiberSession (fiberID : String)
  | fibersOf (uid : String)
  | runningFibers
  | statuses
  | setFiberW (fiberID : String) (bytes : Nat)
  | setPooled (uid : String) (count : Int)
  | onPark (fiberID deltaRef : String)
  | onRelease (fiberID : String)
  | restoreParked (snapshot : SessionSnapshot)
  | joinGate (uid session : String)
  | lockGate
  | unlockGate
  | leaveGate
  | resolve (uid session : String) (tier : Tier)
  | commitHeld (endpoint : String) (pooled : Bool)
  | unlock
  | exited (exit : FiberExit)
  | dropPending (fiberID : String)
  | enterAdmission (uid : String)
  | awaitAdmission (channel : Nat)
  | leaveAdmission (uid : String)
  | closeAdmission (channel : Nat)
  | admission (uid : String)
  | deny (uid : String) (lease now : Time)
  | denied (uid : String) (lease now : Time) (slot : Option Nat)
  | lift (uid : String)
  | provision (uid : String)
  | channelOf (uid : String)
  | keepChannel (uid : String) (channel : Nat)
  | dropChannel (uid : String)
  | releaseChannel (channel : Nat)
  | holdGrant (uid : String)
  | holdParked (snapshot : SessionSnapshot)
  | takeHeld (uid : String)
  | isDraining
  | startDrain
  | spin

abbrev Act.Result : Act → Type
  | .ask question => question.Reply
  | .host action => action.Result
  | .grant _ => Option Grant
  | .epoch => Nat
  | .sessionState _ _ => Option (SessionState × String)
  | .fiber _ => Option Fence
  | .fiberSession _ => String
  | .fibersOf _ => List Ledger.FiberInfo
  | .runningFibers => List String
  | .statuses => List String
  | .setPooled _ _ => Bool
  | .onPark _ _ => String × String
  | .onRelease _ => String × String
  | .restoreParked _ => Option Ledger.RestoreError
  | .resolve _ _ _ => Except ResolveError (Action × Fence × String)
  | .commitHeld _ _ => Bool × Option FiberExit
  | .exited _ => Option Ledger.Gone
  | .enterAdmission _ => AdmitSlot
  | .awaitAdmission _ => Bool
  | .admission _ => Option Nat
  | .denied _ _ _ _ => Bool
  | .lift _ => Bool
  | .provision _ => Option Nat
  | .channelOf _ => Option Nat
  | .keepChannel _ _ => Option Nat
  | .dropChannel _ => Option Nat
  | .holdParked _ => Bool
  | .takeHeld _ => List SessionSnapshot
  | .isDraining => Bool
  | .spin => Empty
  | _ => Unit

namespace Home

def withLedger (home : Home) (ledger : Ledger) : Home :=
  { home with system := home.system.withLedger ledger }

def op (home : Home) (op : LedgerOp) : Option Home :=
  (home.system.apply op).map fun system => { home with system := system }

/-- What `resolveHeld` returns to its Clone; the closures stay in `resolved`. -/
def resolved (home : Home) (thread : Nat) (uid session : String) (tier : Tier) (now : Time) :
    Option (Except ResolveError (Action × Fence × String) × Home) :=
  (home.op (.resolve thread uid session tier now)).map fun next =>
    match home.ledger.resolveHeld uid session tier now with
    | .ok (resolution, _) =>
      (.ok (resolution.act, resolution.fence, resolution.ref),
        { next with
          resolvedAt := home.resolvedAt.put thread (home.ledger.epoch, resolution.fence) })
    | .error error => (.error error, next)

/-- `commitHeld`: the commit and the exit held for its fiber, under `pendingMu`. -/
def commitHeld (home : Home) (thread : Nat) (endpoint : String) (pooled : Bool) :
    Option ((Bool × Option FiberExit) × Home) :=
  match home.system.resolved.get thread with
  | none => none
  | some resolution =>
    (home.op (.commit thread endpoint pooled home.draining)).map fun next =>
      (((home.system.commit thread resolution endpoint pooled home.draining).1,
          home.pending.get resolution.fence.string),
        { next with pending := home.pending.drop resolution.fence.string })

/-- The first half of `OnExit`: an exit of a fiber not recorded yet is held. -/
def exited (home : Home) (exit : FiberExit) : Option (Option Ledger.Gone × Home) :=
  (home.op (.onFiberExit exit.fiberID)).map fun next =>
    match (home.ledger.onFiberExit exit.fiberID).2 with
    | some gone => (some gone, next)
    | none => (none, { next with pending := home.pending.put exit.fiberID exit })

def enterAdmission (home : Home) (thread : Nat) (uid : String) : AdmitSlot × Home :=
  match home.admitting.get uid with
  | some channel => (.inFlight channel, home)
  | none =>
    (.entered home.channels.size, { home with
      admitting := home.admitting.put uid home.channels.size
      channels := home.channels.alloc { owner := thread } })

def markPassed (home : Home) : Option Nat → Home
  | some channel => { home with
      channels := home.channels.write channel
        { home.channels.read channel with passed := true } }
  | none => home

/-- `a.Revoked != nil && a.Revoked.Denied(..)`, marking the admission it lets through. -/
def denied (home : Home) (uid : String) (lease now : Time) (slot : Option Nat) : Bool × Home :=
  match home.revoked with
  | none => (false, home.markPassed slot)
  | some revoked =>
    match revoked.denied uid lease now with
    | (true, list) => (true, { home with revoked := some list })
    | (false, list) => (false, { home with revoked := some list }.markPassed slot)

def holdParked (home : Home) (snapshot : SessionSnapshot) : Bool × Home :=
  match home.held.get snapshot.grantUID with
  | some sessions => (true, { home with
      held := home.held.put snapshot.grantUID (sessions ++ [snapshot]) })
  | none => (false, home)

def perform (home : Home) (thread : Nat) (action : Act) (answer : Answer) :
    Option (action.Result × Home) :=
  match action with
  | .ask question => (question.read answer).map fun reply => (reply, home)
  | .host action =>
    match answer with
    | .flag value => (home.host.perform thread action value).map fun outcome =>
      (outcome.1, { home with host := outcome.2 })
    | _ => none
  | .grant uid => some (home.ledger.grant? uid, home)
  | .admitGrant grant => (home.op (.admitGrant grant)).map fun next => ((), next)
  | .revokeGrant uid => (home.op (.revokeGrant uid)).map fun next =>
    ((), { next with
      yielding := home.yielding.put thread (uid, home.ledger.entries.size) })
  | .yielded => some ((), { home with yielding := home.yielding.drop thread })
  | .bumpEpoch epoch => (home.op (.bumpEpoch epoch)).map fun next => ((), next)
  | .epoch => some (home.ledger.epoch, home)
  | .sessionState uid session => some (home.ledger.sessionState uid session, home)
  | .forgetSession uid session =>
    (home.op (.forgetSession uid session)).map fun next => ((), next)
  | .fiber fiberID => some (home.ledger.fiber? fiberID, home)
  | .fiberSession fiberID => some (home.ledger.fiberSession fiberID, home)
  | .fibersOf uid => some (home.ledger.fibersOf uid, home)
  | .runningFibers => some (home.ledger.runningFibers, home)
  | .statuses => some (home.ledger.statuses, home)
  | .setFiberW fiberID bytes => (home.op (.setFiberW fiberID bytes)).map fun next => ((), next)
  | .setPooled uid count => (home.op (.setPooled uid count)).map fun next =>
    ((home.ledger.setPooled uid count).2, next)
  | .onPark fiberID deltaRef => (home.op (.onPark fiberID deltaRef)).map fun next =>
    ((home.ledger.onPark fiberID deltaRef).2, next)
  | .onRelease fiberID => (home.op (.onRelease fiberID)).map fun next =>
    ((home.ledger.onRelease fiberID).2, next)
  | .restoreParked snapshot => (home.op (.restoreParked snapshot)).map fun next =>
    match home.ledger.restoreParked snapshot with
    | .ok _ => (none, next)
    | .error error => (some error, next)
  | .joinGate uid session =>
    match home.holds.get thread with
    | some _ => none
    | none =>
      let joined := home.ledger.joinGate (sessionKey uid session)
      some ((), { home.withLedger joined.2 with
        holds := home.holds.put thread (sessionKey uid session, joined.1) })
  | .lockGate =>
    match home.holds.get thread with
    | some (_, pointer) =>
      (home.ledger.lockGate pointer thread).map fun ledger => ((), home.withLedger ledger)
    | none => none
  | .unlockGate =>
    match home.holds.get thread with
    | some (_, pointer) => some ((), home.withLedger (home.ledger.unlockGate pointer))
    | none => none
  | .leaveGate =>
    match home.holds.get thread with
    | some (key, pointer) => some ((), { home.withLedger (home.ledger.leaveGate key pointer) with
        holds := home.holds.drop thread })
    | none => none
  | .resolve uid session tier =>
    match answer with
    | .time now => home.resolved thread uid session tier now
    | _ => none
  | .commitHeld endpoint pooled => home.commitHeld thread endpoint pooled
  | .unlock => (home.op (.unlock thread)).map fun next => ((), next)
  | .exited exit => home.exited exit
  | .dropPending fiberID => some ((), { home with pending := home.pending.drop fiberID })
  | .enterAdmission uid => some (home.enterAdmission thread uid)
  | .awaitAdmission channel =>
    match answer with
    | .flag ended =>
      if ended then some (false, home)
      else if (home.channels.read channel).closed then some (true, home) else none
    | _ => none
  | .leaveAdmission uid => some ((), { home with admitting := home.admitting.drop uid })
  | .closeAdmission channel => some ((), { home with
      channels := home.channels.write channel
        { home.channels.read channel with closed := true } })
  | .admission uid => some (home.admitting.get uid, home)
  | .deny uid lease now => some ((), { home with
      revoked := home.revoked.map fun revoked => revoked.add uid lease now })
  | .denied uid lease now slot => some (home.denied uid lease now slot)
  | .lift uid =>
    match home.revoked with
    | some revoked => some ((revoked.clear uid).1, { home with
        revoked := some (revoked.clear uid).2 })
    | none => some (false, home)
  | .provision _ =>
    match answer with
    | .flag true => some (some home.provisioned.size, { home with
        provisioned := home.provisioned.alloc false })
    | .flag false => some (none, home)
    | _ => none
  | .channelOf uid => some (home.devices.get uid, home)
  | .keepChannel uid channel => some (home.devices.get uid, { home with
      devices := home.devices.put uid channel })
  | .dropChannel uid => some (home.devices.get uid, { home with
      devices := home.devices.drop uid })
  | .releaseChannel channel => some ((), { home with
      provisioned := home.provisioned.write channel true })
  | .holdGrant uid => some ((), { home with held := home.held.put uid [] })
  | .holdParked snapshot => some (home.holdParked snapshot)
  | .takeHeld uid => some ((home.held.get uid).getD [], { home with held := home.held.drop uid })
  | .isDraining => some (home.draining, home)
  | .startDrain => some ((), { home with draining := true })
  | .spin => none

end Home

end Fiberd
