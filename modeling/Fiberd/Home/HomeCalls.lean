import Fiberd.Home.HomeVerbs

/-!
`Clone` and `Discard`, and the home as a machine: any number of calls of its
verbs, run in any interleaving of their actions.
-/

namespace Fiberd

open Heaps Tables Programs

namespace Call

variable (config : HomeConfig)

def presented (request : CloneRequest) (grant : Grant) : Option Refusal :=
  if config.nodeID ≠ "" ∧ grant.audience ≠ config.nodeID then some (.unauthenticated, .wrongAudience)
  else if grant.callerThumbprint ≠ "" ∧ grant.callerThumbprint ≠ request.callerThumbprint then
    some (.unauthenticated, .callerMismatch)
  else if grant.callerThumbprint = "" ∧ config.requireBoundGrants then
    some (.unauthenticated, .unboundGrant)
  else if grant.callerThumbprint = "" ∧ grant.policy.endpointMode = .handoff then
    some (.unauthenticated, .handoffUnbound)
  else if request.session ≠ "" ∧ grant.tenant = "" then some (.needsTier, .noTenant)
  else none

def frontend (request : CloneRequest) : Call (Except Refusal Grant) := do
  if maxPayload < request.payload then pure (.error (.invalid, .payloadTooLarge))
  else
    match ← ask (.verify request.grantJWT) with
    | .error .verifyUnavailable => pure (.error (.shed, .verifyUnavailable))
    | .error error => pure (.error (.unauthenticated, error))
    | .ok grant =>
      if ← act .isDraining then pure (.error (.deferredFallback, .draining))
      else
        match presented config request grant with
        | some refusal => pure (.error refusal)
        | none => pure (.ok { grant with token := request.grantJWT })

/-- A held token, checked as a presented one is. -/
def reverify (uid token : String) : Call (Option Grant) := do
  match ← ask (.verify token) with
  | .error _ => pure none
  | .ok grant =>
    if grant.uid ≠ uid then pure none
    else if config.nodeID ≠ "" ∧ grant.audience ≠ config.nodeID then pure none
    else pure (some { grant with token := token })

def ownGrant (grant : Grant) : Call (Except CoreError Grant) := do
  let now ← ask .now
  if grant.expired now then pure (.error .grantExpired)
  else
    match ← ask .ownToken with
    | none => pure (.error .grantUnknown)
    | some token =>
      match ← reverify config grant.uid token with
      | none => pure (.error .grantUnknown)
      | some own => pure (.ok own)

/-- The grant a self-admission admits: the home's own where it holds one. -/
def admittedGrant (grant : Grant) : Call (Except CoreError Grant) :=
  if config.ownsGrant then ownGrant config grant else pure (.ok grant)

def selfAdmit (rounds : Nat) (grant : Grant) : Call (Option Refusal) := do
  match ← act (.grant grant.uid) with
  | some _ => pure none
  | none =>
    if config.selfAdmitUID ≠ "" ∧ grant.uid ≠ config.selfAdmitUID then
      pure (some (.unauthenticated, .wrongAudience))
    else
      match ← admittedGrant config grant with
      | .error error => some <$> miss error
      | .ok own => coreAdmit config rounds own

/-- The admitted grant a Clone runs under, in place of what its token says. -/
def heldGrant (grant : Grant) : Call (Except Refusal Grant) := do
  match ← act (.grant grant.uid) with
  | none => .error <$> miss .grantUnknown
  | some held =>
    if held.callerThumbprint ≠ grant.callerThumbprint then
      pure (.error (.unauthenticated, .callerMismatch))
    else pure (.ok held)

/-- Why a commit was refused, or a claim's restore. -/
def swept (grant : Grant) (epoch : Nat) : Call Refusal := do
  if (← act .epoch) ≠ epoch then miss .fiberUnknown
  else
    let now ← ask .now
    if ← act (.denied grant.uid grant.leaseExpiry now none) then miss .grantRevoked
    else miss .grantUnknown

/-- The parked session was claimed by another home: the copy here goes. -/
def migrateOut (uid session ref : String) : Call Unit := do
  act (.forgetSession uid session)
  let epoch ← act .epoch
  discardDelta config ⟨uid, epoch, 0⟩ session ref
  let _ ← audit .bestEffort { event := "migrate-out", fence := ⟨uid, epoch, 0⟩, session := session }
  pure ()

/-- Registers a claimed delta as this home's parked session. -/
def migrateIn (grant : Grant) (session ref : String) : Call (Option Refusal) := do
  match ← act (.restoreParked { name := session, grantUID := grant.uid, fence := ⟨"", 0, 0⟩,
                                deltaRef := ref }) with
  | some .grantUnknown =>
    let epoch ← act .epoch
    let refusal ← swept grant epoch
    let _ ← auditGrant "migrate-in" grant.uid session ""
    pure (some refusal)
  | some .sessionHeld =>
    if config.discardsDeltas then
      let _ ← ask (.discard ref)
    pure none
  | none =>
    let epoch ← act .epoch
    if ← audit grant.policy.durability
        { event := "migrate-in", fence := ⟨grant.uid, epoch, 0⟩, session := session } then
      pure none
    else pure (some (.internal, .audit))

def claim (grant : Grant) (session : String) (delta : RemoteDelta) : Call (Option Refusal) := do
  let budget := config.mobilityBudget.getD grant.wBudgetBytes
  if 0 < budget ∧ budget < delta.wBytes then
    some <$> miss (.remoteMiss .deltaTooLarge delta.home)
  else
    match ← ask (.claimDelta grant.uid session delta.handle) with
    | none => some <$> miss (.remoteMiss .notReady delta.home)
    | some ref => migrateIn config grant session ref

def findRemote (grant : Grant) (session : String) : Call (Option Refusal) := do
  let answer ← ask (.findDelta grant.uid session)
  match answer.error with
  | some (.remoteMiss error home) => some <$> miss (.remoteMiss error home)
  | some _ => pure none
  | none =>
    if answer.found then claim config grant session answer.delta else pure none

/-- `locate`: `none` lets the Clone go on to `resolveHeld`. -/
def locate (grant : Grant) (session : String) : Call (Option Refusal) := do
  if config.findsDeltas then
    match ← act (.sessionState grant.uid session) with
    | some (.running, _) => pure none
    | some (.parked, ref) =>
      if ← ask (.owned ref) then pure none
      else
        migrateOut config grant.uid session ref
        findRemote config grant session
    | none => findRemote config grant session
  else pure none

/-- The runtime's part of a birth, with the endpoint and whether a pool gave it. -/
def runtimeClone (rounds : Nat) (grant : Grant) (kind : Action) (fence : Fence) (ref : String) :
    Call (Except CoreError (String × Bool)) := do
  if kind = .resume then
    if ← onHost (HostCall.needEngine config.host rounds grant) then
      if ← onHost (HostCall.needIdentity config.host grant) then ask (.clone fence ref)
      else pure (.error .runtime)
    else pure (.error .runtime)
  else if ← onHost (HostCall.needWarm config.host rounds grant) then ask (.clone fence "")
  else pure (.error .runtime)

def birthRefusal (error : CoreError) : Refusal :=
  match error with
  | .deadline => (.deferredFallback, .deadline)
  | .pressure => (.shed, .pressure)
  | error => (.deferredFallback, error)

/-- A birth whose record failed is rolled back, or committed where it could not be. -/
def rollBack (fence : Fence) (endpoint : String) (pooled : Bool) : Call Unit := do
  if ← ask (.release fence.string false) then act (.dropPending fence.string)
  else
    let outcome ← act (.commitHeld endpoint pooled)
    if outcome.1 then
      if let some exit := outcome.2 then onExit config exit

/-- A commit the ledger refused: the fiber goes, and the answer is a miss. -/
def refusedCommit (grant : Grant) (session : String) (fence : Fence) : Call Outcome := do
  let refusal ← swept grant fence.epoch
  let draining ← act .isDraining
  let _ ← ask (.release fence.string false)
  let _ ← audit .bestEffort
    { event := "release", fence := fence, session := session, fiberID := fence.string }
  if draining then pure (.refused .deferredFallback .draining)
  else pure (.refused refusal.1 refusal.2)

def committedClone (session : String) (kind : Action) (fence : Fence) (ref endpoint : String)
    (exit : Option FiberExit) : Call Outcome := do
  if kind = .resume then
    if session ≠ "" then retireDelta config fence session ref
  if let some exit := exit then onExit config exit
  pure (.cloned { fiberID := fence.string, endpoint := endpoint, fence := fence, kind := kind })

def settleBirth (grant : Grant) (session : String) (kind : Action) (fence : Fence)
    (ref endpoint : String) (pooled : Bool) : Call Outcome := do
  if ← audit grant.policy.durability
      { event := kind.string, fence := fence, session := session, fiberID := fence.string,
        detail := if pooled then "pooled" else "" } then
    let outcome ← act (.commitHeld endpoint pooled)
    if outcome.1 then committedClone config session kind fence ref endpoint outcome.2
    else refusedCommit grant session fence
  else
    rollBack config fence endpoint pooled
    pure (.refused .internal .audit)

def cloneResolved (rounds : Nat) (grant : Grant) (session : String) (shedding : Bool)
    (kind : Action) (fence : Fence) (ref : String) : Call Outcome := do
  if kind = .attach then
    if ← audit grant.policy.durability
        { event := "attach", fence := fence, session := session } then
      pure (.cloned { fiberID := fence.string, endpoint := ref, fence := fence, kind := .attach })
    else pure (.refused .internal .audit)
  else if shedding then pure (.refused .shed .pressure)
  else
    match ← runtimeClone config rounds grant kind fence ref with
    | .error error => pure (.refused (birthRefusal error).1 (birthRefusal error).2)
    | .ok (endpoint, pooled) => settleBirth config grant session kind fence ref endpoint pooled

def cloneHeld (rounds : Nat) (grant : Grant) (session : String) (shedding : Bool) :
    Call Outcome := do
  match ← act (.resolve grant.uid session config.tier) with
  | .error error =>
    release session
    let refusal ← miss error.toCore
    pure (.refused refusal.1 refusal.2)
  | .ok (kind, fence, ref) =>
    let outcome ← cloneResolved config rounds grant session shedding kind fence ref
    act .unlock
    release session
    pure outcome

def cloneAdmitted (rounds : Nat) (grant : Grant) (session : String) : Call Outcome := do
  if ← ask .rateLimit then
    let shedding ← ask (.shedding grant.uid)
    if session = "" then cloneHeld config rounds grant session shedding
    else
      holdSession grant.uid session
      match ← locate config grant session with
      | some refusal =>
        releaseSession
        pure (.refused refusal.1 refusal.2)
      | none => cloneHeld config rounds grant session shedding
  else pure (.refused .shed .rateLimit)

def clone (rounds : Nat) (request : CloneRequest) : Call Outcome := do
  match ← frontend config request with
  | .error refusal => pure (.refused refusal.1 refusal.2)
  | .ok grant =>
    match ← selfAdmit config rounds grant with
    | some refusal => pure (.refused refusal.1 refusal.2)
    | none =>
      match ← heldGrant grant with
      | .error refusal => pure (.refused refusal.1 refusal.2)
      | .ok held => cloneAdmitted config rounds held request.session

/-- The grant a token answers for, as `Clone`'s frontend checks it. -/
def authenticate (token thumbprint : String) : Call (Except Refusal Grant) := do
  match ← ask (.verify token) with
  | .error .verifyUnavailable => pure (.error (.shed, .verifyUnavailable))
  | .error error => pure (.error (.unauthenticated, error))
  | .ok grant =>
    if config.nodeID ≠ "" ∧ grant.audience ≠ config.nodeID then
      pure (.error (.unauthenticated, .wrongAudience))
    else if grant.callerThumbprint ≠ "" ∧ grant.callerThumbprint ≠ thumbprint then
      pure (.error (.unauthenticated, .callerMismatch))
    else if grant.callerThumbprint = "" ∧ config.requireBoundGrants then
      pure (.error (.unauthenticated, .unboundGrant))
    else
      match ← act (.grant grant.uid) with
      | some held => pure (sameCaller grant held)
      | none =>
        if config.ownsGrant ∧ grant.uid = config.selfAdmitUID then
          match ← ownGrant config grant with
          | .error error => .error <$> miss error
          | .ok own => pure (sameCaller grant own)
        else pure (.ok grant)
where
  sameCaller (grant held : Grant) : Except Refusal Grant :=
    if held.callerThumbprint ≠ grant.callerThumbprint then
      .error (.unauthenticated, .callerMismatch)
    else .ok held

def discardParked (grant : Grant) (fence : Fence) (session ref : String) : Call Outcome := do
  let withdrawn ← if config.retiresDeltas then ask (.retire ref) else pure true
  if withdrawn then
    let removed ← if config.discardsDeltas then ask (.discard ref) else pure true
    act (.forgetSession grant.uid session)
    let audited ← audit grant.policy.durability
      { event := "discard", fence := fence, session := session, detail := ref }
    if !removed then pure (.refused .internal .runtime)
    else if !audited then pure (.refused .internal .audit)
    else pure .done
  else pure (.refused .internal .store)

def discardRemote (grant : Grant) (fence : Fence) (session : String) : Call Outcome := do
  if config.findsDeltas && config.deletesDeltas then
    let answer ← ask (.findDelta grant.uid session)
    if !answer.found then
      if answer.error.isSome then pure (.refused .internal .store)
      else pure (.refused .notFound .sessionUnknown)
    else if answer.delta.handle = "" then pure (.refused .internal .store)
    else
      match ← ask (.deleteDelta grant.uid session answer.delta.handle) with
      | .error error => pure (.refused .internal error)
      | .ok (remote, removed) =>
        if removed then
          if ← audit grant.policy.durability
              { event := "discard", fence := fence, session := session, detail := remote } then
            pure .done
          else pure (.refused .internal .audit)
        else pure (.refused .notFound .sessionUnknown)
  else pure (.refused .notFound .sessionUnknown)

def discardHeld (grant : Grant) (session : String) : Call Outcome := do
  let epoch ← act .epoch
  match ← act (.sessionState grant.uid session) with
  | some (.running, _) => pure (.refused .invalid .sessionRunning)
  | some (.parked, ref) =>
    let owned ← if config.findsDeltas then ask (.owned ref) else pure true
    if owned then discardParked config grant ⟨grant.uid, epoch, 0⟩ session ref
    else
      act (.forgetSession grant.uid session)
      discardDelta config ⟨grant.uid, epoch, 0⟩ session ref
      let _ ← audit .bestEffort
        { event := "migrate-out", fence := ⟨grant.uid, epoch, 0⟩, session := session }
      discardRemote config grant ⟨grant.uid, epoch, 0⟩ session
  | none => discardRemote config grant ⟨grant.uid, epoch, 0⟩ session

def discard (token session thumbprint : String) : Call Outcome := do
  if session = "" then pure (.refused .invalid .noSession)
  else
    match ← authenticate config token thumbprint with
    | .error refusal => pure (.refused refusal.1 refusal.2)
    | .ok grant =>
      let now ← ask .now
      if grant.expired now then
        let refusal ← miss .grantExpired
        pure (.refused refusal.1 refusal.2)
      else if grant.tenant = "" then pure (.refused .needsTier .noTenant)
      else
        holdSession grant.uid session
        let outcome ← discardHeld config grant session
        releaseSession
        pure outcome

/-- A parked session of the boot snapshot: held with its grant, or registered. -/
def reconcileParked (snapshot : SessionSnapshot) : Call Unit := do
  if !(← act (.holdParked snapshot)) then
    let _ ← act (.restoreParked snapshot)

end Call

/-- The calls that may be made of a home.  `rounds` bounds a call's waiting loops: any bound
may be given, so every finite run of the loops is a run of some call. -/
inductive HomeCall where
  | clone (rounds : Nat) (request : CloneRequest)
  | coreAdmit (rounds : Nat) (grant : Grant)
  | park (fiberID : String) (sync : Bool)
  | release (fiberID : String) (discard : Bool)
  | discard (token session thumbprint : String)
  | exit (exit : FiberExit)
  | yield (uid reason : String)
  | remove (uid : String)
  | redeliver (uid : String)
  | bumpEpoch (reason : String)
  | sweep
  | sample
  | setPooled (uid : String) (count : Int)
  | startDrain
  | holdGrant (uid : String)
  | reconcileParked (snapshot : SessionSnapshot)
  | instanceDied (uid : String) (number : Nat)

namespace HomeCall

open Call

def admitted : Option Refusal → Outcome
  | none => .done
  | some refusal => .refused refusal.1 refusal.2

def body (config : HomeConfig) : HomeCall → Call Outcome
  | .clone rounds request => Call.clone config rounds request
  | .coreAdmit rounds grant => do return admitted (← Call.coreAdmit config rounds grant)
  | .park fiberID sync => Call.park config fiberID sync
  | .release fiberID dropped => Call.releaseFiber config fiberID dropped
  | .discard token session thumbprint => Call.discard config token session thumbprint
  | .exit ended => do Call.onExit config ended; return .done
  | .yield uid reason => do Call.yield config uid reason; return .done
  | .remove uid => do Call.remove config uid; return .done
  | .redeliver uid => do Call.redeliver uid; return .done
  | .bumpEpoch reason => Call.bumpEpoch config reason
  | .sweep => do Call.sweep config; return .done
  | .sample => do Call.sample; return .done
  | .setPooled uid count => do let _ ← act (.setPooled uid count); return .done
  | .startDrain => do act .startDrain; return .done
  | .holdGrant uid => do act (.holdGrant uid); return .done
  | .reconcileParked snapshot => do Call.reconcileParked snapshot; return .done
  | .instanceDied uid number => do onHost (HostCall.instanceDied uid number); return .done

end HomeCall

def homeKernel (config : HomeConfig) : Kernel Home Act Act.Result Answer HomeCall Outcome where
  start home := ∃ epoch revoked, revoked.isSome = config.denies ∧ home = newHome epoch revoked
  perform := Home.perform
  body := HomeCall.body config

abbrev HomeThreads := Threads Home Act Act.Result Outcome

abbrev HomeEvent := Event HomeCall Answer

end Fiberd
