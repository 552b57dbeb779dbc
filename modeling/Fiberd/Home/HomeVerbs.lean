import Fiberd.Home.HomeCore

/-!
The verbs of `pkg/core/core.go`, `discard.go` and `snapshot.go` as programs of the
home's actions.  A deferred call of the source stands where the function returns.
What only logs, notifies watchers or writes the snapshot file is left out, and so
is the refill loop's own bookkeeping.
-/

namespace Fiberd

open Heaps Tables Programs

/-- What the home is wired with, and what its runtime implements. -/
structure HomeConfig where
  nodeID : String := ""
  selfAdmitUID : String := ""
  ownsGrant : Bool := false
  requireBoundGrants : Bool := false
  tier : Tier := .unspecified
  isolatesTenants : Bool := false
  handsOff : Bool := false
  holdsWorkspaces : Bool := false
  provisions : Bool := false
  deviceAware : Bool := false
  deviceCapable : Bool := false
  findsDeltas : Bool := false
  retiresDeltas : Bool := false
  discardsDeltas : Bool := false
  deletesDeltas : Bool := false
  publishesDeltas : Bool := false
  dropsTemplates : Bool := false
  epochStore : Bool := false
  denies : Bool := false
  mobilityBudget : Option Nat := none
  host : HostConfig := {}

abbrev Call := Prog Act Act.Result

abbrev Refusal := StatusCode × CoreError

def maxPayload : Nat := 4096

structure CloneRequest where
  grantJWT : String
  session : String := ""
  payload : Nat := 0
  callerThumbprint : String := ""
  deriving DecidableEq, Repr

structure CloneResponse where
  fiberID : String := ""
  endpoint : String := ""
  fence : Fence
  kind : Action
  deriving DecidableEq, Repr

inductive Outcome where
  | cloned (response : CloneResponse)
  | refused (code : StatusCode) (error : CoreError)
  | parked (ref : String) (published : Bool) (code : StatusCode) (error : Option CoreError)
  | bumped (epoch : Nat)
  | done
  deriving DecidableEq, Repr

namespace Call

def act (action : Act) : Call action.Result := Prog.act action

def ask (question : Question) : Call question.Reply := act (.ask question)

/-- A loop that has used up its rounds goes on no further. -/
def spin {β : Type} : Call β := .call .spin fun never => never.elim

/-- The host's part of a verb. -/
def onHost {β : Type} : HostCall β → Call β
  | .done value => .done value
  | .call action next => .call (.host action) fun result => onHost (next result)

def missCode (error : CoreError) : Call StatusCode := do
  if error.isGap then pure .needsTier
  else if ← ask .healthy then pure .deferredFallback
  else pure .shed

def miss (error : CoreError) : Call Refusal := do
  let code ← missCode error
  pure (code, error)

/-- Whether the record was written, or need not be: only a sync record's failure counts. -/
def audit (durability : Durability) (record : CoreRecord) : Call Bool := do
  let written ← ask (.append record)
  pure (written || decide (durability ≠ .sync))

def durability (uid : String) : Call Durability := do
  match ← act (.grant uid) with
  | some grant => pure grant.policy.durability
  | none => pure .bestEffort

/-- A record about a grant rather than a fiber: its fence names the epoch only. -/
def auditGrant (event uid session detail : String) : Call Bool := do
  let epoch ← act .epoch
  audit .bestEffort { event := event, fence := ⟨uid, epoch, 0⟩, session := session, detail := detail }

def retireDelta (config : HomeConfig) (fence : Fence) (session deltaRef : String) :
    Call Unit := do
  if config.retiresDeltas then
    if ← ask (.retire deltaRef) then
      let _ ← audit .bestEffort
        { event := "retire", fence := fence, session := session, detail := deltaRef }
      pure ()

def discardDelta (config : HomeConfig) (fence : Fence) (session deltaRef : String) :
    Call Unit := do
  retireDelta config fence session deltaRef
  if config.discardsDeltas then
    if ← ask (.discard deltaRef) then
      let _ ← audit .bestEffort
        { event := "discard", fence := fence, session := session, detail := deltaRef }
      pure ()

def holdSession (uid session : String) : Call Unit := do
  act (.joinGate uid session)
  act .lockGate

def releaseSession : Call Unit := do
  act .unlockGate
  act .leaveGate

/-- The hold of a named session; an anonymous fiber has none. -/
def release (session : String) : Call Unit :=
  if session = "" then pure () else releaseSession

section Admission

variable (config : HomeConfig)

def refuseDevices (uid : String) (fresh : Option Nat) : Call Unit := do
  if let some channel := fresh then act (.releaseChannel channel)
  match ← act (.channelOf uid) with
  | some old => if config.deviceAware then act (.host (.attachDevices uid old))
  | none => pure ()

def deviceFits (asked deviceClass : String) (capacity : Nat) : Option CoreError :=
  if capacity = 0 then some .needsDevice
  else if asked ≠ "" ∧ asked ≠ deviceClass then some .needsDevice
  else none

/-- The check of the engine's offer, for a grant with a device budget. -/
def checkOffer (grant : Grant) : Call (Option CoreError) := do
  if 0 < grant.deviceBudget.bytes then
    if config.deviceCapable then
      let offer ← ask (.deviceOffer grant.uid)
      pure (deviceFits grant.deviceBudget.deviceClass offer.1 offer.2)
    else pure (deviceFits grant.deviceBudget.deviceClass "" 0)
  else pure none

/-- The device channel of an admission: `none` when it could not be provisioned. -/
def provision (grant : Grant) : Call (Option (Option Nat)) := do
  if config.provisions then
    match ← act (.provision grant.uid) with
    | none => pure none
    | some channel =>
      if config.deviceAware then act (.host (.attachDevices grant.uid channel))
      pure (some (some channel))
  else pure (some none)

def keepDevices (uid : String) (fresh : Option Nat) : Call Unit := do
  if let some channel := fresh then
    match ← act (.keepChannel uid channel) with
    | some old => act (.releaseChannel old)
    | none => pure ()

def restoreAll : List SessionSnapshot → Call Unit
  | [] => pure ()
  | snapshot :: rest => do
      let _ ← act (.restoreParked snapshot)
      restoreAll rest

def restoreHeld (uid : String) : Call Unit := do
  restoreAll (← act (.takeHeld uid))

/-- The end of an admission that nothing refused. -/
def recordGrant (grant : Grant) (fresh : Option Nat) : Call (Option Refusal) := do
  keepDevices grant.uid fresh
  act (.admitGrant grant)
  restoreHeld grant.uid
  let _ ← auditGrant "admit" grant.uid "" grant.templateDigest
  pure none

/-- Warms the template and records the grant. -/
def warmAndRecord (rounds : Nat) (grant : Grant) : Call (Option Refusal) := do
  match ← provision config grant with
  | none => some <$> miss .notReady
  | some fresh =>
    if ← onHost (HostCall.prepareTemplate config.host rounds grant) then
      match ← checkOffer config grant with
      | some error =>
        refuseDevices config grant.uid fresh
        pure (some (.needsTier, error))
      | none => recordGrant grant fresh
    else
      refuseDevices config grant.uid fresh
      some <$> miss .notReady

/-- What `Admit` does in its slot of `admitting`. -/
def admitEntered (rounds : Nat) (grant : Grant) (channel : Nat) : Call (Option Refusal) := do
  let now ← ask .now
  if ← act (.denied grant.uid grant.leaseExpiry now (some channel)) then
    some <$> miss .grantRevoked
  else
    match ← act (.grant grant.uid) with
    | some held =>
      if changesFixedFields held grant then pure (some (.invalid, .grantChanged))
      else warmAndRecord config rounds grant
    | none => warmAndRecord config rounds grant

inductive AdmitEntry where
  | shared
  | ended
  | entered (channel : Nat)

/-- The loop that takes the slot, or shares the result of the admission that had it. -/
def enterAdmission (grant : Grant) : Nat → Call AdmitEntry
  | 0 => spin
  | rounds + 1 => do
      match ← act (.enterAdmission grant.uid) with
      | .entered channel => pure (.entered channel)
      | .inFlight channel =>
        if ← act (.awaitAdmission channel) then
          match ← act (.grant grant.uid) with
          | some held =>
            if !renewsLease held grant && decide (held.callerThumbprint = grant.callerThumbprint)
                && !changesFixedFields held grant then pure .shared
            else enterAdmission grant rounds
          | none => enterAdmission grant rounds
        else pure .ended

def admitSlot (rounds : Nat) (grant : Grant) : Call (Option Refusal) := do
  match ← enterAdmission grant rounds with
  | .shared => pure none
  | .ended => pure (some (.deferredFallback, .contextDone))
  | .entered channel =>
    let refusal ← admitEntered config rounds grant channel
    act (.leaveAdmission grant.uid)
    act (.closeAdmission channel)
    pure refusal

/-- The gaps `Admit` refuses before anything else. -/
def admitGap (grant : Grant) : Option CoreError :=
  if config.tier.rank < grant.minTier.rank then some .needsTier
  else if grant.policy.isolation.isUntrusted && !config.isolatesTenants then some .needsIsolation
  else if decide (grant.policy.endpointMode = .handoff) && !config.handsOff then some .needsHandoff
  else if decide (0 < grant.diskBudgetBytes) && !config.holdsWorkspaces then some .needsWorkspace
  else none

/-- `Admit`: `none` is success. -/
def coreAdmit (rounds : Nat) (grant : Grant) : Call (Option Refusal) := do
  match admitGap config grant with
  | some error => pure (some (.needsTier, error))
  | none =>
    let now ← ask .now
    if grant.expired now then some <$> miss .grantExpired
    else admitSlot config rounds grant

end Admission

section Yielding

variable (config : HomeConfig)

def releaseDevices (uid : String) : Call Unit := do
  match ← act (.dropChannel uid) with
  | some channel => act (.releaseChannel channel)
  | none => pure ()

def revoke (uid : String) : Call Unit := do
  act (.revokeGrant uid)
  releaseDevices uid

def yieldFibers (reason : String) : List Ledger.FiberInfo → Call Unit
  | [] => pure ()
  | info :: rest => do
      match ← act (.fiber info.id) with
      | none => yieldFibers reason rest
      | some fence =>
        let _ ← ask (.release info.id false)
        let gone ← act (.onRelease info.id)
        if gone.2 ≠ "" then discardDelta config fence info.session gone.2
        let _ ← audit .bestEffort
          { event := "yield", fence := fence, session := info.session, fiberID := info.id,
            detail := reason }
        yieldFibers reason rest

def yieldRevoked (uid reason : String) : Call Unit := do
  yieldFibers config reason (← act (.fibersOf uid))
  if config.dropsTemplates then onHost (HostCall.dropTemplate uid)
  let _ ← auditGrant "revoke" uid "" reason
  act .yielded

def yield (uid reason : String) : Call Unit := do
  revoke uid
  yieldRevoked config uid reason

/-- What `Remove` does once the UID is denied: it waits for the admission in flight. -/
def removeDenied (uid : String) : Call Unit := do
  match ← act (.admission uid) with
  | some channel =>
    let _ ← act (.awaitAdmission channel)
    yield config uid "removed by the home"
  | none => yield config uid "removed by the home"

/-- The lease a removed grant is denied by: the admitted one's, or now. -/
def removedLease (uid : String) : Call Time := do
  match ← act (.grant uid) with
  | some grant => pure grant.leaseExpiry
  | none => ask .now

def remove (uid : String) : Call Unit := do
  if config.denies then
    let lease ← removedLease uid
    let now ← ask .now
    act (.deny uid lease now)
    removeDenied config uid
  else yield config uid "removed by the home"

def redeliver (uid : String) : Call Unit := do
  if ← act (.lift uid) then
    let _ ← auditGrant "redeliver" uid "" "the home delivered the grant again"

def sweepGrants (now : Time) : List String → Call Unit
  | [] => pure ()
  | uid :: rest => do
      match ← act (.grant uid) with
      | some grant =>
        if grant.expired now then yield config uid "lease expired"
        sweepGrants now rest
      | none => sweepGrants now rest

def sweep : Call Unit := do
  let now ← ask .now
  sweepGrants config now (← act .statuses)

end Yielding

section Fibers

variable (config : HomeConfig)

def onExit (exit : FiberExit) : Call Unit := do
  match ← act (.exited exit) with
  | none => pure ()
  | some gone =>
    if gone.deltaRef ≠ "" then discardDelta config gone.fence gone.name gone.deltaRef
    let durability ← durability gone.fence.grantUID
    let _ ← audit durability
      { event := exit.reason, fence := gone.fence, session := gone.name,
        fiberID := exit.fiberID, detail := exit.detail }
    pure ()

def bumpFibers (next : Nat) (reason : String) : List String → Call Unit
  | [] => pure ()
  | id :: rest => do
      match ← act (.fiber id) with
      | none => bumpFibers next reason rest
      | some fence =>
        if next ≤ fence.epoch then bumpFibers next reason rest
        else
          let _ ← ask (.release id false)
          let gone ← act (.onRelease id)
          if gone.2 ≠ "" then discardDelta config fence gone.1 gone.2
          let durability ← durability fence.grantUID
          let _ ← audit durability
            { event := "scope-revoked", fence := fence, fiberID := id, detail := reason }
          bumpFibers next reason rest

def sweepEpoch (next : Nat) (reason : String) : Call Outcome := do
  bumpFibers config next reason (← act .runningFibers)
  pure (.bumped next)

def bumpEpoch (reason : String) : Call Outcome := do
  if config.epochStore then
    match ← ask .bumpStore with
    | none => pure (.refused .internal .store)
    | some next =>
      act (.bumpEpoch next)
      sweepEpoch config next reason
  else pure (.refused .internal .noEpochStore)

/-- Whether the parked delta is in the shared store now. -/
def publishDelta (fence : Fence) (session deltaRef : String) : Call Bool := do
  if config.publishesDeltas && decide (session ≠ "") then
    let _ ← act (.grant fence.grantUID)
    match ← ask (.publish deltaRef session) with
    | some remote =>
      let _ ← audit .bestEffort
        { event := "publish", fence := fence, session := session, detail := remote }
      pure true
    | none => pure false
  else pure false

def parkAnswer (ref : String) (published audited : Bool) : Option CoreError → Outcome
  | some error => .parked ref published .internal (some error)
  | none =>
    if audited then .parked ref published .ok none
    else .parked ref published .internal (some .audit)

/-- `Park` of a named session, under the session's gate. -/
def parkHeld (fence : Fence) (fiberID : String) (sync : Bool) : Call Outcome := do
  let stored ← ask (.park fiberID sync)
  if stored.1 = "" then
    match stored.2 with
    | some .deltaQuota => pure (.parked "" false .shed (some .deltaQuota))
    | some error => pure (.parked "" false .internal (some error))
    | none => pure (.parked "" false .internal (some .noDeltaRef))
  else
    let gone ← act (.onPark fiberID stored.1)
    let level ← durability fence.grantUID
    let audited ← audit level
      { event := "park", fence := fence, fiberID := fiberID, session := gone.1,
        detail := stored.1 }
    let published ← publishDelta config fence gone.1 stored.1
    if gone.2 ≠ "" ∧ gone.2 ≠ stored.1 then discardDelta config fence gone.1 gone.2
    pure (parkAnswer stored.1 published audited stored.2)

def park (fiberID : String) (sync : Bool) : Call Outcome := do
  match ← act (.fiber fiberID) with
  | none => pure (.parked "" false .notFound (some .fiberUnknown))
  | some fence =>
    let session ← act (.fiberSession fiberID)
    if session = "" then pure (.parked "" false .invalid (some .anonymousPark))
    else
      let held ← act (.grant fence.grantUID)
      if held.any fun grant => decide (grant.tenant = "") then
        pure (.parked "" false .needsTier (some .noTenant))
      else
        holdSession fence.grantUID session
        let outcome ← parkHeld config fence fiberID sync
        releaseSession
        pure outcome

def releaseFiber (fiberID : String) (discard : Bool) : Call Outcome := do
  match ← act (.fiber fiberID) with
  | none => pure (.refused .notFound .fiberUnknown)
  | some fence =>
    if ← ask (.release fiberID discard) then
      let gone ← act (.onRelease fiberID)
      if discard && decide (gone.2 ≠ "") then discardDelta config fence gone.1 gone.2
      let durability ← durability fence.grantUID
      if ← audit durability { event := "release", fence := fence, fiberID := fiberID } then
        pure .done
      else pure (.refused .internal .audit)
    else pure (.refused .internal .runtime)

def sampleFibers : List String → Call Unit
  | [] => pure ()
  | id :: rest => do
      if let some bytes ← ask (.stats id) then act (.setFiberW id bytes)
      sampleFibers rest

def sample : Call Unit := do
  sampleFibers (← act .runningFibers)

end Fibers

end Call

end Fiberd
