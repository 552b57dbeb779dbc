import Fiberd.Home.HomeCalls

/-!
The process of a home, from `pkg/core/snapshot.go`: the snapshot file, what a boot
holds back, and `Reconcile`.  The home's own calls run here as they are.  A boot
admits its grants one after the other with nothing beside it, so an admission at
boot is one action, whose answer says how it went.
-/

namespace Fiberd

open Heaps Tables Programs

/-- The on-disk cache of the ledger, without the time it was saved at. -/
structure Snapshot where
  epoch : Nat := 0
  grants : List Grant := []
  sessions : List SessionSnapshot := []
  unreadable : Bool := false
  deriving DecidableEq, Repr

def SessionSnapshot.key (snapshot : SessionSnapshot) : String :=
  sessionKey snapshot.grantUID snapshot.name

def Session.snapshot (session : Session) : SessionSnapshot where
  name := session.name
  grantUID := session.grantUID
  state := session.state
  fence := session.fence
  deltaRef := session.deltaRef
  fiberID := if session.state = .running then session.handle.id else ""

namespace Ledger

def snapshot (ledger : Ledger) : Snapshot where
  epoch := ledger.epoch
  grants := ledger.grants.rows.map fun row => (ledger.entries.read row.2).grant
  sessions := ledger.sessions.rows.map fun row => row.2.snapshot

/-- The restores of an admission, each of which the ledger may refuse. -/
def restoreAll (ledger : Ledger) (snapshots : List SessionSnapshot) : Ledger :=
  snapshots.foldl (fun ledger snapshot => (ledger.restoreParked snapshot).toOption.getD ledger)
    ledger

end Ledger

/-- What an admission that goes through does to the ledger and to what is held. -/
def Home.letIn (home : Home) (grant : Grant) : Home :=
  { home.withLedger
      ((home.ledger.admitGrant grant).restoreAll ((home.held.get grant.uid).getD [])) with
    held := home.held.drop grant.uid }

structure Node where
  home : Home
  /-- The grant of each entry of `held`, whose sessions the home has. -/
  heldGrants : Table String Grant := ∅
  file : Snapshot := {}
  /-- What the last write of the snapshot was of, whether or not it landed. -/
  persisted : Snapshot := {}
  /-- The list last given to `SweepDeltas`. -/
  keep : Option (List String) := none

namespace Node

/-- The UIDs whose held entries go into the snapshot: an admitted grant stands for itself. -/
def heldUIDs (node : Node) : List String :=
  (Ledger.sortIDs (node.home.held.rows.map Prod.fst)).filter fun uid =>
    !(node.home.ledger.snapshot.grants.any fun grant => decide (grant.uid = uid))

/-- The sessions held for a UID that the ledger does not know. -/
def heldSessions (node : Node) (uid : String) : List SessionSnapshot :=
  ((node.home.held.get uid).getD []).filter fun held =>
    !(node.home.ledger.snapshot.sessions.any fun known => decide (known.key = held.key))

/-- `Core.snapshot`: the ledger and what the boot holds back. -/
def snapshot (node : Node) : Snapshot where
  epoch := node.home.ledger.snapshot.epoch
  grants := node.home.ledger.snapshot.grants ++
    node.heldUIDs.flatMap fun uid => (node.heldGrants.get uid).toList
  sessions := node.home.ledger.snapshot.sessions ++ node.heldUIDs.flatMap node.heldSessions

end Node

inductive NodeAct where
  | core (action : Act)
  | hold (grant : Grant)
  | coreAdmit (grant : Grant)
  | hasDelta (ref : String)
  | list
  | snapshot
  | sweepDeltas (keep : List String)
  | persist

abbrev NodeAct.Result : NodeAct → Type
  | .core action => action.Result
  | .coreAdmit _ => Bool
  | .hasDelta _ => Bool
  | .list => Option (List String)
  | .snapshot => Snapshot
  | .sweepDeltas _ => Nat
  | _ => Unit

inductive NodeAnswer where
  | core (answer : Answer)
  | flag (value : Bool)
  | running (ids : Option (List String))
  | swept (count : Nat)

def Node.perform (node : Node) (thread : Nat) (action : NodeAct) (answer : NodeAnswer) :
    Option (action.Result × Node) :=
  match action, answer with
  | .core action, .core answer =>
    (node.home.perform thread action answer).map fun outcome =>
      (outcome.1, { node with home := outcome.2 })
  | .hold grant, _ => some ((), { node with
      home := { node.home with held := node.home.held.put grant.uid [] }
      heldGrants := node.heldGrants.put grant.uid grant })
  | .coreAdmit grant, .flag admitted =>
    some (admitted, if admitted then { node with home := node.home.letIn grant } else node)
  | .hasDelta _, .flag present => some (present, node)
  | .list, .running ids => some (ids, node)
  | .snapshot, _ => some (node.snapshot, node)
  | .sweepDeltas keep, .swept count => some (count, { node with keep := some keep })
  | .persist, .flag landed => some ((), { node with
      persisted := node.snapshot
      file := if landed then node.snapshot else node.file })
  | _, _ => none

structure NodeConfig where
  home : HomeConfig := {}
  checksDeltas : Bool := false
  sweepsDeltas : Bool := false

structure ReconcileReport where
  grantsReadmitted : Nat := 0
  grantsExpired : Nat := 0
  grantsUnverified : Nat := 0
  grantsUnavailable : Nat := 0
  parkedRestored : Nat := 0
  parkedDropped : Nat := 0
  parkedHeld : Nat := 0
  orphansKilled : Nat := 0
  deltasSwept : Nat := 0
  deriving DecidableEq, Repr

abbrev NodeProg := Prog NodeAct NodeAct.Result

/-- The session a boot remembers: it is parked and names its delta. -/
def SessionSnapshot.resumable (snapshot : SessionSnapshot) : Bool :=
  decide (snapshot.state = .parked) && decide (snapshot.deltaRef ≠ "")

namespace NodeProg

variable {β : Type}

def act (action : NodeAct) : NodeProg action.Result := Prog.act action

def onCore : Call β → NodeProg β
  | .done value => .done value
  | .call action next => .call (.core action) fun result => onCore (next result)

variable (config : NodeConfig)

def reverify (grant : Grant) : NodeProg (Except CoreError Grant) := do
  match ← onCore (Call.ask (.verify grant.token)) with
  | .error error => pure (.error error)
  | .ok verified =>
    if verified.uid ≠ grant.uid then pure (.error .verify)
    else if config.home.nodeID ≠ "" ∧ verified.audience ≠ config.home.nodeID then
      pure (.error .wrongAudience)
    else pure (.ok { verified with token := grant.token })

/-- `Admit` at boot.  Only an admission that went through writes the snapshot. -/
def coreAdmit (grant : Grant) : NodeProg Bool := do
  let admitted ← act (.coreAdmit grant)
  if admitted then act .persist
  pure admitted

def reconcileGrant (now : Time) (grant : Grant) (report : ReconcileReport) :
    NodeProg ReconcileReport := do
  if grant.expired now then
    let _ ← onCore (Call.auditGrant "expire" grant.uid "" "at boot")
    pure { report with grantsExpired := report.grantsExpired + 1 }
  else if grant.token = "" then
    pure { report with grantsUnverified := report.grantsUnverified + 1 }
  else
    match ← reverify config grant with
    | .error .verifyUnavailable =>
      act (.hold grant)
      pure { report with grantsUnavailable := report.grantsUnavailable + 1 }
    | .error _ =>
      let _ ← onCore (Call.auditGrant "refuse" grant.uid "" "at boot")
      pure { report with grantsUnverified := report.grantsUnverified + 1 }
    | .ok verified =>
      if ← coreAdmit verified then
        pure { report with grantsReadmitted := report.grantsReadmitted + 1 }
      else pure report

def reconcileGrants (now : Time) : List Grant → ReconcileReport → NodeProg ReconcileReport
  | [], report => pure report
  | grant :: rest, report => do
      reconcileGrants now rest (← reconcileGrant config now grant report)

/-- Whether the delta of a parked session is known to be gone. -/
def deltaGone (ref : String) : NodeProg Bool := do
  if config.checksDeltas then
    let present ← act (.hasDelta ref)
    pure !present
  else pure false

def reconcileSession (snapshot : SessionSnapshot) (report : ReconcileReport) :
    NodeProg ReconcileReport := do
  if snapshot.resumable then
    if ← deltaGone config snapshot.deltaRef then
      pure { report with parkedDropped := report.parkedDropped + 1 }
    else if ← act (.core (.holdParked snapshot)) then
      pure { report with parkedHeld := report.parkedHeld + 1 }
    else
      match ← act (.core (.restoreParked snapshot)) with
      | some _ => pure { report with parkedDropped := report.parkedDropped + 1 }
      | none => pure { report with parkedRestored := report.parkedRestored + 1 }
  else pure report

def reconcileSessions : List SessionSnapshot → ReconcileReport → NodeProg ReconcileReport
  | [], report => pure report
  | snapshot :: rest, report => do
      reconcileSessions rest (← reconcileSession config snapshot report)

/-- Everything the runtime still runs is from a prior epoch, and is killed. -/
def killOrphan (id : String) : NodeProg Bool := do
  let epoch ← act (.core .epoch)
  if (parseFence id).any fun fence => decide (epoch ≤ fence.epoch) then pure false
  else if ← onCore (Call.ask (.release id false)) then
    let _ ← onCore (Call.audit .bestEffort
      { event := "orphan", fence := (parseFence id).getD ⟨"", 0, 0⟩, fiberID := id,
        detail := "killed at boot: prior epoch" })
    pure true
  else pure false

def killOrphans : List String → ReconcileReport → NodeProg ReconcileReport
  | [], report => pure report
  | id :: rest, report => do
      if ← killOrphan id then
        killOrphans rest { report with orphansKilled := report.orphansKilled + 1 }
      else killOrphans rest report

/-- The delta a running session was resumed from was consumed by that resume. -/
def discardConsumed : List SessionSnapshot → NodeProg Unit
  | [] => pure ()
  | snapshot :: rest => do
      if snapshot.state = .running ∧ snapshot.deltaRef ≠ "" then
        onCore (Call.discardDelta config.home snapshot.fence snapshot.name snapshot.deltaRef)
      discardConsumed rest

def sweepDeltas (snap : Snapshot) : NodeProg Nat := do
  if !config.sweepsDeltas then pure 0
  else if snap.unreadable then pure 0
  else
    let current ← act .snapshot
    act (.sweepDeltas ((current.sessions.filter SessionSnapshot.resumable).map (·.deltaRef)))

/-- `Reconcile`: `none` when the runtime could not list its fibers. -/
def reconcile (snap : Snapshot) : NodeProg (Option ReconcileReport) := do
  let now ← onCore (Call.ask .now)
  let report ← reconcileGrants config now snap.grants {}
  let report ← reconcileSessions config snap.sessions report
  match ← act .list with
  | none => pure none
  | some running =>
    let report ← killOrphans running report
    discardConsumed config snap.sessions
    let swept ← sweepDeltas config snap
    act .persist
    pure (some { report with deltasSwept := swept })

end NodeProg

inductive NodeCall where
  | core (call : HomeCall)
  | reconcile (snap : Snapshot)
  | persist

inductive NodeOutcome where
  | core (outcome : Outcome)
  | reconciled (report : Option ReconcileReport)
  | persisted
  deriving DecidableEq, Repr

def NodeCall.body (config : NodeConfig) : NodeCall → NodeProg NodeOutcome
  | .core call => do return .core (← NodeProg.onCore (call.body config.home))
  | .reconcile snap => do return .reconciled (← NodeProg.reconcile config snap)
  | .persist => do
      NodeProg.act .persist
      return .persisted

def newNode (epoch : Nat) (revoked : Option Revoked) (file : Snapshot) : Node where
  home := newHome epoch revoked
  file := file

def nodeKernel (config : NodeConfig) :
    Kernel Node NodeAct NodeAct.Result NodeAnswer NodeCall NodeOutcome where
  start node := ∃ epoch revoked file, node = newNode epoch revoked file
  perform := Node.perform
  body := NodeCall.body config

abbrev NodeThreads := Threads Node NodeAct NodeAct.Result NodeOutcome

abbrev NodeEvent := Event NodeCall NodeAnswer

end Fiberd
