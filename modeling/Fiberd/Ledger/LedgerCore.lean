import Fiberd.Fence
import Fiberd.Grant
import Fiberd.Lib.Heaps
import Fiberd.Lib.Tables
import Mathlib.Data.List.Sort

/-!
The ledger of `pkg/core/ledger.go`.  Every function below is one hold of `l.mu`.
Grant entries and session gates are shared by pointer in the source, so they
live in heaps here and the maps hold pointers.
-/

namespace Fiberd

open Heaps Tables

inductive SessionState where
  | running
  | parked
  deriving DecidableEq, Repr

structure FiberHandle where
  id : String := ""
  endpoint : String := ""
  pooled : Bool := false
  deriving DecidableEq, Repr

structure Session where
  name : String
  grantUID : String
  state : SessionState
  fence : Fence
  handle : FiberHandle := {}
  deltaRef : String := ""
  deriving DecidableEq, Repr

inductive Action where
  | create
  | attach
  | resume
  deriving DecidableEq, Repr

def Action.string : Action → String
  | .attach => "attach"
  | .resume => "resume"
  | .create => "create"

structure SessionGate where
  holder : Option Nat := none
  refs : Nat := 0
  deriving DecidableEq, Repr

instance : Inhabited SessionGate := ⟨{}⟩

structure GrantEntry where
  grant : Grant
  nextSeq : Nat := 0
  live : Int := 0
  pooled : Int := 0
  deriving DecidableEq, Repr

instance : Inhabited GrantEntry := ⟨{ grant := default }⟩

structure FiberRef where
  grantUID : String
  sessionKey : String := ""
  fence : Fence
  wUsed : Nat := 0
  deriving DecidableEq, Repr

structure SessionSnapshot where
  name : String
  grantUID : String
  state : SessionState := .parked
  fence : Fence
  deltaRef : String := ""
  fiberID : String := ""
  deriving DecidableEq, Repr

structure Ledger where
  epoch : Nat
  grants : Table String Nat
  entries : Heap GrantEntry
  sessions : Table String Session
  fibers : Table String FiberRef
  perSession : Table String Nat
  gates : Heap SessionGate
  seqHigh : Table String Nat

def newLedger (epoch : Nat) : Ledger where
  epoch := epoch
  grants := ∅
  entries := Heap.empty
  sessions := ∅
  fibers := ∅
  perSession := ∅
  gates := Heap.empty
  seqHigh := ∅

def sessionKey (grantUID session : String) : String := grantUID ++ "/" ++ session

namespace Ledger

def bumpEpoch (ledger : Ledger) (epoch : Nat) : Ledger :=
  if ledger.epoch < epoch then { ledger with epoch := epoch } else ledger

def admitGrant (ledger : Ledger) (grant : Grant) : Ledger :=
  match ledger.grants.get grant.uid with
  | some pointer =>
    { ledger with
      entries := ledger.entries.write pointer
        { ledger.entries.read pointer with grant := grant } }
  | none =>
    { ledger with
      grants := ledger.grants.put grant.uid ledger.entries.size
      entries := ledger.entries.alloc
        { grant := grant, nextSeq := (ledger.seqHigh.get grant.uid).getD 0 } }

def grant? (ledger : Ledger) (uid : String) : Option Grant :=
  (ledger.grants.get uid).map fun pointer => (ledger.entries.read pointer).grant

def grantBoundTo (ledger : Ledger) (uid thumbprint : String) : Bool :=
  match ledger.grant? uid with
  | some grant => decide (grant.callerThumbprint = thumbprint)
  | none => false

def revokeGrant (ledger : Ledger) (uid : String) : Ledger :=
  match ledger.grants.get uid with
  | some pointer =>
    { ledger with
      seqHigh := ledger.seqHigh.put uid (ledger.entries.read pointer).nextSeq
      grants := ledger.grants.drop uid }
  | none => { ledger with grants := ledger.grants.drop uid }

def sessionState (ledger : Ledger) (grantUID session : String) :
    Option (SessionState × String) :=
  (ledger.sessions.get (sessionKey grantUID session)).map fun found =>
    (found.state, found.deltaRef)

def forgetSession (ledger : Ledger) (grantUID session : String) : Ledger :=
  match ledger.sessions.get (sessionKey grantUID session) with
  | some found =>
    if found.state = .parked then
      { ledger with sessions := ledger.sessions.drop (sessionKey grantUID session) }
    else ledger
  | none => ledger

def fiber? (ledger : Ledger) (fiberID : String) : Option Fence :=
  (ledger.fibers.get fiberID).map FiberRef.fence

def fiberSession (ledger : Ledger) (fiberID : String) : String :=
  match ledger.fibers.get fiberID with
  | some ref =>
    if ref.sessionKey = "" then ""
    else ((ledger.sessions.get ref.sessionKey).map Session.name).getD ""
  | none => ""

def setFiberW (ledger : Ledger) (fiberID : String) (bytes : Nat) : Ledger :=
  match ledger.fibers.get fiberID with
  | some ref => { ledger with fibers := ledger.fibers.put fiberID { ref with wUsed := bytes } }
  | none => ledger

def setPooled (ledger : Ledger) (grantUID : String) (count : Int) : Ledger × Bool :=
  match ledger.grants.get grantUID with
  | some pointer =>
    if (ledger.entries.read pointer).pooled = count then (ledger, false)
    else ({ ledger with
      entries := ledger.entries.write pointer
        { ledger.entries.read pointer with pooled := count } }, true)
  | none => (ledger, false)

/-- `sort.Strings`; the byte order of UTF-8 is the order of the code points. -/
def sortIDs (ids : List String) : List String :=
  ids.insertionSort fun first second => first ≤ second

def runningFibers (ledger : Ledger) : List String :=
  sortIDs (ledger.fibers.rows.map Prod.fst)

structure FiberInfo where
  id : String
  session : String := ""
  wUsed : Nat := 0
  deriving DecidableEq, Repr

def fiberInfo (ledger : Ledger) (id : String) (ref : FiberRef) : FiberInfo where
  id := id
  session :=
    if ref.sessionKey = "" then ""
    else ((ledger.sessions.get ref.sessionKey).map Session.name).getD ""
  wUsed := ref.wUsed

def fibersOf (ledger : Ledger) (grantUID : String) : List FiberInfo :=
  ((ledger.fibers.rows.filter fun row => decide (row.2.grantUID = grantUID)).map fun row =>
    ledger.fiberInfo row.1 row.2).insertionSort fun first second => first.id ≤ second.id

def freeSlot (ledger : Ledger) (grantUID : String) : Ledger :=
  match ledger.grants.get grantUID with
  | some pointer =>
    { ledger with
      entries := ledger.entries.write pointer
        { ledger.entries.read pointer with live := (ledger.entries.read pointer).live - 1 } }
  | none => ledger

/-- How a fiber leaves: it goes from the table, and then its slot is freed. -/
def removeFiber (ledger : Ledger) (fiberID grantUID : String) : Ledger :=
  { ledger with fibers := ledger.fibers.drop fiberID }.freeSlot grantUID

def onPark (ledger : Ledger) (fiberID deltaRef : String) : Ledger × String × String :=
  match ledger.fibers.get fiberID with
  | none => (ledger, "", "")
  | some ref =>
    let freed := ledger.removeFiber fiberID ref.grantUID
    if ref.sessionKey = "" then (freed, "", "")
    else
      match freed.sessions.get ref.sessionKey with
      | some session =>
        ({ freed with
          sessions := freed.sessions.put ref.sessionKey
            { session with state := .parked, deltaRef := deltaRef, handle := {} } },
          session.name, session.deltaRef)
      | none => (freed, "", "")

structure Gone where
  fence : Fence
  name : String := ""
  deltaRef : String := ""
  deriving DecidableEq, Repr

def onGone (ledger : Ledger) (fiberID : String) : Ledger × Option Gone :=
  match ledger.fibers.get fiberID with
  | none => (ledger, none)
  | some ref =>
    let freed := ledger.removeFiber fiberID ref.grantUID
    if ref.sessionKey = "" then (freed, some { fence := ref.fence })
    else
      ({ freed with sessions := freed.sessions.drop ref.sessionKey },
        some {
          fence := ref.fence
          name := ((freed.sessions.get ref.sessionKey).map Session.name).getD ""
          deltaRef := ((freed.sessions.get ref.sessionKey).map Session.deltaRef).getD "" })

def onRelease (ledger : Ledger) (fiberID : String) : Ledger × String × String :=
  match ledger.onGone fiberID with
  | (next, some gone) => (next, gone.name, gone.deltaRef)
  | (next, none) => (next, "", "")

def onFiberExit (ledger : Ledger) (fiberID : String) : Ledger × Option Gone :=
  ledger.onGone fiberID

inductive RestoreError where
  | grantUnknown
  | sessionHeld
  deriving DecidableEq, Repr

def restoreParked (ledger : Ledger) (snapshot : SessionSnapshot) : Except RestoreError Ledger :=
  match ledger.grants.get snapshot.grantUID with
  | none => .error .grantUnknown
  | some _ =>
    match ledger.sessions.get (sessionKey snapshot.grantUID snapshot.name) with
    | some _ => .error .sessionHeld
    | none =>
      .ok { ledger with
        sessions := ledger.sessions.put (sessionKey snapshot.grantUID snapshot.name)
          { name := snapshot.name
            grantUID := snapshot.grantUID
            state := .parked
            fence := snapshot.fence
            deltaRef := snapshot.deltaRef } }

end Ledger

inductive ResolveError where
  | grantUnknown
  | grantExpired
  | needsTier
  | grantFull
  deriving DecidableEq, Repr

/-- What `resolveHeld` hands back: its results and the variables its closures share. -/
structure Resolution where
  grantUID : String
  session : String
  entry : Nat
  act : Action
  fence : Fence
  ref : String := ""
  reserved : Bool := false
  committed : Bool := false
  deriving DecidableEq, Repr

def Resolution.key (resolution : Resolution) : String :=
  sessionKey resolution.grantUID resolution.session

namespace Ledger

def reserve (ledger : Ledger) (pointer : Nat) : Option Ledger :=
  let entry := ledger.entries.read pointer
  if 0 < entry.grant.fiberMax ∧ entry.grant.fiberMax ≤ entry.live then none
  else some { ledger with
    entries := ledger.entries.write pointer { entry with live := entry.live + 1 } }

def mint (ledger : Ledger) (grantUID : String) (pointer : Nat) : Fence × Ledger :=
  let entry := ledger.entries.read pointer
  (⟨grantUID, ledger.epoch, entry.nextSeq + 1⟩,
    { ledger with
      entries := ledger.entries.write pointer { entry with nextSeq := entry.nextSeq + 1 } })

/-- A create or a resume: the slot is reserved first, then the fence is minted. -/
def reserveAndMint (ledger : Ledger) (grantUID session : String) (pointer : Nat)
    (act : Action) (ref : String) : Except ResolveError (Resolution × Ledger) :=
  match ledger.reserve pointer with
  | none => .error .grantFull
  | some reserved =>
    let minted := reserved.mint grantUID pointer
    .ok ({ grantUID := grantUID, session := session, entry := pointer, act := act,
           fence := minted.1, ref := ref, reserved := true }, minted.2)

def resolveHeld (ledger : Ledger) (grantUID session : String) (tier : Tier) (now : Time) :
    Except ResolveError (Resolution × Ledger) :=
  match ledger.grants.get grantUID with
  | none => .error .grantUnknown
  | some pointer =>
    let grant := (ledger.entries.read pointer).grant
    if grant.expired now then .error .grantExpired
    else if tier.rank < grant.minTier.rank then .error .needsTier
    else if session = "" then ledger.reserveAndMint grantUID session pointer .create ""
    else
      match ledger.sessions.get (sessionKey grantUID session) with
      | none => ledger.reserveAndMint grantUID session pointer .create ""
      | some found =>
        match found.state with
        | .running =>
          .ok ({ grantUID := grantUID, session := session, entry := pointer,
                 act := .attach, fence := found.fence, ref := found.handle.endpoint },
            ledger)
        | .parked =>
          if tier.rank < Tier.checkpoint.rank then .error .needsTier
          else ledger.reserveAndMint grantUID session pointer .resume found.deltaRef

/-- The `commit` closure: whether it committed, the shared flag after it, and the ledger. -/
def commit (ledger : Ledger) (resolution : Resolution) (session : Session) (refuse : Bool) :
    Bool × Resolution × Ledger :=
  if ledger.grants.get resolution.grantUID ≠ some resolution.entry ∨
      session.fence.epoch ≠ ledger.epoch ∨ refuse then
    (false, resolution, ledger)
  else
    let fibers :=
      if session.handle.id = "" then ledger.fibers
      else ledger.fibers.put session.handle.id
        { grantUID := resolution.grantUID
          sessionKey := if session.name = "" then "" else resolution.key
          fence := session.fence }
    let sessions :=
      if session.name = "" then ledger.sessions
      else ledger.sessions.put resolution.key session
    (true, { resolution with committed := true },
      { ledger with fibers := fibers, sessions := sessions })

/-- The slot half of the `unlock` closure. -/
def unlock (ledger : Ledger) (resolution : Resolution) : Ledger :=
  if resolution.reserved && !resolution.committed then
    let entry := ledger.entries.read resolution.entry
    { ledger with
      entries := ledger.entries.write resolution.entry { entry with live := entry.live - 1 } }
  else ledger

end Ledger

end Fiberd
