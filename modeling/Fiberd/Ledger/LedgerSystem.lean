import Fiberd.Ledger.LedgerCore
import Fiberd.Lib.Machines

/-!
The ledger together with the resolutions its Clones still hold.  Each operation
is one critical section of `l.mu`: `resolve` opens a resolution under the number
of its Clone, `commit` runs the closure it returned, and `unlock` closes it.
-/

namespace Fiberd

open Heaps Tables Machines

structure LedgerSystem where
  ledger : Ledger
  resolved : Table Nat Resolution
  /-- The entry each recorded fiber was minted from.  The source keeps no such map. -/
  origins : Table String Nat

def newSystem (epoch : Nat) : LedgerSystem := ⟨newLedger epoch, ∅, ∅⟩

def Resolution.born (resolution : Resolution) (endpoint : String) (pooled : Bool) : Session where
  name := resolution.session
  grantUID := resolution.grantUID
  state := .running
  fence := resolution.fence
  handle := { id := resolution.fence.string, endpoint := endpoint, pooled := pooled }
  deltaRef := if resolution.act = .resume then resolution.ref else ""

inductive LedgerOp where
  | admitGrant (grant : Grant)
  | revokeGrant (uid : String)
  | bumpEpoch (epoch : Nat)
  | resolve (clone : Nat) (grantUID session : String) (tier : Tier) (now : Time)
  | commit (clone : Nat) (endpoint : String) (pooled refuse : Bool)
  | unlock (clone : Nat)
  | onPark (fiberID deltaRef : String)
  | onRelease (fiberID : String)
  | onFiberExit (fiberID : String)
  | restoreParked (snapshot : SessionSnapshot)
  | forgetSession (grantUID session : String)
  | setFiberW (fiberID : String) (bytes : Nat)
  | setPooled (grantUID : String) (count : Int)

def LedgerOp.clone? : LedgerOp → Option Nat
  | .resolve clone _ _ _ _ => some clone
  | .commit clone _ _ _ => some clone
  | .unlock clone => some clone
  | _ => none

namespace LedgerSystem

def withLedger (system : LedgerSystem) (ledger : Ledger) : LedgerSystem :=
  { system with ledger := ledger }

def opened (system : LedgerSystem) (clone : Nat) (resolution : Resolution) (ledger : Ledger) :
    LedgerSystem :=
  { system with ledger := ledger, resolved := system.resolved.put clone resolution }

def commit (system : LedgerSystem) (clone : Nat) (resolution : Resolution)
    (endpoint : String) (pooled refuse : Bool) : Bool × LedgerSystem :=
  match system.ledger.commit resolution (resolution.born endpoint pooled) refuse with
  | (true, marked, ledger) =>
    (true, { ledger := ledger
             resolved := system.resolved.put clone marked
             origins := system.origins.put resolution.fence.string resolution.entry })
  | (false, _, _) => (false, system)

def unlock (system : LedgerSystem) (clone : Nat) (resolution : Resolution) : LedgerSystem :=
  { system with
    ledger := system.ledger.unlock resolution
    resolved := system.resolved.drop clone }

/-- One operation, or `none` where no Clone could ask for it: a number is used by one Clone,
only a create or a resume is committed, and only until it is. -/
def apply (system : LedgerSystem) : LedgerOp → Option LedgerSystem
  | .admitGrant grant => some (system.withLedger (system.ledger.admitGrant grant))
  | .revokeGrant uid => some (system.withLedger (system.ledger.revokeGrant uid))
  | .bumpEpoch epoch => some (system.withLedger (system.ledger.bumpEpoch epoch))
  | .resolve clone grantUID session tier now =>
    match system.resolved.get clone with
    | some _ => none
    | none =>
      match system.ledger.resolveHeld grantUID session tier now with
      | .ok (resolution, ledger) => some (system.opened clone resolution ledger)
      | .error _ => some system
  | .commit clone endpoint pooled refuse =>
    match system.resolved.get clone with
    | none => none
    | some resolution =>
      if resolution.act = .attach ∨ resolution.committed then none
      else some (system.commit clone resolution endpoint pooled refuse).2
  | .unlock clone =>
    match system.resolved.get clone with
    | none => none
    | some resolution => some (system.unlock clone resolution)
  | .onPark fiberID deltaRef => some (system.withLedger (system.ledger.onPark fiberID deltaRef).1)
  | .onRelease fiberID => some (system.withLedger (system.ledger.onRelease fiberID).1)
  | .onFiberExit fiberID => some (system.withLedger (system.ledger.onFiberExit fiberID).1)
  | .restoreParked snapshot =>
    match system.ledger.restoreParked snapshot with
    | .ok ledger => some (system.withLedger ledger)
    | .error _ => some system
  | .forgetSession grantUID session =>
    some (system.withLedger (system.ledger.forgetSession grantUID session))
  | .setFiberW fiberID bytes => some (system.withLedger (system.ledger.setFiberW fiberID bytes))
  | .setPooled grantUID count =>
    some (system.withLedger (system.ledger.setPooled grantUID count).1)

end LedgerSystem

namespace Ledger

def reservedEntry (entry : GrantEntry) : GrantEntry :=
  { entry with live := entry.live + 1, nextSeq := entry.nextSeq + 1 }

/-- The fence the next mint against the entry hands out. -/
def nextFence (ledger : Ledger) (grantUID : String) (pointer : Nat) : Fence :=
  ⟨grantUID, ledger.epoch, (ledger.entries.read pointer).nextSeq + 1⟩

/-- What a create or a resume is, and what it leaves behind. -/
structure MintedBy (ledger : Ledger) (grantUID session : String) (pointer : Nat)
    (resolution : Resolution) (next : Ledger) : Prop where
  room : ¬(0 < (ledger.entries.read pointer).grant.fiberMax ∧
    (ledger.entries.read pointer).grant.fiberMax ≤ (ledger.entries.read pointer).live)
  sameGrant : resolution.grantUID = grantUID
  sameSession : resolution.session = session
  sameEntry : resolution.entry = pointer
  notAttach : resolution.act ≠ .attach
  fenceEq : resolution.fence = ledger.nextFence grantUID pointer
  isReserved : resolution.reserved = true
  notCommitted : resolution.committed = false
  nextEq : next = { ledger with
    entries := ledger.entries.write pointer (reservedEntry (ledger.entries.read pointer)) }

theorem reserveAndMint_ok {ledger next : Ledger} {grantUID session : String} {ptr : Nat}
    {act : Action} {ref : String} {res : Resolution} (fresh : act ≠ .attach)
    (minted : ledger.reserveAndMint grantUID session ptr act ref = .ok (res, next)) :
    ledger.MintedBy grantUID session ptr res next := by
  unfold reserveAndMint reserve at minted
  by_cases full : 0 < (ledger.entries.read ptr).grant.fiberMax ∧
      (ledger.entries.read ptr).grant.fiberMax ≤ (ledger.entries.read ptr).live
  · simp [full] at minted
  · simp only [full, if_false, mint, read_write_same] at minted
    cases minted
    refine ⟨full, rfl, rfl, rfl, fresh, rfl, rfl, rfl, ?_⟩
    congr 1
    simp only [Heap.write, reservedEntry, Function.update_idem]

theorem resolveHeld_ok {ledger next : Ledger} {grantUID session : String} {tier : Tier}
    {now : Time} {res : Resolution}
    (resolved : ledger.resolveHeld grantUID session tier now = .ok (res, next)) :
    ∃ ptr, ledger.grants.get grantUID = some ptr ∧
      ((ledger.MintedBy grantUID session ptr res next ∧
          (session ≠ "" → ∀ got, ledger.sessions.get (sessionKey grantUID session) = some got →
            got.state = .parked)) ∨
        (next = ledger ∧ session ≠ "" ∧
          ∃ got, ledger.sessions.get (sessionKey grantUID session) = some got ∧
            got.state = .running ∧
            res = { grantUID := grantUID, session := session, entry := ptr,
                           act := .attach, fence := got.fence,
                           ref := got.handle.endpoint })) := by
  unfold resolveHeld at resolved
  cases admitted : ledger.grants.get grantUID with
  | none => simp [admitted] at resolved
  | some ptr =>
    refine ⟨ptr, rfl, ?_⟩
    simp only [admitted] at resolved
    split at resolved
    · simp at resolved
    · split at resolved
      · simp at resolved
      · by_cases anonymous : session = ""
        · simp only [anonymous, if_true] at resolved
          left
          exact ⟨anonymous ▸ reserveAndMint_ok (by decide) resolved,
            fun named => (named anonymous).elim⟩
        · simp only [anonymous, if_false] at resolved
          cases got : ledger.sessions.get (sessionKey grantUID session) with
          | none =>
            simp only [got] at resolved
            exact .inl ⟨reserveAndMint_ok (by decide) resolved, by simp⟩
          | some item =>
            simp only [got] at resolved
            cases state : item.state with
            | running =>
              simp only [state, Except.ok.injEq, Prod.mk.injEq] at resolved
              exact .inr ⟨resolved.2.symm, anonymous, item, rfl, state,
                resolved.1.symm⟩
            | parked =>
              simp only [state] at resolved
              split at resolved
              · simp at resolved
              · refine .inl ⟨reserveAndMint_ok (by decide) resolved, ?_⟩
                intro _ other same
                cases same
                exact state

end Ledger

end Fiberd
