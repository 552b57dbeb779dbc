import Fiberd.Ledger.LedgerSystem

/-!
What each ledger operation changes.  Most operations are quiet: they mint
nothing, admit nothing and record no fiber.  The two that end a fiber take it
out of the table and free its slot, whatever they then do to its session.
-/

namespace Fiberd

open Heaps Tables Machines

namespace Ledger

def lastSeq (ledger : Ledger) (uid : String) : Nat :=
  match ledger.grants.get uid with
  | some pointer => (ledger.entries.read pointer).nextSeq
  | none => (ledger.seqHigh.get uid).getD 0

def Minted (ledger : Ledger) (fence : Fence) : Prop :=
  fence.epoch < ledger.epoch ∨
    fence.epoch = ledger.epoch ∧ fence.seq ≤ ledger.lastSeq fence.grantUID

structure Quiet (before after : Ledger) : Prop where
  epoch : after.epoch = before.epoch
  grants : after.grants = before.grants
  seqHigh : after.seqHigh = before.seqHigh
  size : after.entries.size = before.entries.size
  grant : ∀ pointer, (after.entries.read pointer).grant = (before.entries.read pointer).grant
  nextSeq : ∀ pointer,
    (after.entries.read pointer).nextSeq = (before.entries.read pointer).nextSeq
  fibers : ∀ id ref, after.fibers.get id = some ref →
    ∃ old, before.fibers.get id = some old ∧ old.grantUID = ref.grantUID ∧
      old.sessionKey = ref.sessionKey ∧ old.fence = ref.fence

theorem Quiet.refl (ledger : Ledger) : Quiet ledger ledger :=
  ⟨rfl, rfl, rfl, rfl, fun _ => rfl, fun _ => rfl,
    fun _ ref got => ⟨ref, got, rfl, rfl, rfl⟩⟩

variable {before after ledger : Ledger}

theorem Quiet.lastSeq (quiet : Quiet before after) (uid : String) :
    after.lastSeq uid = before.lastSeq uid := by
  simp only [Ledger.lastSeq, quiet.grants, quiet.seqHigh, quiet.nextSeq]

theorem Quiet.minted (quiet : Quiet before after) (fence : Fence) :
    after.Minted fence ↔ before.Minted fence := by
  simp only [Minted, quiet.epoch, quiet.lastSeq]

theorem Quiet.grant? (quiet : before.Quiet after) (uid : String) :
    after.grant? uid = before.grant? uid := by
  simp only [Ledger.grant?, quiet.grants, quiet.grant]

theorem freeSlot_fields (ledger : Ledger) (uid : String) :
    (ledger.freeSlot uid).epoch = ledger.epoch ∧ (ledger.freeSlot uid).grants = ledger.grants ∧
      (ledger.freeSlot uid).sessions = ledger.sessions ∧
      (ledger.freeSlot uid).fibers = ledger.fibers ∧
      (ledger.freeSlot uid).seqHigh = ledger.seqHigh := by
  unfold freeSlot
  split <;> exact ⟨rfl, rfl, rfl, rfl, rfl⟩

@[simp] theorem removeFiber_sessions (ledger : Ledger) (fiberID grantUID : String) :
    (ledger.removeFiber fiberID grantUID).sessions = ledger.sessions := by
  simp [removeFiber, freeSlot_fields]

@[simp] theorem removeFiber_fibers (ledger : Ledger) (fiberID grantUID : String) :
    (ledger.removeFiber fiberID grantUID).fibers = ledger.fibers.drop fiberID := by
  simp [removeFiber, freeSlot_fields]

@[simp] theorem removeFiber_grants (ledger : Ledger) (fiberID grantUID : String) :
    (ledger.removeFiber fiberID grantUID).grants = ledger.grants := by
  simp [removeFiber, freeSlot_fields]

theorem removeFiber_gates (ledger : Ledger) (fiberID grantUID : String) :
    (ledger.removeFiber fiberID grantUID).gates = ledger.gates ∧
      (ledger.removeFiber fiberID grantUID).perSession = ledger.perSession := by
  unfold removeFiber freeSlot
  split <;> exact ⟨rfl, rfl⟩

theorem read_freeSlot (ledger : Ledger) (uid : String) (ptr : Nat) :
    ((ledger.freeSlot uid).entries.read ptr) =
      if ledger.grants.get uid = some ptr then
        { ledger.entries.read ptr with live := (ledger.entries.read ptr).live - 1 }
      else ledger.entries.read ptr := by
  unfold freeSlot
  cases admitted : ledger.grants.get uid with
  | none => simp
  | some current =>
    simp only [read_write, Option.some.injEq]
    by_cases same : ptr = current
    · simp [same]
    · simp [same, Ne.symm same]

theorem quiet_removeFiber (ledger : Ledger) (fiberID grantUID : String) :
    Quiet ledger (ledger.removeFiber fiberID grantUID) := by
  refine ⟨?_, ?_, ?_, ?_, ?_, ?_, ?_⟩
  · simp [removeFiber, freeSlot_fields]
  · simp
  · simp [removeFiber, freeSlot_fields]
  · unfold removeFiber freeSlot
    split <;> rfl
  · intro ptr
    rw [removeFiber, read_freeSlot]
    split <;> rfl
  · intro ptr
    rw [removeFiber, read_freeSlot]
    split <;> rfl
  · intro id ref got
    simp only [removeFiber_fibers] at got
    obtain ⟨_, got⟩ := get_drop_eq_some got
    exact ⟨ref, got, rfl, rfl, rfl⟩

theorem Quiet.withSessions (quiet : Quiet before after)
    (sessions : Table String Session) : Quiet before { after with sessions := sessions } :=
  ⟨quiet.epoch, quiet.grants, quiet.seqHigh, quiet.size, quiet.grant, quiet.nextSeq, quiet.fibers⟩

variable {fiberID : String}

theorem onPark_unknown (deltaRef : String) (unknown : ledger.fibers.get fiberID = none) :
    (ledger.onPark fiberID deltaRef).1 = ledger := by
  simp [onPark, unknown]

theorem onPark_known {ref : FiberRef} (deltaRef : String)
    (known : ledger.fibers.get fiberID = some ref) :
    (ledger.onPark fiberID deltaRef).1 =
      { ledger.removeFiber fiberID ref.grantUID with
        sessions :=
          if ref.sessionKey = "" then ledger.sessions
          else match ledger.sessions.get ref.sessionKey with
            | some session => ledger.sessions.put ref.sessionKey
                { session with state := .parked, deltaRef := deltaRef, handle := {} }
            | none => ledger.sessions } := by
  have sessions := removeFiber_sessions ledger fiberID ref.grantUID
  simp only [onPark, known, sessions]
  split
  · rw [← sessions]
  · cases got : ledger.sessions.get ref.sessionKey with
    | none => simp only [← sessions]
    | some session => rfl

theorem onGone_unknown
    (unknown : ledger.fibers.get fiberID = none) : ledger.onGone fiberID = (ledger, none) := by
  simp [onGone, unknown]

theorem onGone_known {ref : FiberRef} (known : ledger.fibers.get fiberID = some ref) :
    (ledger.onGone fiberID).1 =
      { ledger.removeFiber fiberID ref.grantUID with
        sessions := if ref.sessionKey = "" then ledger.sessions
          else ledger.sessions.drop ref.sessionKey } := by
  have sessions := removeFiber_sessions ledger fiberID ref.grantUID
  simp only [onGone, known, sessions]
  split
  · rw [← sessions]
  · rfl

theorem onRelease_ledger (ledger : Ledger) (fiberID : String) :
    (ledger.onRelease fiberID).1 = (ledger.onGone fiberID).1 := by
  unfold onRelease
  split <;> simp_all

theorem quiet_onPark (ledger : Ledger) (fiberID deltaRef : String) :
    Quiet ledger (ledger.onPark fiberID deltaRef).1 := by
  cases known : ledger.fibers.get fiberID with
  | none =>
    rw [onPark_unknown deltaRef known]
    exact Quiet.refl ledger
  | some ref =>
    rw [onPark_known deltaRef known]
    exact (quiet_removeFiber ledger fiberID ref.grantUID).withSessions _

theorem quiet_onGone (ledger : Ledger) (fiberID : String) :
    Quiet ledger (ledger.onGone fiberID).1 := by
  cases known : ledger.fibers.get fiberID with
  | none =>
    rw [onGone_unknown known]
    exact Quiet.refl ledger
  | some ref =>
    rw [onGone_known known]
    exact (quiet_removeFiber ledger fiberID ref.grantUID).withSessions _

theorem restoreParked_ok {next : Ledger} {snap : SessionSnapshot}
    (restored : ledger.restoreParked snap = .ok next) :
    ledger.sessions.get (sessionKey snap.grantUID snap.name) = none ∧
      next = { ledger with
        sessions := ledger.sessions.put (sessionKey snap.grantUID snap.name)
          { name := snap.name, grantUID := snap.grantUID, state := .parked,
            fence := snap.fence, deltaRef := snap.deltaRef } } := by
  unfold restoreParked at restored
  split at restored
  · simp at restored
  · split at restored
    · simp at restored
    · rename_i gone
      simp only [Except.ok.injEq] at restored
      exact ⟨gone, restored.symm⟩

theorem forgetSession_eq (ledger : Ledger) (grantUID session : String) :
    ledger.forgetSession grantUID session = ledger ∨
      (∃ got, ledger.sessions.get (sessionKey grantUID session) = some got ∧
        got.state = .parked ∧ ledger.forgetSession grantUID session =
          { ledger with sessions := ledger.sessions.drop (sessionKey grantUID session) }) := by
  unfold forgetSession
  cases got : ledger.sessions.get (sessionKey grantUID session) with
  | none => simp
  | some item =>
    by_cases parked : item.state = .parked
    · exact .inr ⟨item, rfl, parked, by simp [parked]⟩
    · simp [parked]

theorem quiet_forgetSession (ledger : Ledger) (grantUID session : String) :
    Quiet ledger (ledger.forgetSession grantUID session) := by
  rcases forgetSession_eq ledger grantUID session with same | ⟨_, _, _, dropped⟩
  · rw [same]
    exact Quiet.refl ledger
  · rw [dropped]
    exact (Quiet.refl ledger).withSessions _

theorem quiet_setFiberW (ledger : Ledger) (fiberID : String) (bytes : Nat) :
    Quiet ledger (ledger.setFiberW fiberID bytes) := by
  unfold setFiberW
  cases known : ledger.fibers.get fiberID with
  | none => exact Quiet.refl ledger
  | some ref =>
    refine ⟨rfl, rfl, rfl, rfl, fun _ => rfl, fun _ => rfl, ?_⟩
    intro id other got
    dsimp only at got
    obtain ⟨same, rfl⟩ | ⟨_, got⟩ := get_put_eq_some got
    · exact ⟨ref, same ▸ known, rfl, rfl, rfl⟩
    · exact ⟨other, got, rfl, rfl, rfl⟩

theorem quiet_setPooled (ledger : Ledger) (grantUID : String) (count : Int) :
    Quiet ledger (ledger.setPooled grantUID count).1 := by
  unfold setPooled
  cases admitted : ledger.grants.get grantUID with
  | none => exact Quiet.refl ledger
  | some ptr =>
    dsimp only
    split
    · exact Quiet.refl ledger
    · refine ⟨rfl, rfl, rfl, rfl, ?_, ?_, fun _ ref got => ⟨ref, got, rfl, rfl, rfl⟩⟩
      · intro query
        simp only [read_write]
        split <;> simp_all
      · intro query
        simp only [read_write]
        split <;> simp_all

theorem onGone_known_or_same (ledger : Ledger) (fiberID : String) :
    (∃ ref, ledger.fibers.get fiberID = some ref) ∨ (ledger.onGone fiberID).1 = ledger := by
  cases known : ledger.fibers.get fiberID with
  | none => exact .inr (by rw [onGone_unknown known])
  | some ref => exact .inl ⟨ref, rfl⟩

theorem quiet_unlock (ledger : Ledger) (res : Resolution) : Quiet ledger (ledger.unlock res) := by
  unfold unlock
  split
  · refine ⟨rfl, rfl, rfl, rfl, ?_, ?_, fun _ ref got => ⟨ref, got, rfl, rfl, rfl⟩⟩
    · intro ptr
      simp only [read_write]
      split <;> simp_all
    · intro ptr
      simp only [read_write]
      split <;> simp_all
  · exact Quiet.refl ledger

end Ledger

namespace LedgerSystem

def committed (system : LedgerSystem) (clone : Nat) (resolution : Resolution)
    (endpoint : String) (pooled : Bool) : LedgerSystem where
  ledger := { system.ledger with
    fibers := system.ledger.fibers.put resolution.fence.string
      { grantUID := resolution.grantUID
        sessionKey := if resolution.session = "" then "" else resolution.key
        fence := resolution.fence }
    sessions := if resolution.session = "" then system.ledger.sessions
      else system.ledger.sessions.put resolution.key (resolution.born endpoint pooled) }
  resolved := system.resolved.put clone { resolution with committed := true }
  origins := system.origins.put resolution.fence.string resolution.entry

theorem commit_cases (system : LedgerSystem) (clone : Nat) (res : Resolution)
    (endpoint : String) (pooled refuse : Bool) :
    system.commit clone res endpoint pooled refuse = (false, system) ∨
      (system.ledger.grants.get res.grantUID = some res.entry ∧
        res.fence.epoch = system.ledger.epoch ∧ refuse = false ∧
        system.commit clone res endpoint pooled refuse =
          (true, system.committed clone res endpoint pooled)) := by
  unfold LedgerSystem.commit Ledger.commit
  by_cases refused : system.ledger.grants.get res.grantUID ≠ some res.entry ∨
      (res.born endpoint pooled).fence.epoch ≠ system.ledger.epoch ∨ refuse
  · simp [refused]
  · right
    simp only [refused, if_false]
    simp only [not_or, not_not, Bool.not_eq_true] at refused
    refine ⟨refused.1, refused.2.1, refused.2.2, ?_⟩
    simp only [Resolution.born, Fence.string_ne_empty, if_false]
    rfl

inductive Effect (system : LedgerSystem) : LedgerOp → LedgerSystem → Prop
  | refused {op} : Effect system op system
  | admitGrant (grant) :
      Effect system (.admitGrant grant) (system.withLedger (system.ledger.admitGrant grant))
  | revokeGrant (uid) :
      Effect system (.revokeGrant uid) (system.withLedger (system.ledger.revokeGrant uid))
  | bumpEpoch (epoch) :
      Effect system (.bumpEpoch epoch) (system.withLedger (system.ledger.bumpEpoch epoch))
  | minted {clone grantUID session pointer resolution ledger} (tier now)
      (free : system.resolved.get clone = none)
      (admitted : system.ledger.grants.get grantUID = some pointer)
      (minted : system.ledger.MintedBy grantUID session pointer resolution ledger)
      (idle : session ≠ "" → ∀ found,
        system.ledger.sessions.get (sessionKey grantUID session) = some found →
          found.state = .parked) :
      Effect system (.resolve clone grantUID session tier now)
        (system.opened clone resolution ledger)
  | attached {clone grantUID session pointer found} (tier now)
      (free : system.resolved.get clone = none)
      (admitted : system.ledger.grants.get grantUID = some pointer)
      (named : session ≠ "")
      (present : system.ledger.sessions.get (sessionKey grantUID session) = some found)
      (running : found.state = .running) :
      Effect system (.resolve clone grantUID session tier now)
        (system.opened clone
          { grantUID := grantUID, session := session, entry := pointer, act := .attach,
            fence := found.fence, ref := found.handle.endpoint } system.ledger)
  | committed {clone resolution} (endpoint pooled)
      (found : system.resolved.get clone = some resolution)
      (act : resolution.act ≠ .attach) (uncommitted : resolution.committed = false)
      (current : system.ledger.grants.get resolution.grantUID = some resolution.entry)
      (epoch : resolution.fence.epoch = system.ledger.epoch) :
      Effect system (.commit clone endpoint pooled false)
        (system.committed clone resolution endpoint pooled)
  | unlocked {clone resolution} (found : system.resolved.get clone = some resolution) :
      Effect system (.unlock clone) (system.unlock clone resolution)
  | parked {fiberID ref} (deltaRef) (known : system.ledger.fibers.get fiberID = some ref) :
      Effect system (.onPark fiberID deltaRef)
        (system.withLedger (system.ledger.onPark fiberID deltaRef).1)
  | gone {op fiberID ref} (ends : op = .onRelease fiberID ∨ op = .onFiberExit fiberID)
      (known : system.ledger.fibers.get fiberID = some ref) :
      Effect system op (system.withLedger (system.ledger.onGone fiberID).1)
  | restored {snapshot} (absent :
        system.ledger.sessions.get (sessionKey snapshot.grantUID snapshot.name) = none) :
      Effect system (.restoreParked snapshot) (system.withLedger { system.ledger with
        sessions := system.ledger.sessions.put (sessionKey snapshot.grantUID snapshot.name)
          { name := snapshot.name, grantUID := snapshot.grantUID, state := .parked,
            fence := snapshot.fence, deltaRef := snapshot.deltaRef } })
  | forgot (grantUID session) :
      Effect system (.forgetSession grantUID session)
        (system.withLedger (system.ledger.forgetSession grantUID session))
  | setFiberW (fiberID bytes) :
      Effect system (.setFiberW fiberID bytes)
        (system.withLedger (system.ledger.setFiberW fiberID bytes))
  | setPooled (grantUID count) :
      Effect system (.setPooled grantUID count)
        (system.withLedger (system.ledger.setPooled grantUID count).1)

variable {system next : LedgerSystem} {op : LedgerOp}

theorem apply_effect (took : system.apply op = some next) : Effect system op next := by
  cases op with
  | admitGrant grant =>
    simp only [apply, Option.some.injEq] at took
    exact took ▸ Effect.admitGrant grant
  | revokeGrant uid =>
    simp only [apply, Option.some.injEq] at took
    exact took ▸ Effect.revokeGrant uid
  | bumpEpoch epoch =>
    simp only [apply, Option.some.injEq] at took
    exact took ▸ Effect.bumpEpoch epoch
  | resolve clone grantUID session tier now =>
    simp only [apply] at took
    split at took
    · simp at took
    · rename_i free
      split at took
      · rename_i res ledger resolved
        cases took
        obtain ⟨ptr, admitted, ⟨minted, idle⟩ | ⟨same, named, got, here, runs, attach⟩⟩ :=
          Ledger.resolveHeld_ok resolved
        · exact Effect.minted tier now free admitted minted idle
        · rw [same, attach]
          exact Effect.attached tier now free admitted named here runs
      · cases took
        exact Effect.refused
  | commit clone endpoint pooled refuse =>
    simp only [apply] at took
    split at took
    · simp at took
    · rename_i res got
      split at took
      · simp at took
      · rename_i may
        simp only [not_or, Bool.not_eq_true] at may
        cases took
        rcases commit_cases system clone res endpoint pooled refuse with
          refused | ⟨current, epoch, willing, landed⟩
        · rw [refused]
          exact Effect.refused
        · rw [landed, willing]
          exact Effect.committed endpoint pooled got may.1 may.2 current epoch
  | unlock clone =>
    simp only [apply] at took
    split at took <;> cases took
    rename_i res got
    exact Effect.unlocked got
  | onPark fiberID deltaRef =>
    simp only [apply] at took
    cases took
    cases known : system.ledger.fibers.get fiberID with
    | some ref => exact Effect.parked deltaRef known
    | none =>
      rw [Ledger.onPark_unknown deltaRef known]
      exact Effect.refused
  | onRelease fiberID =>
    simp only [apply, Ledger.onRelease_ledger] at took
    cases took
    rcases Ledger.onGone_known_or_same system.ledger fiberID with ⟨ref, known⟩ | same
    · exact Effect.gone (.inl rfl) known
    · rw [same]
      exact Effect.refused
  | onFiberExit fiberID =>
    simp only [apply, Ledger.onFiberExit] at took
    cases took
    rcases Ledger.onGone_known_or_same system.ledger fiberID with ⟨ref, known⟩ | same
    · exact Effect.gone (.inr rfl) known
    · rw [same]
      exact Effect.refused
  | restoreParked snap =>
    simp only [apply] at took
    split at took
    · rename_i ledger restored
      cases took
      obtain ⟨gone, rfl⟩ := Ledger.restoreParked_ok restored
      exact Effect.restored gone
    · cases took
      exact Effect.refused
  | forgetSession grantUID session =>
    simp only [apply, Option.some.injEq] at took
    exact took ▸ Effect.forgot grantUID session
  | setFiberW fiberID bytes =>
    simp only [apply, Option.some.injEq] at took
    exact took ▸ Effect.setFiberW fiberID bytes
  | setPooled grantUID count =>
    simp only [apply, Option.some.injEq] at took
    exact took ▸ Effect.setPooled grantUID count

theorem onPark_gates (ledger : Ledger) (fiberID deltaRef : String) :
    (ledger.onPark fiberID deltaRef).1.gates = ledger.gates ∧
      (ledger.onPark fiberID deltaRef).1.perSession = ledger.perSession := by
  cases known : ledger.fibers.get fiberID with
  | none => simp [Ledger.onPark_unknown deltaRef known]
  | some ref =>
    rw [Ledger.onPark_known deltaRef known]
    exact Ledger.removeFiber_gates ledger fiberID ref.grantUID

theorem onGone_gates (ledger : Ledger) (fiberID : String) :
    (ledger.onGone fiberID).1.gates = ledger.gates ∧
      (ledger.onGone fiberID).1.perSession = ledger.perSession := by
  cases known : ledger.fibers.get fiberID with
  | none => simp [Ledger.onGone_unknown known]
  | some ref =>
    rw [Ledger.onGone_known known]
    exact Ledger.removeFiber_gates ledger fiberID ref.grantUID

theorem gates_apply (took : system.apply op = some next) : next.ledger.gates = system.ledger.gates ∧
      next.ledger.perSession = system.ledger.perSession := by
  cases apply_effect took with
  | refused | attached _ _ _ _ _ _ _ | committed _ _ _ _ _ _ _ | restored _ => exact ⟨rfl, rfl⟩
  | admitGrant grant =>
    simp only [withLedger, Ledger.admitGrant]
    split <;> exact ⟨rfl, rfl⟩
  | revokeGrant uid =>
    simp only [withLedger, Ledger.revokeGrant]
    split <;> exact ⟨rfl, rfl⟩
  | bumpEpoch epoch =>
    simp only [withLedger, Ledger.bumpEpoch]
    split <;> exact ⟨rfl, rfl⟩
  | minted _ _ _ _ minted _ => simp [opened, minted.nextEq]
  | unlocked _ =>
    simp only [LedgerSystem.unlock, Ledger.unlock]
    split <;> exact ⟨rfl, rfl⟩
  | parked deltaRef _ => exact onPark_gates system.ledger _ deltaRef
  | gone _ _ => exact onGone_gates system.ledger _
  | forgot grantUID session =>
    rcases Ledger.forgetSession_eq system.ledger grantUID session with same | ⟨_, _, _, dropped⟩
    · simp [withLedger, same]
    · simp [withLedger, dropped]
  | setFiberW fiberID bytes =>
    simp only [withLedger, Ledger.setFiberW]
    split <;> exact ⟨rfl, rfl⟩
  | setPooled grantUID count =>
    simp only [withLedger, Ledger.setPooled]
    split
    · split <;> exact ⟨rfl, rfl⟩
    · exact ⟨rfl, rfl⟩

theorem grants_apply (took : system.apply op = some next) (uid : String) :
    next.ledger.grants.get uid = system.ledger.grants.get uid ∨
      (∃ grant, op = .admitGrant grant ∧ grant.uid = uid ∧ next.ledger.grants.get uid ≠ none) ∨
      op = .revokeGrant uid ∧ next.ledger.grants.get uid = none := by
  cases apply_effect took with
  | refused | attached _ _ _ _ _ _ _ | committed _ _ _ _ _ _ _ | restored _ => exact .inl rfl
  | admitGrant grant =>
    simp only [withLedger, Ledger.admitGrant]
    split
    · exact .inl rfl
    · by_cases same : uid = grant.uid
      · exact .inr (.inl ⟨grant, rfl, same.symm, by simp [same]⟩)
      · exact .inl (get_put_other _ _ same)
  | revokeGrant revoked =>
    have grants : (system.ledger.revokeGrant revoked).grants =
        system.ledger.grants.drop revoked := by
      unfold Ledger.revokeGrant
      split <;> rfl
    simp only [withLedger, grants]
    by_cases same : uid = revoked
    · exact .inr (.inr ⟨by rw [same], by simp [same]⟩)
    · exact .inl (get_drop_other _ same)
  | bumpEpoch epoch =>
    unfold Ledger.bumpEpoch
    split <;> exact .inl rfl
  | minted _ _ _ _ minted _ => exact .inl (by simp [opened, minted.nextEq])
  | unlocked _ =>
    exact .inl (congrArg (·.get uid) (Ledger.quiet_unlock system.ledger _).grants)
  | parked deltaRef _ =>
    exact .inl (congrArg (·.get uid) (Ledger.quiet_onPark system.ledger _ deltaRef).grants)
  | gone _ _ => exact .inl (congrArg (·.get uid) (Ledger.quiet_onGone system.ledger _).grants)
  | forgot grantUID session =>
    exact .inl
      (congrArg (·.get uid) (Ledger.quiet_forgetSession system.ledger _ _).grants)
  | setFiberW fiberID bytes =>
    exact .inl (congrArg (·.get uid) (Ledger.quiet_setFiberW system.ledger _ _).grants)
  | setPooled grantUID count =>
    exact .inl (congrArg (·.get uid) (Ledger.quiet_setPooled system.ledger _ _).grants)

theorem resolved_apply {clone : Nat}
    (took : system.apply op = some next) (other : op.clone? ≠ some clone) :
    next.resolved.get clone = system.resolved.get clone := by
  cases apply_effect took with
  | minted _ _ _ _ _ _ | attached _ _ _ _ _ _ _ | committed _ _ _ _ _ _ _ =>
    exact get_put_other _ _ fun same => other (same ▸ rfl)
  | unlocked _ =>
    exact get_drop_other _ fun same => other (same ▸ rfl)
  | _ => rfl

end LedgerSystem

end Fiberd
