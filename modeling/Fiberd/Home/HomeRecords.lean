import Fiberd.Home.HomeSessions

/-!
What becomes of the record of one session, and of what one Clone has resolved,
when a call takes an action.
-/

namespace Fiberd

open Heaps Tables Programs Machines LedgerSystem

def SessionSnapshot.record (snapshot : SessionSnapshot) : Session where
  name := snapshot.name
  grantUID := snapshot.grantUID
  state := .parked
  fence := snapshot.fence
  deltaRef := snapshot.deltaRef

theorem Ledger.resolveHeld_present {ledger next : Ledger} {uid session : String} {tier : Tier}
    {now : Time} {res : Resolution} {got : Session} (named : session ≠ "")
    (here : ledger.sessions.get (sessionKey uid session) = some got)
    (resolved : ledger.resolveHeld uid session tier now = .ok (res, next)) :
    res.act = .attach ∨ res.act = .resume ∧ res.ref = got.deltaRef := by
  unfold resolveHeld at resolved
  split at resolved
  · simp at resolved
  · dsimp only at resolved
    split at resolved
    · simp at resolved
    · split at resolved
      · simp at resolved
      · simp only [here] at resolved
        split at resolved
        · simp only [Except.ok.injEq, Prod.mk.injEq] at resolved
          exact .inl (by rw [← resolved.1])
        · split at resolved
          · simp at resolved
          · simp only [reserveAndMint] at resolved
            split at resolved
            · simp at resolved
            · simp only [Except.ok.injEq, Prod.mk.injEq] at resolved
              exact .inr (by rw [← resolved.1]; exact ⟨rfl, rfl⟩)

namespace Ledger

variable (ledger : Ledger)

theorem onPark_record (fiberID deltaRef key : String) :
    (ledger.onPark fiberID deltaRef).1.sessions.get key = ledger.sessions.get key ∨
      ∃ ref session, ledger.fibers.get fiberID = some ref ∧ ref.sessionKey = key ∧
        ledger.sessions.get key = some session ∧
        (ledger.onPark fiberID deltaRef).1.sessions.get key =
          some { session with state := .parked, deltaRef := deltaRef, handle := {} } := by
  cases known : ledger.fibers.get fiberID with
  | none => exact .inl (by rw [onPark_unknown deltaRef known])
  | some ref =>
    rw [onPark_known deltaRef known]
    by_cases bare : ref.sessionKey = ""
    · simp [bare]
    · cases here : ledger.sessions.get ref.sessionKey with
      | none => simp [bare]
      | some session =>
        by_cases mine : ref.sessionKey = key
        · subst key
          exact .inr ⟨ref, session, rfl, rfl, here, by simp [bare]⟩
        · left
          simp [bare, get_put_other _ _ (Ne.symm mine)]

theorem onGone_record (fiberID key : String) :
    (ledger.onGone fiberID).1.sessions.get key = ledger.sessions.get key ∨
      ∃ ref, ledger.fibers.get fiberID = some ref ∧ ref.sessionKey = key ∧
        (ledger.onGone fiberID).1.sessions.get key = none := by
  cases known : ledger.fibers.get fiberID with
  | none => exact .inl (by rw [onGone_unknown known])
  | some ref =>
    rw [onGone_known known]
    by_cases bare : ref.sessionKey = ""
    · simp [bare]
    · by_cases mine : ref.sessionKey = key
      · subst key
        exact .inr ⟨ref, rfl, rfl, by simp [bare]⟩
      · left
        simp [bare, get_drop_other _ (Ne.symm mine)]

theorem forgetSession_record (uid session key : String) :
    (ledger.forgetSession uid session).sessions.get key = ledger.sessions.get key ∨
      sessionKey uid session = key ∧
        (ledger.forgetSession uid session).sessions.get key = none := by
  rcases forgetSession_eq ledger uid session with same | ⟨_, _, _, dropped⟩
  · exact .inl (by rw [same])
  · rw [dropped]
    by_cases mine : sessionKey uid session = key
    · subst key
      exact .inr ⟨rfl, by simp⟩
    · exact .inl (get_drop_other _ (Ne.symm mine))

theorem restoreParked_apply (system : LedgerSystem) (snap : SessionSnapshot) :
    ∃ ledger, system.apply (.restoreParked snap) = some (system.withLedger ledger) ∧
      ledger = if system.ledger.grants.get snap.grantUID ≠ none ∧
          system.ledger.sessions.get (sessionKey snap.grantUID snap.name) = none then
        { system.ledger with
          sessions := system.ledger.sessions.put (sessionKey snap.grantUID snap.name)
            snap.record }
      else system.ledger := by
  simp only [LedgerSystem.apply, restoreParked]
  cases admitted : system.ledger.grants.get snap.grantUID with
  | none => simp [LedgerSystem.withLedger]
  | some ptr =>
    cases gone : system.ledger.sessions.get (sessionKey snap.grantUID snap.name) with
    | none => simp [SessionSnapshot.record]
    | some session => simp [LedgerSystem.withLedger]

theorem commit_record (system : LedgerSystem) {clone : Nat} {res : Resolution}
    (endpoint : String) (pooled refuse : Bool) (key : String) :
    (system.commit clone res endpoint pooled refuse).2.ledger.sessions.get key =
        system.ledger.sessions.get key ∨ res.session ≠ "" ∧ res.key = key ∧
        (system.commit clone res endpoint pooled refuse).2.ledger.sessions.get key =
          some (res.born endpoint pooled) := by
  rcases commit_cases system clone res endpoint pooled refuse with same | ⟨_, _, _, done⟩
  · exact .inl (by rw [same])
  · rw [done]
    by_cases bare : res.session = ""
    · simp [LedgerSystem.committed, bare]
    · by_cases mine : res.key = key
      · subst key
        exact .inr ⟨bare, rfl, by simp [LedgerSystem.committed, bare]⟩
      · left
        simp [LedgerSystem.committed, bare, get_put_other _ _ (Ne.symm mine)]

end Ledger

def Act.records : Act → Bool
  | .commitHeld _ _ | .onPark _ _ | .onRelease _ | .exited _ | .forgetSession _ _
  | .restoreParked _ => true
  | _ => false

def LedgerOp.records : LedgerOp → Bool
  | .commit _ _ _ _ | .onPark _ _ | .onRelease _ | .onFiberExit _ | .forgetSession _ _
  | .restoreParked _ => true
  | _ => false

theorem Act.plainOp_records {action : Act} {op : LedgerOp} (does : action.plainOp = some op)
    (plain : action.records = false) : op.records = false := by
  cases action with
  | _ =>
    cases does <;> simp_all [LedgerOp.records, Act.records]

theorem LedgerSystem.sessions_apply {system next : LedgerSystem} {op : LedgerOp}
    (took : system.apply op = some next) (plain : op.records = false) :
    next.ledger.sessions = system.ledger.sessions := by
  cases apply_effect took with
  | admitGrant grant => exact (admitGrant_fields system.ledger grant).2.1
  | revokeGrant uid => exact (revokeGrant_fields system.ledger uid).2.2.2.1
  | bumpEpoch epoch =>
    simp only [withLedger, Ledger.bumpEpoch]
    split <;> rfl
  | minted _ _ _ _ minted _ =>
    simp only [opened]
    rw [minted.nextEq]
  | unlocked _ =>
    simp only [LedgerSystem.unlock, Ledger.unlock]
    split <;> rfl
  | gone ends _ => rcases ends with rfl | rfl <;> simp [LedgerOp.records] at plain
  | setFiberW fiberID bytes =>
    simp only [withLedger, Ledger.setFiberW]
    split <;> rfl
  | setPooled uid count =>
    simp only [withLedger, Ledger.setPooled]
    repeat' split
    all_goals rfl
  | _ =>
    first
    | rfl
    | simp [LedgerOp.records] at plain

/-- The action ends the session's fiber, parks it again or forgets the session. -/
def letsGo (uid name : String) (home : Home) : Act → Bool
  | .onPark fiberID _ | .onRelease fiberID =>
    (home.ledger.fibers.get fiberID).any fun ref => decide (ref.sessionKey = sessionKey uid name)
  | .exited exit =>
    (home.ledger.fibers.get exit.fiberID).any fun ref =>
      decide (ref.sessionKey = sessionKey uid name)
  | .forgetSession other session => decide (sessionKey other session = sessionKey uid name)
  | _ => false

namespace Home

inductive RecordMove (home : Home) (thread : Nat) (key : String) : Act → Option Session → Prop
  | same {action} : RecordMove home thread key action (home.ledger.sessions.get key)
  | born {endpoint pooled resolution} (found : home.system.resolved.get thread = some resolution)
      (fresh : resolution.act ≠ .attach) (named : resolution.session ≠ "")
      (mine : resolution.key = key) :
      RecordMove home thread key (.commitHeld endpoint pooled)
        (some (resolution.born endpoint pooled))
  | parked {fiberID deltaRef ref session} (known : home.ledger.fibers.get fiberID = some ref)
      (mine : ref.sessionKey = key) (present : home.ledger.sessions.get key = some session) :
      RecordMove home thread key (.onPark fiberID deltaRef)
        (some { session with state := .parked, deltaRef := deltaRef, handle := {} })
  | released {fiberID ref} (known : home.ledger.fibers.get fiberID = some ref)
      (mine : ref.sessionKey = key) : RecordMove home thread key (.onRelease fiberID) none
  | exited {exit ref} (known : home.ledger.fibers.get exit.fiberID = some ref)
      (mine : ref.sessionKey = key) : RecordMove home thread key (.exited exit) none
  | forgot {uid session} (mine : sessionKey uid session = key) :
      RecordMove home thread key (.forgetSession uid session) none
  | restored {snapshot} (mine : sessionKey snapshot.grantUID snapshot.name = key)
      (admitted : home.ledger.grants.get snapshot.grantUID ≠ none)
      (absent : home.ledger.sessions.get key = none) :
      RecordMove home thread key (.restoreParked snapshot) (some snapshot.record)

section Moves

variable {home next : Home} {tid : Nat} {action : Act} {answer : Answer}
  {out : action.Result}

theorem perform_restoreParked {snap : SessionSnapshot}
    {error : (Act.restoreParked snap).Result}
    (ran : home.perform tid (.restoreParked snap) answer = some (error, next)) :
    next = home.withLedger next.ledger ∧
      next.ledger = if home.ledger.grants.get snap.grantUID ≠ none ∧
          home.ledger.sessions.get (sessionKey snap.grantUID snap.name) = none then
        { home.ledger with
          sessions := home.ledger.sessions.put (sessionKey snap.grantUID snap.name)
            snap.record }
      else home.ledger := by
  obtain ⟨ledger, done, equal⟩ := Ledger.restoreParked_apply home.system snap
  simp only [perform, op, done, Option.map_some, Option.some.injEq] at ran
  have same : next = home.withLedger ledger := by
    split at ran <;> exact (congrArg Prod.snd ran).symm
  subst next
  exact ⟨rfl, equal⟩

theorem perform_sessions (ran : home.perform tid action answer = some (out, next))
    (plain : action.records = false) : next.ledger.sessions = home.ledger.sessions := by
  cases perform_effect ran with
  | still system _ _ _ => rw [Home.ledger, system]
  | plain does done _ _ => exact sessions_apply done (Act.plainOp_records does plain)
  | admitted done _ _ | resolved done _ _ _ | closed done _ _ =>
    exact sessions_apply done rfl
  | committed _ _ _ _ => simp [Act.records] at plain
  | joined _ => exact (joinGate_books _ _).sessions
  | locked _ took => exact (lockGate_eq took).2.1.sessions
  | passed system _ _ _ _ | refused system _ _ => rw [Home.ledger, system]
  | _ => rfl

theorem system_of_op {op : LedgerOp} {β : Type} {value : Home → β × Home} {told : β}
    (ran : (home.op op).map value = some (told, next))
    (same : ∀ mid, (value mid).2.system = mid.system) :
    home.system.apply op = some next.system := by
  obtain ⟨mid, done, equal⟩ := Option.map_eq_some_iff.mp ran
  rw [(op_eq done).1, ← same mid, equal]

variable (ran : home.perform tid action answer = some (out, next))
include ran

theorem perform_plain {op : LedgerOp} (does : action.plainOp = some op) :
    home.system.apply op = some next.system := by
  cases action with
  | exited exit =>
    cases does
    simp only [perform, Home.exited] at ran
    refine system_of_op ran fun mid => ?_
    split <;> rfl
  | restoreParked snap =>
    cases does
    simp only [perform] at ran
    refine system_of_op ran fun mid => ?_
    split <;> rfl
  | _ =>
    cases does <;> simp only [perform] at ran <;>
      exact system_of_op ran fun mid => rfl

theorem perform_record (key : String) :
    RecordMove home tid key action (next.ledger.sessions.get key) := by
  by_cases plain : action.records = false
  · rw [perform_sessions ran plain]
    exact .same
  · cases action with
    | commitHeld endpoint pooled =>
      simp only [perform, Home.commitHeld] at ran
      cases got : home.system.resolved.get tid with
      | none => simp [got] at ran
      | some res =>
        simp only [got] at ran
        have done := system_of_op ran fun mid => rfl
        simp only [apply, got, Option.ite_none_left_eq_some, Option.some.injEq,
          not_or] at done
        rw [Home.ledger, ← done.2]
        rcases Ledger.commit_record home.system endpoint pooled home.draining key with
          same | ⟨named, mine, equal⟩
        · exact same ▸ .same
        · exact equal ▸ .born got done.1.1 named mine
    | onPark fiberID deltaRef =>
      have after := Option.some.inj (perform_plain ran rfl)
      rw [Home.ledger, ← after]
      rcases Ledger.onPark_record home.ledger fiberID deltaRef key with
        same | ⟨ref, session, known, mine, here, equal⟩
      · exact same ▸ .same
      · exact equal ▸ .parked known mine here
    | onRelease fiberID =>
      have after := Option.some.inj (perform_plain ran rfl)
      rw [Home.ledger, ← after]
      change RecordMove home tid key _ ((home.ledger.onRelease fiberID).1.sessions.get key)
      rw [Ledger.onRelease_ledger]
      rcases Ledger.onGone_record home.ledger fiberID key with same | ⟨ref, known, mine, equal⟩
      · exact same ▸ .same
      · exact equal ▸ .released known mine
    | exited exit =>
      have after := Option.some.inj (perform_plain ran rfl)
      rw [Home.ledger, ← after]
      rcases Ledger.onGone_record home.ledger exit.fiberID key with
        same | ⟨ref, known, mine, equal⟩
      · exact same ▸ .same
      · exact equal ▸ .exited known mine
    | forgetSession uid session =>
      have after := Option.some.inj (perform_plain ran rfl)
      rw [Home.ledger, ← after]
      rcases Ledger.forgetSession_record home.ledger uid session key with same | ⟨mine, equal⟩
      · exact same ▸ .same
      · exact equal ▸ .forgot mine
    | restoreParked snap =>
      obtain ⟨_, equal⟩ := perform_restoreParked ran
      rw [equal]
      split
      · rename_i restores
        by_cases mine : sessionKey snap.grantUID snap.name = key
        · subst key
          simpa using RecordMove.restored rfl restores.1 restores.2
        · simpa [get_put_other _ _ (Ne.symm mine)] using RecordMove.same
      · exact .same
    | _ => simp [Act.records] at plain

theorem perform_resolution {clone : Nat} {res : Resolution}
    (opening : next.system.resolved.get clone = some res) :
    (∃ old, home.system.resolved.get clone = some old ∧
        res = { old with committed := res.committed }) ∨
      clone = tid ∧ ∃ uid session tier now ledger, action = .resolve uid session tier ∧
        home.ledger.resolveHeld uid session tier now = .ok (res, ledger) := by
  have same : next.system.resolved.get clone = home.system.resolved.get clone →
      ∃ old, home.system.resolved.get clone = some old ∧
        res = { old with committed := res.committed } := by
    intro equal
    exact ⟨res, equal ▸ opening, rfl⟩
  cases perform_effect ran with
  | still system _ _ _ | passed system _ _ _ _ | refused system _ _ =>
    exact .inl (same (by rw [system]))
  | plain does applied _ _ =>
    refine .inl (same (resolved_apply applied ?_))
    rw [Act.plainOp_clone does]
    simp
  | admitted applied _ _ => exact .inl (same (resolved_apply applied (by simp [LedgerOp.clone?])))
  | @resolved uid session tier now given ledger _ applied got _ _ =>
    by_cases mine : clone = tid
    · subst clone
      simp only [apply] at applied
      split at applied
      · simp at applied
      · have after : home.system.opened tid given ledger = next.system := by
          rw [show home.system.ledger.resolveHeld uid session tier now = _ from got] at applied
          exact Option.some.inj applied
        rw [← after] at opening
        simp only [opened, get_put_same, Option.some.injEq] at opening
        exact .inr ⟨rfl, uid, session, tier, now, ledger, rfl, opening ▸ got⟩
    · exact .inl (same (resolved_apply applied (by simpa [LedgerOp.clone?] using Ne.symm mine)))
  | @committed endpoint pooled given _ _ got applied _ _ =>
    by_cases mine : clone = tid
    · subst clone
      simp only [apply, got, Option.ite_none_left_eq_some, Option.some.injEq] at applied
      rw [← applied.2] at opening
      left
      rcases commit_cases home.system tid given endpoint pooled home.draining with
        refused | ⟨_, _, _, done⟩
      · rw [refused, got, Option.some.injEq] at opening
        exact ⟨given, got, by rw [← opening]⟩
      · rw [done] at opening
        simp only [LedgerSystem.committed, get_put_same, Option.some.injEq] at opening
        exact ⟨given, got, by rw [← opening]⟩
    · exact .inl (same (resolved_apply applied (by simpa [LedgerOp.clone?] using Ne.symm mine)))
  | closed applied _ _ =>
    by_cases mine : clone = tid
    · subst clone
      cases got : home.system.resolved.get tid with
      | none => simp [apply, got] at applied
      | some given =>
        simp only [apply, got, Option.some.injEq] at applied
        rw [← applied] at opening
        simp [LedgerSystem.unlock] at opening
    · exact .inl (same (resolved_apply applied (by simpa [LedgerOp.clone?] using Ne.symm mine)))
  | _ => exact .inl (same rfl)

end Moves

def RecordsNamed (home : Home) : Prop :=
  ∀ key session, home.ledger.sessions.get key = some session →
    key = sessionKey session.grantUID session.name ∧ (session.state = .running → session.name ≠ "")

theorem RecordsNamed.moved {home next : Home} {tid : Nat} {action : Act} {answer : Answer}
    {out : action.Result} (named : home.RecordsNamed)
    (ran : home.perform tid action answer = some (out, next)) : next.RecordsNamed := by
  intro key session got
  have record := perform_record ran key
  rw [got] at record
  generalize equal : some session = after at record
  cases record with
  | same => exact named key session equal.symm
  | born _ _ plain mine =>
    cases equal
    exact ⟨mine.symm, fun _ => plain⟩
  | parked _ _ here =>
    cases equal
    exact ⟨(named key _ here).1, by simp⟩
  | restored mine _ _ =>
    cases equal
    exact ⟨mine.symm, by simp [SessionSnapshot.record]⟩
  | _ => cases equal

theorem recordsNamed_of_reachable {cfg : HomeConfig} {threads : HomeThreads}
    (reached : (homeKernel cfg).machine.Reachable threads) : threads.shared.RecordsNamed := by
  refine Kernel.reachable_shared ?_ (fun _ _ _ _ _ _ named => named.moved) reached
  rintro _ ⟨epoch, revoked, _, rfl⟩ key session got
  simp [newHome, newSystem, newLedger] at got

end Home

end Fiberd
