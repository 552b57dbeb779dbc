import Fiberd.Ledger.LedgerSound

/-!
Sessions and their fibers.  A running session and the fiber recorded under its
key name each other, so no key has two fibers.  Every operation keeps this, a
commit as long as the session it brings up is not running already.
-/

namespace Fiberd

open Heaps Tables Machines

theorem sessionKey_ne_empty (grantUID session : String) : sessionKey grantUID session ≠ "" := by
  intro same
  have lists := congrArg String.toList same
  simp [sessionKey] at lists

def Ledger.Runs (ledger : Ledger) (key : String) : Prop :=
  ∃ session, ledger.sessions.get key = some session ∧ session.state = .running

namespace LedgerSystem

structure SessionsRun (system : LedgerSystem) : Prop where
  keyed : ∀ key session, system.ledger.sessions.get key = some session → key ≠ ""
  recorded : ∀ id ref, system.ledger.fibers.get id = some ref → ref.sessionKey ≠ "" →
    ∃ session, system.ledger.sessions.get ref.sessionKey = some session ∧
      session.state = .running ∧ session.fence = ref.fence ∧ session.handle.id = id
  running : ∀ key session, system.ledger.sessions.get key = some session →
    session.state = .running →
      ∃ ref, system.ledger.fibers.get session.handle.id = some ref ∧ ref.sessionKey = key

def CommitsIdle (system : LedgerSystem) : LedgerOp → Prop
  | .commit clone _ _ _ => ∀ resolution, system.resolved.get clone = some resolution →
      resolution.act ≠ .attach → resolution.committed = false → resolution.session ≠ "" →
        ¬system.ledger.Runs resolution.key
  | _ => True

theorem sessionsRun_new (epoch : Nat) : SessionsRun (newSystem epoch) := by
  constructor <;> intros <;> simp_all [newSystem, newLedger]

variable {system : LedgerSystem}

theorem SessionsRun.fiber_unique (runs : SessionsRun system) {first second : String}
    {one other : FiberRef} (oneFound : system.ledger.fibers.get first = some one)
    (otherFound : system.ledger.fibers.get second = some other)
    (named : one.sessionKey ≠ "") (same : other.sessionKey = one.sessionKey) : first = second := by
  obtain ⟨session, got, _, _, firstID⟩ := runs.recorded first one oneFound named
  obtain ⟨again, foundAgain, _, _, secondID⟩ :=
    runs.recorded second other otherFound (same ▸ named)
  rw [same, got, Option.some.injEq] at foundAgain
  rw [← firstID, ← secondID, foundAgain]

variable {next : LedgerSystem}

theorem SessionsRun.same (runs : SessionsRun system)
    (sessions : next.ledger.sessions = system.ledger.sessions)
    (fibers : next.ledger.fibers = system.ledger.fibers) : SessionsRun next := by
  refine ⟨?_, ?_, ?_⟩
  · rw [sessions]
    exact runs.keyed
  · rw [sessions, fibers]
    exact runs.recorded
  · rw [sessions, fibers]
    exact runs.running

theorem SessionsRun.commit (runs : SessionsRun system) (sound : Sound system) {clone : Nat}
    {res : Resolution} (endpoint : String) (pooled : Bool)
    (got : system.resolved.get clone = some res) (act : res.act ≠ .attach)
    (uncommitted : res.committed = false) (idle : res.session ≠ "" → ¬system.ledger.Runs res.key) :
    SessionsRun (system.committed clone res endpoint pooled) := by
  have unrecorded := sound.unrecorded clone res got act uncommitted
  have sessions : ∀ key,
      (system.committed clone res endpoint pooled).ledger.sessions.get key =
        if res.session ≠ "" ∧ key = res.key
        then some (res.born endpoint pooled) else system.ledger.sessions.get key := by
    intro key
    by_cases bare : res.session = ""
    · simp [committed, bare]
    · simp [committed, bare, get_put]
  refine ⟨?_, ?_, ?_⟩
  · intro key session here
    rw [sessions] at here
    split at here
    · rename_i mine
      exact mine.2 ▸ sessionKey_ne_empty _ _
    · exact runs.keyed key session here
  · intro id ref noted named
    rw [sessions]
    obtain ⟨mine, rfl⟩ | ⟨_, noted⟩ := get_put_eq_some noted
    · have isNamed : res.session ≠ "" := by
        intro bare
        simp [bare] at named
      exact ⟨res.born endpoint pooled, by simp [isNamed], rfl, rfl, mine.symm⟩
    · obtain ⟨session, here, running, fence, handle⟩ := runs.recorded id ref noted named
      split
      · rename_i clash
        exact (idle clash.1 ⟨session, clash.2 ▸ here, running⟩).elim
      · exact ⟨session, here, running, fence, handle⟩
  · intro key session here running
    rw [sessions] at here
    simp only [committed, get_put]
    split at here
    · rename_i mine
      cases here
      exact ⟨_, by simp [Resolution.born]; rfl, by simp [mine.1, mine.2]⟩
    · obtain ⟨ref, noted, sameKey⟩ := runs.running key session here running
      have apart : session.handle.id ≠ res.fence.string := by
        intro same
        rw [same, unrecorded] at noted
        simp at noted
      exact ⟨ref, by simp [apart, noted], sameKey⟩

variable {fiberID key : String} {ref : FiberRef}

section

variable (runs : SessionsRun system)
include runs

theorem SessionsRun.remove (known : system.ledger.fibers.get fiberID = some ref)
    (fibers : next.ledger.fibers = system.ledger.fibers.drop fiberID)
    (others : ∀ key, key ≠ ref.sessionKey ∨ ref.sessionKey = "" →
      next.ledger.sessions.get key = system.ledger.sessions.get key)
    (stopped : ref.sessionKey ≠ "" → ¬next.ledger.Runs ref.sessionKey) : SessionsRun next := by
  have older : ∀ key session, next.ledger.sessions.get key = some session →
      session.state = .running → system.ledger.sessions.get key = some session := by
    intro key session here running
    by_cases mine : key = ref.sessionKey
    · by_cases bare : ref.sessionKey = ""
      · exact others key (.inr bare) ▸ here
      · exact (stopped bare ⟨session, mine ▸ here, running⟩).elim
    · exact others key (.inl mine) ▸ here
  refine ⟨?_, ?_, ?_⟩
  · intro key session here
    by_cases mine : key = ref.sessionKey ∧ ref.sessionKey ≠ ""
    · exact mine.1 ▸ mine.2
    · rw [not_and_or, not_not] at mine
      exact runs.keyed key session (others key mine ▸ here)
  · intro id other noted named
    simp only [fibers] at noted
    obtain ⟨different, noted⟩ := get_drop_eq_some noted
    have apart : other.sessionKey ≠ ref.sessionKey := by
      intro same
      exact different (runs.fiber_unique noted known named same.symm)
    rw [others other.sessionKey (.inl apart)]
    exact runs.recorded id other noted named
  · intro key session here running
    have old := older key session here running
    obtain ⟨other, noted, sameKey⟩ := runs.running key session old running
    have different : session.handle.id ≠ fiberID := by
      intro same
      rw [same, known] at noted
      cases noted
      exact stopped (sameKey ▸ runs.keyed key session old) ⟨session, sameKey ▸ here, running⟩
    exact ⟨other, by rw [fibers, get_drop_other _ different, noted], sameKey⟩

theorem SessionsRun.onPark (deltaRef : String)
    (known : system.ledger.fibers.get fiberID = some ref) :
    SessionsRun (system.withLedger (system.ledger.onPark fiberID deltaRef).1) := by
  rw [Ledger.onPark_known deltaRef known]
  refine runs.remove known (by simp [withLedger]) ?_ ?_
  · intro key other
    simp only [withLedger]
    split
    · rfl
    · rename_i named
      split
      · have apart : key ≠ ref.sessionKey := by
          rcases other with apart | bare
          · exact apart
          · exact (named bare).elim
        rw [get_put_other _ _ apart]
      · rfl
  · rintro named ⟨session, here, running⟩
    simp only [withLedger, named, if_false] at here
    split at here
    · simp only [get_put_same] at here
      cases here
      simp at running
    · rename_i gone
      simp [gone] at here

theorem SessionsRun.onGone (known : system.ledger.fibers.get fiberID = some ref) :
    SessionsRun (system.withLedger (system.ledger.onGone fiberID).1) := by
  rw [Ledger.onGone_known known]
  refine runs.remove known (by simp [withLedger]) ?_ ?_
  · intro key other
    simp only [withLedger]
    split
    · rfl
    · rename_i named
      have apart : key ≠ ref.sessionKey := by
        rcases other with apart | bare
        · exact apart
        · exact (named bare).elim
      rw [get_drop_other _ apart]
  · rintro named ⟨session, here, _⟩
    simp [withLedger, named] at here

theorem SessionsRun.restore {session : Session} (named : key ≠ "")
    (gone : system.ledger.sessions.get key = none) (parked : session.state = .parked) :
    SessionsRun (system.withLedger { system.ledger with
      sessions := system.ledger.sessions.put key session }) := by
  refine ⟨?_, ?_, ?_⟩
  · intro query got here
    obtain ⟨mine, _⟩ | ⟨_, here⟩ := get_put_eq_some here
    · exact mine ▸ named
    · exact runs.keyed query got here
  · intro id ref noted isNamed
    obtain ⟨got, here, facts⟩ := runs.recorded id ref noted isNamed
    have apart : ref.sessionKey ≠ key := by
      rintro rfl
      simp [gone] at here
    exact ⟨got, by simp [withLedger, get_put, apart, here], facts⟩
  · intro query got here running
    obtain ⟨_, rfl⟩ | ⟨_, here⟩ := get_put_eq_some here
    · simp [parked] at running
    · exact runs.running query got here running

theorem SessionsRun.forgetSession (grantUID session : String) :
    SessionsRun (system.withLedger (system.ledger.forgetSession grantUID session)) := by
  rcases Ledger.forgetSession_eq system.ledger grantUID session with
    same | ⟨got, here, parked, dropped⟩
  · rw [same]
    exact runs
  · rw [dropped]
    refine ⟨?_, ?_, ?_⟩
    · intro key other there
      obtain ⟨_, there⟩ := get_drop_eq_some there
      exact runs.keyed key other there
    · intro id ref noted named
      obtain ⟨other, there, running, facts⟩ := runs.recorded id ref noted named
      have apart : ref.sessionKey ≠ sessionKey grantUID session := by
        intro same
        rw [same, here, Option.some.injEq] at there
        simp [← there, parked] at running
      exact ⟨other, by simp [withLedger, get_drop, apart, there], running, facts⟩
    · intro key other there running
      obtain ⟨_, there⟩ := get_drop_eq_some there
      exact runs.running key other there running

theorem SessionsRun.setFiberW (fiberID : String) (bytes : Nat) :
    SessionsRun (system.withLedger (system.ledger.setFiberW fiberID bytes)) := by
  unfold Ledger.setFiberW
  cases known : system.ledger.fibers.get fiberID with
  | none => exact runs
  | some ref =>
    refine ⟨runs.keyed, ?_, ?_⟩
    · intro id other noted named
      obtain ⟨mine, rfl⟩ | ⟨_, noted⟩ := get_put_eq_some noted
      · subst id
        exact runs.recorded fiberID ref known named
      · exact runs.recorded id other noted named
    · intro key session here running
      obtain ⟨other, noted, sameKey⟩ := runs.running key session here running
      simp only [withLedger, get_put]
      split
      · rename_i mine
        rw [mine, known, Option.some.injEq] at noted
        exact ⟨_, rfl, noted ▸ sameKey⟩
      · exact ⟨other, noted, sameKey⟩

theorem SessionsRun.apply {op : LedgerOp} (sound : Sound system) (idle : CommitsIdle system op)
    (took : system.apply op = some next) : SessionsRun next := by
  cases apply_effect took with
  | refused => exact runs
  | admitGrant grant =>
    obtain ⟨_, sessions, fibers⟩ := admitGrant_fields system.ledger grant
    exact runs.same sessions fibers
  | revokeGrant uid =>
    obtain ⟨_, _, _, sessions, fibers⟩ := revokeGrant_fields system.ledger uid
    exact runs.same sessions fibers
  | bumpEpoch epoch =>
    refine runs.same ?_ ?_ <;>
      · simp only [withLedger, Ledger.bumpEpoch]
        split <;> rfl
  | minted _ _ _ _ minted _ =>
    exact runs.same (by simp [opened, minted.nextEq]) (by simp [opened, minted.nextEq])
  | attached _ _ _ _ _ _ _ => exact runs.same rfl rfl
  | committed endpoint pooled got act uncommitted _ _ =>
    exact runs.commit sound endpoint pooled got act uncommitted
      (idle _ got act uncommitted)
  | unlocked _ =>
    refine runs.same ?_ ?_ <;>
      · simp only [LedgerSystem.unlock, Ledger.unlock]
        split <;> rfl
  | parked deltaRef known => exact runs.onPark deltaRef known
  | gone _ known => exact runs.onGone known
  | restored absent => exact runs.restore (sessionKey_ne_empty _ _) absent rfl
  | forgot grantUID session => exact runs.forgetSession grantUID session
  | setFiberW fiberID bytes => exact runs.setFiberW fiberID bytes
  | setPooled grantUID count =>
    refine runs.same ?_ ?_ <;>
      · simp only [withLedger, Ledger.setPooled]
        split
        · split <;> rfl
        · rfl

end

def Starts (system : LedgerSystem) (op : LedgerOp) (key : String) : Prop :=
  ∃ clone resolution, op.clone? = some clone ∧ system.resolved.get clone = some resolution ∧
    resolution.act ≠ .attach ∧ resolution.committed = false ∧ resolution.session ≠ "" ∧
      resolution.key = key

theorem runs_onPark (ledger : Ledger) (fiberID deltaRef key : String)
    (runs : (ledger.onPark fiberID deltaRef).1.Runs key) : ledger.Runs key := by
  cases known : ledger.fibers.get fiberID with
  | none => rwa [Ledger.onPark_unknown deltaRef known] at runs
  | some ref =>
    rw [Ledger.onPark_known deltaRef known] at runs
    obtain ⟨session, here, running⟩ := runs
    dsimp only at here
    split at here
    · exact ⟨session, here, running⟩
    · split at here
      · obtain ⟨_, here⟩ | ⟨_, here⟩ := get_put_eq_some here
        · simp [← here] at running
        · exact ⟨session, here, running⟩
      · exact ⟨session, here, running⟩

theorem runs_onGone (ledger : Ledger) (fiberID key : String)
    (runs : (ledger.onGone fiberID).1.Runs key) : ledger.Runs key := by
  cases known : ledger.fibers.get fiberID with
  | none => rwa [Ledger.onGone_unknown known] at runs
  | some ref =>
    rw [Ledger.onGone_known known] at runs
    obtain ⟨session, here, running⟩ := runs
    dsimp only at here
    split at here
    · exact ⟨session, here, running⟩
    · obtain ⟨_, here⟩ := get_drop_eq_some here
      exact ⟨session, here, running⟩

theorem runs_apply {op : LedgerOp}
    (took : system.apply op = some next) (runs : next.ledger.Runs key) :
    system.ledger.Runs key ∨ Starts system op key := by
  cases apply_effect took with
  | refused | attached _ _ _ _ _ _ _ => exact .inl runs
  | admitGrant grant =>
    left
    simp only [withLedger, Ledger.admitGrant] at runs
    split at runs <;> exact runs
  | revokeGrant uid =>
    left
    simp only [withLedger, Ledger.revokeGrant] at runs
    split at runs <;> exact runs
  | bumpEpoch epoch =>
    left
    simp only [withLedger, Ledger.bumpEpoch] at runs
    split at runs <;> exact runs
  | minted _ _ _ _ minted _ =>
    left
    simp only [opened, minted.nextEq] at runs
    exact runs
  | committed endpoint pooled got act uncommitted _ _ =>
    obtain ⟨session, here, running⟩ := runs
    simp only [committed] at here
    split at here
    · exact .inl ⟨session, here, running⟩
    · rename_i named
      obtain ⟨mine, _⟩ | ⟨_, here⟩ := get_put_eq_some here
      · exact .inr ⟨_, _, rfl, got, act, uncommitted, named, mine.symm⟩
      · exact .inl ⟨session, here, running⟩
  | unlocked _ =>
    left
    simp only [LedgerSystem.unlock, Ledger.unlock] at runs
    split at runs <;> exact runs
  | parked deltaRef _ => exact .inl (runs_onPark _ _ deltaRef key runs)
  | gone _ _ => exact .inl (runs_onGone _ _ key runs)
  | restored _ =>
    obtain ⟨session, here, running⟩ := runs
    obtain ⟨_, here⟩ | ⟨_, here⟩ := get_put_eq_some here
    · simp [← here] at running
    · exact .inl ⟨session, here, running⟩
  | forgot grantUID name =>
    left
    obtain ⟨session, here, running⟩ := runs
    rcases Ledger.forgetSession_eq system.ledger grantUID name with same | ⟨_, _, _, dropped⟩
    · rw [withLedger, same] at here
      exact ⟨session, here, running⟩
    · simp only [withLedger, dropped] at here
      obtain ⟨_, here⟩ := get_drop_eq_some here
      exact ⟨session, here, running⟩
  | setFiberW fiberID bytes =>
    left
    simp only [withLedger, Ledger.setFiberW] at runs
    split at runs <;> exact runs
  | setPooled grantUID count =>
    left
    simp only [withLedger, Ledger.setPooled] at runs
    split at runs
    · split at runs <;> exact runs
    · exact runs

end LedgerSystem

end Fiberd
