import Fiberd.Home.HomeDiscipline

/-!
One session never runs twice, whatever calls the home is in the middle of.
-/

namespace Fiberd

open Heaps Tables Programs Machines LedgerSystem

theorem home_ok {cfg : HomeConfig} {threads : HomeThreads}
    (reached : (homeKernel cfg).machine.Reachable threads) : threads.shared.Ok := by
  have kept : (homeProtocol cfg).Kept threads := Protocol.kept_of_reachable reached
  exact kept.inv

/-- The fibers and the running sessions of a ledger name each other, one to one. -/
structure Ledger.SessionsMatch (ledger : Ledger) : Prop where
  recorded : ∀ id ref, ledger.fibers.get id = some ref → ref.sessionKey ≠ "" →
    ∃ session, ledger.sessions.get ref.sessionKey = some session ∧ session.state = .running ∧
      session.fence = ref.fence ∧ session.handle.id = id
  running : ∀ key session, ledger.sessions.get key = some session → session.state = .running →
    ∃! id, ∃ ref, ledger.fibers.get id = some ref ∧ ref.sessionKey = key
  once : ∀ first second one other, ledger.fibers.get first = some one →
    ledger.fibers.get second = some other → one.sessionKey ≠ "" →
      other.sessionKey = one.sessionKey → first = second

theorem session_runs_once {config : HomeConfig} {threads : HomeThreads}
    (reached : (homeKernel config).machine.Reachable threads) :
    threads.shared.ledger.SessionsMatch := by
  have runs := (home_ok reached).runs
  refine ⟨runs.recorded, ?_, ?_⟩
  · intro key session present running
    obtain ⟨ref, recorded, sameKey⟩ := runs.running key session present running
    refine ⟨session.handle.id, ⟨ref, recorded, sameKey⟩, ?_⟩
    rintro id ⟨other, found, otherKey⟩
    have named : other.sessionKey ≠ "" := otherKey ▸ runs.keyed key session present
    exact runs.fiber_unique found recorded named (sameKey.trans otherKey.symm)
  · intro first second one other oneFound otherFound named same
    exact runs.fiber_unique oneFound otherFound named same

def answerOf (threads : HomeThreads) (thread : Nat) : Option Outcome :=
  match threads.programs.get thread with
  | some (.done outcome) => some outcome
  | _ => none

theorem answerOf_eq_some {threads : HomeThreads} {tid : Nat} {outcome : Outcome} :
    answerOf threads tid = some outcome ↔ threads.programs.get tid = some (.done outcome) := by
  unfold answerOf
  constructor
  · intro answered
    split at answered
    · rename_i other ended
      simp only [Option.some.injEq] at answered
      rw [ended, answered]
    · simp at answered
  · intro ended
    simp [ended]

def plainGrant : Grant :=
  { uid := "g", tenant := "t", leaseExpiry := 9, policy := { isolation := .trusted } }

def admitAnswers : List Answer :=
  [.time 0, .flag true, .time 0, .flag true, .flag true, .flag true, .flag true, .flag true,
   .flag false, .flag true, .flag true, .flag true, .flag true, .flag true, .flag true,
   .flag true, .flag true, .flag true, .flag true, .flag true, .flag true]

def cloneAnswers : List Answer :=
  [.verified (.ok plainGrant), .flag true, .flag true, .flag true, .flag true, .flag false,
   .flag true, .flag true, .time 0, .flag true, .named (.ok ("e", false)), .flag true,
   .flag true, .flag true, .flag true, .flag true]

def answered (thread : Nat) (answers : List Answer) : List HomeEvent :=
  answers.map (Event.act thread)

def admittedRun : List HomeEvent := .start 0 (.coreAdmit 1 plainGrant) :: answered 0 admitAnswers

def clonedRun : List HomeEvent :=
  admittedRun ++ .start 1 (.clone 1 { grantJWT := "t", session := "s" }) :: answered 1 cloneAnswers

def emptyThreads : HomeThreads := ⟨newHome 1 none, ∅⟩

theorem emptyThreads_start : (homeKernel {}).machine.start emptyThreads :=
  ⟨⟨1, none, rfl, rfl⟩, rfl⟩

theorem reached_of_run {cfg : HomeConfig} {events : List HomeEvent}
    (starts : (homeKernel cfg).machine.start emptyThreads)
    (runs : ((homeKernel cfg).machine.exec emptyThreads events).isSome = true) :
    (homeKernel cfg).machine.Reachable
      (((homeKernel cfg).machine.exec emptyThreads events).getD emptyThreads) := by
  obtain ⟨threads, run⟩ := Option.isSome_iff_exists.mp runs
  refine ⟨emptyThreads, events, starts, ?_⟩
  simp [run]

theorem session_of_clonedRun : ∃ threads : HomeThreads,
    (homeKernel {}).machine.exec emptyThreads clonedRun = some threads ∧
      (∃ ref, threads.shared.ledger.fibers.get "g/1/1" = some ref ∧ ref.sessionKey = "g/s") ∧
      threads.shared.ledger.SessionsMatch := by
  obtain ⟨threads, run, fiber⟩ : ∃ threads,
    (homeKernel {}).machine.exec emptyThreads clonedRun = some threads ∧ ∃ ref,
      threads.shared.ledger.fibers.get "g/1/1" = some ref ∧ ref.sessionKey = "g/s" := by
    decide +kernel
  exact ⟨threads, run, fiber,
    session_runs_once ⟨emptyThreads, clonedRun, emptyThreads_start, run⟩⟩

end Fiberd
