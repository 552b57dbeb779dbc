import Fiberd.Home.HomeSessions

/-!
One call at a time resolves a session or admits a grant, and a call that has
returned has given back whatever it held, on every path.
-/

namespace Fiberd

open Programs

variable {config : HomeConfig} {threads : HomeThreads}

/-- A call between the resolve and the unlock of a session has the lock of its gate, and no other
is there. -/
structure ResolvesApart (threads : HomeThreads) : Prop where
  locked : ∀ tid resolution, threads.shared.system.resolved.get tid = some resolution →
    resolution.session ≠ "" → GateAt tid (.locked resolution.key) threads.shared
  apart : ∀ one two first second, threads.shared.system.resolved.get one = some first →
    threads.shared.system.resolved.get two = some second → first.session ≠ "" →
      second.session ≠ "" → second.key = first.key → one = two

theorem resolves_apart (reached : (homeKernel config).machine.Reachable threads) :
    ResolvesApart threads := by
  have kept : (homeProtocol config).Kept threads := Protocol.kept_of_reachable reached
  have locked (tid : Nat) (resolution : Resolution)
      (got : threads.shared.system.resolved.get tid = some resolution)
      (named : resolution.session ≠ "") :
      GateAt tid (.locked resolution.key) threads.shared := by
    obtain ⟨holds, here⟩ : ∃ holds, LocalAt tid holds threads.shared := by
      cases runs : threads.programs.get tid with
      | none => exact ⟨_, kept.unused tid runs⟩
      | some program => exact (kept.running tid program runs).imp fun _ both => both.1
    have opened := here.opened
    cases open_ : holds.opened with
    | none => simp [open_, OpenedAt, got] at opened
    | some hold =>
      rw [open_] at opened
      obtain ⟨again, there, key, _⟩ := opened
      cases got.symm.trans there
      rw [if_neg named] at key
      exact here.coupled hold _ open_ key ▸ here.gate
  refine ⟨locked, ?_⟩
  intro one two first second here there named also same
  exact kept.inv.gates.exclusive (locked one first here named)
    (same ▸ locked two second there also)

theorem resolves_apart_midway :
    ResolvesApart (((homeKernel {}).machine.exec emptyThreads (clonedRun.take 34)).getD
      emptyThreads) :=
  resolves_apart (reached_of_run emptyThreads_start (by decide +kernel))

/-- The grant a call is about to write into the ledger. -/
def grantAt (threads : HomeThreads) (tid : Nat) : Option Grant :=
  match threads.programs.get tid with
  | some (.call (.admitGrant grant) _) => some grant
  | _ => none

/-- A call about to write a grant into the ledger owns the admission slot of its UID, and no other
is about to write one of that UID. -/
structure AdmitsApart (threads : HomeThreads) : Prop where
  slot : ∀ tid grant, grantAt threads tid = some grant →
    ∃ slot, threads.shared.admitting.get grant.uid = some slot ∧
      (threads.shared.channels.read slot).owner = tid
  apart : ∀ one two grant other, grantAt threads one = some grant →
    grantAt threads two = some other → other.uid = grant.uid → one = two

theorem admits_apart (reached : (homeKernel config).machine.Reachable threads) :
    AdmitsApart threads := by
  have kept : (homeProtocol config).Kept threads := Protocol.kept_of_reachable reached
  have slot (tid : Nat) (grant : Grant) (writes : grantAt threads tid = some grant) :
      ∃ slot, threads.shared.admitting.get grant.uid = some slot ∧
        (threads.shared.channels.read slot).owner = tid := by
    unfold grantAt at writes
    split at writes <;> cases writes
    rename_i runs
    obtain ⟨holds, later, here, turn⟩ := kept.allowed runs ()
    obtain ⟨_, _, channel, place⟩ := @Local.admits grant holds later () grant turn
    have slot := here.slot
    rw [place] at slot
    exact ⟨channel, slot.1, slot.2.1⟩
  refine ⟨slot, ?_⟩
  intro one two grant other here there same
  obtain ⟨channel, mine, owner⟩ := slot one grant here
  obtain ⟨place, its, holder⟩ := slot two other there
  cases (same ▸ its).symm.trans mine
  exact owner.symm.trans holder

/-- One delivery of a grant is at the ledger, another waits for the slot. -/
theorem admits_apart_midway : ∃ threads,
    (homeKernel {}).machine.exec emptyThreads (admittedRun.take 16 ++
      .start 1 (.coreAdmit 1 plainGrant) :: answered 1 [.time 0, .flag true]) = some threads ∧
    grantAt threads 0 = some plainGrant ∧ AdmitsApart threads := by
  obtain ⟨threads, run, writes⟩ : ∃ threads,
    (homeKernel {}).machine.exec emptyThreads (admittedRun.take 16 ++
      .start 1 (.coreAdmit 1 plainGrant) :: answered 1 [.time 0, .flag true]) = some threads ∧
    grantAt threads 0 = some plainGrant := by decide +kernel
  exact ⟨threads, run, writes, admits_apart ⟨emptyThreads, _, emptyThreads_start, run⟩⟩

/-- A call that has returned is at no gate and has no resolution open, and a Clone answers the
fence it resolved to. -/
def ReturnedIdle (threads : HomeThreads) : Prop :=
  ∀ tid outcome, answerOf threads tid = some outcome →
    threads.shared.holds.get tid = none ∧ threads.shared.system.resolved.get tid = none ∧
      ∀ response, outcome = .cloned response →
        (threads.shared.resolvedAt.get tid).map Prod.snd = some response.fence

theorem returned_idle (reached : (homeKernel config).machine.Reachable threads) :
    ReturnedIdle threads := by
  have kept : (homeProtocol config).Kept threads := Protocol.kept_of_reachable reached
  intro tid outcome answered
  obtain ⟨later, here, idle, fence⟩ := kept.ended (answerOf_eq_some.mp answered)
  rw [idle] at here
  exact ⟨here.gate, here.opened, fun response same => here.fence.trans (fence response same)⟩

theorem returned_idle_cloned :
    ReturnedIdle (((homeKernel {}).machine.exec emptyThreads clonedRun).getD emptyThreads) :=
  returned_idle (reached_of_run emptyThreads_start (by decide +kernel))

end Fiberd
