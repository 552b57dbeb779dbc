import Fiberd.Home.HomeDeliveries

/-!
The reaper.  A sweep reads the lease of a grant and revokes the grant in a later
step; what the two have to do with each other rests on what comes between them.
-/

namespace Fiberd

open Heaps Tables Programs Machines LedgerSystem

def revokes (threads : HomeThreads) (thread : Nat) : Option String :=
  match threads.programs.get thread with
  | some (.call (.revokeGrant uid) _) => some uid
  | _ => none

/-- While the reaper is about to revoke a UID no other call lets the grant in or revokes it. -/
def LeavesLease (reaper : Nat) (threads : HomeThreads) : HomeEvent → Prop
  | .start _ _ => True
  | .act mover answer => mover = reaper ∨
      match revokes threads reaper with
      | some uid => (letsIn threads (.act mover answer)).map Grant.uid ≠ some uid ∧
          revokes threads mover ≠ some uid
      | none => True

instance (reaper : Nat) (threads : HomeThreads) (event : HomeEvent) :
    Decidable (LeavesLease reaper threads event) := by
  unfold LeavesLease
  split
  · exact inferInstance
  · refine @instDecidableOr _ _ inferInstance ?_
    split <;> exact inferInstance

def clockReading (reaper : Nat) : List HomeEvent → Option Time
  | [] => none
  | .act mover (.time now) :: events =>
    if mover = reaper then some now else clockReading reaper events
  | _ :: events => clockReading reaper events

theorem revokes_eq_some {threads : HomeThreads} {tid : Nat} {uid : String} :
    revokes threads tid = some uid ↔
      ∃ rest, threads.programs.get tid = some (.call (.revokeGrant uid) rest) := by
  unfold revokes
  constructor
  · intro about
    split at about <;> cases about
    rename_i got rest runs
    exact ⟨rest, runs⟩
  · rintro ⟨rest, runs⟩
    simp [runs]

theorem Home.perform_grant? {home next : Home} {tid : Nat} {action : Act} {answer : Answer}
    {out : action.Result} (ok : home.Ok)
    (ran : home.perform tid action answer = some (out, next)) (uid : String) :
    next.ledger.grant? uid = home.ledger.grant? uid ∨
      (∃ grant, action = .admitGrant grant ∧ grant.uid = uid) ∨ action = .revokeGrant uid := by
  rcases perform_books ran with ⟨op, done, moves⟩ | ⟨_, books⟩
  · rcases ok.sound.grant?_apply done uid with same | ⟨grant, rfl, mine⟩ | rfl
    · exact .inl same
    · exact .inr (.inl ⟨grant, moves _ rfl, mine⟩)
    · exact .inr (.inr (moves _ rfl))
  · exact .inl (books.quiet.grant? uid)

def sweepAfter (now : Time) (read : Option String) :
    (action : Act) → action.Result → Option (Option String)
  | .grant uid, found => some (if found.any (·.expired now) then some uid else none)
  | .revokeGrant uid, _ => if read = some uid then some none else none
  | _, _ => some none

section Sweeps

variable (config : HomeConfig) (now : Time)

namespace Call

variable {β γ : Type}

theorem reads_of_bars {prog : Call β} (spares : prog.Only fun action =>
      ∀ uid, action ≠ .revokeGrant uid) (read : Option String) :
    prog.Follows (sweepAfter now) read fun _ _ => True := by
  induction prog generalizing read with
  | done value => trivial
  | call action next ih =>
    intro out
    cases action with
    | grant uid => exact ⟨_, rfl, ih out (spares.2 out) _⟩
    | revokeGrant uid => exact (spares.1 uid rfl).elim
    | _ => exact ⟨none, rfl, ih out (spares.2 out) none⟩

theorem Aside.spares {prog : Call β} (aside : Aside prog) :
    prog.Only fun action => ∀ uid, action ≠ .revokeGrant uid := by
  refine Prog.Only.mono aside ?_
  rintro action quiet uid rfl
  simp [Act.aside] at quiet

theorem releaseDevices_spares (uid : String) :
    (releaseDevices uid).Only fun action => ∀ uid, action ≠ .revokeGrant uid := by
  refine ⟨by simp, fun dropped => ?_⟩
  cases dropped with
  | none => exact trivial
  | some chan => exact ⟨by simp, fun _ => trivial⟩

theorem sweepGrants_reads (uids : List String) (read : Option String) :
    (sweepGrants config now uids).Follows (sweepAfter now) read fun _ _ => True := by
  induction uids generalizing read with
  | nil => trivial
  | cons uid rest ih =>
    intro got
    cases got with
    | none => exact ⟨none, rfl, ih none⟩
    | some grant =>
      have yields : (yield config uid "lease expired").Follows (sweepAfter now) (some uid)
          fun _ _ => True := by
        refine fun _ => ⟨none, if_pos rfl, ?_⟩
        refine Prog.Follows.bind (reads_of_bars now (releaseDevices_spares uid) none) ?_
        intro _ later _
        exact reads_of_bars now (aside_yieldRevoked config uid _).spares later
      by_cases expired : grant.expired now = true
      · refine ⟨some uid, by simp [sweepAfter, expired], ?_⟩
        change (if grant.expired now = true then (do
            yield config uid "lease expired"
            sweepGrants config now rest)
          else sweepGrants config now rest).Follows _ _ _
        rw [if_pos expired]
        exact yields.bind fun _ later _ => ih later
      · refine ⟨none, by simp [sweepAfter, expired], ?_⟩
        change (if grant.expired now = true then (do
            yield config uid "lease expired"
            sweepGrants config now rest)
          else sweepGrants config now rest).Follows _ _ _
        rw [if_neg expired]
        exact ih none

end Call

end Sweeps

section Runs

variable {config : HomeConfig} {reaper : Nat} {threads next : HomeThreads}

def Reaping (config : HomeConfig) (reaper : Nat) (clock : Option Time) (threads : HomeThreads) :
    Prop :=
  match clock with
  | none => threads.programs.get reaper = some (HomeCall.body config .sweep)
  | some now => (∃ program read, threads.programs.get reaper = some program ∧
        program.Follows (sweepAfter now) read fun _ _ => True) ∧
      ∀ uid, revokes threads reaper = some uid →
        ∃ grant, threads.shared.ledger.grant? uid = some grant ∧ grant.expired now = true

variable {clock : Option Time}

theorem Reaping.other {prog : Prog Act Act.Result Outcome} {mover : Nat} {home : Home}
    (reaping : Reaping config reaper clock threads) (apart : reaper ≠ mover)
    (leases : ∀ uid, revokes threads reaper = some uid →
      home.ledger.grant? uid = threads.shared.ledger.grant? uid) :
    Reaping config reaper clock ⟨home, threads.programs.put mover prog⟩ := by
  have same : (threads.programs.put mover prog).get reaper = threads.programs.get reaper :=
    get_put_other _ _ apart
  have about : revokes ⟨home, threads.programs.put mover prog⟩ reaper =
      revokes threads reaper := by
    simp only [revokes, same]
  cases clock with
  | none => exact same.trans reaping
  | some now =>
    obtain ⟨⟨rest, read, runs, follows⟩, expired⟩ := reaping
    refine ⟨⟨rest, read, same.trans runs, follows⟩, ?_⟩
    intro uid revoked
    rw [about] at revoked
    rw [leases uid revoked]
    exact expired uid revoked

def clockAfter (reaper : Nat) (clock : Option Time) (event : HomeEvent) : Option Time :=
  clock.or (clockReading reaper [event])

theorem Reaping.first {answer : Answer} (reaping : Reaping config reaper none threads)
    (took : (homeKernel config).machine.step threads (.act reaper answer) = some next) :
    Reaping config reaper (clockAfter reaper none (.act reaper answer)) next := by
  have runs : threads.programs.get reaper = some (HomeCall.body config .sweep) := reaping
  obtain ⟨now, shared, ran, rfl⟩ := Kernel.step_act_call runs took
  cases answer with
  | time told =>
    simp only [homeKernel, Home.perform, Question.read, Option.map_some, Option.some.injEq,
      Prod.mk.injEq] at ran
    obtain ⟨rfl, rfl⟩ := ran
    have read : clockAfter reaper none (.act reaper (.time told)) = some told := by
      simp [clockAfter, clockReading]
    rw [read]
    refine ⟨⟨_, none, get_put_same _ _ _, ?_⟩, ?_⟩
    · refine fun uids => ⟨none, rfl, ?_⟩
      exact Prog.Follows.bind (Call.sweepGrants_reads config told uids none) fun _ _ _ => trivial
    · intro uid revoked
      obtain ⟨rest, about⟩ := revokes_eq_some.mp revoked
      rw [get_put_same, Option.some.injEq] at about
      cases about
  | _ => simp [homeKernel, Home.perform, Question.read] at ran

theorem Reaping.own {now : Time} {answer : Answer}
    (reaping : Reaping config reaper (some now) threads)
    (took : (homeKernel config).machine.step threads (.act reaper answer) = some next) :
    Reaping config reaper (some now) next := by
  obtain ⟨⟨prog, read, got, follows⟩, _⟩ := reaping
  obtain ⟨action, rest, out, shared, runs, ran, rfl⟩ := Kernel.step_act took
  cases got.symm.trans runs
  obtain ⟨later, turn, onward⟩ := follows out
  refine ⟨⟨_, later, get_put_same _ _ _, onward⟩, ?_⟩
  intro uid revoked
  obtain ⟨left, about⟩ := revokes_eq_some.mp revoked
  simp only [get_put_same, Option.some.injEq] at about
  rw [about] at onward
  -- The revocation comes right after the reading it goes by.
  have justRead : later = some uid := by
    obtain ⟨_, may, _⟩ := onward ()
    by_contra other
    simp [sweepAfter, other] at may
  subst later
  cases action with
  | grant read =>
    cases ran
    replace turn := Option.some.inj turn
    split at turn <;> cases turn
    rename_i expired
    obtain ⟨grant, admitted, lapsed⟩ := (Option.any_eq_true _ _).mp expired
    exact ⟨grant, admitted, lapsed⟩
  | revokeGrant read =>
    simp only [sweepAfter, Option.ite_none_right_eq_some] at turn
    simp at turn
  | _ => cases turn

theorem clockReading_cons (event : HomeEvent) (events : List HomeEvent) :
    clockReading reaper (event :: events) =
      (clockReading reaper [event]).or (clockReading reaper events) := by
  cases event with
  | start tid call => rfl
  | act mover answer =>
    cases answer with
    | time now =>
      simp only [clockReading]
      split <;> rfl
    | _ => rfl

theorem Reaping.step {event : HomeEvent} (ok : threads.shared.Ok)
    (reaping : Reaping config reaper clock threads) (leaves : LeavesLease reaper threads event)
    (took : (homeKernel config).machine.step threads event = some next) :
    Reaping config reaper (clockAfter reaper clock event) next := by
  cases event with
  | start tid call =>
    obtain ⟨unused, rfl⟩ := Kernel.step_start took
    have runs : threads.programs.get reaper ≠ none := by
      cases clock with
      | none =>
        have there : threads.programs.get reaper = some _ := reaping
        simp [there]
      | some now =>
        obtain ⟨⟨prog, _, there, _⟩, _⟩ := reaping
        simp [there]
    have apart : reaper ≠ tid := by
      rintro rfl
      exact runs unused
    simpa [clockAfter, clockReading] using reaping.other apart fun _ _ => rfl
  | act mover answer =>
    by_cases mine : mover = reaper
    · subst mover
      cases clock with
      | none => exact reaping.first took
      | some now => exact reaping.own took
    · obtain ⟨action, rest, out, shared, runs, ran, rfl⟩ := Kernel.step_act took
      have unread : clockReading reaper [.act mover answer] = none := by
        cases answer <;> simp [clockReading, mine]
      rw [clockAfter, unread, Option.or_none]
      refine reaping.other (Ne.symm mine) ?_
      intro uid about
      simp only [LeavesLease, mine, about, false_or] at leaves
      rcases Home.perform_grant? ok ran uid with same | ⟨grant, rfl, its⟩ | rfl
      · exact same
      · simp [letsIn, runs, its] at leaves
      · exact (leaves.2 (revokes_eq_some.mpr ⟨rest, runs⟩)).elim

theorem Reaping.run {events : List HomeEvent} {final : HomeThreads}
    (reached : (homeKernel config).machine.Reachable threads)
    (reaping : Reaping config reaper clock threads)
    (apart : (homeKernel config).machine.Meets (LeavesLease reaper) threads events)
    (run : (homeKernel config).machine.exec threads events = some final) :
    Reaping config reaper (clock.or (clockReading reaper events)) final := by
  induction events generalizing threads clock with
  | nil =>
    simp only [exec_nil] at run
    cases run
    simpa [clockReading] using reaping
  | cons event events ih =>
    obtain ⟨next, took, rest⟩ := exec_cons_eq_some.mp run
    have moved := reaping.step (home_ok reached) apart.1 took
    have last := ih (reached.next took) moved (apart.2 next took) rest
    rw [clockReading_cons, ← Option.or_assoc]
    exact last

/-- Every UID the sweep revokes has, at that step, an admitted lease that is expired at the
sweep's clock reading. -/
def SweepsExpired (config : HomeConfig) (reaper : Nat) (first : HomeThreads)
    (events : List HomeEvent) : Prop :=
  ∀ index threads answer uid,
    (homeKernel config).machine.Takes first events index threads (.act reaper answer) →
    revokes threads reaper = some uid →
      ∃ now grant, clockReading reaper (events.take index) = some now ∧
        threads.shared.ledger.grant? uid = some grant ∧ grant.expired now = true

theorem sweep_spares_renewed {before : HomeThreads} {events : List HomeEvent}
    (reached : (homeKernel config).machine.Reachable before)
    (begun : (homeKernel config).machine.step before (.start reaper .sweep) = some threads)
    (apart : (homeKernel config).machine.Meets (LeavesLease reaper) threads events) :
    SweepsExpired config reaper threads events := by
  intro index state answer uid takes about
  have initial : Reaping config reaper none threads := by
    obtain ⟨_, rfl⟩ := Kernel.step_start begun
    exact get_put_same _ _ _
  have reaping := initial.run (reached.next begun) (apart.take index) takes.1
  rw [Option.none_or] at reaping
  cases clock : clockReading reaper (events.take index) with
  | none =>
    rw [clock] at reaping
    obtain ⟨rest, running⟩ := revokes_eq_some.mp about
    have there : state.programs.get reaper = some (HomeCall.body config .sweep) := reaping
    rw [running, Option.some.injEq] at there
    cases there
  | some now =>
    rw [clock] at reaping
    obtain ⟨grant, admitted, expired⟩ := reaping.2 uid about
    exact ⟨now, grant, rfl, admitted, expired⟩

end Runs

/-- A sweep long after the lease has run out. -/
def reapedRun : List HomeEvent := answered 2 [.time 10, .flag true, .flag true, .flag true]

theorem expired_of_reapedRun : ∃ before threads state : HomeThreads,
    (homeKernel {}).machine.exec emptyThreads admittedRun = some before ∧
      (homeKernel {}).machine.step before (.start 2 .sweep) = some threads ∧
      (homeKernel {}).machine.Takes threads reapedRun 3 state (.act 2 (.flag true)) ∧
      revokes state 2 = some "g" ∧
      (homeKernel {}).machine.Meets (LeavesLease 2) threads reapedRun ∧
      SweepsExpired {} 2 threads reapedRun := by
  obtain ⟨state, run, revoked⟩ : ∃ state, (homeKernel {}).machine.exec emptyThreads
    (admittedRun ++ .start 2 .sweep :: reapedRun.take 3) = some state ∧
      revokes state 2 = some "g" := by decide +kernel
  obtain ⟨before, admitted, swept⟩ := exec_append_eq_some.mp run
  obtain ⟨threads, begun, rest⟩ := exec_cons_eq_some.mp swept
  have whole : (homeKernel {}).machine.Meets (LeavesLease 2) emptyThreads
      (admittedRun ++ .start 2 .sweep :: reapedRun) := by
    decide +kernel
  have apart := (whole.back admitted).2 threads begun
  exact ⟨before, threads, state, admitted, begun, ⟨rest, rfl⟩, revoked, apart,
    sweep_spares_renewed ⟨emptyThreads, admittedRun, emptyThreads_start, admitted⟩ begun apart⟩

/-- The grant is delivered with a new lease between the reading and the revocation. -/
def renewedRun : List HomeEvent :=
  answered 2 [.time 10, .flag true, .flag true] ++
    .start 3 (.coreAdmit 1 renewedGrant) ::
      answered 3 ([.time 10, .flag true, .time 10] ++ List.replicate 9 (.flag true)) ++
    answered 2 [.flag true]

theorem sweep_takes_renewed : ∃ before threads : HomeThreads,
    (homeKernel {}).machine.exec emptyThreads admittedRun = some before ∧
      (homeKernel {}).machine.step before (.start 2 .sweep) = some threads ∧
      ¬SweepsExpired {} 2 threads renewedRun := by
  obtain ⟨state, run, revoked, renewed⟩ : ∃ state, (homeKernel {}).machine.exec emptyThreads
    (admittedRun ++ .start 2 .sweep :: renewedRun.take 16) = some state ∧
      revokes state 2 = some "g" ∧ state.shared.ledger.grant? "g" = some renewedGrant := by
    decide +kernel
  obtain ⟨before, admitted, swept⟩ := exec_append_eq_some.mp run
  obtain ⟨threads, begun, rest⟩ := exec_cons_eq_some.mp swept
  refine ⟨before, threads, admitted, begun, ?_⟩
  intro sweeps
  obtain ⟨now, grant, clock, found, expired⟩ :=
    sweeps 16 state (.flag true) "g" ⟨rest, rfl⟩ revoked
  have told : now = 10 := by
    have reading : clockReading 2 (renewedRun.take 16) = some 10 := by decide
    rw [clock, Option.some.injEq] at reading
    exact reading
  rw [renewed, Option.some.injEq] at found
  subst grant now
  exact absurd expired (by decide)

end Fiberd
