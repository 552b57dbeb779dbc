import Fiberd.Home.HomeAdmissions
import Fiberd.Home.HomeCourse

/-!
Which calls refresh a grant that is admitted already.  A Clone admits the grant of
its token where the ledger does not know it, and finds out before it has the
slot of the UID; what comes between is for the ledger to say, not for the Clone.
-/

namespace Fiberd

open Heaps Tables Programs Machines LedgerSystem

/-- The run has a Clone under the number. -/
def clonesIn (events : List HomeEvent) (thread : Nat) : Bool :=
  events.any fun
    | .start started (.clone _ _) => decide (started = thread)
    | _ => false

/-- A Clone takes the slot of a UID only while the ledger does not know the grant. -/
def entersUnknown (clones : Nat → Bool) (home : Home) (thread : Nat) (action : Act)
    (_ : Answer) : Bool :=
  match action with
  | .enterAdmission uid => !clones thread || (home.admitting.get uid).isSome ||
      (home.ledger.grants.get uid).isNone
  | _ => true

section Deliveries

variable {config : HomeConfig} {clones : Nat → Bool}

structure ClonesUnknown (clones : Nat → Bool) (home : Home) (holds : Nat → Local)
    (courses : Nat → Course) : Prop where
  inStep : ∀ thread, InStep (holds thread) (courses thread)
  unknown : ∀ thread uid kept, clones thread = true →
    (courses thread).stage = .entered uid kept → home.ledger.grants.get uid = none

theorem Home.perform_entered {home next : Home} {tid chan : Nat} {uid : String}
    {answer : Answer} (ran : home.perform tid (.enterAdmission uid) answer =
      some (.entered chan, next)) : home.admitting.get uid = none ∧ next.system = home.system := by
  simp only [Home.perform, Option.some.injEq, Home.enterAdmission] at ran
  split at ran
  · simp at ran
  · rename_i free
    simp only [Prod.mk.injEq] at ran
    exact ⟨free, by rw [← ran.2]⟩

theorem ClonesUnknown.moved {home next : Home} {has : Nat → Local} {courses : Nat → Course}
    {tid : Nat} {action : Act} {answer : Answer} {result : action.Result} {later : Local}
    {now : Course} (kept : ClonesUnknown clones home has courses)
    (stands : ∀ other, LocalAt other (has other) home)
    (turn : (has tid).after action result = some later)
    (moves : (courses tid).Step config.provisions action result now)
    (may : entersUnknown clones home tid action answer = true)
    (ran : home.perform tid action answer = some (result, next)) :
    ClonesUnknown clones next (Function.update has tid later)
      (Function.update courses tid now) := by
  refine ⟨?_, ?_⟩
  · intro other
    by_cases same : other = tid
    · subst other
      simpa using (kept.inStep tid).after turn moves
    · simpa [same] using kept.inStep other
  · intro other uid placed clone place
    -- The grant is let in by the call in its slot, and by no other.
    have remains : ∀ old, (courses other).stage = .entered uid old →
        (∀ grant, other = tid → action ≠ .admitGrant grant) →
          next.ledger.grants.get uid = none := by
      intro old entered outside
      have absent := kept.unknown other uid old clone entered
      rcases Home.perform_grants ran uid with same | ⟨grant, admits, mine, _⟩ | ⟨_, gone⟩
      · rw [same, absent]
      · subst admits
        cases moves with
        | aside aside => simp [Act.aside] at aside
        | admits slot _ =>
          have alone := InStep.alone uid (stands other) (stands tid) (kept.inStep other)
            (kept.inStep tid) (by simp [entered, Stage.uid?])
            (by simp [slot, Stage.uid?, mine])
          exact (outside grant alone rfl).elim
      · exact gone
    by_cases same : other = tid
    · subst other
      simp only [Function.update_self] at place
      cases moves with
      | aside aside =>
        refine remains placed place ?_
        rintro grant _ rfl
        simp [Act.aside] at aside
      | @enters entered chan out =>
        obtain ⟨free, system⟩ := Home.perform_entered ran
        simp only [Stage.entered.injEq] at place
        rw [place.1] at free may
        have ledger : next.ledger = home.ledger := congrArg LedgerSystem.ledger system
        simpa [entersUnknown, clone, free, ledger] using may
      | waits | unprovisioned | provisioned _ _ | drops _ _ | releases _ | registers _ =>
        exact remains placed place (by simp)
      | keeps slot _ =>
        simp only [Stage.entered.injEq] at place
        exact remains false (by rw [slot, place.1]) (by simp)
      | _ => simp at place
    · simp only [ne_eq, same, not_false_eq_true, Function.update_of_ne] at place
      exact remains placed place fun _ mine => (same mine).elim

def deliveryLayer (config : HomeConfig) (clones : Nat → Bool) :
    Layer ((homeProtocol config).guard (entersUnknown clones)) Course where
  idle := {}
  after := Course.after config.provisions
  inv := ClonesUnknown clones
  moved := by
    intro home holds courses thread action answer result next later now _ stands kept turn moves
      ran
    obtain ⟨may, done⟩ := Kernel.guarded_perform ran
    exact kept.moved stands turn (Course.after_step moves) may done
  ends _ later := later = {}
  bodies := HomeCall.body_keeps config

end Deliveries

namespace Call

variable {β γ : Type}

def Bars (program : Call β) : Prop := program.Only fun action => ∀ grant, action ≠ .admitGrant grant

theorem bars_bind {prog : Call β} {rest : β → Call γ} (first : Bars prog)
    (second : ∀ value, Bars (rest value)) : Bars (prog >>= rest) :=
  Prog.Only.bind first second

theorem Aside.bars {prog : Call β} (aside : Aside prog) : Bars prog := by
  induction prog with
  | done value => trivial
  | call action next ih =>
    refine ⟨?_, fun out => ih out (aside.2 out)⟩
    rintro grant rfl
    exact Bool.noConfusion aside.1

theorem bars_act {action : Act} (other : ∀ grant, action ≠ .admitGrant grant) : Bars (act action) :=
  ⟨other, fun _ => trivial⟩

section Verbs

variable (config : HomeConfig)

theorem bars_yield (uid reason : String) : Bars (yield config uid reason) := by
  refine bars_bind (bars_bind (bars_act (by simp)) fun _ => bars_bind (bars_act (by simp)) ?_)
    fun _ => (aside_yieldRevoked config uid reason).bars
  intro dropped
  cases dropped with
  | none => exact trivial
  | some chan => exact bars_act (by simp)

theorem bars_remove (uid : String) : Bars (remove config uid) := by
  have denied : Bars (removeDenied config uid) := by
    refine bars_bind (bars_act (by simp)) fun got => ?_
    cases got with
    | none => exact bars_yield config uid _
    | some chan => exact bars_bind (bars_act (by simp)) fun _ => bars_yield config uid _
  unfold remove
  split
  · refine bars_bind (quiet_removedLease uid).aside.bars fun lease => ?_
    refine bars_bind (bars_act (by simp)) fun now => bars_bind (bars_act (by simp)) fun _ => denied
  · exact bars_yield config uid _

theorem bars_sweep : Bars (sweep config) := by
  have each : ∀ now uids, Bars (sweepGrants config now uids) := by
    intro now uids
    induction uids with
    | nil => trivial
    | cons uid rest ih =>
      refine bars_bind (bars_act (by simp)) fun got => ?_
      cases got with
      | none => exact ih
      | some grant =>
        dsimp only
        split
        · exact bars_bind (bars_yield config uid _) fun _ => ih
        · exact ih
  exact bars_bind (bars_act (by simp)) fun now => bars_bind (bars_act (by simp)) (each now)

theorem bars_reconcileParked (snap : SessionSnapshot) : Bars (reconcileParked snap) := by
  refine bars_bind (bars_act (by simp)) fun held => ?_
  split
  · exact bars_bind (bars_act (by simp)) fun _ => trivial
  · trivial

end Verbs

end Call

open Call in
theorem HomeCall.body_admits (config : HomeConfig) (call : HomeCall) :
    (call.body config).Only fun action => ∀ grant, action = .admitGrant grant →
      (∃ rounds request, call = .clone rounds request) ∨
        ∃ rounds delivered, call = .coreAdmit rounds delivered := by
  have barred : Bars (call.body config) → (call.body config).Only fun action =>
      ∀ grant, action = .admitGrant grant →
        (∃ rounds request, call = .clone rounds request) ∨
          ∃ rounds delivered, call = .coreAdmit rounds delivered :=
    fun bars => bars.mono fun _ other grant same => (other grant same).elim
  have alone : ∀ {prog : Call Unit}, Bars prog → Bars (do prog; return Outcome.done) :=
    fun bars => bars_bind bars fun _ => trivial
  cases call with
  | clone rounds request =>
    exact Prog.only_of_forall (fun _ _ _ => .inl ⟨rounds, request, rfl⟩) _
  | coreAdmit rounds grant =>
    exact Prog.only_of_forall (fun _ _ _ => .inr ⟨rounds, grant, rfl⟩) _
  | yield uid reason => exact barred (alone (bars_yield config uid reason))
  | remove uid => exact barred (alone (bars_remove config uid))
  | sweep => exact barred (alone (bars_sweep config))
  | reconcileParked snap => exact barred (alone (bars_reconcileParked snap))
  | park fiberID sync => exact barred (aside_park config fiberID sync).bars
  | discard token session thumbprint =>
    exact barred (aside_discard config token session thumbprint).bars
  | release fiberID dropped => exact barred (quiet_releaseFiber config fiberID dropped).aside.bars
  | bumpEpoch reason => exact barred (quiet_bumpEpoch config reason).aside.bars
  | exit ended => exact barred (alone (quiet_onExit config ended).aside.bars)
  | redeliver uid => exact barred (alone (quiet_redeliver uid).aside.bars)
  | sample => exact barred (alone quiet_sample.aside.bars)
  | setPooled uid count | startDrain | holdGrant uid =>
    exact barred (bars_bind (bars_act (by simp)) fun _ => trivial)
  | instanceDied uid number => exact barred (alone (aside_onHost _).bars)

section Runs

variable {config : HomeConfig} {first : HomeThreads} {events : List HomeEvent}

def letsIn (threads : HomeThreads) : HomeEvent → Option Grant
  | .start _ _ => none
  | .act thread _ =>
    match threads.programs.get thread with
    | some (.call (.admitGrant grant) _) => some grant
    | _ => none

def RefreshedByDeliveries (config : HomeConfig) (first : HomeThreads) (events : List HomeEvent) :
    Prop :=
  ∀ index threads thread answer grant,
    (homeKernel config).machine.Takes first events index threads (.act thread answer) →
    letsIn threads (.act thread answer) = some grant →
    threads.shared.ledger.grants.get grant.uid ≠ none →
      ∃ rounds delivered, Event.start thread (.coreAdmit rounds delivered) ∈ events

theorem clone_refreshes_no_grant (started : (homeKernel config).machine.start first)
    (unknown : (homeKernel config).machine.Meets
      (Kernel.Allows (entersUnknown (clonesIn events))) first events) :
    RefreshedByDeliveries config first events := by
  intro index threads thread answer grant takes lets admitted
  obtain ⟨rest, running⟩ : ∃ rest,
      threads.programs.get thread = some (.call (.admitGrant grant) rest) := by
    simp only [letsIn] at lets
    split at lets <;> cases lets
    exact ⟨_, ‹_›⟩
  obtain ⟨call, began, only⟩ := started_of_running (HomeCall.body_admits config) started takes.1
    running
  have member := List.take_subset _ _ began
  rcases only.1 grant rfl with ⟨rounds, request, rfl⟩ | ⟨rounds, delivered, rfl⟩
  · -- The Clone is in the slot of the UID, which it took while the grant was unknown.
    exfalso
    have clone : clonesIn events thread = true := List.any_eq_true.mpr ⟨_, member, by simp⟩
    have initial : (deliveryLayer config (clonesIn events)).Kept first := by
      refine Layer.kept_of_start started ⟨fun _ _ place => ?_, fun _ _ _ _ place => ?_⟩
      · simp [deliveryLayer, Stage.uid?] at place
      · simp [deliveryLayer] at place
    obtain ⟨holds, courses, places⟩ :=
      initial.exec (Kernel.guarded_exec (unknown.take index) takes.1)
    obtain ⟨_, keeps⟩ := places.running thread _ running
    obtain ⟨now, turn, _⟩ := keeps ()
    have step : (courses thread).Step config.provisions (.admitGrant grant) () now :=
      Course.after_step turn
    cases step with
    | aside aside => simp [Act.aside] at aside
    | admits slot _ => exact admitted (places.inv.unknown thread _ _ clone slot)
  · exact ⟨rounds, delivered, member⟩

end Runs

def renewedGrant : Grant := { plainGrant with leaseExpiry := 20 }

def refreshAnswers : List Answer := [.time 0, .flag true, .time 0] ++ List.replicate 9 (.flag true)

/-- A Clone lets its own grant in, and then the home delivers the grant with a longer lease. -/
def deliveredRun : List HomeEvent :=
  .start 1 (.clone 1 { grantJWT := "t", session := "s" }) ::
    answered 1 ([.verified (.ok plainGrant), .flag true, .flag true] ++ admitAnswers) ++
  .start 0 (.coreAdmit 1 renewedGrant) :: answered 0 refreshAnswers

theorem refreshed_of_deliveredRun :
    ((homeKernel {}).machine.exec emptyThreads (deliveredRun.take 32)).map (fun threads =>
      (letsIn threads (.act 0 (.flag true)), threads.shared.ledger.grants.get "g")) =
      some (some renewedGrant, some 0) ∧
    (homeKernel {}).machine.Meets (Kernel.Allows (entersUnknown (clonesIn deliveredRun)))
      emptyThreads deliveredRun ∧
    RefreshedByDeliveries {} emptyThreads deliveredRun := by
  have unknown : (homeKernel {}).machine.Meets
      (Kernel.Allows (entersUnknown (clonesIn deliveredRun))) emptyThreads deliveredRun := by
    decide +kernel
  exact ⟨by decide +kernel, unknown, clone_refreshes_no_grant emptyThreads_start unknown⟩

/-- The delivery comes between the Clone's look at the ledger and its slot. -/
def overtakenRun : List HomeEvent :=
  .start 1 (.clone 1 { grantJWT := "t", session := "s" }) ::
    answered 1 [.verified (.ok plainGrant), .flag true, .flag true] ++
  .start 0 (.coreAdmit 1 renewedGrant) :: answered 0 admitAnswers ++ answered 1 refreshAnswers

theorem clone_overwrites_delivery : ¬RefreshedByDeliveries {} emptyThreads overtakenRun := by
  intro refreshed
  obtain ⟨threads, run, refreshes, admitted⟩ : ∃ threads,
    (homeKernel {}).machine.exec emptyThreads (overtakenRun.take 32) = some threads ∧
      letsIn threads (.act 1 (.flag true)) = some { plainGrant with token := "t" } ∧
      threads.shared.ledger.grants.get "g" ≠ none := by decide +kernel
  obtain ⟨rounds, delivered, member⟩ :=
    refreshed 32 threads 1 (.flag true) _ ⟨run, rfl⟩ refreshes admitted
  simp [overtakenRun, answered, admitAnswers, refreshAnswers] at member

end Fiberd
