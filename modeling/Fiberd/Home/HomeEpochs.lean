import Fiberd.Home.HomeSessions

/-!
Loss of scope: what `BumpEpoch` makes of the fences minted before it.
-/

namespace Fiberd

open Heaps Tables Programs Machines LedgerSystem

structure Ledger.Ages (ledger next : Ledger) : Prop where
  epoch : ledger.epoch ≤ next.epoch
  fibers : ∀ id ref, next.fibers.get id = some ref →
    (∃ old, ledger.fibers.get id = some old ∧ old.fence = ref.fence) ∨
      ref.fence.epoch = ledger.epoch

theorem Ledger.Quiet.ages {ledger next : Ledger} (quiet : ledger.Quiet next) :
    ledger.Ages next := by
  refine ⟨Nat.le_of_eq quiet.epoch.symm, ?_⟩
  intro id ref got
  obtain ⟨old, before, _, _, fence⟩ := quiet.fibers id ref got
  exact .inl ⟨old, before, fence⟩

theorem Ledger.ages_of_same {ledger next : Ledger} (epoch : ledger.epoch ≤ next.epoch)
    (fibers : next.fibers = ledger.fibers) : ledger.Ages next := by
  refine ⟨epoch, ?_⟩
  intro id ref got
  exact .inl ⟨ref, fibers ▸ got, rfl⟩

theorem ages_apply {system next : LedgerSystem} {op : LedgerOp}
    (took : system.apply op = some next) : system.ledger.Ages next.ledger := by
  cases apply_effect took with
  | refused => exact (Ledger.Quiet.refl _).ages
  | admitGrant grant =>
    apply Ledger.ages_of_same
    · simp only [withLedger, Ledger.admitGrant]
      split <;> exact Nat.le_refl _
    · simp only [withLedger, Ledger.admitGrant]
      split <;> rfl
  | revokeGrant uid =>
    obtain ⟨epoch, _, _, _, fibers⟩ := revokeGrant_fields system.ledger uid
    exact Ledger.ages_of_same (Nat.le_of_eq epoch.symm) fibers
  | bumpEpoch epoch =>
    apply Ledger.ages_of_same
    · simp only [withLedger, Ledger.bumpEpoch]
      split
      · exact Nat.le_of_lt (by assumption)
      · exact Nat.le_refl _
    · simp only [withLedger, Ledger.bumpEpoch]
      split <;> rfl
  | minted _ _ _ _ minted _ =>
    apply Ledger.ages_of_same <;> simp [opened, minted.nextEq]
  | attached _ _ _ _ _ _ _ | restored _ => exact Ledger.ages_of_same (Nat.le_refl _) rfl
  | committed endpoint pooled _ _ _ _ epoch =>
    refine ⟨Nat.le_refl _, ?_⟩
    intro id ref got
    obtain ⟨_, rfl⟩ | ⟨_, got⟩ := get_put_eq_some got
    · exact .inr epoch
    · exact .inl ⟨ref, got, rfl⟩
  | unlocked _ => exact (Ledger.quiet_unlock system.ledger _).ages
  | parked deltaRef _ => exact (Ledger.quiet_onPark system.ledger _ deltaRef).ages
  | gone _ _ => exact (Ledger.quiet_onGone system.ledger _).ages
  | forgot grantUID session => exact (Ledger.quiet_forgetSession system.ledger _ _).ages
  | setFiberW fiberID bytes => exact (Ledger.quiet_setFiberW system.ledger _ _).ages
  | setPooled grantUID count => exact (Ledger.quiet_setPooled system.ledger _ _).ages

namespace Home

variable {home next : Home} {thread : Nat} {action : Act} {answer : Answer}
  {out : action.Result}

theorem perform_ages (ran : home.perform thread action answer = some (out, next)) :
    home.ledger.Ages next.ledger := by
  rcases perform_books ran with ⟨op, done, _⟩ | ⟨_, books⟩
  · exact ages_apply done
  · exact books.quiet.ages

end Home

def Swept (epoch : Nat) (rest : List String) (home : Home) : Prop :=
  epoch ≤ home.ledger.epoch ∧
    ∀ id ref, home.ledger.fibers.get id = some ref → ref.fence.epoch < epoch → id ∈ rest

theorem Swept.kept {epoch : Nat} {rest : List String} {home next : Home}
    (swept : Swept epoch rest home) (ages : home.ledger.Ages next.ledger) :
    Swept epoch rest next := by
  refine ⟨Nat.le_trans swept.1 ages.epoch, ?_⟩
  intro id ref got older
  rcases ages.fibers id ref got with ⟨old, before, fence⟩ | current
  · exact swept.2 id old before (fence ▸ older)
  · have reached := swept.1
    omega

def epochRely : Nat → Home → Act → Answer → Home → Prop :=
  fun _ home _ _ next => home.ledger.Ages next.ledger

theorem swept_kept (epoch : Nat) (rest : List String) : KeptBy epochRely (Swept epoch rest) :=
  fun _ _ _ _ _ moved swept => swept.kept moved

section Sweep

variable (cfg : HomeConfig) (thread : Nat)

variable {id : String}

theorem Swept.skip {epoch : Nat} {rest : List String} {home : Home}
    (swept : Swept epoch (id :: rest) home)
    (newer : ∀ ref, home.ledger.fibers.get id = some ref → epoch ≤ ref.fence.epoch) :
    Swept epoch rest home := by
  refine ⟨swept.1, ?_⟩
  intro query ref got older
  have listed := swept.2 query ref got older
  simp only [List.mem_cons] at listed
  rcases listed with same | later
  · subst query
    have bound := newer ref got
    omega
  · exact later

theorem onRelease_gone (ledger : Ledger) (id : String) :
    (ledger.onRelease id).1.fibers.get id = none := by
  rw [Ledger.onRelease_ledger]
  cases known : ledger.fibers.get id with
  | none => rw [Ledger.onGone_unknown known, known]
  | some ref => simp [Ledger.onGone_known known]

theorem perform_onRelease {home next : Home} (answer : Answer) {gone : String × String}
    (ran : home.perform thread (.onRelease id) answer = some (gone, next)) :
    next.ledger.fibers.get id = none := by
  simp only [Home.perform, Home.op, LedgerSystem.apply, Option.map_some, Option.some.injEq,
    Prod.mk.injEq] at ran
  rw [← ran.2]
  exact onRelease_gone home.ledger id

def LookedUp (epoch : Nat) (id : String) (rest : List String) (found : Option Fence) :
    Home → Prop :=
  match found with
  | none => Swept epoch rest
  | some fence => if epoch ≤ fence.epoch then Swept epoch rest else Swept epoch (id :: rest)

theorem LookedUp.stable (epoch : Nat) (id : String) (rest : List String)
    (got : Option Fence) : Stable epochRely thread (LookedUp epoch id rest got) := by
  unfold LookedUp
  split
  · exact (swept_kept epoch rest).stable
  · split <;> exact (swept_kept epoch _).stable

theorem Swept.lookUp {epoch : Nat} {rest : List String} {home : Home}
    (swept : Swept epoch (id :: rest) home) :
    LookedUp epoch id rest (home.ledger.fiber? id) home := by
  unfold LookedUp Ledger.fiber?
  cases known : home.ledger.fibers.get id with
  | none => exact swept.skip (by simp [known])
  | some ref =>
    simp only [Option.map_some]
    split
    · rename_i current
      exact swept.skip (by simpa [known] using current)
    · exact swept

theorem bumpFibers_outline (epoch : Nat) (reason : String) (ids : List String) :
    Outline (homeKernel cfg) epochRely thread (Call.bumpFibers cfg epoch reason ids)
      (Swept epoch ids) fun _ => Swept epoch [] := by
  induction ids with
  | nil => exact fun _ swept => swept
  | cons id rest ih =>
    refine outline_act (LookedUp epoch id rest) (LookedUp.stable thread epoch id rest) ?_ ?_
    · intro home answer out next swept ran _
      cases ran
      exact swept.lookUp
    · intro got
      cases got with
      | none => exact ih
      | some fence =>
        simp only [LookedUp]
        split
        · exact ih
        · refine outline_past (swept_kept epoch _) _ fun _ => ?_
          refine outline_act (fun _ => Swept epoch rest)
            (fun _ => (swept_kept epoch rest).stable) ?_ ?_
          · intro home answer gone next swept ran moved
            refine (swept.kept moved).skip ?_
            intro ref known
            have absent := perform_onRelease thread answer ran
            rw [absent] at known
            simp at known
          · intro gone
            split
            · refine outline_past (swept_kept epoch _) _ fun _ => ?_
              refine outline_past (swept_kept epoch _) _ fun _ => ?_
              exact outline_past (swept_kept epoch _) _ fun _ => ih
            · refine outline_past (swept_kept epoch _) _ fun _ => ?_
              exact outline_past (swept_kept epoch _) _ fun _ => ih

theorem mem_runningFibers {ledger : Ledger} {ref : FiberRef}
    (got : ledger.fibers.get id = some ref) : id ∈ ledger.runningFibers := by
  simp only [Ledger.runningFibers, Ledger.sortIDs, List.mem_insertionSort, List.mem_map]
  exact ⟨(id, ref), (mem_rows_iff _ _ _).mpr got, rfl⟩

theorem bumpEpoch_outline (reason : String) :
    Outline (homeKernel cfg) epochRely thread (Call.bumpEpoch cfg reason) (fun _ => True)
      fun outcome home => ∀ epoch, outcome = .bumped epoch → Swept epoch [] home := by
  unfold Call.bumpEpoch
  split
  · refine outline_past (fun _ _ _ _ _ _ _ => trivial) _ fun stored => ?_
    cases stored with
    | none => exact fun _ _ => by simp
    | some epoch =>
      refine outline_act (fun _ home => epoch ≤ home.ledger.epoch) ?_ ?_ fun _ => ?_
      · intro _ other home _ _ next _ moved reached
        exact Nat.le_trans reached moved.epoch
      · intro home answer _ next _ ran _
        simp only [homeKernel, Home.perform, Home.op, LedgerSystem.apply, Option.map_some,
          Option.some.injEq, Prod.mk.injEq, true_and] at ran
        rw [← ran]
        simp only [Home.ledger, withLedger, Ledger.bumpEpoch]
        split
        · exact Nat.le_refl _
        · omega
      · refine outline_act (Swept epoch) (fun ids => (swept_kept epoch ids).stable) ?_ fun ids => ?_
        · intro home answer ids next reached ran _
          cases ran
          exact ⟨reached, fun id ref got _ => mem_runningFibers got⟩
        · refine (bumpFibers_outline cfg thread epoch reason ids).bind fun _ => ?_
          intro home swept other same
          cases same
          exact swept
  · exact fun _ _ => by simp

end Sweep

def resolvingSession (threads : HomeThreads) (thread : Nat) : Option Session :=
  match threads.programs.get thread with
  | some (.call (.resolve uid session _) _) =>
    if session = "" then none
    else threads.shared.ledger.sessions.get (sessionKey uid session)
  | _ => none

/-- No Clone resolves a session that still runs under a fence of an earlier epoch. -/
def AttachesCurrent (threads : HomeThreads) : HomeEvent → Prop
  | .start _ _ => True
  | .act thread _ => ∀ found ∈ resolvingSession threads thread, found.state = .running →
      found.fence.epoch = threads.shared.ledger.epoch

instance (threads : HomeThreads) : (event : HomeEvent) → Decidable (AttachesCurrent threads event)
  | .start _ _ => isTrue trivial
  | .act _ _ => by
    dsimp only [AttachesCurrent]
    infer_instance

def ResolvedCurrent (threads : HomeThreads) : Prop :=
  ∀ thread epoch fence, threads.shared.resolvedAt.get thread = some (epoch, fence) →
    epoch ≤ fence.epoch

section Runs

variable {cfg : HomeConfig} {threads next : HomeThreads} {event : HomeEvent}

theorem resolvedAt_perform {home later : Home} {thread : Nat} {action : Act} {answer : Answer}
    {out : action.Result} (ran : home.perform thread action answer = some (out, later)) :
    later.resolvedAt = home.resolvedAt ∨
      ∃ uid session tier now res ledger, action = .resolve uid session tier ∧
        home.ledger.resolveHeld uid session tier now = .ok (res, ledger) ∧ later.resolvedAt =
          home.resolvedAt.put thread (home.ledger.epoch, res.fence) := by
  cases Home.perform_effect ran with
  | still _ _ asked _ | plain _ _ _ asked | admitted _ _ asked | committed _ _ _ asked
  | closed _ _ asked | passed _ _ _ _ asked | refused _ _ asked => exact .inl asked
  | resolved _ got _ asked => exact .inr ⟨_, _, _, _, _, _, rfl, got, asked⟩
  | _ => exact .inl rfl

theorem ResolvedCurrent.step (current : ResolvedCurrent threads)
    (attaches : AttachesCurrent threads event)
    (took : (homeKernel cfg).machine.step threads event = some next) : ResolvedCurrent next := by
  cases event with
  | start thread call =>
    obtain ⟨_, rfl⟩ := Kernel.step_start took
    exact current
  | act thread answer =>
    obtain ⟨action, rest, out, shared, runs, ran, rfl⟩ := Kernel.step_act took
    rcases resolvedAt_perform ran with same | ⟨uid, session, tier, now, res,
      ledger, rfl, got, asked⟩
    · intro query epoch fence known
      rw [same] at known
      exact current query epoch fence known
    · intro query epoch fence known
      rw [asked, get_put] at known
      split at known
      · cases known
        obtain ⟨ptr, _, ⟨minted, _⟩ | ⟨_, named, item, here, state, attach⟩⟩ :=
          Ledger.resolveHeld_ok got
        · rw [minted.fenceEq]
          exact Nat.le_refl _
        · rw [attach]
          have same := attaches item (by simp [resolvingSession, runs, named, here]) state
          exact Nat.le_of_eq same.symm
      · exact current query epoch fence known

def ResolvesFrom (epoch thread : Nat) (threads : HomeThreads) : Prop :=
  epoch ≤ threads.shared.ledger.epoch ∧
    ∀ at_ fence, threads.shared.resolvedAt.get thread = some (at_, fence) → epoch ≤ at_

theorem ResolvesFrom.step {epoch thread : Nat} (from_ : ResolvesFrom epoch thread threads)
    (took : (homeKernel cfg).machine.step threads event = some next) :
    ResolvesFrom epoch thread next := by
  cases event with
  | start other call =>
    obtain ⟨_, rfl⟩ := Kernel.step_start took
    exact from_
  | act other answer =>
    obtain ⟨action, rest, out, shared, _, ran, rfl⟩ := Kernel.step_act took
    refine ⟨Nat.le_trans from_.1 (Home.perform_ages ran).epoch, ?_⟩
    intro at_ fence known
    rcases resolvedAt_perform ran with same | ⟨_, _, _, _, _, _, _, _, asked⟩
    · rw [same] at known
      exact from_.2 at_ fence known
    · rw [asked, get_put] at known
      split at known
      · simp only [Option.some.injEq, Prod.mk.injEq] at known
        exact known.1 ▸ from_.1
      · exact from_.2 at_ fence known

theorem ages_step (took : (homeKernel cfg).machine.step threads event = some next) :
    threads.shared.ledger.Ages next.shared.ledger := by
  cases event with
  | start thread call =>
    obtain ⟨_, rfl⟩ := Kernel.step_start took
    exact (Ledger.Quiet.refl _).ages
  | act thread answer =>
    obtain ⟨_, _, _, _, _, ran, rfl⟩ := Kernel.step_act took
    exact Home.perform_ages ran

theorem cloned_resolvedAt (reached : (homeKernel cfg).machine.Reachable threads)
    {thread : Nat} {response : CloneResponse}
    (ended : threads.programs.get thread = some (.done (.cloned response))) :
    ∃ epoch, threads.shared.resolvedAt.get thread = some (epoch, response.fence) := by
  have kept : (homeProtocol cfg).Kept threads := Protocol.kept_of_reachable reached
  obtain ⟨has, stands, ends⟩ := kept.ended ended
  have fence := stands.fence
  rw [ends.2 response rfl] at fence
  obtain ⟨⟨epoch, got⟩, known, same⟩ := Option.map_eq_some_iff.mp fence
  exact ⟨epoch, by rw [known, ← same]⟩

end Runs

structure ScopeLost (config : HomeConfig) (first : HomeThreads) (events : List HomeEvent) :
    Prop where
  answers : ∀ front back middle final thread epoch response, events = front ++ back →
    (homeKernel config).machine.exec first front = some middle →
    (homeKernel config).machine.exec middle back = some final →
    epoch ≤ middle.shared.ledger.epoch → middle.shared.resolvedAt.get thread = none →
    answerOf final thread = some (.cloned response) →
      epoch ≤ response.fence.epoch
  commits : ∀ front event back middle next epoch id ref, events = front ++ event :: back →
    (homeKernel config).machine.exec first front = some middle →
    (homeKernel config).machine.step middle event = some next →
    epoch ≤ middle.shared.ledger.epoch → next.shared.ledger.fibers.get id = some ref →
      (∃ old, middle.shared.ledger.fibers.get id = some old ∧ old.fence = ref.fence) ∨
        epoch ≤ ref.fence.epoch
  swept : ∀ front back middle final thread reason epoch,
    events = front ++ .start thread (.bumpEpoch reason) :: back →
    (homeKernel config).machine.exec first front = some middle →
    (homeKernel config).machine.exec middle (.start thread (.bumpEpoch reason) :: back) =
      some final →
    answerOf final thread = some (.bumped epoch) →
      ∀ id ref, final.shared.ledger.fibers.get id = some ref → epoch ≤ ref.fence.epoch

theorem scope_lost_of_attachesCurrent {config : HomeConfig} {first : HomeThreads}
    {events : List HomeEvent} (started : (homeKernel config).machine.start first)
    (attaches : (homeKernel config).machine.Meets AttachesCurrent first events) :
    ScopeLost config first events := by
  refine ⟨?_, ?_, ?_⟩
  · intro front back middle final thread epoch response split before after reached unresolved ended
    subst events
    have run := exec_append_eq_some.mpr ⟨middle, before, after⟩
    obtain ⟨at_, known⟩ :=
      cloned_resolvedAt ⟨first, _, started, run⟩ (answerOf_eq_some.mp ended)
    have from_ : ResolvesFrom epoch thread final :=
      exec_keeps (fun _ _ _ from_ taken => from_.step taken)
        (⟨reached, by simp [unresolved]⟩ : ResolvesFrom epoch thread middle) after
    have current : ResolvedCurrent final := by
      refine exec_keeps_of_meets (fun _ _ _ current attaches taken => current.step attaches taken)
        ?_ attaches run
      obtain ⟨⟨_, _, _, isNew⟩, _⟩ := started
      simp [ResolvedCurrent, isNew, newHome]
    exact Nat.le_trans (from_.2 at_ _ known) (current thread at_ _ known)
  · intro front event back middle next epoch id ref _ _ taken reached found
    rcases (ages_step taken).fibers id ref found with old | current
    · exact .inl old
    · exact .inr (current ▸ reached)
  · intro front back middle final thread reason epoch _ _ after ended id ref found
    obtain ⟨next, taken, rest⟩ := exec_cons_eq_some.mp after
    have outlined := outlined_start taken (bumpEpoch_outline config thread reason)
    have swept := (outlined.run (meets_of_forall (relies_of_perform fun _ _ _ _ _ _ =>
      Home.perform_ages) _ _) rest).post (answerOf_eq_some.mp ended)
    by_contra older
    have listed := (swept epoch rfl).2 id ref found (by omega)
    simp at listed

def bumpedRun : List HomeEvent :=
  clonedRun ++ .start 2 (.bumpEpoch "scope lost") :: answered 2 [.number (some 2), .flag true]

def sweptRun : List HomeEvent :=
  bumpedRun ++ answered 2 [.flag true, .flag true, .flag true, .flag true, .flag true, .flag true]
    ++ .start 3 (.clone 1 { grantJWT := "t", session := "s" }) :: answered 3 cloneAnswers

theorem scope_lost_of_sweptRun :
    ((homeKernel { epochStore := true }).machine.exec emptyThreads sweptRun).map (fun threads =>
      (answerOf threads 2, answerOf threads 3)) =
        some (some (.bumped 2), some (.cloned
          { fiberID := "g/2/2", endpoint := "e", fence := ⟨"g", 2, 2⟩, kind := .create })) ∧
      ScopeLost { epochStore := true } emptyThreads sweptRun :=
  ⟨by decide, scope_lost_of_attachesCurrent ⟨⟨1, none, rfl, rfl⟩, rfl⟩ (by decide +kernel)⟩

def attachedRun : List HomeEvent :=
  .start 3 (.clone 1 { grantJWT := "t", session := "s" }) ::
    answered 3 [.verified (.ok plainGrant), .flag true, .flag true, .flag true, .flag true,
      .flag false, .flag true, .flag true, .time 0, .flag true, .flag true, .flag true,
      .flag true]

/-- The call that came after the epoch had moved is handed the fence of the old epoch. -/
theorem scope_lost_fails :
    ¬ScopeLost { epochStore := true } emptyThreads (bumpedRun ++ attachedRun) := by
  intro lost
  obtain ⟨middle, before, epoch, unresolved, final, after, answer⟩ :
    ∃ middle, (homeKernel { epochStore := true }).machine.exec emptyThreads bumpedRun = some middle ∧
      middle.shared.ledger.epoch = 2 ∧ middle.shared.resolvedAt.get 3 = none ∧
      ∃ final, (homeKernel { epochStore := true }).machine.exec middle attachedRun = some final ∧
        answerOf final 3 = some (.cloned
          { fiberID := "g/1/1", endpoint := "e", fence := ⟨"g", 1, 1⟩, kind := .attach }) := by
    decide +kernel
  have bound := lost.answers bumpedRun attachedRun middle final 3 2 _ rfl before after
    (Nat.le_of_eq epoch.symm) unresolved answer
  simp at bound

end Fiberd
