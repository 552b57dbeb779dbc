import Fiberd.Home.HomeRecords
import Fiberd.Ledger.LedgerFences

/-!
A Park does not lose its session.  The runtime parks the fiber outside the ledger's
lock, so another call may take the fiber out of the ledger before `OnPark` finds it;
as long as that does not happen, the session is there with the delta.
-/

namespace Fiberd

open Heaps Tables Programs Machines LedgerSystem

structure FiberKept (id key : String) (system : LedgerSystem) : Prop where
  minted : ∃ fence : Fence, fence.string = id ∧ system.ledger.Minted fence
  recorded : ∀ ref, system.ledger.fibers.get id = some ref → ref.sessionKey = key
  unborn : ∀ clone resolution, system.resolved.get clone = some resolution →
    resolution.act ≠ .attach → resolution.committed = false → resolution.fence.string ≠ id

variable {id key deltaRef uid name : String} {system : LedgerSystem}

theorem FiberKept.quiet
    (kept : FiberKept id key system) {ledger : Ledger} (quiet : system.ledger.Quiet ledger) :
    FiberKept id key (system.withLedger ledger) := by
  refine ⟨?_, ?_, kept.unborn⟩
  · obtain ⟨fence, same, minted⟩ := kept.minted
    exact ⟨fence, same, (quiet.minted fence).mpr minted⟩
  · intro ref got
    obtain ⟨old, before, _, sameKey, _⟩ := quiet.fibers id ref got
    rw [← sameKey, kept.recorded old before]

theorem FiberKept.apply {next : LedgerSystem} {op : LedgerOp}
    (kept : FiberKept id key system) (sound : Sound system)
    (took : system.apply op = some next) : FiberKept id key next := by
  have minted : ∃ fence : Fence, fence.string = id ∧ next.ledger.Minted fence := by
    obtain ⟨fence, same, minted⟩ := kept.minted
    exact ⟨fence, same, (issues_apply sound took).keeps minted⟩
  cases apply_effect took with
  | refused => exact kept
  | admitGrant grant =>
    refine ⟨minted, ?_, kept.unborn⟩
    simpa only [withLedger, (admitGrant_fields system.ledger grant).2.2] using kept.recorded
  | revokeGrant uid =>
    refine ⟨minted, ?_, kept.unborn⟩
    simpa only [withLedger, (revokeGrant_fields system.ledger uid).2.2.2.2] using kept.recorded
  | bumpEpoch epoch =>
    refine ⟨minted, ?_, kept.unborn⟩
    have fibers : (system.ledger.bumpEpoch epoch).fibers = system.ledger.fibers := by
      unfold Ledger.bumpEpoch
      split <;> rfl
    simpa only [withLedger, fibers] using kept.recorded
  | minted _ _ _ admitted given _ =>
    refine ⟨minted, ?_, ?_⟩
    · simpa only [opened, given.nextEq] using kept.recorded
    · intro clone res got fresh uncommitted
      obtain ⟨_, rfl⟩ | ⟨_, got⟩ := get_put_eq_some got
      · obtain ⟨fence, same, before⟩ := kept.minted
        rintro rfl
        rw [Fence.string_inj same, given.fenceEq] at before
        exact not_minted_nextFence admitted before
      · exact kept.unborn clone res got fresh uncommitted
  | attached _ _ _ _ _ _ _ =>
    refine ⟨minted, kept.recorded, ?_⟩
    intro clone res got fresh uncommitted
    obtain ⟨_, rfl⟩ | ⟨_, got⟩ := get_put_eq_some got
    · exact (fresh rfl).elim
    · exact kept.unborn clone res got fresh uncommitted
  | committed endpoint pooled got act uncommitted _ _ =>
    refine ⟨minted, ?_, ?_⟩
    · intro ref noted
      have other := kept.unborn _ _ got act uncommitted
      simp only [committed, get_put_other _ _ (Ne.symm other)] at noted
      exact kept.recorded ref noted
    · intro clone res opening fresh pending
      obtain ⟨_, rfl⟩ | ⟨_, opening⟩ := get_put_eq_some opening
      · simp at pending
      · exact kept.unborn clone res opening fresh pending
  | unlocked _ =>
    rename_i clone res _
    have quiet := kept.quiet (Ledger.quiet_unlock system.ledger res)
    refine ⟨quiet.minted, quiet.recorded, ?_⟩
    intro other pending opening fresh uncommitted
    obtain ⟨_, opening⟩ := get_drop_eq_some opening
    exact kept.unborn other pending opening fresh uncommitted
  | parked deltaRef _ => exact kept.quiet (Ledger.quiet_onPark system.ledger _ deltaRef)
  | gone _ _ => exact kept.quiet (Ledger.quiet_onGone system.ledger _)
  | restored _ => exact ⟨minted, kept.recorded, kept.unborn⟩
  | forgot grantUID session => exact kept.quiet (Ledger.quiet_forgetSession system.ledger _ _)
  | setFiberW fiberID bytes => exact kept.quiet (Ledger.quiet_setFiberW system.ledger _ _)
  | setPooled grantUID count => exact kept.quiet (Ledger.quiet_setPooled system.ledger _ _)

/-- A Park's `OnPark` finds its fiber in the ledger. -/
def parksRecorded (home : Home) (_ : Nat) (action : Act) (_ : Answer) : Bool :=
  match action with
  | .onPark fiberID _ => (home.ledger.fibers.get fiberID).isSome
  | _ => true

def Ledger.Parks (id deltaRef : String) (before after : Ledger) : Prop :=
  ∃ ref session, before.fibers.get id = some ref ∧ before.sessions.get ref.sessionKey = some session ∧
    session.state = .running ∧ session.handle.id = id ∧
    after.sessions.get ref.sessionKey =
      some { session with state := .parked, deltaRef := deltaRef, handle := {} }

def parkRely (parker : Nat) (id deltaRef : String) : Nat → Home → Act → Answer → Home → Prop :=
  fun mover home action answer next =>
    home.Ok ∧ (∃ result, home.perform mover action answer = some (result, next)) ∧
      parksRecorded home mover action answer = true ∧
      ¬(mover = parker ∧ action = .onPark id deltaRef ∧
        Ledger.Parks id deltaRef home.ledger next.ledger)

variable {home next : Home}

theorem fiberKept_of_session (ok : home.Ok) (named : home.ledger.fiberSession id ≠ "") :
    ∃ key, key ≠ "" ∧ FiberKept id key home.system := by
  unfold Ledger.fiberSession at named
  split at named
  · rename_i ref known
    obtain ⟨same, _, minted⟩ := ok.sound.recorded id ref known
    refine ⟨ref.sessionKey, ?_, ⟨ref.fence, same.symm, minted⟩, ?_, ?_⟩
    · intro bare
      simp [bare] at named
    · intro other got
      rw [known, Option.some.injEq] at got
      rw [got]
    · intro clone res opening fresh uncommitted mine
      have gone := ok.sound.unrecorded clone res opening fresh uncommitted
      rw [mine] at gone
      simp [known] at gone
  · exact (named rfl).elim

theorem parks_of_kept {thread : Nat}
    {answer : Answer} {told : (Act.onPark id deltaRef).Result} (ok : home.Ok) (named : key ≠ "")
    (kept : FiberKept id key home.system) (noted : (home.ledger.fibers.get id).isSome = true)
    (ran : home.perform thread (.onPark id deltaRef) answer = some (told, next)) :
    Ledger.Parks id deltaRef home.ledger next.ledger := by
  obtain ⟨ref, known⟩ := Option.isSome_iff_exists.mp noted
  have mine := kept.recorded ref known
  obtain ⟨session, here, runs, _, handle⟩ :=
    ok.runs.recorded id ref known (mine ▸ named)
  have after := Option.some.inj (Home.perform_plain ran rfl)
  refine ⟨ref, session, known, here, runs, handle, ?_⟩
  rw [Home.ledger, ← after]
  change (home.ledger.onPark id deltaRef).1.sessions.get ref.sessionKey = _
  rw [Ledger.onPark_known deltaRef known]
  simp [mine ▸ named, here]

section Outline

variable {config : HomeConfig} {thread : Nat} {id deltaRef : String}

theorem fiberKept_kept (key : String) :
    KeptBy (parkRely thread id deltaRef) fun home => FiberKept id key home.system := by
  rintro mover home action answer next ⟨ok, ⟨out, ran⟩, _, _⟩ kept
  rcases Home.perform_books ran with ⟨op, done, _⟩ | ⟨same, books⟩
  · exact kept.apply ok.sound done
  · rw [same]
    exact kept.quiet books.quiet

theorem named_kept : KeptBy (parkRely thread id deltaRef) fun home => ∃ key, key ≠ "" ∧
      FiberKept id key home.system := by
  rintro mover home action answer next moved ⟨key, named, kept⟩
  exact ⟨key, named, fiberKept_kept key mover home action answer next moved kept⟩

theorem always_kept (fact : Prop) : KeptBy (parkRely thread id deltaRef) fun _ => fact :=
  fun _ _ _ _ _ _ has => has

def NotParked (deltaRef : String) (outcome : Outcome) : Prop :=
  ∀ published, outcome ≠ .parked deltaRef published .ok none

theorem parkHeld_outline (fence : Fence) (sync : Bool) :
    Outline (homeKernel config) (parkRely thread id deltaRef) thread
      (Call.parkHeld config fence id sync)
      (fun home => ∃ key, key ≠ "" ∧ FiberKept id key home.system)
      fun outcome _ => NotParked deltaRef outcome := by
  refine outline_past named_kept _ fun stored => ?_
  by_cases refused : stored.1 = ""
  · simp only [refused, if_true]
    split <;> exact fun _ _ _ => by simp
  · simp only [refused, if_false]
    refine outline_act (fun _ _ => stored.1 ≠ deltaRef) (fun _ => (always_kept _).stable) ?_ ?_
    · rintro home answer told next ⟨key, named, kept⟩ ran ⟨ok, _, noted, apart⟩ rfl
      have done : home.perform thread (.onPark id stored.1) answer = some (told, next) := ran
      exact apart ⟨rfl, rfl, parks_of_kept ok named kept noted done⟩
    · intro gone
      refine outline_past (always_kept _) _ fun level => ?_
      refine outline_past (always_kept _) _ fun audited => ?_
      refine outline_past (always_kept _) _ fun published => ?_
      have answers : ∀ home : Home, stored.1 ≠ deltaRef →
          NotParked deltaRef (Call.parkAnswer stored.1 published audited stored.2) := by
        intro _ other shown
        unfold Call.parkAnswer
        repeat' split
        all_goals simp [other]
      split
      · exact outline_past (always_kept _) _ fun _ => answers
      · exact answers

theorem park_outline (sync : Bool) :
    Outline (homeKernel config) (parkRely thread id deltaRef) thread (Call.park config id sync)
      (fun _ => True) fun outcome _ => NotParked deltaRef outcome := by
  refine outline_past (always_kept True) _ fun got => ?_
  cases got with
  | none => exact fun _ _ _ => by simp
  | some fence =>
    refine outline_act (fun session home => session ≠ "" → ∃ key, key ≠ "" ∧
      FiberKept id key home.system) ?_ ?_ ?_
    · intro session
      by_cases named : session = ""
      · simpa [named] using (always_kept True).stable
      · simpa [named] using named_kept.stable
    · intro home answer session next _ ran moved named
      cases ran
      exact fiberKept_of_session moved.1 named
    · intro session
      by_cases named : session = ""
      · simp only [named, if_true]
        exact fun _ _ _ => by simp
      · simp only [named, if_false, ne_eq, not_false_eq_true, true_implies]
        refine outline_past named_kept _ fun held => ?_
        split
        · exact fun _ _ _ => by simp
        · refine outline_past named_kept _ fun _ => ?_
          refine (parkHeld_outline fence sync).bind fun outcome => ?_
          exact outline_past (always_kept _) _ fun _ => fun _ other => other

end Outline

def Ledger.RunsAs (ledger : Ledger) (id uid name : String) : Prop :=
  ∃ session, ledger.sessions.get (sessionKey uid name) = some session ∧
    session.state = .running ∧ session.handle.id = id

def Ledger.ParkedAt (ledger : Ledger) (uid name deltaRef : String) : Prop :=
  (∃ session, ledger.sessions.get (sessionKey uid name) = some session ∧
    session.state = .parked ∧ session.deltaRef = deltaRef) ∧
  ∀ tier now resolution next, ledger.resolveHeld uid name tier now = .ok (resolution, next) →
    resolution.act = .resume ∧ resolution.ref = deltaRef

theorem Ledger.parkedAt_of_session {ledger : Ledger} {session : Session} (named : name ≠ "")
    (here : ledger.sessions.get (sessionKey uid name) = some session)
    (parked : session.state = .parked) (same : session.deltaRef = deltaRef) :
    ledger.ParkedAt uid name deltaRef := by
  refine ⟨⟨session, here, parked, same⟩, ?_⟩
  intro tier now res next resolved
  rcases resolveHeld_present named here resolved with attaches | resumes
  · obtain ⟨_, _, ⟨minted, _⟩ | ⟨_, _, got, known, runs, _⟩⟩ := resolveHeld_ok resolved
    · exact (minted.notAttach attaches).elim
    · rw [here, Option.some.injEq] at known
      rw [← known, parked] at runs
      cases runs
  · exact ⟨resumes.1, resumes.2.trans same⟩

/-- A Clone of the session commits, or the session is forgotten. -/
def rewrites (uid name : String) (home : Home) (thread : Nat) : Act → Bool
  | .commitHeld _ _ => (home.system.resolved.get thread).any fun resolution =>
    decide (resolution.key = sessionKey uid name)
  | .forgetSession other session => decide (sessionKey other session = sessionKey uid name)
  | _ => false

theorem parkedAt_moved {thread : Nat} {action : Act} {answer : Answer}
    {out : action.Result} (ok : home.Ok) (named : name ≠ "")
    (parked : home.ledger.ParkedAt uid name deltaRef)
    (plain : rewrites uid name home thread action = false)
    (ran : home.perform thread action answer = some (out, next)) :
    next.ledger.ParkedAt uid name deltaRef := by
  obtain ⟨⟨session, here, state, same⟩, _⟩ := parked
  -- a parked session has no fiber that could end
  have fiberless : ∀ fiberID ref, home.ledger.fibers.get fiberID = some ref →
      ref.sessionKey ≠ sessionKey uid name := by
    intro fiberID ref known mine
    obtain ⟨other, there, runs, _⟩ :=
      ok.runs.recorded fiberID ref known (mine ▸ sessionKey_ne_empty uid name)
    rw [mine] at there
    cases here.symm.trans there
    simp [state] at runs
  have record := Home.perform_record ran (sessionKey uid name)
  generalize equal : next.ledger.sessions.get (sessionKey uid name) = after at record
  cases record with
  | same => exact Ledger.parkedAt_of_session named (equal.trans here) state same
  | born got _ _ mine => simp [rewrites, got, mine] at plain
  | parked known mine _ | released known mine | exited known mine =>
    exact (fiberless _ _ known mine).elim
  | forgot mine => simp [rewrites, mine] at plain
  | restored _ _ gone => simp [here] at gone

/-- At a step of the call the session its fiber runs is parked with the delta, and it stays so
until a Clone of it commits or it is forgotten, whatever else is done. -/
def ParkLands (config : HomeConfig) (first : HomeThreads) (events : List HomeEvent)
    (thread : Nat) (id deltaRef : String) : Prop :=
  ∃ front answer back before after uid name,
    events = front ++ .act thread answer :: back ∧
    (homeKernel config).machine.exec first front = some before ∧
    (homeKernel config).machine.step before (.act thread answer) = some after ∧
    before.shared.ledger.RunsAs id uid name ∧ after.shared.ledger.ParkedAt uid name deltaRef ∧
    ∀ later rest last, back = later ++ rest →
      (homeKernel config).machine.exec after later = some last →
      (homeKernel config).machine.Meets (Kernel.Allows fun home mover action _ =>
        !rewrites uid name home mover action) after later →
        last.shared.ledger.ParkedAt uid name deltaRef

section Runs

variable {config : HomeConfig} {before next final : HomeThreads} {events : List HomeEvent}
  {thread : Nat} {id deltaRef : String}

theorem parkedAt_step {uid name : String} {event : HomeEvent} (named : name ≠ "")
    (reached : (homeKernel config).machine.Reachable before)
    (parked : before.shared.ledger.ParkedAt uid name deltaRef)
    (plain : Kernel.Allows (fun home mover action _ => !rewrites uid name home mover action)
      before event)
    (took : (homeKernel config).machine.step before event = some next) :
    next.shared.ledger.ParkedAt uid name deltaRef := by
  cases event with
  | start other call =>
    obtain ⟨_, rfl⟩ := Kernel.step_start took
    exact parked
  | act mover answer =>
    obtain ⟨action, rest, out, shared, running, ran, rfl⟩ := Kernel.step_act took
    simp only [Kernel.Allows, running] at plain
    exact parkedAt_moved (home_ok reached) named parked (by simpa using plain) ran

theorem parkLands_of_parks {front back : List HomeEvent} {answer : Answer}
    {early late : HomeThreads} (reached : (homeKernel config).machine.Reachable early)
    (run : (homeKernel config).machine.exec next front = some early)
    (took : (homeKernel config).machine.step early (.act thread answer) = some late)
    (parks : Ledger.Parks id deltaRef early.shared.ledger late.shared.ledger) :
    ParkLands config next (front ++ .act thread answer :: back) thread id deltaRef := by
  obtain ⟨ref, session, _, here, runs, handle, parked⟩ := parks
  obtain ⟨keyed, plain⟩ := Home.recordsNamed_of_reachable reached _ _ here
  rw [keyed] at here parked
  have lands : late.shared.ledger.ParkedAt session.grantUID session.name deltaRef :=
    Ledger.parkedAt_of_session (plain runs) parked rfl rfl
  refine ⟨front, answer, back, early, late, session.grantUID, session.name, rfl, run, took,
    ⟨session, here, runs, handle⟩, lands, ?_⟩
  intro later rest last _ onward meets
  have kept : (homeKernel config).machine.Reachable last ∧ _ :=
    exec_keeps_of_meets (fun threads event after
        (has : (homeKernel config).machine.Reachable threads ∧
          threads.shared.ledger.ParkedAt session.grantUID session.name deltaRef) allows stepped =>
      ⟨has.1.next stepped, parkedAt_step (plain runs) has.1 has.2 allows stepped⟩)
      ⟨reached.next took, lands⟩ meets onward
  exact kept.2

theorem park_keeps_session {sync published : Bool}
    (reached : (homeKernel config).machine.Reachable before)
    (starts : (homeKernel config).machine.step before (.start thread (.park id sync)) = some next)
    (recorded : (homeKernel config).machine.Meets (Kernel.Allows parksRecorded) next events)
    (run : (homeKernel config).machine.exec next events = some final)
    (answered : answerOf final thread = some (.parked deltaRef published .ok none)) :
    ParkLands config next events thread id deltaRef := by
  by_contra never
  have relies : (homeKernel config).machine.Meets
      (Relies (homeKernel config) (parkRely thread id deltaRef)) next events := by
    refine meets_of_splits ?_
    intro front event back early split ran
    subst events
    have here := (reached.next starts).trans ran
    have allows := (recorded.back ran).1
    cases event with
    | start other call => trivial
    | act mover answer =>
      intro action rest result shared running performed
      simp only [Kernel.Allows, running] at allows
      refine ⟨home_ok here, ⟨result, performed⟩, allows, ?_⟩
      rintro ⟨rfl, rfl, parks⟩
      exact never (parkLands_of_parks here ran (Kernel.step_of_perform running performed) parks)
  have outlined : Outlined (homeKernel config) (parkRely thread id deltaRef) thread
      (fun outcome _ => NotParked deltaRef outcome) next :=
    outlined_start starts (park_outline sync)
  exact (outlined.run relies run).post (answerOf_eq_some.mp answered) published rfl

end Runs

def clonedThreads : HomeThreads :=
  ((homeKernel {}).machine.exec emptyThreads clonedRun).getD emptyThreads

def parkingThreads : HomeThreads :=
  ((homeKernel {}).machine.step clonedThreads (.start 2 (.park "g/1/1" false))).getD clonedThreads

theorem clonedThreads_reached : (homeKernel {}).machine.Reachable clonedThreads :=
  reached_of_run emptyThreads_start (by decide +kernel)

theorem parkingThreads_starts :
    (homeKernel {}).machine.step clonedThreads (.start 2 (.park "g/1/1" false)) =
      some parkingThreads := by
  have starts : ((homeKernel {}).machine.step clonedThreads
      (.start 2 (.park "g/1/1" false))).isSome = true := by
    decide +kernel
  obtain ⟨threads, took⟩ := Option.isSome_iff_exists.mp starts
  simp [parkingThreads, took]

def storeAnswers : List Answer := List.replicate 5 (.flag true) ++ [.parked "r" none]

def parkedRun : List HomeEvent := answered 2 (storeAnswers ++ List.replicate 5 (.flag true))

theorem lands_of_parkedRun :
    ((homeKernel {}).machine.exec parkingThreads parkedRun).map (fun threads =>
      answerOf threads 2) = some (some (.parked "r" false .ok none)) ∧
    ParkLands {} parkingThreads parkedRun 2 "g/1/1" "r" := by
  have answers : ((homeKernel {}).machine.exec parkingThreads parkedRun).map (fun threads =>
      answerOf threads 2) = some (some (.parked "r" false .ok none)) := by
    decide +kernel
  refine ⟨answers, ?_⟩
  obtain ⟨threads, run, told⟩ := Option.map_eq_some_iff.mp answers
  exact park_keeps_session clonedThreads_reached parkingThreads_starts (by decide +kernel) run told

/-- A yield takes the fiber out between the runtime's park and `OnPark`. -/
def lostRun : List HomeEvent :=
  answered 2 storeAnswers ++ .start 3 (.yield "g" "") :: answered 3 (List.replicate 9 (.flag true)) ++
    answered 2 (List.replicate 5 (.flag true))

theorem lostRun_unnamed : ∀ count ≤ 21,
    ((homeKernel {}).machine.exec parkingThreads (lostRun.take count)).all (fun threads =>
      threads.shared.ledger.sessions.rows.all fun row => decide (row.2.deltaRef ≠ "r")) = true := by
  decide +kernel

/-- The Park answers OK, and at no moment does a session name its delta. -/
theorem park_loses_session :
    ((homeKernel {}).machine.exec parkingThreads lostRun).map (fun threads =>
      answerOf threads 2) = some (some (.parked "r" false .ok none)) ∧
    ¬ParkLands {} parkingThreads lostRun 2 "g/1/1" "r" := by
  refine ⟨by decide +kernel, ?_⟩
  rintro ⟨front, answer, back, before, after, uid, name, split, run, taken, _,
    ⟨⟨session, present, _, names⟩, _⟩, _⟩
  have prior : lostRun.take (front.length + 1) = front ++ [.act 2 answer] := by
    rw [split, List.take_length_add_append]
    rfl
  have bound : front.length + 1 ≤ 21 := by
    have length : lostRun.length = 21 := by decide
    rw [split, List.length_append, List.length_cons] at length
    omega
  have unnamed := lostRun_unnamed (front.length + 1) bound
  rw [prior, exec_snoc run taken, Option.all_some, List.all_eq_true] at unnamed
  have other := unnamed _ ((mem_rows_iff _ _ _).mpr present)
  simp [names] at other

end Fiberd
