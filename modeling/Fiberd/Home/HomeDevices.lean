import Fiberd.Home.HomeDeliveries
import Fiberd.Lib.Custody

/-!
The device channels of a home.  An admission keeps its channel before it lets the
grant in, a revocation takes the grant out before it drops the channel, and the two
go by different locks; a channel has one keeper all the same.
-/

namespace Fiberd

open Heaps Tables Programs Machines LedgerSystem

/-- A yield revokes while no admission of its UID is under way, and none is entered until it
returns.  Of a UID that has a channel it revokes only where that is not `strict`. -/
def devicesApart (strict : Bool) (home : Home) (_ : Nat) (action : Act) (_ : Answer) : Bool :=
  match action with
  | .revokeGrant uid =>
    (home.admitting.get uid).isNone && (!strict || (home.devices.get uid).isNone)
  | .enterAdmission uid => !home.yields uid
  | _ => true

structure ChannelsKept (provisions strict : Bool) (home : Home) (holds : Nat → Local)
    (courses : Nat → Course) : Prop where
  inStep : ∀ thread, InStep (holds thread) (courses thread)
  custody : Custody.Kept home.devices home.provisioned fun thread => (courses thread).channel
  window : ∀ thread uid, (courses thread).revoked = some uid →
    (∃ mark, home.yielding.get thread = some (uid, mark)) ∧
      home.ledger.grants.get uid = none ∧ home.admitting.get uid = none
  empty : strict = true → ∀ thread uid, (courses thread).revoked = some uid →
    home.devices.get uid = none
  admitted : provisions = true → ∀ uid, home.ledger.grants.get uid ≠ none →
    home.devices.get uid ≠ none
  kept : ∀ thread uid, (courses thread).stage = .entered uid true → home.devices.get uid ≠ none
  idle : ∀ uid, home.devices.get uid ≠ none → home.ledger.grants.get uid ≠ none ∨
    (∃ thread, (courses thread).stage = .entered uid true) ∨
      ∃ thread, (courses thread).revoked = some uid

section Moves

variable {home next : Home} {holds : Nat → Local} {courses : Nat → Course} {thread : Nat}
  {action : Act} {answer : Answer} {result : action.Result} {now : Course} {provisions strict : Bool}

theorem custody_moved
    (custody : Custody.Kept home.devices home.provisioned fun other => (courses other).channel)
    (moves : (courses thread).Step provisions action result now)
    (ran : home.perform thread action answer = some (result, next)) :
    Custody.Kept next.devices next.provisioned fun other =>
      (Function.update courses thread now other).channel := by
  change Custody.Kept _ _ (Course.channel ∘ Function.update courses thread now)
  rw [Function.comp_update]
  have unmoved : Custody.Kept home.devices home.provisioned
      (Function.update (Course.channel ∘ courses) thread (courses thread).channel) := by
    rw [← Function.comp_update, Function.update_eq_self]
    exact custody
  by_cases plain : action.touchesDevices = false
  · obtain ⟨devices, provisioned⟩ := (Home.perform_frame ran).devices plain
    rw [devices, provisioned, moves.channel_eq plain]
    exact unmoved
  · cases moves with
    | unprovisioned =>
      simp only [Home.perform] at ran
      split at ran
      · cases ran
      · cases ran
        exact unmoved
      · cases ran
    | provisioned _ free =>
      simp only [Home.perform] at ran
      split at ran
      · cases ran
        exact custody.make free
      · cases ran
      · cases ran
    | @keeps uid _ _ _ inHand =>
      cases ran
      exact custody.put uid inHand
    | @drops uid _ _ free =>
      cases ran
      exact custody.take uid free
    | releases inHand =>
      cases ran
      exact custody.spend inHand
    | aside aside =>
      cases action with
      | _ =>
        first
        | (simp [Act.touchesDevices] at plain; done)
        | simp [Act.aside] at aside
    | _ => simp [Act.touchesDevices] at plain

theorem Home.perform_yielding {other : Nat} (apart : other ≠ thread)
    (ran : home.perform thread action answer = some (result, next)) :
    next.yielding.get other = home.yielding.get other := by
  by_cases plain : action.touchesYielding = false
  · rw [(Home.perform_frame ran).yielding plain]
  · cases action with
    | revokeGrant uid =>
      rw [(Home.perform_revokes ran).2]
      exact get_put_other _ _ apart
    | yielded =>
      cases ran
      exact get_drop_other _ apart
    | _ => exact (plain rfl).elim

variable {course : Course} {uid : String}

theorem InStep.admitting {held : Local}
    (inStep : InStep held course) (stands : LocalAt thread held home)
    (inside : course.stage.uid? = some uid) : home.admitting.get uid ≠ none := by
  obtain ⟨channel, passed, slot⟩ := inStep uid inside
  have placed := stands.slot
  rw [slot] at placed
  simp [placed.1]

/-- Who is between a revoke and its drop after the step was so before it, or revokes in it. -/
theorem Course.revoked_after (turn : (courses thread).after provisions action result = some now)
    {other : Nat} {uid : String}
    (revoked : (Function.update courses thread now other).revoked = some uid) :
    (other ≠ thread ∧ (courses other).revoked = some uid) ∨
      other = thread ∧ action = .revokeGrant uid := by
  by_cases same : other = thread
  · refine .inr ⟨same, ?_⟩
    subst other
    rw [Function.update_self] at revoked
    have moves := Course.after_step turn
    cases old : (courses thread).revoked with
    | some pending =>
      obtain rfl := Course.only_drops old turn
      cases moves with
      | aside aside => simp [Act.aside] at aside
      | drops _ _ => simp at revoked
    | none =>
      cases moves with
      | revokes _ => rw [Option.some.inj revoked]
      | drops earlier _ => simp [old] at earlier
      | _ => simp [old] at revoked
  · rw [Function.update_of_ne same] at revoked
    exact .inl ⟨same, revoked⟩

theorem ChannelsKept.window_moved (kept : ChannelsKept provisions strict home holds courses)
    (stands : ∀ other, LocalAt other (holds other) home)
    (turn : (courses thread).after provisions action result = some now)
    (may : devicesApart strict home thread action answer = true)
    (ran : home.perform thread action answer = some (result, next)) (other : Nat)
    (uid : String) (revoked : (Function.update courses thread now other).revoked = some uid) :
    (∃ mark, next.yielding.get other = some (uid, mark)) ∧
      next.ledger.grants.get uid = none ∧ next.admitting.get uid = none := by
  obtain ⟨same, earlier⟩ | ⟨rfl, rfl⟩ := Course.revoked_after turn revoked
  · obtain ⟨⟨mark, yielding⟩, unknown, free⟩ := kept.window other uid earlier
    refine ⟨⟨mark, by rw [Home.perform_yielding same ran, yielding]⟩, ?_, ?_⟩
    · rcases Home.perform_grants ran uid with unmoved | ⟨grant, rfl, mine, _⟩ | ⟨_, gone⟩
      · rw [unmoved, unknown]
      · cases Course.after_step turn with
        | aside aside => simp [Act.aside] at aside
        | admits slot _ =>
          exact ((kept.inStep thread).admitting (stands thread)
            (by simp [slot, Stage.uid?, mine]) free).elim
      · exact gone
    · rcases Home.perform_admitting ran uid with unmoved | rfl | out
      · rw [unmoved, free]
      · simp [devicesApart, Home.yields_of_get yielding] at may
      · exact out
  · obtain ⟨grants, yielding⟩ := Home.perform_revokes ran
    simp only [devicesApart, Bool.and_eq_true, Option.isNone_iff_eq_none] at may
    refine ⟨⟨_, by rw [yielding, get_put_same]⟩, by simp [grants], ?_⟩
    rcases Home.perform_admitting ran uid with unmoved | entered | out
    · rw [unmoved, may.1]
    · simp at entered
    · exact out

theorem Home.perform_devices (ran : home.perform thread action answer = some (result, next))
    (uid : String) : next.devices.get uid = home.devices.get uid ∨
      (∃ channel, action = .keepChannel uid channel ∧ next.devices.get uid ≠ none) ∨
      action = .dropChannel uid ∧ next.devices.get uid = none := by
  by_cases plain : action.touchesDevices = false
  · exact .inl (by rw [((Home.perform_frame ran).devices plain).1])
  · cases action with
    | provision provisioned =>
      simp only [perform] at ran
      split at ran
      · cases ran
        exact .inl rfl
      · cases ran
        exact .inl rfl
      · cases ran
    | keepChannel kept channel =>
      cases ran
      by_cases mine : uid = kept
      · subst kept
        exact .inr (.inl ⟨channel, rfl, by simp⟩)
      · exact .inl (get_put_other _ _ mine)
    | dropChannel dropped =>
      cases ran
      by_cases mine : uid = dropped
      · subst dropped
        exact .inr (.inr ⟨rfl, by simp⟩)
      · exact .inl (get_drop_other _ mine)
    | releaseChannel channel =>
      cases ran
      exact .inl rfl
    | _ => exact (plain rfl).elim

theorem ChannelsKept.empty_moved (kept : ChannelsKept provisions strict home holds courses)
    (stands : ∀ other, LocalAt other (holds other) home)
    (turn : (courses thread).after provisions action result = some now)
    (may : devicesApart strict home thread action answer = true)
    (ran : home.perform thread action answer = some (result, next)) (isStrict : strict = true)
    (other : Nat) (uid : String)
    (revoked : (Function.update courses thread now other).revoked = some uid) :
    next.devices.get uid = none := by
  have stays (out : home.admitting.get uid = none) (empty : home.devices.get uid = none) :
      next.devices.get uid = none := by
    rcases Home.perform_devices ran uid with unmoved | ⟨channel, rfl, _⟩ | ⟨_, gone⟩
    · rw [unmoved, empty]
    · cases Course.after_step turn with
      | aside aside => simp [Act.aside] at aside
      | keeps slot _ =>
        exact ((kept.inStep thread).admitting (stands thread)
          (by simp [slot, Stage.uid?]) out).elim
    · exact gone
  obtain ⟨same, earlier⟩ | ⟨rfl, rfl⟩ := Course.revoked_after turn revoked
  · exact stays (kept.window other uid earlier).2.2 (kept.empty isStrict other uid earlier)
  · simp only [devicesApart, isStrict, Bool.not_true, Bool.false_or, Bool.and_eq_true,
      Option.isNone_iff_eq_none] at may
    exact stays may.1 may.2

theorem Home.perform_admits {grant : Grant} {done : (Act.admitGrant grant).Result}
    (ran : home.perform thread (.admitGrant grant) answer = some (done, next)) :
    next.ledger.grants.get grant.uid ≠ none := by
  simp only [perform, op, LedgerSystem.apply, Option.map_some] at ran
  cases ran
  simp only [LedgerSystem.withLedger, Ledger.admitGrant]
  split
  · rename_i known
    simp [known]
  · simp

theorem Course.Step.kept_before
    (step : course.Step provisions action result now) (place : now.stage = .entered uid true) :
    course.stage = .entered uid true ∨ ∃ channel, action = .keepChannel uid channel := by
  cases step with
  | @keeps kept channel _ _ _ =>
    simp only [Stage.entered.injEq, and_true] at place
    exact .inr ⟨channel, by rw [place]⟩
  | aside _ | waits | unprovisioned | provisioned _ _ | drops _ _ | releases _ | registers _ =>
    exact .inl place
  | _ => simp at place

theorem Course.Step.kept_after
    (step : course.Step provisions action result now) (place : course.stage = .entered uid true) :
    now.stage = .entered uid true ∨ ∃ grant, action = .admitGrant grant ∧ grant.uid = uid := by
  cases step with
  | @admits grant slot _ =>
    rw [place, Stage.entered.injEq] at slot
    exact .inr ⟨grant, rfl, slot.1.symm⟩
  | enters out => simp [place] at out
  | keeps slot _ | takes slot | restores slot | leaves slot _ => simp [place] at slot
  | revokes idle => simp [idle] at place
  | _ => exact .inl place

theorem ChannelsKept.moved {later : Local} (kept : ChannelsKept provisions strict home holds courses)
    (stands : ∀ other, LocalAt other (holds other) home)
    (follows : (holds thread).after action result = some later)
    (turn : (courses thread).after provisions action result = some now)
    (may : devicesApart strict home thread action answer = true)
    (ran : home.perform thread action answer = some (result, next)) :
    ChannelsKept provisions strict next (Function.update holds thread later)
      (Function.update courses thread now) := by
  have moves := Course.after_step turn
  refine ⟨?_, custody_moved kept.custody moves ran,
    kept.window_moved stands turn may ran, kept.empty_moved stands turn may ran, ?_, ?_, ?_⟩
  · intro other
    by_cases same : other = thread
    · subst other
      simpa using (kept.inStep thread).after follows moves
    · simpa [same] using kept.inStep other
  · intro provides uid admitted
    have old : home.devices.get uid ≠ none := by
      rcases Home.perform_grants ran uid with unmoved | ⟨grant, rfl, mine, _⟩ | ⟨_, gone⟩
      · exact kept.admitted provides uid (unmoved ▸ admitted)
      · cases moves with
        | aside aside => simp [Act.aside] at aside
        | admits slot _ => exact kept.kept thread uid (by rw [slot, mine, provides])
      · exact (admitted gone).elim
    rcases Home.perform_devices ran uid with unmoved | ⟨_, _, held⟩ | ⟨rfl, _⟩
    · rwa [unmoved]
    · exact held
    · -- A channel is dropped only while its UID is out.
      cases moves with
      | aside aside => simp [Act.aside] at aside
      | drops revoked _ =>
        have unmoved := Home.perform_grants ran uid
        simp only [reduceCtorEq, false_and, exists_false, or_false] at unmoved
        exact (admitted (by rw [unmoved, (kept.window thread uid revoked).2.1])).elim
  · intro other uid place
    have inside : (∃ channel, action = .keepChannel uid channel) ∨
        (courses other).stage = .entered uid true := by
      by_cases same : other = thread
      · subst other
        rw [Function.update_self] at place
        exact (moves.kept_before place).symm
      · rw [Function.update_of_ne same] at place
        exact .inr place
    rcases Home.perform_devices ran uid with unmoved | ⟨_, _, held⟩ | ⟨rfl, _⟩
    · rcases inside with ⟨channel, rfl⟩ | entered
      · cases ran
        simp
      · rw [unmoved]
        exact kept.kept other uid entered
    · exact held
    · rcases inside with ⟨channel, impossible⟩ | entered
      · simp at impossible
      · cases moves with
        | aside aside => simp [Act.aside] at aside
        | drops revoked _ =>
          have free := (kept.window thread uid revoked).2.2
          exact ((kept.inStep other).admitting (stands other)
            (by simp [entered, Stage.uid?]) free).elim
  · intro uid held
    -- A call that has kept the channel has it until the grant is let in.
    have keeper : (∃ other, (courses other).stage = .entered uid true) →
        next.ledger.grants.get uid ≠ none ∨
          ∃ other, (Function.update courses thread now other).stage = .entered uid true := by
      rintro ⟨other, place⟩
      by_cases same : other = thread
      · subst other
        rcases moves.kept_after place with stays | ⟨grant, rfl, mine⟩
        · exact .inr ⟨thread, by rw [Function.update_self, stays]⟩
        · exact .inl (mine ▸ Home.perform_admits ran)
      · exact .inr ⟨other, by rw [Function.update_of_ne same, place]⟩
    have known : home.devices.get uid ≠ none ∨ ∃ channel, action = .keepChannel uid channel := by
      rcases Home.perform_devices ran uid with unmoved | ⟨channel, keeps, _⟩ | ⟨_, gone⟩
      · exact .inl (unmoved ▸ held)
      · exact .inr ⟨channel, keeps⟩
      · exact (held gone).elim
    rcases known with old | ⟨channel, rfl⟩
    · rcases kept.idle uid old with admitted | kept_ | ⟨other, revoked⟩
      · rcases Home.perform_grants ran uid with unmoved | ⟨_, _, _, known⟩ | ⟨rfl, _⟩
        · exact .inl (unmoved ▸ admitted)
        · exact .inl known
        · cases moves with
          | aside aside => simp [Act.aside] at aside
          | revokes _ => exact .inr (.inr ⟨thread, by simp⟩)
      · rcases keeper kept_ with admitted | place
        · exact .inl admitted
        · exact .inr (.inl place)
      · right
        right
        by_cases same : other = thread
        · subst other
          obtain rfl := Course.only_drops revoked turn
          cases ran
          simp at held
        · exact ⟨other, by rw [Function.update_of_ne same, revoked]⟩
    · cases moves with
      | aside aside => simp [Act.aside] at aside
      | keeps _ _ => exact .inr (.inl ⟨thread, by simp⟩)

theorem Home.perform_spent {channel : Nat}
    (spent : channel < home.provisioned.size ∧ home.provisioned.read channel = true)
    (ran : home.perform thread action answer = some (result, next)) :
    channel < next.provisioned.size ∧ next.provisioned.read channel = true := by
  by_cases plain : action.touchesDevices = false
  · rw [((Home.perform_frame ran).devices plain).2]
    exact spent
  · cases action with
    | provision provisioned =>
      simp only [perform] at ran
      split at ran
      · cases ran
        refine ⟨?_, by rw [read_alloc_old _ _ spent.1, spent.2]⟩
        rw [size_alloc]
        omega
      · cases ran
        exact spent
      · cases ran
    | releaseChannel released =>
      cases ran
      refine ⟨by simpa using spent.1, ?_⟩
      rw [read_write]
      split
      · rfl
      · exact spent.2
    | keepChannel kept channel | dropChannel dropped =>
      cases ran
      exact spent
    | _ => exact (plain rfl).elim

end Moves

def channelLayer (config : HomeConfig) (strict : Bool) :
    Layer ((homeProtocol config).guard (devicesApart strict)) Course where
  idle := {}
  after := Course.after config.provisions
  inv := ChannelsKept config.provisions strict
  moved := by
    intro home holds courses thread action answer result next later now _ stands kept follows turn
      ran
    obtain ⟨may, done⟩ := Kernel.guarded_perform ran
    exact kept.moved stands follows turn may done
  ends _ later := later = {}
  bodies := HomeCall.body_keeps config

theorem newHome_channels (provisions strict : Bool) (epoch : Nat) (revoked : Option Revoked) :
    ChannelsKept provisions strict (newHome epoch revoked) (fun _ => {}) fun _ => {} := by
  refine ⟨?_, ⟨?_, ?_, ?_, ?_, ?_, ?_⟩, ?_, ?_, ?_, ?_, ?_⟩ <;>
    simp [InStep, Stage.uid?, newHome, newSystem, newLedger, Custody.Unspent, Heap.empty]

def releasing (threads : HomeThreads) (thread : Nat) : Option Nat :=
  match threads.programs.get thread with
  | some (.call (.releaseChannel channel) _) => some channel
  | _ => none

def dropping (threads : HomeThreads) (thread : Nat) : Option String :=
  match threads.programs.get thread with
  | some (.call (.dropChannel uid) _) => some uid
  | _ => none

variable {threads : HomeThreads}

theorem releasing_eq_some {thread channel : Nat} : releasing threads thread = some channel ↔
      ∃ rest, threads.programs.get thread = some (.call (.releaseChannel channel) rest) := by
  unfold releasing
  constructor
  · intro about
    split at about <;> cases about
    rename_i got rest runs
    exact ⟨rest, runs⟩
  · rintro ⟨rest, runs⟩
    simp [runs]

theorem dropping_eq_some {thread : Nat} {uid : String} : dropping threads thread = some uid ↔
      ∃ rest, threads.programs.get thread = some (.call (.dropChannel uid) rest) := by
  unfold dropping
  constructor
  · intro about
    split at about <;> cases about
    rename_i got rest runs
    exact ⟨rest, runs⟩
  · rintro ⟨rest, runs⟩
    simp [runs]

structure DevicesKept (config : HomeConfig) (first : HomeThreads) (events : List HomeEvent) :
    Prop where
  once : ∀ early late before after one other answer reply channel,
    (homeKernel config).machine.Takes first events early before (.act one answer) →
    (homeKernel config).machine.Takes first events late after (.act other reply) →
    releasing before one = some channel → releasing after other = some channel → early = late
  spared : ∀ index threads thread answer channel uid,
    (homeKernel config).machine.Takes first events index threads (.act thread answer) →
    releasing threads thread = some channel → threads.shared.devices.get uid ≠ some channel
  dropped : ∀ index threads thread answer uid,
    (homeKernel config).machine.Takes first events index threads (.act thread answer) →
    dropping threads thread = some uid → threads.shared.ledger.grants.get uid = none
  admitted : (homeKernel config).machine.Along (fun threads =>
    ∀ uid, threads.shared.ledger.grants.get uid ≠ none →
      ∃ channel, threads.shared.devices.get uid = some channel ∧
        threads.shared.provisioned.read channel = false) first events
  settled : (homeKernel config).machine.Along (fun threads =>
    ∀ uid, threads.shared.ledger.grants.get uid = none →
      threads.shared.admitting.get uid = none → threads.shared.yields uid = false →
        threads.shared.devices.get uid = none) first events

/-- The channels follow their grants, in the middle of a yield too. -/
structure DevicesFollow (config : HomeConfig) (first : HomeThreads) (events : List HomeEvent) :
    Prop extends DevicesKept config first events where
  idle : (homeKernel config).machine.Along (fun threads =>
    ∀ uid, threads.shared.ledger.grants.get uid = none →
      threads.shared.admitting.get uid = none → threads.shared.devices.get uid = none)
    first events

section Runs

variable {config : HomeConfig} {first : HomeThreads} {events : List HomeEvent} {strict : Bool}
  {threads : HomeThreads}

theorem channels_kept (started : (homeKernel config).machine.start first)
    (apart : (homeKernel config).machine.Meets (Kernel.Allows (devicesApart strict)) first events)
    {count : Nat}
    (run : (homeKernel config).machine.exec first (events.take count) = some threads) :
    (channelLayer config strict).Kept threads := by
  have initial : (channelLayer config strict).Kept first := by
    refine Layer.kept_of_start started ?_
    obtain ⟨⟨epoch, revoked, _, fresh⟩, _⟩ := started
    rw [fresh]
    exact newHome_channels config.provisions strict epoch revoked
  exact initial.exec (Kernel.guarded_exec (apart.take count) run)

variable {thread channel : Nat}

theorem Layer.turn_of_running {holds : Nat → Local}
    {courses : Nat → Course} {action : Act} {rest : action.Result → Call Outcome}
    (places : (channelLayer config strict).Places threads holds courses)
    (runs : threads.programs.get thread = some (.call action rest)) (result : action.Result) :
    ∃ now, (courses thread).Step config.provisions action result now := by
  obtain ⟨now, turn, _⟩ := (places.running thread _ runs).2 result
  exact ⟨now, Course.after_step turn⟩

theorem channel_in_hand (started : (homeKernel config).machine.start first)
    (apart : (homeKernel config).machine.Meets (Kernel.Allows (devicesApart strict)) first events)
    {index : Nat} {answer : Answer}
    (takes : (homeKernel config).machine.Takes first events index threads (.act thread answer))
    (about : releasing threads thread = some channel) :
    Custody.Unspent threads.shared.provisioned channel ∧
      ∀ uid, threads.shared.devices.get uid ≠ some channel := by
  obtain ⟨holds, courses, places⟩ := channels_kept started apart takes.1
  obtain ⟨rest, runs⟩ := releasing_eq_some.mp about
  obtain ⟨now, step⟩ := Layer.turn_of_running places runs ()
  have custody := places.inv.custody
  cases step with
  | aside aside => simp [Act.aside] at aside
  | releases inHand =>
    exact ⟨custody.hand thread channel inHand, fun uid => custody.apart thread channel uid inHand⟩

theorem released_stays {early late mid : HomeThreads} {answer : Answer}
    {segment : List HomeEvent} (about : releasing early thread = some channel)
    (unspent : Custody.Unspent early.shared.provisioned channel)
    (took : (homeKernel config).machine.step early (.act thread answer) = some mid)
    (run : (homeKernel config).machine.exec mid segment = some late) :
    late.shared.provisioned.read channel = true := by
  obtain ⟨rest, runs⟩ := releasing_eq_some.mp about
  have spent : channel < mid.shared.provisioned.size ∧
      mid.shared.provisioned.read channel = true := by
    obtain ⟨result, shared, ran, rfl⟩ := Kernel.step_act_call runs took
    cases ran
    exact ⟨by simpa using unspent.1, by simp⟩
  have kept : ∀ (home : Home) thread action answer result next,
      (channel < home.provisioned.size ∧ home.provisioned.read channel = true) →
      (homeKernel config).perform home thread action answer = some (result, next) →
        channel < next.provisioned.size ∧ next.provisioned.read channel = true :=
    fun _ _ _ _ _ _ => Home.perform_spent
  exact (Kernel.exec_shared kept spent run).2

/-- Only a yield has yet to drop the channel of a UID that is out. -/
theorem revoked_of_held {holds : Nat → Local} {courses : Nat → Course} {uid : String}
    (places : (channelLayer config strict).Places threads holds courses)
    (out : threads.shared.ledger.grants.get uid = none)
    (free : threads.shared.admitting.get uid = none)
    (held : threads.shared.devices.get uid ≠ none) :
    ∃ thread, (courses thread).revoked = some uid := by
  rcases places.inv.idle uid held with admitted | ⟨thread, place⟩ | revoked
  · exact (admitted out).elim
  · exact ((places.inv.inStep thread).admitting (places.stands thread)
      (by simp [place, Stage.uid?]) free).elim
  · exact revoked

theorem devices_kept (provides : config.provisions = true)
    (started : (homeKernel config).machine.start first)
    (apart : (homeKernel config).machine.Meets (Kernel.Allows (devicesApart strict)) first events) :
    DevicesKept config first events := by
  have ordered : ∀ early late before after one other answer reply channel,
      (homeKernel config).machine.Takes first events early before (.act one answer) →
      (homeKernel config).machine.Takes first events late after (.act other reply) →
      releasing before one = some channel → releasing after other = some channel →
        ¬early < late := by
    intro early late before after one other answer reply channel takes again about later order
    obtain ⟨middle, segment, taken, run⟩ := takes.leads again order
    have spent := released_stays about (channel_in_hand started apart takes about).1 taken run
    have unspent := (channel_in_hand started apart again later).1.2
    simp [spent] at unspent
  refine ⟨?_, ?_, ?_, ?_, ?_⟩
  · intro early late before after one other answer reply channel takes again about later
    have notBefore := ordered early late before after one other answer reply channel takes again
      about later
    have notAfter := ordered late early after before other one reply answer channel again takes
      later about
    omega
  · intro index threads thread answer channel uid takes about
    exact (channel_in_hand started apart takes about).2 uid
  · intro index threads thread answer uid takes about
    obtain ⟨holds, courses, places⟩ := channels_kept started apart takes.1
    obtain ⟨rest, running⟩ := dropping_eq_some.mp about
    obtain ⟨now, step⟩ := Layer.turn_of_running places running none
    cases step with
    | aside aside => simp [Act.aside] at aside
    | drops revoked _ => exact (places.inv.window thread uid revoked).2.1
  · intro front back threads split run uid admitted
    have take : events.take front.length = front := by simp [split]
    obtain ⟨holds, courses, places⟩ := channels_kept started apart (take ▸ run)
    obtain ⟨channel, found⟩ :=
      Option.ne_none_iff_exists'.mp (places.inv.admitted provides uid admitted)
    exact ⟨channel, found, (places.inv.custody.row uid channel found).2⟩
  · intro front back threads split run uid out free none
    have take : events.take front.length = front := by simp [split]
    obtain ⟨holds, courses, places⟩ := channels_kept started apart (take ▸ run)
    by_contra held
    obtain ⟨thread, revoked⟩ := revoked_of_held places out free held
    obtain ⟨⟨mark, yielding⟩, _⟩ := places.inv.window thread uid revoked
    simp [Home.yields_of_get yielding] at none

theorem devices_follow_grants (provides : config.provisions = true)
    (started : (homeKernel config).machine.start first) :
    ((homeKernel config).machine.Meets (Kernel.Allows (devicesApart true)) first events →
      DevicesFollow config first events) ∧
    ((homeKernel config).machine.Meets (Kernel.Allows (devicesApart false)) first events →
      DevicesKept config first events) := by
  refine ⟨?_, devices_kept provides started⟩
  intro apart
  refine ⟨devices_kept provides started apart, ?_⟩
  intro front back threads split run uid out free
  have take : events.take front.length = front := by simp [split]
  obtain ⟨holds, courses, places⟩ := channels_kept started apart (take ▸ run)
  by_contra held
  obtain ⟨thread, revoked⟩ := revoked_of_held places out free held
  exact held (places.inv.empty rfl thread uid revoked)

end Runs

def deviceAnswers (count : Nat) : List Answer :=
  [.time 0, .flag true, .time 0] ++ List.replicate count (.flag true)

def keptRun (uid : String) (steps : Nat) : List HomeEvent :=
  .start 0 (.coreAdmit 1 plainGrant) :: answered 0 (deviceAnswers 21) ++
  .start 1 (.coreAdmit 1 plainGrant) :: answered 1 (deviceAnswers 12) ++
  .start 2 (.yield uid "") :: answered 2 (List.replicate steps (.flag true))

/-- A grant is refreshed and another, which never came, is yielded; or it is yielded itself. -/
theorem devices_of_keptRun :
    (∃ threads, (homeKernel { provisions := true }).machine.exec emptyThreads (keptRun "h" 6) =
        some threads ∧ threads.shared.devices.get "g" = some 1 ∧
          threads.shared.provisioned.read 0 = true ∧
      DevicesFollow { provisions := true } emptyThreads (keptRun "h" 6)) ∧
    ∃ threads, (homeKernel { provisions := true }).machine.exec emptyThreads (keptRun "g" 7) =
        some threads ∧ threads.shared.devices.get "g" = none ∧
          threads.shared.provisioned.read 1 = true ∧
      DevicesKept { provisions := true } emptyThreads (keptRun "g" 7) := by
  have follow (events : List HomeEvent) :=
    @devices_follow_grants { provisions := true } emptyThreads events rfl
      ⟨⟨1, none, rfl, rfl⟩, rfl⟩
  refine ⟨?_, ?_⟩
  · obtain ⟨threads, run, held, released⟩ : ∃ threads,
      (homeKernel { provisions := true }).machine.exec emptyThreads (keptRun "h" 6) =
        some threads ∧ threads.shared.devices.get "g" = some 1 ∧
        threads.shared.provisioned.read 0 = true := by decide +kernel
    exact ⟨threads, run, held, released, (follow _).1 (by decide +kernel)⟩
  · obtain ⟨threads, run, held, released⟩ : ∃ threads,
      (homeKernel { provisions := true }).machine.exec emptyThreads (keptRun "g" 7) =
        some threads ∧ threads.shared.devices.get "g" = none ∧
        threads.shared.provisioned.read 1 = true := by decide +kernel
    exact ⟨threads, run, held, released, (follow _).2 (by decide +kernel)⟩

def crossedRun : List HomeEvent :=
  .start 0 (.coreAdmit 1 plainGrant) :: answered 0 (deviceAnswers 21) ++
  .start 1 (.yield "g" "") :: answered 1 [.flag true] ++
  .start 2 (.coreAdmit 1 plainGrant) :: answered 2 (deviceAnswers 11) ++
  answered 1 [.flag true, .flag true]

/-- The yield drops and releases the channel of the grant that is admitted now; and before that
its revocation left the first grant's channel held. -/
theorem yield_takes_channel_of_admitted :
    ((homeKernel { provisions := true }).machine.exec emptyThreads (crossedRun.take 27)).map
      (fun threads => (threads.shared.ledger.grants.get "g", threads.shared.admitting.get "g",
        threads.shared.devices.get "g", threads.shared.provisioned.read 0)) =
        some (none, none, some 0, false) ∧
    ((homeKernel { provisions := true }).machine.exec emptyThreads crossedRun).map
      (fun threads => (threads.shared.ledger.grants.get "g", threads.shared.devices.get "g",
        threads.shared.provisioned.read 1)) = some (some 1, none, true) ∧
    ¬DevicesFollow { provisions := true } emptyThreads crossedRun := by
  refine ⟨by decide +kernel, by decide +kernel, ?_⟩
  intro follow
  obtain ⟨threads, run, drops, admitted⟩ : ∃ threads, (homeKernel { provisions := true }).machine.exec
        emptyThreads (crossedRun.take 42) = some threads ∧ dropping threads 1 = some "g" ∧
      threads.shared.ledger.grants.get "g" = some 1 := by decide +kernel
  have out := follow.dropped 42 threads 1 (.flag true) "g" ⟨run, rfl⟩ drops
  simp [admitted] at out

end Fiberd
