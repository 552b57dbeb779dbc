import Fiberd.Home.HomeDevices
import Fiberd.Home.HomeRecords

/-!
The parked sessions a home holds since boot.  Their grant comes back in one
critical section and the sessions in later ones; until they are there, the list of
held sessions or the hand of the call that restores them stands in for the ledger.
-/

namespace Fiberd

open Heaps Tables Programs Machines LedgerSystem

/-- The delta that held sessions name for a session; of two entries the first is restored. -/
def heldRef (name : String) (snapshots : List SessionSnapshot) : Option String :=
  (snapshots.find? fun snapshot => decide (snapshot.name = name)).map SessionSnapshot.deltaRef

def Home.heldRef (home : Home) (uid name : String) : Option String :=
  Fiberd.heldRef name ((home.held.get uid).getD [])

variable {uid : String}

/-- While the session is not recorded, a Clone resolves it and a claim registers it only with no
admission of the UID in flight, and a yield does not revoke the UID during one. -/
def heldApart (uid name : String) (home : Home) (thread : Nat) (action : Act) (_ : Answer) :
    Bool :=
  match action with
  | .resolve other session _ =>
    decide (sessionKey other session = sessionKey uid name →
      home.ledger.sessions.get (sessionKey uid name) ≠ none ∨
        other = uid ∧ home.admitting.get uid = none)
  | .restoreParked snapshot =>
    decide (sessionKey snapshot.grantUID snapshot.name = sessionKey uid name →
      home.ledger.sessions.get (sessionKey uid name) ≠ none ∨
        snapshot.grantUID = uid ∧ (home.admitting.get uid).all fun channel =>
          decide ((home.channels.read channel).owner = thread))
  | .revokeGrant other => decide (other = uid → home.admitting.get uid = none)
  | .holdGrant other => decide (other ≠ uid)
  | _ => true

def Stage.letIn? : Stage → Option String
  | .admitted uid => some uid
  | .restoring uid _ => some uid
  | _ => none

inductive HeldPlace (uid name ref : String) (home : Home) (courses : Nat → Course) : Prop
  | recorded (session : Session)
      (present : home.ledger.sessions.get (sessionKey uid name) = some session)
      (same : session.deltaRef = ref)
  | waiting (absent : home.ledger.sessions.get (sessionKey uid name) = none)
      (held : home.heldRef uid name = some ref)
      (later : home.ledger.grants.get uid = none ∨
        ∃ thread, (courses thread).stage = .admitted uid)
  | inHand (absent : home.ledger.sessions.get (sessionKey uid name) = none) (thread : Nat)
      (rest : List SessionSnapshot) (stage : (courses thread).stage = .restoring uid rest)
      (hand : heldRef name rest = some ref)
      (named : ∀ snapshot ∈ rest, snapshot.grantUID = uid)

def HeldNamed (home : Home) : Prop :=
  ∀ uid snapshots, home.held.get uid = some snapshots →
    ∀ snapshot ∈ snapshots, snapshot.grantUID = uid

structure HeldKept (uid name ref : String) (home : Home) (holds : Nat → Local)
    (courses : Nat → Course) : Prop where
  inStep : ∀ thread, InStep (holds thread) (courses thread)
  named : HeldNamed home
  inside : ∀ thread, (courses thread).stage.letIn? = some uid →
    home.ledger.grants.get uid ≠ none
  resolutions : ∀ clone resolution, home.system.resolved.get clone = some resolution →
    resolution.session ≠ "" → resolution.key = sessionKey uid name →
      resolution.act = .attach ∨ resolution.act = .resume ∧ resolution.ref = ref
  place : HeldPlace uid name ref home courses

variable {provisions : Bool} {course now : Course} {action : Act}

variable {result : action.Result}

theorem Course.Step.admitted_stays (step : course.Step provisions action result now)
    (stage : course.stage = .admitted uid) :
    action = .takeHeld uid ∨ now.stage = .admitted uid := by
  cases step with
  | takes slot =>
    rw [stage, Stage.admitted.injEq] at slot
    exact .inl (by rw [slot])
  | revokes idle => simp [idle] at stage
  | keeps slot _ | admits slot _ | restores slot => simp [slot] at stage
  | enters out => simp [out] at stage
  | leaves slot _ => simp [stage] at slot
  | _ => exact .inr stage

theorem Course.Step.letIn_before (step : course.Step provisions action result now)
    (inside : now.stage.letIn? = some uid) :
    course.stage.letIn? = some uid ∨ ∃ grant, action = .admitGrant grant ∧ grant.uid = uid := by
  cases step with
  | admits _ _ => exact .inr ⟨_, rfl, by simpa [Stage.letIn?] using inside⟩
  | takes slot | restores slot => exact .inl (by simpa [slot, Stage.letIn?] using inside)
  | enters _ | keeps _ _ | leaves _ _ | revokes _ => simp [Stage.letIn?] at inside
  | _ => exact .inl inside

theorem Stage.uid_of_letIn {stage : Stage} (inside : stage.letIn? = some uid) :
    stage.uid? = some uid := by
  cases stage <;> simp_all [Stage.letIn?, Stage.uid?]

theorem Course.Step.restoring_stays {rest : List SessionSnapshot}
    (step : course.Step provisions action result now) (stage : course.stage = .restoring uid rest)
    (nonempty : rest ≠ []) : (∃ snap more, rest = snap :: more ∧ action = .restoreParked snap ∧
        now.stage = .restoring uid more) ∨ now.stage = .restoring uid rest := by
  cases step with
  | restores slot =>
    rw [stage, Stage.restoring.injEq] at slot
    exact .inl ⟨_, _, slot.2, rfl, by rw [slot.1]⟩
  | revokes idle => simp [idle] at stage
  | keeps slot _ | admits slot _ | takes slot => simp [slot] at stage
  | enters out => simp [out] at stage
  | leaves slot _ => simp [stage, nonempty] at slot
  | _ => exact .inr stage

section Moves

variable {home next : Home} {holds : Nat → Local} {courses : Nat → Course} {thread : Nat}
  {action : Act} {answer : Answer} {result : action.Result} {now : Course} {provisions : Bool}
  {uid name ref : String}

theorem Home.perform_held (ran : home.perform thread action answer = some (result, next))
    (uid : String) : next.held.get uid = home.held.get uid ∨
      action = .holdGrant uid ∧ next.held.get uid = some [] ∨
      (∃ snap sessions, action = .holdParked snap ∧ snap.grantUID = uid ∧
        home.held.get uid = some sessions ∧ next.held.get uid = some (sessions ++ [snap])) ∨
      action = .takeHeld uid ∧ next.held.get uid = none := by
  by_cases plain : action.touchesHeld = false
  · exact .inl (by rw [(Home.perform_frame ran).held plain])
  · cases action with
    | holdGrant other =>
      cases ran
      by_cases mine : uid = other
      · subst other
        exact .inr (.inl ⟨rfl, by simp⟩)
      · exact .inl (get_put_other _ _ mine)
    | holdParked snap =>
      simp only [perform, holdParked] at ran
      split at ran
      · rename_i sessions got
        cases ran
        by_cases mine : uid = snap.grantUID
        · subst uid
          exact .inr (.inr (.inl ⟨snap, sessions, rfl, rfl, got, by simp⟩))
        · exact .inl (get_put_other _ _ mine)
      · cases ran
        exact .inl rfl
    | takeHeld other =>
      cases ran
      by_cases mine : uid = other
      · subst other
        exact .inr (.inr (.inr ⟨rfl, by simp⟩))
      · exact .inl (get_drop_other _ mine)
    | _ => exact (plain rfl).elim

theorem HeldNamed.moved (named : HeldNamed home)
    (ran : home.perform thread action answer = some (result, next)) : HeldNamed next := by
  intro uid snapshots got snap mem
  rcases Home.perform_held ran uid with
    same | ⟨_, emptied⟩ | ⟨added, sessions, _, mine, before, after⟩ | ⟨_, gone⟩
  · exact named uid snapshots (same ▸ got) snap mem
  · rw [emptied, Option.some.injEq] at got
    simp [← got] at mem
  · cases after.symm.trans got
    rcases List.mem_append.mp mem with old | new
    · exact named uid sessions before snap old
    · rw [List.mem_singleton.mp new]
      exact mine
  · simp [gone] at got

section

variable (kept : HeldKept uid name ref home holds courses)
  (stands : ∀ other, LocalAt other (holds other) home)
include kept stands

theorem HeldKept.inside_slot (other : Nat) (inside : (courses other).stage.uid? = some uid) :
    ∃ chan, home.admitting.get uid = some chan ∧ (home.channels.read chan).owner = other := by
  obtain ⟨chan, passed, slot⟩ := kept.inStep other uid inside
  have placed := (stands other).slot
  rw [slot] at placed
  exact ⟨chan, placed.1, placed.2.1⟩

theorem HeldKept.out (absent : home.ledger.sessions.get (sessionKey uid name) = none)
    (free : home.admitting.get uid = none) : home.ledger.grants.get uid = none := by
  cases kept.place with
  | recorded session present _ => simp [absent] at present
  | waiting _ _ later =>
    rcases later with out | ⟨other, stage⟩
    · exact out
    · obtain ⟨chan, got, _⟩ := kept.inside_slot stands other (by simp [stage, Stage.uid?])
      simp [free] at got
  | inHand _ other rest stage _ _ =>
    obtain ⟨chan, got, _⟩ := kept.inside_slot stands other (by simp [stage, Stage.uid?])
    simp [free] at got

end

variable {resolution : Resolution}

section

variable (kept : HeldKept uid name ref home holds courses)
  (stands : ∀ other, LocalAt other (holds other) home)
include kept stands

theorem HeldKept.resolves {other session : String} {tier : Tier} {time : Time} {ledger : Ledger}
    (may : heldApart uid name home thread (.resolve other session tier) answer = true)
    (named : session ≠ "") (mine : sessionKey other session = sessionKey uid name)
    (resolved : home.ledger.resolveHeld other session tier time = .ok (resolution, ledger)) :
    resolution.act = .attach ∨ resolution.act = .resume ∧ resolution.ref = ref := by
  simp only [heldApart, decide_eq_true_eq] at may
  cases present : home.ledger.sessions.get (sessionKey uid name) with
  | some got =>
    have same : got.deltaRef = ref := by
      cases kept.place with
      | recorded item recorded same =>
        rw [present, Option.some.injEq] at recorded
        rw [recorded, same]
      | waiting absent _ _ | inHand absent _ _ _ _ _ => simp [present] at absent
    rw [← same]
    exact Ledger.resolveHeld_present named (mine ▸ present) resolved
  | none =>
    obtain ⟨rfl, free⟩ := (may mine).resolve_left (by simp [present])
    have out := kept.out stands present free
    simp [Ledger.resolveHeld, out] at resolved

theorem HeldKept.resolutions_moved (may : heldApart uid name home thread action answer = true)
    (ran : home.perform thread action answer = some (result, next)) {clone : Nat}
    (opening : next.system.resolved.get clone = some resolution) (named : resolution.session ≠ "")
    (mine : resolution.key = sessionKey uid name) :
    resolution.act = .attach ∨ resolution.act = .resume ∧ resolution.ref = ref := by
  rcases Home.perform_resolution ran opening with
    ⟨old, before, same⟩ | ⟨_, other, session, tier, time, ledger, rfl, resolved⟩
  · rw [same] at named mine ⊢
    exact kept.resolutions clone old before named mine
  · have asked : resolution.grantUID = other ∧ resolution.session = session := by
      obtain ⟨_, _, ⟨minted, _⟩ | ⟨_, _, _, _, _, rfl⟩⟩ := Ledger.resolveHeld_ok resolved
      · exact ⟨minted.sameGrant, minted.sameSession⟩
      · exact ⟨rfl, rfl⟩
    obtain ⟨rfl, rfl⟩ := asked
    exact kept.resolves stands may named mine resolved

theorem HeldKept.restored {snap : SessionSnapshot} {error : (Act.restoreParked snap).Result}
    (moves : (courses thread).Step provisions (.restoreParked snap) error now)
    (may : heldApart uid name home thread (.restoreParked snap) answer = true)
    (mine : sessionKey snap.grantUID snap.name = sessionKey uid name)
    (admitted : home.ledger.grants.get snap.grantUID ≠ none)
    (absent : home.ledger.sessions.get (sessionKey uid name) = none) : snap.deltaRef = ref := by
  simp only [heldApart, decide_eq_true_eq] at may
  obtain ⟨rfl, owns⟩ := (may mine).resolve_left (by simp [absent])
  have slotted : ∀ other, (courses other).stage.uid? = some snap.grantUID →
      other = thread := by
    intro other inside
    obtain ⟨chan, got, owner⟩ := kept.inside_slot stands other inside
    rw [got] at owns
    simp only [Option.all_some, decide_eq_true_eq] at owns
    rw [← owner, owns]
  cases kept.place with
  | recorded session present _ => simp [absent] at present
  | waiting _ _ later =>
    obtain ⟨other, stage⟩ := later.resolve_left admitted
    obtain rfl := slotted other (by simp [stage, Stage.uid?])
    cases moves with
    | aside aside => simp [Act.aside] at aside
    | registers out => simp [stage] at out
    | restores slot => simp [stage] at slot
  | inHand _ other rest stage hand named =>
    obtain rfl := slotted other (by simp [stage, Stage.uid?])
    cases moves with
    | aside aside => simp [Act.aside] at aside
    | registers out => simp [stage] at out
    | restores slot =>
      rw [stage, Stage.restoring.injEq] at slot
      rw [slot.2] at hand
      have same : snap.name = name := by simpa [sessionKey] using mine
      simpa [heldRef, same] using hand

end

theorem Home.heldRef_moved (held : home.heldRef uid name = some ref)
    (may : heldApart uid name home thread action answer = true) (left : action ≠ .takeHeld uid)
    (ran : home.perform thread action answer = some (result, next)) :
    next.heldRef uid name = some ref := by
  rcases Home.perform_held ran uid with
    same | ⟨rfl, _⟩ | ⟨snap, sessions, _, _, old, after⟩ | ⟨took, _⟩
  · rw [Home.heldRef, same]
    exact held
  · simp [heldApart] at may
  · rw [Home.heldRef, after]
    rw [Home.heldRef, old] at held
    obtain ⟨snap, first, same⟩ := Option.map_eq_some_iff.mp held
    rw [Option.getD_some] at first
    simp [Fiberd.heldRef, List.find?_append, first, same]
  · exact (left took).elim

section

variable (kept : HeldKept uid name ref home holds courses)
  (moves : (courses thread).Step provisions action result now)
include kept moves

theorem HeldKept.waiting_moved (may : heldApart uid name home thread action answer = true)
    (ran : home.perform thread action answer = some (result, next))
    (absent : next.ledger.sessions.get (sessionKey uid name) = none)
    (held : home.heldRef uid name = some ref)
    (later : home.ledger.grants.get uid = none ∨ ∃ other, (courses other).stage = .admitted uid) :
    HeldPlace uid name ref next (Function.update courses thread now) := by
  by_cases taking : action = .takeHeld uid
  · subst action
    cases ran
    cases moves with
    | aside aside => simp [Act.aside] at aside
    | takes slot =>
      refine .inHand absent thread _ (by rw [Function.update_self]) held ?_
      intro snap mem
      cases got : home.held.get uid with
      | none => simp [got] at mem
      | some sessions => exact kept.named uid sessions got snap (by simpa [got] using mem)
  · refine .waiting absent (Home.heldRef_moved held may taking ran) ?_
    rcases Home.perform_grants ran uid with unmoved | ⟨grant, rfl, mine, _⟩ | ⟨_, gone⟩
    · rcases later with out | ⟨other, stage⟩
      · exact .inl (unmoved.trans out)
      · refine .inr ⟨other, ?_⟩
        by_cases same : other = thread
        · subst other
          rw [Function.update_self]
          exact (moves.admitted_stays stage).resolve_left taking
        · rwa [Function.update_of_ne same]
    · cases moves with
      | aside aside => simp [Act.aside] at aside
      | admits slot _ => exact .inr ⟨thread, by rw [Function.update_self, mine]⟩
    · exact .inl gone

theorem HeldKept.inHand_moved (ran : home.perform thread action answer = some (result, next))
    (old : home.ledger.sessions.get (sessionKey uid name) = none)
    (gone : next.ledger.sessions.get (sessionKey uid name) = none) {other : Nat}
    {rest : List SessionSnapshot} (stage : (courses other).stage = .restoring uid rest)
    (hand : heldRef name rest = some ref) (named : ∀ snap ∈ rest, snap.grantUID = uid) :
    HeldPlace uid name ref next (Function.update courses thread now) := by
  by_cases same : other = thread
  · subst other
    have nonempty : rest ≠ [] := by
      rintro rfl
      simp [heldRef] at hand
    rcases moves.restoring_stays stage nonempty with ⟨snap, more, rfl, rfl, onward⟩ | onward
    · -- The head is another session's: this one's would be noted now.
      have mine := named snap (by simp)
      have admitted := kept.inside thread (by simp [stage, Stage.letIn?])
      have apart : snap.name ≠ name := by
        intro same
        obtain ⟨_, ledger⟩ := Home.perform_restoreParked ran
        rw [mine, same, if_pos ⟨admitted, old⟩] at ledger
        simp [ledger] at gone
      refine .inHand gone thread more (by rwa [Function.update_self]) ?_ ?_
      · simpa [heldRef, apart] using hand
      · exact fun other mem => named other (List.mem_cons_of_mem _ mem)
    · exact .inHand gone thread rest (by rwa [Function.update_self]) hand named
  · exact .inHand gone other rest (by rwa [Function.update_of_ne same]) hand named

end

theorem HeldKept.place_moved (kept : HeldKept uid name ref home holds courses)
    (stands : ∀ other, LocalAt other (holds other) home)
    (moves : (courses thread).Step provisions action result now)
    (may : heldApart uid name home thread action answer = true)
    (stays : letsGo uid name home action = false)
    (ran : home.perform thread action answer = some (result, next)) :
    HeldPlace uid name ref next (Function.update courses thread now) := by
  have record := Home.perform_record ran (sessionKey uid name)
  generalize equal : next.ledger.sessions.get (sessionKey uid name) = after at record
  cases record with
  | born got fresh named mine =>
    refine .recorded _ equal ?_
    obtain ⟨resumes, same⟩ := (kept.resolutions _ _ got named mine).resolve_left fresh
    simp [Resolution.born, resumes, same]
  | parked known mine _ | released known mine | exited known mine =>
    simp [letsGo, known, mine] at stays
  | forgot mine => simp [letsGo, mine] at stays
  | restored mine admitted absent =>
    exact .recorded _ equal (kept.restored stands moves may mine admitted absent)
  | same =>
    cases kept.place with
    | recorded session present same => exact .recorded session (equal.trans present) same
    | waiting absent held later =>
      exact kept.waiting_moved moves may ran (equal.trans absent) held later
    | inHand absent other rest stage hand named =>
      exact kept.inHand_moved moves ran absent (equal.trans absent) stage hand named

theorem present_moved (here : home.ledger.sessions.get (sessionKey uid name) ≠ none)
    (stays : letsGo uid name home action = false)
    (ran : home.perform thread action answer = some (result, next)) :
    next.ledger.sessions.get (sessionKey uid name) ≠ none := by
  have record := Home.perform_record ran (sessionKey uid name)
  generalize next.ledger.sessions.get (sessionKey uid name) = after at record
  cases record with
  | same => exact here
  | born _ _ _ _ => simp
  | parked _ _ _ => simp
  | released known mine | exited known mine => simp [letsGo, known, mine] at stays
  | forgot mine => simp [letsGo, mine] at stays
  | restored _ _ _ => simp

theorem HeldKept.moved {later : Local} (kept : HeldKept uid name ref home holds courses)
    (stands : ∀ other, LocalAt other (holds other) home)
    (follows : (holds thread).after action result = some later)
    (moves : (courses thread).Step provisions action result now)
    (may : heldApart uid name home thread action answer = true)
    (stays : letsGo uid name home action = false)
    (ran : home.perform thread action answer = some (result, next)) :
    HeldKept uid name ref next (Function.update holds thread later)
      (Function.update courses thread now) := by
  refine ⟨?_, kept.named.moved ran, ?_,
    fun _ _ => kept.resolutions_moved stands may ran,
    kept.place_moved stands moves may stays ran⟩
  · intro other
    by_cases same : other = thread
    · subst other
      simpa using (kept.inStep thread).after follows moves
    · simpa [same] using kept.inStep other
  · intro other inside
    have old : (courses other).stage.letIn? = some uid ∨
        ∃ grant, action = .admitGrant grant ∧ grant.uid = uid := by
      by_cases same : other = thread
      · subst other
        rw [Function.update_self] at inside
        exact moves.letIn_before inside
      · rw [Function.update_of_ne same] at inside
        exact .inl inside
    rcases old with old | ⟨grant, rfl, rfl⟩
    · rcases Home.perform_grants ran uid with unmoved | ⟨_, _, _, admitted⟩ | ⟨rfl, _⟩
      · rw [unmoved]
        exact kept.inside other old
      · exact admitted
      · simp only [heldApart, decide_eq_true_eq, forall_const] at may
        obtain ⟨chan, got, _⟩ := kept.inside_slot stands other (Stage.uid_of_letIn old)
        simp [may] at got
    · exact Home.perform_admits ran

end Moves

def heldLayer (config : HomeConfig) (uid name ref : String) :
    Layer ((homeProtocol config).guard fun home thread action answer =>
      heldApart uid name home thread action answer && !letsGo uid name home action) Course where
  idle := {}
  after := Course.after config.provisions
  inv := HeldKept uid name ref
  moved := by
    intro home holds courses thread action answer result next later now _ stands kept follows turn
      ran
    obtain ⟨may, done⟩ := Kernel.guarded_perform ran
    rw [Bool.and_eq_true, Bool.not_eq_true'] at may
    exact kept.moved stands follows (Course.after_step turn) may.1 may.2 done
  ends _ later := later = {}
  bodies := HomeCall.body_keeps config

def resolving (threads : HomeThreads) (thread : Nat) : Option (String × String × Tier) :=
  match threads.programs.get thread with
  | some (.call (.resolve uid session tier) _) => some (uid, session, tier)
  | _ => none

/-- A held session is resumed from its delta, and is in the ledger with it from the moment its
grant is let in with no admission in flight. -/
structure HeldResumed (config : HomeConfig) (first : HomeThreads) (events : List HomeEvent)
    (uid name ref : String) : Prop where
  resumes : ∀ index threads thread now tier resolution ledger,
    (homeKernel config).machine.Takes first events index threads (.act thread (.time now)) →
    resolving threads thread = some (uid, name, tier) →
    threads.shared.ledger.resolveHeld uid name tier now = .ok (resolution, ledger) →
      resolution.act = .attach ∨ resolution.act = .resume ∧ resolution.ref = ref
  recorded : ∀ early late before after, early ≤ late →
    (homeKernel config).machine.exec first (events.take early) = some before →
    (homeKernel config).machine.exec first (events.take late) = some after →
    before.shared.ledger.grants.get uid ≠ none → before.shared.admitting.get uid = none →
      ∃ session, after.shared.ledger.sessions.get (sessionKey uid name) = some session ∧
        session.deltaRef = ref

section Runs

variable {config : HomeConfig} {first : HomeThreads} {events : List HomeEvent}
  {uid name ref : String}

theorem heldNamed_of_reachable (reached : (homeKernel config).machine.Reachable first) :
    HeldNamed first.shared := by
  refine Kernel.reachable_shared ?_ (fun _ _ _ _ _ _ named => named.moved) reached
  rintro _ ⟨epoch, revoked, _, rfl⟩ uid snapshots got
  simp [newHome] at got

theorem unresolved_of_ended (kept : (homeProtocol config).Kept first) (ended : first.ended = true)
    (clone : Nat) : first.shared.system.resolved.get clone = none := by
  cases got : first.programs.get clone with
  | none => exact (kept.unused clone got).opened
  | some prog =>
    obtain ⟨outcome, rfl⟩ := Threads.done_of_ended ended got
    obtain ⟨held, stands, idle, _⟩ := kept.ended got
    have opened := stands.opened
    rw [idle] at opened
    exact opened

theorem present_stays (stays : (homeKernel config).machine.Meets
      (Kernel.Allows fun home _ action _ => !letsGo uid name home action) first events)
    {early late : Nat} {old after : HomeThreads} (order : early ≤ late)
    (run : (homeKernel config).machine.exec first (events.take early) = some old)
    (onward : (homeKernel config).machine.exec first (events.take late) = some after)
    (here : old.shared.ledger.sessions.get (sessionKey uid name) ≠ none) :
    after.shared.ledger.sessions.get (sessionKey uid name) ≠ none := by
  have split : events.take late = events.take early ++ (events.drop early).take (late - early) := by
    rw [← List.take_add, Nat.add_sub_cancel' order]
  have meets := stays.take late
  rw [split] at onward meets
  obtain ⟨mid, front, back⟩ := exec_append_eq_some.mp onward
  cases run.symm.trans front
  have kept : ∀ (home : Home) thread action answer result next,
      home.ledger.sessions.get (sessionKey uid name) ≠ none →
      (!letsGo uid name home action) = true →
      (homeKernel config).perform home thread action answer = some (result, next) →
        next.ledger.sessions.get (sessionKey uid name) ≠ none := by
    intro home thread action answer result next here may ran
    exact present_moved here (by simpa using may) ran
  exact Kernel.exec_shared_of_allows kept here (meets.back run) back

theorem held_kept (reached : (homeKernel config).machine.Reachable first)
    (ended : first.ended = true) (held : first.shared.heldRef uid name = some ref)
    (gone : first.shared.ledger.sessions.get (sessionKey uid name) = none)
    (out : first.shared.ledger.grants.get uid = none)
    (apart : (homeKernel config).machine.Meets (Kernel.Allows (heldApart uid name)) first events)
    (stays : (homeKernel config).machine.Meets
      (Kernel.Allows fun home _ action _ => !letsGo uid name home action) first events)
    {count : Nat} {threads : HomeThreads}
    (run : (homeKernel config).machine.exec first (events.take count) = some threads) :
    (heldLayer config uid name ref).Kept threads := by
  have kept : (homeProtocol config).Kept first := Protocol.kept_of_reachable reached
  have initial : (heldLayer config uid name ref).Kept first := by
    refine Layer.kept_of_ended ⟨kept.inv, kept.unused, kept.running⟩ ?_ ?_
    · intro thread prog got
      obtain ⟨outcome, rfl⟩ := Threads.done_of_ended ended got
      exact ⟨outcome, rfl, rfl⟩
    · intro holds _
      refine ⟨?_, heldNamed_of_reachable reached, ?_, ?_, .waiting gone held (.inl out)⟩
      · intro thread other place
        simp [heldLayer, Stage.uid?] at place
      · intro thread place
        simp [heldLayer, Stage.letIn?] at place
      · intro clone resolution opening
        simp [unresolved_of_ended kept ended] at opening
  exact initial.exec (Kernel.guarded_exec ((Kernel.meets_and apart stays).take count) run)

theorem held_sessions_resumed (reached : (homeKernel config).machine.Reachable first)
    (ended : first.ended = true) (named : name ≠ "")
    (held : first.shared.heldRef uid name = some ref)
    (absent : first.shared.ledger.sessions.get (sessionKey uid name) = none)
    (out : first.shared.ledger.grants.get uid = none)
    (apart : (homeKernel config).machine.Meets (Kernel.Allows (heldApart uid name)) first events)
    (stays : (homeKernel config).machine.Meets
      (Kernel.Allows fun home _ action _ => !letsGo uid name home action) first events) :
    HeldResumed config first events uid name ref := by
  refine ⟨?_, ?_⟩
  · intro index threads thread now tier resolution ledger takes about resolved
    obtain ⟨rest, running⟩ : ∃ rest,
        threads.programs.get thread = some (.call (.resolve uid name tier) rest) := by
      unfold resolving at about
      split at about <;> cases about
      exact ⟨_, ‹_›⟩
    obtain ⟨holds, courses, places⟩ := held_kept reached ended held absent out apart stays takes.1
    have may := apart.at takes
    simp only [Kernel.Allows, running] at may
    exact places.inv.resolves places.stands may named rfl resolved
  · intro early late before after order run onward admitted free
    have present : after.shared.ledger.sessions.get (sessionKey uid name) ≠ none := by
      refine present_stays stays order run onward ?_
      intro unrecorded
      obtain ⟨holds, courses, places⟩ := held_kept reached ended held absent out apart stays run
      exact admitted (places.inv.out places.stands unrecorded free)
    obtain ⟨holds, courses, places⟩ := held_kept reached ended held absent out apart stays onward
    cases places.inv.place with
    | recorded session found same => exact ⟨session, found, same⟩
    | waiting unrecorded _ _ | inHand unrecorded _ _ _ _ _ => exact (present unrecorded).elim

end Runs

def checkpointHome : HomeConfig := { tier := .checkpoint }

def heldSession : SessionSnapshot :=
  { name := "s", grantUID := "g", fence := ⟨"g", 1, 1⟩, deltaRef := "r" }

def bootRun : List HomeEvent :=
  [.start 2 (.holdGrant "g"), .act 2 (.flag true), .start 3 (.reconcileParked heldSession),
   .act 3 (.flag true)]

def heldThreads : HomeThreads :=
  ((homeKernel checkpointHome).machine.exec emptyThreads bootRun).getD emptyThreads

theorem heldThreads_reached : (homeKernel checkpointHome).machine.Reachable heldThreads :=
  reached_of_run ⟨⟨1, none, rfl, rfl⟩, rfl⟩ (by decide +kernel)

/-- The grant is let in, and then a Clone of the session resolves. -/
def resumedRun : List HomeEvent :=
  .start 0 (.coreAdmit 1 plainGrant) :: answered 0 (admitAnswers ++ [.flag true]) ++
  .start 1 (.clone 1 { grantJWT := "t", session := "s" }) :: answered 1 (cloneAnswers.take 9)

theorem resumed_of_resumedRun :
    ((homeKernel checkpointHome).machine.exec heldThreads (resumedRun.take 32)).map
      (fun threads => (resolving threads 1,
        (threads.shared.ledger.sessions.get "g/s").map Session.deltaRef)) =
        some (some ("g", "s", .checkpoint), some "r") ∧
    HeldResumed checkpointHome heldThreads resumedRun "g" "s" "r" := by
  refine ⟨by decide +kernel, ?_⟩
  exact held_sessions_resumed heldThreads_reached (by decide +kernel) (by decide)
    (by decide +kernel) (by decide +kernel) (by decide +kernel) (by decide +kernel)
    (by decide +kernel)

/-- The Clone resolves after the grant is let in and before its sessions are restored. -/
def recreatedRun : List HomeEvent :=
  .start 0 (.coreAdmit 1 plainGrant) :: answered 0 (admitAnswers.take 16) ++
  .start 1 (.clone 1 { grantJWT := "t", session := "s" }) :: answered 1 (cloneAnswers.take 9)

theorem clone_recreates_held : ¬HeldResumed checkpointHome heldThreads recreatedRun "g" "s" "r" := by
  intro resumed
  obtain ⟨threads, run, about, ⟨resolution, ledger⟩, resolved, creates⟩ : ∃ threads,
      (homeKernel checkpointHome).machine.exec heldThreads (recreatedRun.take 26) = some threads ∧
      resolving threads 1 = some ("g", "s", .checkpoint) ∧ ∃ outcome,
        (threads.shared.ledger.resolveHeld "g" "s" .checkpoint 0).toOption = some outcome ∧
          outcome.1.act = .create := by decide +kernel
  cases found : threads.shared.ledger.resolveHeld "g" "s" .checkpoint 0 with
  | error error => simp [found, Except.toOption] at resolved
  | ok outcome =>
    simp only [found, Except.toOption] at resolved
    cases resolved
    have resumes := resumed.resumes 26 threads 1 0 .checkpoint resolution ledger ⟨run, rfl⟩
      about found
    simp [show resolution.act = .create from creates] at resumes

end Fiberd
