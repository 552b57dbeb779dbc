import Fiberd.Home.HomeDevices

/-!
Where no grant is being yielded, every fiber of the ledger runs under the entry its
grant has now.  A yield that has returned has released every fiber older than its
revocation, whichever verb it was part of.
-/

namespace Fiberd

open Heaps Tables Programs Machines LedgerSystem

inductive YieldCourse where
  | idle
  | revoked (uid : String)
  | working (uid : String) (rest : List String)

def YieldCourse.after (course : YieldCourse) (action : Act) (result : action.Result) :
    Option YieldCourse :=
  match course, action, result with
  | .idle, .revokeGrant uid, _ => some (.revoked uid)
  | .revoked uid, .fibersOf listed, found =>
    some (if listed = uid then .working uid (found.map Ledger.FiberInfo.id) else .revoked uid)
  | .working uid rest, .fiber id, none => some (.working uid (rest.filter (· ≠ id)))
  | .working uid rest, .onRelease id, _ => some (.working uid (rest.filter (· ≠ id)))
  | .working _ rest, .yielded, _ => if rest = [] then some .idle else none
  | course, action, _ => if action.touchesYielding then none else some course

inductive YieldCourse.Step :
    YieldCourse → (action : Act) → action.Result → YieldCourse → Prop
  | same {course : YieldCourse} {action : Act} {result : action.Result}
      (calm : action.touchesYielding = false) : Step course action result course
  | revokes {uid : String} {result : Unit} : Step .idle (.revokeGrant uid) result (.revoked uid)
  | lists {uid : String} {found : List Ledger.FiberInfo} :
      Step (.revoked uid) (.fibersOf uid) found (.working uid (found.map Ledger.FiberInfo.id))
  | missed {uid id : String} {rest : List String} :
      Step (.working uid rest) (.fiber id) none (.working uid (rest.filter (· ≠ id)))
  | released {uid id : String} {rest : List String} {gone : String × String} :
      Step (.working uid rest) (.onRelease id) gone (.working uid (rest.filter (· ≠ id)))
  | ends {uid : String} {result : Unit} : Step (.working uid []) .yielded result .idle

theorem YieldCourse.after_step {course now : YieldCourse} {action : Act} {result : action.Result}
    (turn : course.after action result = some now) : course.Step action result now := by
  unfold after at turn
  split at turn
  · cases turn
    exact .revokes
  · cases turn
    split
    · rename_i same
      exact same ▸ .lists
    · exact .same rfl
  · cases turn
    exact .missed
  · cases turn
    exact .released
  · split at turn
    · rename_i none
      simp only [Option.some.injEq] at turn
      subst now none
      exact .ends
    · simp at turn
  · split at turn <;> cases turn
    rename_i calm
    exact .same (by simpa using calm)

def Home.Houses (home : Home) (uid : String) (entry : Nat) : Prop :=
  entry < home.ledger.entries.size ∧ (home.ledger.grants.get uid = some entry ∨
    ∃ thread mark, home.yielding.get thread = some (uid, mark) ∧ entry < mark)

def YieldAt (thread : Nat) (course : YieldCourse) (home : Home) : Prop :=
  match course with
  | .idle => home.yielding.get thread = none
  | .revoked uid => ∃ mark, home.yielding.get thread = some (uid, mark) ∧
      EntriesSince mark uid home
  | .working uid rest => ∃ mark, home.yielding.get thread = some (uid, mark) ∧
      RevokedSince mark uid rest home

structure FibersHoused (home : Home) (courses : Nat → YieldCourse) : Prop where
  yields : ∀ thread, YieldAt thread (courses thread) home
  fibers : ∀ id ref, home.ledger.fibers.get id = some ref →
    ∃ origin, home.system.origins.get id = some origin ∧ home.Houses ref.grantUID origin

section Moves

variable {home next : Home} {thread : Nat} {action : Act} {answer : Answer}
  {result : action.Result}

variable {course now : YieldCourse}

theorem YieldAt.kept (stands : YieldAt thread course home) (moved : home.system.Grows next.system)
    (same : next.yielding.get thread = home.yielding.get thread) : YieldAt thread course next := by
  cases course with
  | idle => exact same.trans stands
  | revoked uid | working uid rest =>
    obtain ⟨mark, yielding, since⟩ := stands
    exact ⟨mark, same.trans yielding, since.kept moved⟩

variable {uid : String}

theorem RevokedSince.without {mark : Nat} {id : String} {rest : List String}
    (since : RevokedSince mark uid rest home) (gone : home.ledger.fibers.get id = none) :
    RevokedSince mark uid (rest.filter (· ≠ id)) home := by
  refine ⟨since.entries, ?_⟩
  intro query ref got mine
  rcases since.fibers query ref got mine with newer | listed
  · exact .inl newer
  · refine .inr (List.mem_filter.mpr ⟨listed, ?_⟩)
    have other : query ≠ id := by
      rintro rfl
      simp [gone] at got
    simpa using other

theorem YieldAt.moved (stands : YieldAt thread course home) (step : course.Step action result now)
    (ran : home.perform thread action answer = some (result, next)) : YieldAt thread now next := by
  have grows := Home.perform_grows ran
  cases step with
  | same calm =>
    exact stands.kept grows (by rw [(Home.perform_frame ran).yielding calm])
  | revokes =>
    refine ⟨_, ?_, EntriesSince.start thread answer ran⟩
    rw [(Home.perform_revokes ran).2, get_put_same]
  | lists =>
    obtain ⟨mark, yielding, since⟩ := stands
    cases ran
    refine ⟨mark, yielding, since, ?_⟩
    intro id ref got mine
    exact .inr (mine ▸ mem_fibersOf got)
  | missed =>
    obtain ⟨mark, yielding, since⟩ := stands
    obtain ⟨gone, rfl⟩ := outcome_eq ran
    refine ⟨mark, yielding, since.without ?_⟩
    simpa [Ledger.fiber?] using gone
  | released =>
    obtain ⟨mark, yielding, since⟩ := stands
    refine ⟨mark, ?_, (since.kept grows).without (perform_onRelease thread answer ran)⟩
    rw [(Home.perform_frame ran).yielding rfl, yielding]
  | ends =>
    cases ran
    exact get_drop_same _ _

theorem Home.perform_admitted {entry : Nat} (admitted : home.ledger.grants.get uid = some entry)
    (ran : home.perform thread action answer = some (result, next)) :
    next.ledger.grants.get uid = some entry ∨ action = .revokeGrant uid := by
  rcases Home.perform_grants ran uid with same | ⟨grant, rfl, rfl, _⟩ | ⟨revokes, _⟩
  · exact .inl (same.trans admitted)
  · left
    simp only [perform, op, LedgerSystem.apply, Option.map_some] at ran
    cases ran
    have known : home.system.ledger.grants.get grant.uid = some entry := admitted
    simp only [Home.ledger, LedgerSystem.withLedger, Ledger.admitGrant, known]
  · exact .inr revokes

theorem Home.Houses.moved {entry : Nat} (houses : home.Houses uid entry)
    (ran : home.perform thread action answer = some (result, next))
    (fresh : ∀ revoked, action = .revokeGrant revoked → home.yielding.get thread = none)
    (done : ∀ mark, action = .yielded → home.yielding.get thread = some (uid, mark) →
      mark ≤ entry) : next.Houses uid entry := by
  obtain ⟨bound, place⟩ := houses
  refine ⟨Nat.lt_of_lt_of_le bound (Home.perform_grows ran).size, ?_⟩
  rcases place with admitted | ⟨yielder, mark, yielding, older⟩
  · rcases Home.perform_admitted admitted ran with still | rfl
    · exact .inl still
    · refine .inr ⟨thread, home.ledger.entries.size, ?_, bound⟩
      rw [(Home.perform_revokes ran).2, get_put_same]
  · refine .inr ⟨yielder, mark, ?_, older⟩
    by_cases mine : yielder = thread
    · subst yielder
      by_cases calm : action.touchesYielding = false
      · rw [(Home.perform_frame ran).yielding calm, yielding]
      · cases action with
        | revokeGrant revoked => simp [fresh revoked rfl] at yielding
        | yielded =>
          have newer := done mark rfl yielding
          omega
        | _ => exact (calm rfl).elim
    · rw [Home.perform_yielding mine ran, yielding]

theorem FibersHoused.moved {courses : Nat → YieldCourse}
    (housed : FibersHoused home courses) (ok : home.Ok)
    (step : (courses thread).Step action result now)
    (ran : home.perform thread action answer = some (result, next)) :
    FibersHoused next (Function.update courses thread now) := by
  have stands := housed.yields thread
  have fresh : ∀ revoked, action = .revokeGrant revoked → home.yielding.get thread = none := by
    rintro revoked rfl
    generalize courses thread = course at step stands
    cases step with
    | same calm => simp [Act.touchesYielding] at calm
    | revokes => exact stands
  refine ⟨?_, ?_⟩
  · intro other
    by_cases same : other = thread
    · subst other
      simpa using stands.moved step ran
    · simpa [same] using (housed.yields other).kept (Home.perform_grows ran)
        (Home.perform_yielding same ran)
  · intro id ref got
    have house : ∃ origin, next.system.origins.get id = some origin ∧
        home.Houses ref.grantUID origin := by
      rcases (Home.perform_grows ran).fibers id ref got with
        ⟨old, before, sameGrant, sameOrigin⟩ | ⟨ptr, origin, admitted⟩
      · obtain ⟨origin, known, houses⟩ := housed.fibers id old before
        exact ⟨origin, sameOrigin.trans known, sameGrant ▸ houses⟩
      · exact ⟨ptr, origin, (ok.sound.admitted _ _ admitted).1, .inl admitted⟩
    obtain ⟨origin, known, houses⟩ := house
    refine ⟨origin, known, houses.moved ran fresh ?_⟩
    rintro mark rfl yielding
    -- The yield that returns has released what is older than its revocation.
    have since : RevokedSince mark ref.grantUID [] next := by
      generalize courses thread = course at step stands
      cases step with
      | same calm => simp [Act.touchesYielding] at calm
      | ends =>
        obtain ⟨own, started, since⟩ := stands
        rw [yielding, Option.some.injEq, Prod.mk.injEq] at started
        obtain ⟨rfl, rfl⟩ := started
        exact since.kept (Home.perform_grows ran)
    rcases since.fibers id ref got rfl with ⟨other, same, newer⟩ | listed
    · cases known.symm.trans same
      exact newer
    · simp at listed

end Moves

namespace Call

variable {β γ : Type}

def Calm (program : Call β) : Prop := program.Only fun action => action.touchesYielding = false

attribute [grind] Act.touchesYielding

@[grind ←] theorem calm_pure (value : β) : Calm (pure value) := trivial

variable {program : Call β}

@[grind ←] theorem calm_bind {rest : β → Call γ} (first : Calm program)
    (second : ∀ value, Calm (rest value)) : Calm (program >>= rest) :=
  Prog.Only.bind first second

@[grind ←] theorem calm_map (wrap : β → γ) (first : Calm program) : Calm (wrap <$> program) :=
  calm_bind first fun _ => trivial

@[grind ←] theorem calm_act {action : Act} (calm : action.touchesYielding = false) :
    Calm (act action) :=
  ⟨calm, fun _ => trivial⟩

@[grind ←] theorem calm_onHost (program : HostCall β) : Calm (onHost program) := by
  induction program with
  | done value => trivial
  | call action next ih => exact ⟨rfl, ih⟩

theorem Act.calm_of_neutral {action : Act} (neutral : action.neutral = true) :
    action.touchesYielding = false := by
  cases action with
  | _ => first | rfl | simp [Act.neutral] at neutral

@[grind ←] theorem Neutral.calm (neutral : Neutral program) : Calm program :=
  Prog.Only.mono neutral fun _ => Act.calm_of_neutral

@[grind ←] theorem calm_holdSession (uid session : String) : Calm (holdSession uid session) :=
  calm_bind (calm_act rfl) fun _ => calm_act rfl

@[grind ←] theorem calm_releaseSession : Calm releaseSession :=
  calm_bind (calm_act rfl) fun _ => calm_act rfl

@[grind ←] theorem calm_release (session : String) : Calm (release session) := by
  unfold release
  split <;> grind

section Verbs

variable (cfg : HomeConfig)

@[grind ←] theorem calm_recordGrant (grant : Grant) (fresh : Option Nat) :
    Calm (recordGrant grant fresh) := by
  unfold recordGrant restoreHeld
  grind

@[grind ←] theorem calm_warmAndRecord (rounds : Nat) (grant : Grant) :
    Calm (warmAndRecord cfg rounds grant) := by
  unfold warmAndRecord
  repeat' first | with_reducible refine calm_bind ?_ fun _ => ?_ | split
  all_goals grind

@[grind ←] theorem calm_admitEntered (rounds : Nat) (grant : Grant) (chan : Nat) :
    Calm (admitEntered cfg rounds grant chan) := by
  unfold admitEntered
  grind

@[grind ←] theorem calm_enterAdmission (grant : Grant) (rounds : Nat) :
    Calm (enterAdmission grant rounds) := by
  induction rounds with
  | zero => exact ⟨rfl, fun never => never.elim⟩
  | succ rounds ih =>
    unfold enterAdmission
    grind

@[grind ←] theorem calm_coreAdmit (rounds : Nat) (grant : Grant) :
    Calm (coreAdmit cfg rounds grant) := by
  unfold coreAdmit admitSlot
  repeat' first | with_reducible refine calm_bind ?_ fun _ => ?_ | split
  all_goals grind

@[grind ←] theorem calm_selfAdmit (rounds : Nat) (grant : Grant) :
    Calm (selfAdmit cfg rounds grant) := by
  unfold selfAdmit
  grind

@[grind ←] theorem calm_runtimeClone (rounds : Nat) (grant : Grant) (kind : Action)
    (fence : Fence) (ref : String) : Calm (runtimeClone cfg rounds grant kind fence ref) := by
  unfold runtimeClone
  grind

@[grind ←] theorem calm_settleBirth (grant : Grant) (session : String) (kind : Action)
    (fence : Fence) (ref endpoint : String) (pooled : Bool) :
    Calm (settleBirth cfg grant session kind fence ref endpoint pooled) := by
  unfold settleBirth rollBack
  grind

@[grind ←] theorem calm_cloneHeld (rounds : Nat) (grant : Grant) (session : String)
    (shedding : Bool) : Calm (cloneHeld cfg rounds grant session shedding) := by
  unfold cloneHeld cloneResolved
  repeat' first | with_reducible refine calm_bind ?_ fun _ => ?_ | split
  all_goals grind

@[grind ←] theorem calm_clone (rounds : Nat) (request : CloneRequest) :
    Calm (clone cfg rounds request) := by
  unfold clone cloneAdmitted
  repeat' first | with_reducible refine calm_bind ?_ fun _ => ?_ | split
  all_goals grind

@[grind ←] theorem calm_park (fiberID : String) (sync : Bool) : Calm (park cfg fiberID sync) := by
  unfold park
  repeat' first | with_reducible refine calm_bind ?_ fun _ => ?_ | split
  all_goals grind

@[grind ←] theorem calm_discard (token session thumbprint : String) :
    Calm (discard cfg token session thumbprint) := by
  unfold discard
  repeat' first | with_reducible refine calm_bind ?_ fun _ => ?_ | split
  all_goals grind

variable {program : Call β}

theorem YieldCourse.after_calm (action : Act) (out : action.Result)
    (calm : action.touchesYielding = false) : YieldCourse.after .idle action out = some .idle := by
  cases action with
  | _ => first | rfl | simp [Act.touchesYielding] at calm

theorem Calm.idles (calm : Calm program) : Returns YieldCourse.after .idle program :=
  Prog.Only.follows calm YieldCourse.after_calm

theorem YieldCourse.after_quiet (action : Act) (out : action.Result) (quiet : action.quiet = true) :
    YieldCourse.after .idle action out = some .idle :=
  YieldCourse.after_calm action out (Act.calm_of_neutral (Act.neutral_of_quiet quiet))

@[grind] def Act.beside : Act → Bool
  | .fibersOf _ | .fiber _ | .onRelease _ | .revokeGrant _ | .yielded => false
  | _ => true

def Beside (program : Call β) : Prop := program.Only fun action => Act.beside action = true

@[grind ←] theorem beside_pure (value : β) : Beside (pure value) := trivial

variable {rest : β → Call γ}

@[grind ←] theorem beside_bind (first : Beside program)
    (second : ∀ value, Beside (rest value)) : Beside (program >>= rest) :=
  Prog.Only.bind first second

@[grind ←] theorem beside_act {action : Act} (beside : Act.beside action = true) :
    Beside (act action) :=
  ⟨beside, fun _ => trivial⟩

@[grind ←] theorem beside_ask (question : Question) : Beside (ask question) :=
  ⟨rfl, fun _ => trivial⟩

@[grind ←] theorem beside_onHost (program : HostCall β) : Beside (onHost program) := by
  induction program with
  | done value => trivial
  | call action next ih => exact ⟨rfl, ih⟩

@[grind ←] theorem beside_audit (level : Durability) (record : CoreRecord) :
    Beside (audit level record) := by
  unfold audit
  exact beside_bind (beside_ask _) fun _ => trivial

@[grind ←] theorem beside_discardDelta (fence : Fence) (session deltaRef : String) :
    Beside (discardDelta cfg fence session deltaRef) := by
  unfold discardDelta retireDelta
  grind

@[grind ←] theorem beside_releaseDevices (uid : String) : Beside (releaseDevices uid) := by
  unfold releaseDevices
  grind

@[grind ←] theorem beside_auditGrant (event uid session detail : String) :
    Beside (auditGrant event uid session detail) := by
  unfold auditGrant
  grind

theorem Beside.stays (beside : Beside program) (course : YieldCourse) :
    program.Follows YieldCourse.after course fun _ later => later = course := by
  refine Prog.Only.follows beside ?_
  intro action result still
  cases course <;> cases action with
  | _ => first | rfl | simp [Act.beside] at still

variable {course : YieldCourse} {post : γ → YieldCourse → Prop}

theorem Beside.past (beside : Beside program)
    (second : ∀ value, (rest value).Follows YieldCourse.after course post) :
    (program >>= rest).Follows YieldCourse.after course post := by
  refine (beside.stays course).bind ?_
  rintro value later rfl
  exact second value

theorem yieldFibers_works (uid reason : String) (fibers : List Ledger.FiberInfo)
    (rest : List String) (listed : rest ⊆ fibers.map Ledger.FiberInfo.id) :
    (yieldFibers cfg reason fibers).Follows YieldCourse.after (.working uid rest)
      fun _ later => later = .working uid [] := by
  induction fibers generalizing rest with
  | nil =>
    rw [List.map_nil, List.subset_nil] at listed
    exact congrArg _ listed
  | cons info fibers ih =>
    have left : rest.filter (· ≠ info.id) ⊆ fibers.map Ledger.FiberInfo.id := by
      intro id mem
      obtain ⟨inside, other⟩ := List.mem_filter.mp mem
      have known := listed inside
      simp only [List.map_cons, List.mem_cons] at known
      exact known.resolve_left (by simpa using other)
    refine follows_act fun got => ?_
    cases got with
    | none => exact ⟨_, rfl, ih _ left⟩
    | some fence =>
      refine ⟨.working uid rest, rfl, ?_⟩
      dsimp only
      refine Beside.past (beside_ask _) fun _ => follows_act fun gone => ⟨_, rfl, ?_⟩
      split
      · refine Beside.past (beside_discardDelta cfg fence _ _) fun _ => ?_
        exact Beside.past (beside_audit _ _) fun _ => ih _ left
      · exact Beside.past (beside_audit _ _) fun _ => ih _ left

theorem yield_works (uid reason : String) :
    Returns YieldCourse.after .idle (yield cfg uid reason) := by
  have revoked : (yieldRevoked cfg uid reason).Follows YieldCourse.after (.revoked uid)
      fun _ later => later = .idle := by
    intro got
    refine ⟨_, rfl, ?_⟩
    rw [if_pos rfl]
    refine (yieldFibers_works cfg uid reason got _ (List.Subset.refl _)).bind ?_
    rintro _ later rfl
    have last : (do
        let _ ← auditGrant "revoke" uid "" reason
        act .yielded : Call Unit).Follows YieldCourse.after (.working uid [])
          fun _ later => later = .idle :=
      (beside_auditGrant _ uid _ _).past fun _ _ => ⟨.idle, rfl, rfl⟩
    split
    · exact (beside_onHost _).past fun _ => last
    · exact last
  refine fun _ => ⟨.revoked uid, rfl, ?_⟩
  exact (beside_releaseDevices uid).past fun _ => revoked

end Verbs

end Call

open Call in
theorem HomeCall.body_works (cfg : HomeConfig) (call : HomeCall) :
    Returns YieldCourse.after .idle (call.body cfg) := by
  cases call with
  | yield uid reason => exact returns_bind (yield_works cfg uid reason) fun _ => rfl
  | remove uid =>
    exact returns_bind (remove_returns cfg YieldCourse.after_quiet (yield_works cfg) uid) fun _ => rfl
  | sweep =>
    exact returns_bind (sweep_returns cfg YieldCourse.after_quiet (yield_works cfg)) fun _ => rfl
  | coreAdmit rounds grant =>
    refine returns_bind (calm_coreAdmit cfg rounds grant).idles fun refusal => ?_
    cases refusal <;> rfl
  | setPooled uid count | startDrain | holdGrant uid =>
    exact returns_bind (calm_act rfl).idles fun _ => rfl
  | _ => exact Calm.idles (by grind [HomeCall.body])

def yieldLayer (config : HomeConfig) : Layer (homeProtocol config) YieldCourse where
  idle := .idle
  after := YieldCourse.after
  inv home _ courses := FibersHoused home courses
  moved := by
    intro home holds courses thread action answer result next later now ok _ housed _ turn ran
    exact housed.moved ok (YieldCourse.after_step turn) ran
  ends _ later := later = .idle
  bodies := HomeCall.body_works config

theorem fibers_housed {cfg : HomeConfig} {threads : HomeThreads}
    (reached : (homeKernel cfg).machine.Reachable threads) (id : String) (ref : FiberRef)
    (got : threads.shared.ledger.fibers.get id = some ref) :
    ∃ origin, threads.shared.system.origins.get id = some origin ∧
      threads.shared.Houses ref.grantUID origin := by
  obtain ⟨first, events, started, run⟩ := reached
  have initial : (yieldLayer cfg).Kept first := by
    refine Layer.kept_of_start started ?_
    obtain ⟨⟨epoch, revoked, _, new⟩, _⟩ := started
    rw [new]
    refine ⟨fun _ => ?_, ?_⟩
    · simp [yieldLayer, YieldAt, newHome]
    · simp [newHome, newSystem, newLedger]
  obtain ⟨has, courses, places⟩ := initial.exec run
  exact places.inv.fibers id ref got

end Fiberd
