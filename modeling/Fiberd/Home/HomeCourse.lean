import Fiberd.Home.HomeDiscipline
import Fiberd.Lib.Layers

/-!
The course of an admission and of a revocation, as the call goes through it: the
slot, the device channel it has in hand, the grant let in, and the held sessions
it still has to restore.
-/

namespace Fiberd

open Heaps Tables Programs

inductive Stage where
  | out
  /-- In the slot of the UID, with its device channel kept or not yet. -/
  | entered (uid : String) (kept : Bool)
  | admitted (uid : String)
  | restoring (uid : String) (rest : List SessionSnapshot)
  deriving DecidableEq

structure Course where
  stage : Stage := .out
  /-- The device channel in the call's hand, neither kept nor released. -/
  channel : Option Nat := none
  /-- The UID the call has revoked and whose channel it has not dropped yet. -/
  revoked : Option String := none
  deriving DecidableEq

namespace Course

def dropped (course : Course) (uid : String) : (action : Act) → action.Result → Option Course
  | .dropChannel other, old =>
    if other = uid ∧ course.channel = none then
      some { course with channel := old, revoked := none }
    else none
  | _, _ => none

def advance (provisions : Bool) (course : Course) : (action : Act) → action.Result → Option Course
  | .enterAdmission uid, slot =>
    match slot with
    | .entered _ =>
      if course.stage = .out then some { course with stage := .entered uid false } else none
    | .inFlight _ => some course
  | .provision uid, provisioned =>
    match provisioned with
    | some channel =>
      if course.stage = .entered uid false ∧ course.channel = none then
        some { course with channel := some channel }
      else none
    | none => some course
  | .keepChannel uid channel, old =>
    if course.stage = .entered uid false ∧ course.channel = some channel then
      some { course with stage := .entered uid true, channel := old }
    else none
  | .dropChannel _, _ => none
  | .releaseChannel channel, _ =>
    if course.channel = some channel then some { course with channel := none } else none
  | .admitGrant grant, _ =>
    if course.stage = .entered grant.uid provisions ∧ course.channel = none then
      some { course with stage := .admitted grant.uid }
    else none
  | .takeHeld uid, snapshots =>
    if course.stage = .admitted uid then some { course with stage := .restoring uid snapshots }
    else none
  | .restoreParked snapshot, _ =>
    match course.stage with
    | .out => some course
    | .restoring uid (head :: rest) =>
      if head = snapshot then some { course with stage := .restoring uid rest } else none
    | _ => none
  | .leaveAdmission uid, _ =>
    if (course.stage = .entered uid false ∨ course.stage = .restoring uid []) ∧
        course.channel = none then some { course with stage := .out }
    else none
  | .revokeGrant uid, _ => if course = {} then some { revoked := some uid } else none
  | _, _ => some course

/-- What the course is after an action and its result, or `none` where it is out of turn. -/
def after (provisions : Bool) (course : Course) (action : Act) (result : action.Result) :
    Option Course :=
  match course.revoked with
  | some uid => course.dropped uid action result
  | none => course.advance provisions action result

end Course

@[grind] def Act.aside : Act → Bool
  | .enterAdmission _ | .provision _ | .keepChannel _ _ | .dropChannel _ | .releaseChannel _
  | .admitGrant _ | .takeHeld _ | .restoreParked _ | .leaveAdmission _ | .revokeGrant _ => false
  | _ => true

variable {course now : Course}

variable {provisions : Bool} {action : Act}

theorem Course.only_drops {uid : String} {out : action.Result} (revoked : course.revoked = some uid)
    (turn : course.after provisions action out = some now) : action = .dropChannel uid := by
  simp only [Course.after, revoked] at turn
  cases action with
  | dropChannel other =>
    simp only [Course.dropped, Option.ite_none_right_eq_some] at turn
    rw [turn.1.1]
  | _ => simp [Course.dropped] at turn

inductive Course.Step (provisions : Bool) (course : Course) :
    (action : Act) → action.Result → Course → Prop
  | aside {action result} (aside : action.aside = true) : Step provisions course action result course
  | waits {uid channel} : Step provisions course (.enterAdmission uid) (.inFlight channel) course
  | enters {uid channel} (out : course.stage = .out) :
      Step provisions course (.enterAdmission uid) (.entered channel)
        { course with stage := .entered uid false }
  | unprovisioned {uid} : Step provisions course (.provision uid) none course
  | provisioned {uid channel} (slot : course.stage = .entered uid false)
      (free : course.channel = none) :
      Step provisions course (.provision uid) (some channel)
        { course with channel := some channel }
  | keeps {uid channel old} (slot : course.stage = .entered uid false)
      (inHand : course.channel = some channel) :
      Step provisions course (.keepChannel uid channel) old
        { course with stage := .entered uid true, channel := old }
  | drops {uid old} (revoked : course.revoked = some uid) (free : course.channel = none) :
      Step provisions course (.dropChannel uid) old
        { course with channel := old, revoked := none }
  | releases {channel} (inHand : course.channel = some channel) :
      Step provisions course (.releaseChannel channel) () { course with channel := none }
  | admits {grant} (slot : course.stage = .entered grant.uid provisions)
      (free : course.channel = none) :
      Step provisions course (.admitGrant grant) () { course with stage := .admitted grant.uid }
  | takes {uid snapshots} (slot : course.stage = .admitted uid) :
      Step provisions course (.takeHeld uid) snapshots
        { course with stage := .restoring uid snapshots }
  | registers {snapshot error} (out : course.stage = .out) :
      Step provisions course (.restoreParked snapshot) error course
  | restores {uid snapshot rest error} (slot : course.stage = .restoring uid (snapshot :: rest)) :
      Step provisions course (.restoreParked snapshot) error
        { course with stage := .restoring uid rest }
  | leaves {uid} (slot : course.stage = .entered uid false ∨ course.stage = .restoring uid [])
      (free : course.channel = none) :
      Step provisions course (.leaveAdmission uid) () { course with stage := .out }
  | revokes {uid} (idle : course = {}) :
      Step provisions course (.revokeGrant uid) () { revoked := some uid }

theorem Course.advance_step
    {result : action.Result} (turn : course.advance provisions action result = some now) :
    course.Step provisions action result now := by
  cases action with
  | enterAdmission uid =>
    cases result with
    | inFlight chan =>
      cases turn
      exact .waits
    | entered chan =>
      replace turn := passed_eq turn
      exact turn.2 ▸ .enters turn.1
  | provision uid =>
    cases result with
    | none =>
      cases turn
      exact .unprovisioned
    | some chan =>
      replace turn := passed_eq turn
      exact turn.2 ▸ .provisioned turn.1.1 turn.1.2
  | keepChannel uid chan =>
    replace turn := passed_eq turn
    exact turn.2 ▸ .keeps turn.1.1 turn.1.2
  | dropChannel uid => cases turn
  | releaseChannel chan =>
    replace turn := passed_eq turn
    exact turn.2 ▸ .releases turn.1
  | admitGrant grant =>
    replace turn := passed_eq turn
    exact turn.2 ▸ .admits turn.1.1 turn.1.2
  | takeHeld uid =>
    replace turn := passed_eq turn
    exact turn.2 ▸ .takes turn.1
  | restoreParked snap =>
    simp only [Course.advance] at turn
    split at turn
    · rename_i out
      cases turn
      exact .registers out
    · rename_i uid head rest place
      simp only [Option.ite_none_right_eq_some, Option.some.injEq] at turn
      obtain ⟨rfl, rfl⟩ := turn
      exact .restores place
    · simp at turn
  | leaveAdmission uid =>
    replace turn := passed_eq turn
    exact turn.2 ▸ .leaves turn.1.1 turn.1.2
  | revokeGrant uid =>
    replace turn := passed_eq turn
    exact turn.2 ▸ .revokes turn.1
  | _ =>
    cases turn
    exact .aside rfl

theorem Course.after_step
    {out : action.Result} (turn : course.after provisions action out = some now) :
    course.Step provisions action out now := by
  cases revoked : course.revoked with
  | none =>
    simp only [Course.after, revoked] at turn
    exact Course.advance_step turn
  | some uid =>
    obtain rfl := Course.only_drops revoked turn
    simp only [Course.after, revoked, Course.dropped, Option.ite_none_right_eq_some,
      Option.some.injEq] at turn
    exact turn.2 ▸ .drops revoked turn.1.2

theorem Act.aside_of_quiet (quiet : action.quiet = true) : action.aside = true := by
  cases action with
  | _ => first | rfl | simp [Act.quiet, Act.neutral] at quiet

namespace Call

variable {β γ : Type}

def Aside (program : Call β) : Prop := program.Only fun action => action.aside = true

variable {program : Call β}

@[grind ←] theorem Quiet.aside (quiet : Quiet program) : Aside program :=
  Prog.Only.mono quiet fun _ => Act.aside_of_quiet

@[grind ←] theorem aside_bind {rest : β → Call γ} (first : Aside program)
    (second : ∀ value, Aside (rest value)) : Aside (program >>= rest) :=
  Prog.Only.bind first second

@[grind ←] theorem aside_act {action : Act} (aside : action.aside = true) : Aside (act action) :=
  ⟨aside, fun _ => trivial⟩

@[grind ←] theorem aside_onHost (program : HostCall β) : Aside (onHost program) := by
  induction program with
  | done value => trivial
  | call action next ih => exact ⟨rfl, ih⟩

@[grind ←] theorem aside_holdSession (uid session : String) : Aside (holdSession uid session) :=
  aside_bind (aside_act rfl) fun _ => aside_act rfl

@[grind ←] theorem aside_releaseSession : Aside releaseSession :=
  aside_bind (aside_act rfl) fun _ => aside_act rfl

@[grind ←] theorem aside_release (session : String) : Aside (release session) := by
  unfold release
  split <;> grind

section Verbs

variable (cfg : HomeConfig)

@[grind ←] theorem aside_runtimeClone (rounds : Nat) (grant : Grant) (kind : Action)
    (fence : Fence) (ref : String) : Aside (runtimeClone cfg rounds grant kind fence ref) := by
  unfold runtimeClone
  grind

@[grind ←] theorem aside_rollBack (fence : Fence) (endpoint : String) (pooled : Bool) :
    Aside (rollBack cfg fence endpoint pooled) := by
  unfold rollBack
  grind

@[grind ←] theorem aside_settleBirth (grant : Grant) (session : String) (kind : Action)
    (fence : Fence) (ref endpoint : String) (pooled : Bool) :
    Aside (settleBirth cfg grant session kind fence ref endpoint pooled) := by
  unfold settleBirth
  grind

@[grind ←] theorem aside_cloneResolved (rounds : Nat) (grant : Grant) (session : String)
    (shedding : Bool) (kind : Action) (fence : Fence) (ref : String) :
    Aside (cloneResolved cfg rounds grant session shedding kind fence ref) := by
  unfold cloneResolved
  grind

@[grind ←] theorem aside_cloneHeld (rounds : Nat) (grant : Grant) (session : String)
    (shedding : Bool) : Aside (cloneHeld cfg rounds grant session shedding) := by
  unfold cloneHeld
  grind

@[grind ←] theorem aside_park (fiberID : String) (sync : Bool) : Aside (park cfg fiberID sync) := by
  unfold park
  repeat' first | with_reducible refine aside_bind ?_ fun _ => ?_ | split
  all_goals grind

@[grind ←] theorem aside_discard (token session thumbprint : String) :
    Aside (discard cfg token session thumbprint) := by
  unfold discard
  repeat' first | with_reducible refine aside_bind ?_ fun _ => ?_ | split
  all_goals grind

@[grind ←] theorem aside_yieldRevoked (uid reason : String) :
    Aside (yieldRevoked cfg uid reason) := by
  unfold yieldRevoked
  grind

end Verbs

def Keeps (provisions : Bool) (program : Call β) (course : Course) (post : β → Course → Prop) :
    Prop :=
  program.Follows (Course.after provisions) course post

section Keeps

variable {provisions : Bool} {course : Course} {program : Call β}

variable {rest : β → Call γ} {post : γ → Course → Prop}

theorem Keeps.bind {mid : β → Course → Prop} (first : Keeps provisions program course mid)
    (second : ∀ value later, mid value later → Keeps provisions (rest value) later post) :
    Keeps provisions (program >>= rest) course post :=
  Prog.Follows.bind first second

theorem Course.after_aside {action : Act} (settled : course.revoked = none) (out : action.Result)
    (aside : action.aside = true) : course.after provisions action out = some course := by
  simp only [Course.after, settled]
  cases action with
  | _ => first | rfl | simp [Act.aside] at aside

theorem Aside.keeps (aside : Aside program) (settled : course.revoked = none) :
    Keeps provisions program course fun _ later => later = course :=
  Prog.Only.follows aside fun _ => Course.after_aside settled

theorem Course.after_quiet (action : Act) (out : action.Result) (quiet : action.quiet = true) :
    Course.after provisions {} action out = some {} :=
  Course.after_aside rfl out (Act.aside_of_quiet quiet)

theorem Aside.bind (aside : Aside program) (settled : course.revoked = none)
    (second : ∀ value, Keeps provisions (rest value) course post) :
    Keeps provisions (program >>= rest) course post := by
  refine (aside.keeps settled).bind ?_
  intro value later same
  exact same ▸ second value

end Keeps

section Courses

variable (cfg : HomeConfig)

def inSlot (uid : String) (channel : Option Nat) : Course :=
  { stage := .entered uid false, channel := channel }

theorem refuseDevices_keeps (uid : String) (fresh : Option Nat) :
    Keeps cfg.provisions (refuseDevices cfg uid fresh) (inSlot uid fresh) fun _ later =>
      later = inSlot uid none := by
  have last : Keeps cfg.provisions (refuseDevices cfg uid none) (inSlot uid none) fun _ later =>
      later = inSlot uid none := by
    refine Aside.keeps (aside_bind (aside_act rfl) fun got => ?_) rfl
    split
    · split <;> grind
    · grind
  cases fresh with
  | none => exact last
  | some chan => exact follows_act fun _ => ⟨inSlot uid none, if_pos rfl, last⟩

theorem provision_keeps (grant : Grant) :
    Keeps cfg.provisions (provision cfg grant) (inSlot grant.uid none) fun fresh later =>
      match fresh with
      | none => later = inSlot grant.uid none
      | some chan => later = inSlot grant.uid chan ∧ chan.isSome = cfg.provisions := by
  unfold provision
  split
  · rename_i provisions
    refine follows_act fun provisioned => ?_
    cases provisioned with
    | none => exact ⟨_, rfl, rfl⟩
    | some chan =>
      refine ⟨inSlot grant.uid (some chan), if_pos ⟨rfl, rfl⟩, ?_⟩
      dsimp only
      split
      · exact Aside.bind (aside_act rfl) rfl fun _ => ⟨rfl, provisions.symm⟩
      · exact ⟨rfl, provisions.symm⟩
  · rename_i without
    exact ⟨rfl, by simpa using without⟩

theorem keepDevices_keeps (uid : String) (fresh : Option Nat) :
    Keeps cfg.provisions (keepDevices uid fresh) (inSlot uid fresh) fun _ later =>
      later = { stage := .entered uid fresh.isSome } := by
  unfold keepDevices
  cases fresh with
  | none => rfl
  | some channel =>
    refine follows_act fun old => ⟨{ stage := .entered uid true, channel := old },
      if_pos ⟨rfl, rfl⟩, ?_⟩
    cases old with
    | none => rfl
    | some old => exact fun _ => ⟨_, if_pos rfl, rfl⟩

theorem restoreAll_keeps (uid : String) (snapshots : List SessionSnapshot) :
    Keeps cfg.provisions (restoreAll snapshots) { stage := .restoring uid snapshots }
      fun _ later => later = { stage := .restoring uid [] } := by
  induction snapshots with
  | nil => rfl
  | cons snap rest ih =>
    exact follows_act fun _ => ⟨{ stage := .restoring uid rest }, if_pos rfl, ih⟩

theorem recordGrant_keeps (grant : Grant) (fresh : Option Nat)
    (provisioned : fresh.isSome = cfg.provisions) :
    Keeps cfg.provisions (recordGrant grant fresh) (inSlot grant.uid fresh) fun _ later =>
      later = { stage := .restoring grant.uid [] } := by
  refine (keepDevices_keeps cfg grant.uid fresh).bind ?_
  rintro _ _ rfl
  refine follows_act fun _ => ⟨{ stage := .admitted grant.uid }, ?_, ?_⟩
  · simp [Course.after, Course.advance, provisioned]
  · have restored : Keeps cfg.provisions (restoreHeld grant.uid)
        { stage := .admitted grant.uid } fun _ later =>
          later = { stage := .restoring grant.uid [] } :=
      follows_act fun held => ⟨{ stage := .restoring grant.uid held }, if_pos rfl,
        restoreAll_keeps cfg grant.uid held⟩
    refine restored.bind ?_
    rintro _ _ rfl
    exact Aside.bind (by grind) rfl fun _ => rfl

def Leaves (uid : String) (later : Course) : Prop :=
  later = inSlot uid none ∨ later = { stage := .restoring uid [] }

theorem warmAndRecord_keeps (rounds : Nat) (grant : Grant) :
    Keeps cfg.provisions (warmAndRecord cfg rounds grant) (inSlot grant.uid none)
      fun _ later => Leaves grant.uid later := by
  refine (provision_keeps cfg grant).bind ?_
  intro provisioned later place
  cases provisioned with
  | none =>
    simp only at place
    subst later
    exact Prog.Follows.mono (Aside.keeps (by grind) rfl) fun _ _ => .inl
  | some fresh =>
    obtain ⟨rfl, provisioned⟩ := place
    have refuses : ∀ rest : Call (Option Refusal), Aside rest →
        Keeps cfg.provisions (refuseDevices cfg grant.uid fresh >>= fun _ => rest)
          (inSlot grant.uid fresh) fun _ later => Leaves grant.uid later := by
      intro rest aside
      refine (refuseDevices_keeps cfg grant.uid fresh).bind ?_
      rintro _ _ rfl
      exact Prog.Follows.mono (aside.keeps rfl) fun _ _ => .inl
    refine Aside.bind (aside_onHost _) rfl fun ready => ?_
    split
    · refine Aside.bind (by grind) rfl fun gap => ?_
      cases gap with
      | some error => exact refuses _ (by grind)
      | none =>
        exact Prog.Follows.mono (recordGrant_keeps cfg grant fresh provisioned)
          fun _ _ => .inr
    · exact refuses _ (by grind)

theorem admitEntered_keeps (rounds : Nat) (grant : Grant) (chan : Nat) :
    Keeps cfg.provisions (admitEntered cfg rounds grant chan) (inSlot grant.uid none)
      fun _ later => Leaves grant.uid later := by
  refine Aside.bind (by grind) rfl fun now => Aside.bind (aside_act rfl) rfl fun refused => ?_
  split
  · exact Prog.Follows.mono (Aside.keeps (by grind) rfl) fun _ _ => .inl
  · refine Aside.bind (aside_act rfl) rfl fun got => ?_
    split
    · split
      · exact .inl rfl
      · exact warmAndRecord_keeps cfg rounds grant
    · exact warmAndRecord_keeps cfg rounds grant

theorem enterAdmission_keeps (grant : Grant) (rounds : Nat) :
    Keeps cfg.provisions (enterAdmission grant rounds) {} fun entry later =>
      match entry with
      | .entered _ => later = inSlot grant.uid none
      | _ => later = {} := by
  induction rounds with
  | zero => exact fun never => never.elim
  | succ rounds ih =>
    refine follows_act fun slot => ?_
    cases slot with
    | entered chan => exact ⟨_, rfl, rfl⟩
    | inFlight chan =>
      refine ⟨{}, rfl, Aside.bind (aside_act rfl) rfl fun closed => ?_⟩
      split
      · refine Aside.bind (aside_act rfl) rfl fun got => ?_
        split
        · split
          · rfl
          · exact ih
        · exact ih
      · rfl

theorem selfAdmit_keeps (rounds : Nat) (grant : Grant) :
    Returns (Course.after cfg.provisions) {} (coreAdmit cfg rounds grant) ∧
      Returns (Course.after cfg.provisions) {} (selfAdmit cfg rounds grant) := by
  refine selfAdmit_returns cfg Course.after_quiet (fun grant => ?_) grant
  refine (enterAdmission_keeps cfg grant rounds).bind fun entry later entered => ?_
  cases entry with
  | shared => exact entered
  | ended => exact entered
  | entered chan =>
    simp only at entered
    subst later
    refine (admitEntered_keeps cfg rounds grant chan).bind ?_
    rintro refusal later place
    refine follows_act fun _ => ⟨{}, ?_, Aside.bind (aside_act rfl) rfl fun _ => rfl⟩
    rcases place with rfl | rfl <;> simp [Course.after, Course.advance, inSlot]

theorem yield_keeps (uid reason : String) :
    Returns (Course.after cfg.provisions) {} (yield cfg uid reason) := by
  have dropped : Keeps cfg.provisions (releaseDevices uid) { revoked := some uid }
      fun _ later => later = {} := by
    refine follows_act fun old => ⟨{ channel := old }, if_pos ⟨rfl, rfl⟩, ?_⟩
    cases old with
    | none => rfl
    | some channel => exact fun _ => ⟨_, if_pos rfl, rfl⟩
  have revoked : Returns (Course.after cfg.provisions) {} (revoke uid) :=
    follows_act fun _ => ⟨{ revoked := some uid }, by simp [Course.after, Course.advance], dropped⟩
  exact returns_bind revoked fun _ => Aside.keeps (by grind) rfl

theorem clone_keeps (rounds : Nat) (request : CloneRequest) :
    Returns (Course.after cfg.provisions) {} (clone cfg rounds request) := by
  have locates : ∀ grant, Returns (Course.after cfg.provisions) {}
      (locate cfg grant request.session) := by
    intro grant
    unfold locate findRemote claim migrateIn
    repeat' first | with_reducible refine returns_bind ?_ fun _ => ?_ | split | dsimp only
    all_goals first | exact fun _ => ⟨{}, rfl, rfl⟩ | exact Aside.keeps (by grind) rfl
  unfold clone cloneAdmitted
  repeat' first | with_reducible refine returns_bind ?_ fun _ => ?_ | split
  all_goals first
    | exact (selfAdmit_keeps cfg rounds _).2
    | exact locates _
    | exact Aside.keeps (by grind) rfl

end Courses

end Call

open Call in
theorem HomeCall.body_keeps (cfg : HomeConfig) (call : HomeCall) :
    Returns (Course.after cfg.provisions) {} (call.body cfg) := by
  cases call with
  | clone rounds request => exact clone_keeps cfg rounds request
  | coreAdmit rounds grant =>
    exact returns_bind (selfAdmit_keeps cfg rounds grant).1 fun refusal => by cases refusal <;> rfl
  | yield uid reason => exact returns_bind (yield_keeps cfg uid reason) fun _ => rfl
  | remove uid =>
    exact returns_bind (remove_returns cfg Course.after_quiet (yield_keeps cfg) uid) fun _ => rfl
  | sweep =>
    exact returns_bind (sweep_returns cfg Course.after_quiet (yield_keeps cfg)) fun _ => rfl
  | reconcileParked snap =>
    refine returns_bind (returns_bind (fun _ => ⟨{}, rfl, rfl⟩) fun held => ?_) fun _ => rfl
    split
    · exact fun _ => ⟨{}, rfl, rfl⟩
    · rfl
  | park fiberID sync | discard token session thumbprint | release fiberID dropped
  | bumpEpoch reason => exact Aside.keeps (by grind [HomeCall.body]) rfl
  | exit ended => exact Aside.bind (quiet_onExit cfg ended).aside rfl fun _ => rfl
  | redeliver uid => exact Aside.bind (quiet_redeliver uid).aside rfl fun _ => rfl
  | sample => exact Aside.bind quiet_sample.aside rfl fun _ => rfl
  | setPooled uid count | startDrain | holdGrant uid =>
    exact Aside.bind (aside_act rfl) rfl fun _ => rfl
  | instanceDied uid number => exact Aside.bind (aside_onHost _) rfl fun _ => rfl

def Stage.uid? : Stage → Option String
  | .out => none
  | .entered uid _ => some uid
  | .admitted uid => some uid
  | .restoring uid _ => some uid

def Act.slotted : Act → Bool
  | .enterAdmission _ | .denied _ _ _ (some _) | .leaveAdmission _ | .closeAdmission _ => true
  | _ => false

variable {holds later : Local}

theorem Local.after_slot {out : action.Result}
    (turn : holds.after action out = some later) (plain : action.slotted = false) :
    later.slot = holds.slot := by
  cases action with
  | denied uid lease now slot =>
    cases slot with
    | none =>
      replace turn := Option.some.inj turn
      rw [← turn]
    | some chan => simp [Act.slotted] at plain
  | host action =>
    obtain ⟨template, _, rfl⟩ := Option.map_eq_some_iff.mp turn
    rfl
  | resolve uid session tier =>
    replace turn := passed_eq turn
    rw [← turn.2]
    cases out <;> rfl
  | _ =>
    simp only [Local.after] at turn
    repeat' split at turn
    all_goals
      first
      | (cases turn; rfl)
      | (cases turn; done)
      | simp [Act.slotted] at plain

theorem Course.Step.uid_eq {out : action.Result} (step : course.Step provisions action out now)
    (plain : action.slotted = false) : now.stage.uid? = course.stage.uid? := by
  cases step with
  | keeps slot _ | admits slot _ | takes slot | restores slot => simp [slot, Stage.uid?]
  | revokes idle => rw [idle]
  | enters _ | leaves _ _ => simp [Act.slotted] at plain
  | _ => rfl

theorem Course.Step.channel_eq {out : action.Result} (step : course.Step provisions action out now)
    (plain : action.touchesDevices = false) : now.channel = course.channel := by
  cases step with
  | provisioned _ _ | keeps _ _ | drops _ _ | releases _ => simp [Act.touchesDevices] at plain
  | revokes idle => rw [idle]
  | _ => rfl

def InStep (holds : Local) (course : Course) : Prop :=
  ∀ uid, course.stage.uid? = some uid → ∃ channel passed, holds.slot = .entered uid channel passed

theorem InStep.after {out : action.Result} (inStep : InStep holds course)
    (turn : holds.after action out = some later)
    (moves : course.Step provisions action out now) : InStep later now := by
  by_cases plain : action.slotted = false
  · intro uid place
    rw [moves.uid_eq plain] at place
    rw [Local.after_slot turn plain]
    exact inStep uid place
  · cases moves with
    | aside aside =>
      intro uid place
      obtain ⟨chan, passed, entered⟩ := inStep uid place
      cases action with
      | denied other lease time slot =>
        cases slot with
        | none => simp [Act.slotted] at plain
        | some got =>
          obtain ⟨mine, rfl⟩ := passed_eq turn
          rw [mine, SlotHold.entered.injEq] at entered
          exact ⟨got, !out, by rw [entered.1]⟩
      | closeAdmission chan =>
        simp only [Local.after, Option.ite_none_right_eq_some] at turn
        simp [turn.1] at entered
      | _ =>
        first
        | (simp [Act.slotted] at plain; done)
        | simp [Act.aside] at aside
    | waits =>
      replace turn := passed_eq turn
      exact turn.2 ▸ inStep
    | @enters entered chan _ =>
      replace turn := passed_eq turn
      intro uid place
      simp only [Stage.uid?, Option.some.injEq] at place
      exact ⟨chan, false, by rw [← turn.2, place]⟩
    | leaves _ _ =>
      intro uid place
      simp [Stage.uid?] at place
    | _ => simp [Act.slotted] at plain

theorem InStep.alone {home : Home} {first second : Nat} {one other : Local}
    {beside : Course} (uid : String) (here : LocalAt first one home)
    (there : LocalAt second other home) (inStep : InStep one course)
    (alongside : InStep other beside) (mine : course.stage.uid? = some uid)
    (its : beside.stage.uid? = some uid) : first = second := by
  obtain ⟨chan, passed, slot⟩ := inStep uid mine
  obtain ⟨got, through, place⟩ := alongside uid its
  have owner := here.slot
  have owns := there.slot
  rw [slot] at owner
  rw [place] at owns
  have same : chan = got := Option.some.inj (owner.1.symm.trans owns.1)
  rw [← owner.2.1, same]
  exact owns.2.1

end Fiberd
