import Fiberd.Home.HomeNeutral

/-!
Every call of the home takes its gates, its resolution, its slots and its templates
in turn.
-/

namespace Fiberd

open Heaps Tables Programs

def Local.preparing (holds : Local) (uid : String) (channel : Nat) (stage : PrepStage) : Local :=
  { holds with template := { holds.template with prep := .within uid channel stage } }

def Local.warm (holds : Local) (uid : String) : Local :=
  { holds with template := holds.template.found holds.slot uid }

namespace Call

variable {β γ : Type}

theorem onHost_bind (program : HostCall β) (rest : β → HostCall γ) :
    onHost (program >>= rest) = onHost program >>= fun value => onHost (rest value) := by
  induction program with
  | done value => rfl
  | call action next ih => exact congrArg (Prog.call (Act.host action)) (funext ih)

def HostTakes (program : HostCall β) (holds : Local) (post : β → Local → Prop) : Prop :=
  Takes (onHost program) holds post

section Host

variable {holds : Local} {program : HostCall β}

variable {post : γ → Local → Prop}

theorem HostTakes.bind {rest : β → HostCall γ} {mid : β → Local → Prop}
    (first : HostTakes program holds mid)
    (second : ∀ value later, mid value later → HostTakes (rest value) later post) :
    HostTakes (program >>= rest) holds post := by
  rw [HostTakes, onHost_bind]
  exact Takes.bind first second

theorem hostNeutral_takes (neutral : HostCall.Neutral program) :
    HostTakes program holds fun _ later => later = holds :=
  Neutral.takes (neutral_onHost neutral) holds

theorem hostNeutral_bind {rest : β → HostCall γ} (neutral : HostCall.Neutral program)
    (second : ∀ value, HostTakes (rest value) holds post) :
    HostTakes (program >>= rest) holds post := by
  refine (hostNeutral_takes neutral).bind ?_
  intro value later same
  exact same ▸ second value

theorem hostTakes_act {action : HostAct} {rest : action.Result → HostCall γ}
    (step : ∀ out, ∃ template, holds.template.after holds.slot action out = some template ∧
      HostTakes (rest out) { holds with template := template } post) :
    HostTakes (HostCall.act action >>= rest) holds post := by
  intro out
  obtain ⟨template, may, takes⟩ := step out
  exact ⟨_, Option.map_eq_some_iff.mpr ⟨template, may, rfl⟩, takes⟩

theorem HostTakes.mono {post weaker : β → Local → Prop} (takes : HostTakes program holds post)
    (weaken : ∀ value later, post value later → weaker value later) :
    HostTakes program holds weaker :=
  Takes.mono takes weaken

end Host

section Templates

variable (holds : Local) (uid : String) (channel : Nat)

def warmedBy (number : Option Nat) : PrepStage :=
  match number with
  | some number => .warmed number
  | none => .opened

theorem warmBackend_takes :
    HostTakes (HostCall.warmBackend uid) (holds.preparing uid channel .opened)
      fun number later => later = holds.preparing uid channel (warmedBy number) := by
  refine hostNeutral_bind (by grind) fun able => ?_
  split
  · exact hostTakes_act fun number => ⟨_, if_pos rfl, rfl⟩
  · rfl

theorem unwarm_takes {number : Nat} {rest : Unit → HostCall γ} {post : γ → Local → Prop}
    (takes : HostTakes (rest ()) (holds.preparing uid channel .opened) post) :
    HostTakes (HostCall.act (.unwarm uid) >>= rest) (holds.preparing uid channel (.warmed number))
      post :=
  hostTakes_act fun _ => ⟨_, if_pos rfl, takes⟩

theorem warmBesideEngine_takes (rounds : Nat) :
    HostTakes (HostCall.warmBesideEngine uid rounds) (holds.preparing uid channel .opened)
      fun outcome later => later = holds.preparing uid channel (warmedBy outcome.1) := by
  refine hostNeutral_bind (by grind) fun first => ?_
  split
  · refine (warmBackend_takes holds uid channel).bind ?_
    rintro number _ rfl
    exact hostNeutral_bind (by grind) fun _ => rfl
  · refine hostNeutral_bind (by grind) fun entered => hostNeutral_bind (by grind) fun between => ?_
    split
    · refine (warmBackend_takes holds uid channel).bind ?_
      rintro number _ rfl
      exact hostNeutral_bind (by grind) fun _ => rfl
    · refine hostNeutral_bind (by grind) fun engine => ?_
      refine (warmBackend_takes holds uid channel).bind ?_
      rintro number _ rfl
      rfl

theorem warmWithEngine_takes (rounds : Nat) :
    HostTakes (HostCall.warmWithEngine uid rounds) (holds.preparing uid channel .opened)
      fun number later => later = holds.preparing uid channel (warmedBy number) := by
  refine hostNeutral_bind (by grind) fun made => ?_
  split
  · refine hostNeutral_bind (HostCall.neutral_act rfl) fun _ => ?_
    refine (warmBesideEngine_takes holds uid channel rounds).bind ?_
    rintro ⟨number, engine⟩ _ rfl
    cases number with
    | none =>
      cases engine with
      | none => rfl
      | some got =>
        dsimp only
        split
        · exact hostNeutral_bind (by grind) fun _ => rfl
        · rfl
    | some number =>
      cases engine with
      | none => exact unwarm_takes holds uid channel rfl
      | some got =>
        refine hostNeutral_bind (by grind) fun relays => ?_
        split
        · rfl
        · refine unwarm_takes holds uid channel ?_
          dsimp only
          split
          · exact hostNeutral_bind (by grind) fun _ => rfl
          · rfl
  · rfl

variable (cfg : HostConfig) (rounds : Nat) (grant : Grant)

theorem warmInstance_takes : HostTakes (HostCall.warmInstance cfg rounds grant)
      (holds.preparing grant.uid channel .opened)
      fun number later => later = holds.preparing grant.uid channel (warmedBy number) := by
  refine hostNeutral_bind (by grind) fun made => ?_
  split
  · split
    · exact warmWithEngine_takes holds grant.uid channel rounds
    · exact warmBackend_takes holds grant.uid channel
  · rfl

theorem warmTemplate_takes :
    HostTakes (HostCall.warmTemplate cfg rounds grant)
      (holds.preparing grant.uid channel .opened) fun ready later =>
        ∃ stage, later = if ready then (holds.warm grant.uid).preparing grant.uid channel stage
          else holds.preparing grant.uid channel stage := by
  refine hostNeutral_bind (by grind) fun mapped => ?_
  split
  · refine hostNeutral_bind (by grind) fun resolved => ?_
    split
    · refine hostNeutral_bind (by grind) fun snap => ?_
      refine (warmInstance_takes holds channel cfg rounds grant).bind ?_
      rintro number _ rfl
      cases number with
      | some number =>
        refine hostTakes_act fun _ => ⟨_, if_pos ⟨rfl, rfl⟩, .published, ?_⟩
        simp only [Local.preparing, Local.warm, TemplateHold.found, if_true]
        split
        · split <;> rfl
        · rfl
      | none => exact hostNeutral_bind (by grind) fun _ => ⟨.opened, rfl⟩
    · exact ⟨.opened, rfl⟩
  · exact ⟨.opened, rfl⟩

section

variable (out : holds.template.prep = .out)
include out

theorem enterPrepare_takes :
    HostTakes (HostCall.enterPrepare uid rounds) holds fun entry later =>
      match entry with
      | .warm => later = holds.warm uid
      | .ended => later = holds
      | .entered channel => later = holds.preparing uid channel .opened := by
  induction rounds with
  | zero => exact fun never => never.elim
  | succ rounds ih =>
    refine hostTakes_act fun slot => ?_
    cases slot with
    | warm | entered channel => exact ⟨_, if_pos out, rfl⟩
    | running channel =>
      refine ⟨_, if_pos out, hostNeutral_bind (HostCall.neutral_act rfl) fun closed => ?_⟩
      split
      · exact ih
      · rfl

theorem leavePrepare_takes {stage : PrepStage} {ready : Bool} :
    HostTakes (do
      HostCall.act (.leavePrepare uid)
      HostCall.act (.closePrepare channel)
      pure ready) (holds.preparing uid channel stage) fun value later =>
        value = ready ∧ later = holds := by
  obtain ⟨_, _, _, _, ⟨prep, _, _, _⟩⟩ := holds
  obtain rfl : prep = .out := out
  refine hostTakes_act fun _ => ⟨_, if_pos rfl, ?_⟩
  exact hostNeutral_bind (HostCall.neutral_act rfl) fun _ => ⟨rfl, rfl⟩

theorem prepareSlot_takes :
    HostTakes (HostCall.prepareSlot cfg rounds grant) holds fun ready later =>
      later = if ready then holds.warm grant.uid else holds := by
  refine (enterPrepare_takes holds grant.uid rounds out).bind ?_
  intro entry later entered
  cases entry with
  | warm => exact entered
  | ended => exact entered
  | entered channel =>
    simp only at entered
    subst later
    refine (warmTemplate_takes holds channel cfg rounds grant).bind ?_
    rintro ready _ ⟨stage, rfl⟩
    cases ready with
    | true =>
      have still : (holds.warm grant.uid).template.prep = .out := by
        simp only [Local.warm, TemplateHold.found]
        repeat' split
        all_goals exact out
      refine (leavePrepare_takes (holds.warm grant.uid) grant.uid channel still).mono ?_
      rintro _ _ ⟨rfl, rfl⟩
      rfl
    | false =>
      refine (leavePrepare_takes holds grant.uid channel out).mono ?_
      rintro _ _ ⟨rfl, rfl⟩
      rfl

theorem prepareTemplate_takes :
    HostTakes (HostCall.prepareTemplate cfg rounds grant) holds fun ready later =>
      later = if ready then holds.warm grant.uid else holds := by
  unfold HostCall.prepareTemplate
  split
  · split
    · refine hostNeutral_bind (by grind) fun known => ?_
      split
      · exact prepareSlot_takes holds cfg rounds grant out
      · rfl
    · rfl
  · exact prepareSlot_takes holds cfg rounds grant out

theorem needWarm_takes (free : holds.slot = .out) :
    HostTakes (HostCall.needWarm cfg rounds grant) holds fun _ later => later = holds := by
  have warm : holds.warm grant.uid = holds := by
    obtain ⟨_, _, slot, _, _⟩ := holds
    simp only at free
    subst slot
    rfl
  refine hostNeutral_bind (HostCall.neutral_act rfl) fun got => ?_
  cases got with
  | some _ => rfl
  | none =>
    refine (prepareTemplate_takes holds cfg rounds grant out).bind ?_
    rintro ready _ rfl
    simp only [warm, ite_self]
    split
    · exact hostNeutral_bind (HostCall.neutral_act rfl) fun _ => rfl
    · rfl

end

def revokedHold (uid : String) : Local := { template := { drop := .revoked uid } }

def takenHold (uid : String) : Local := { template := { drop := .taken uid } }

theorem dropTemplate_takes : HostTakes (HostCall.dropTemplate uid) (revokedHold uid) fun _ later =>
      later = takenHold uid := by
  refine hostTakes_act fun warm => ⟨_, if_pos rfl, ?_⟩
  refine hostNeutral_bind (HostCall.neutral_act rfl) fun _ => ?_
  refine hostNeutral_bind (by grind) fun _ => ?_
  cases warm with
  | none => exact hostNeutral_takes (HostCall.neutral_act rfl)
  | some warm =>
    refine hostTakes_act fun _ => ⟨_, if_pos rfl, ?_⟩
    refine hostNeutral_bind (by grind) fun _ => ?_
    exact hostNeutral_takes (HostCall.neutral_act rfl)

theorem instanceDied_takes (number : Nat) :
    HostTakes (HostCall.instanceDied uid number) {} fun _ later => later = {} := by
  refine hostTakes_act fun _ => ⟨{ lost := some uid }, rfl, ?_⟩
  refine hostTakes_act fun gone => ⟨{}, if_pos rfl, ?_⟩
  cases gone with
  | none => rfl
  | some warm =>
    refine hostNeutral_bind (HostCall.neutral_act rfl) fun _ => ?_
    cases warm with
    | some warm => exact hostNeutral_takes (by grind)
    | none => rfl

end Templates

theorem holdSession_takes (uid session : String) :
    Takes (holdSession uid session) {} fun _ later =>
      later = { gate := .locked (sessionKey uid session) } :=
  fun _ => ⟨_, rfl, fun _ => ⟨_, rfl, rfl⟩⟩

theorem releaseSession_takes (key : String) (fence : Option Fence) :
    Takes releaseSession { gate := .locked key, fence := fence } fun _ later =>
      later = { fence := fence } :=
  fun _ => ⟨_, rfl, fun _ => ⟨_, rfl, rfl⟩⟩

def held (uid session : String) : Local :=
  if session = "" then {} else { gate := .locked (sessionKey uid session) }

def resolving (uid session : String) (fence : Fence) (fresh : Bool) : Local :=
  { held uid session with
    opened := some {
      key := if session = "" then none else some (sessionKey uid session)
      fresh := fresh }
    fence := some fence }

theorem release_takes (uid session : String) (fence : Option Fence) :
    Takes (release session) { held uid session with fence := fence } fun _ later =>
      later = { fence := fence } := by
  unfold release held
  split
  · rfl
  · exact releaseSession_takes _ fence

section Admissions

variable (cfg : HomeConfig)

theorem enterAdmission_takes (grant : Grant) (rounds : Nat) :
    Takes (enterAdmission grant rounds) {} fun entry later =>
      match entry with
      | .entered channel => later = { slot := .entered grant.uid channel false }
      | _ => later = {} := by
  induction rounds with
  | zero => exact fun never => never.elim
  | succ rounds ih =>
    refine follows_act fun slot => ?_
    cases slot with
    | entered channel => exact ⟨_, rfl, rfl⟩
    | inFlight channel =>
      refine ⟨{}, rfl, Neutral.bind (neutral_act rfl) fun closed => ?_⟩
      split
      · refine Neutral.bind (neutral_act rfl) fun got => ?_
        split
        · split
          · rfl
          · exact ih
        · exact ih
      · rfl

def admitting (uid : String) (channel : Nat) (passed ready : Bool) : Local :=
  { slot := .entered uid channel passed, template := { ready := ready } }

theorem recordGrant_takes (grant : Grant) (fresh : Option Nat) (channel : Nat) :
    Takes (recordGrant grant fresh) (admitting grant.uid channel true true) fun _ later =>
      later = admitting grant.uid channel true true := by
  refine Neutral.bind (by grind) fun _ => follows_act fun _ => ?_
  refine ⟨admitting grant.uid channel true true, if_pos ⟨rfl, rfl, rfl⟩, ?_⟩
  refine Neutral.bind (by grind) fun _ => Neutral.bind (by grind) fun _ => rfl

variable (rounds : Nat) (grant : Grant)
include rounds grant

theorem warmAndRecord_takes (channel : Nat) :
    Takes (warmAndRecord cfg rounds grant) (admitting grant.uid channel true false)
      fun _ later => ∃ ready, later = admitting grant.uid channel true ready := by
  refine Neutral.bind (by grind) fun provisioned => ?_
  cases provisioned with
  | none => exact (Neutral.takes (by grind) _).mono fun _ _ same => ⟨false, same⟩
  | some fresh =>
    refine Takes.bind (prepareTemplate_takes _ cfg.host rounds grant rfl) ?_
    rintro ready _ rfl
    cases ready with
    | true =>
      have warm : (admitting grant.uid channel true false).warm grant.uid =
          admitting grant.uid channel true true := by
        simp [Local.warm, TemplateHold.found, admitting]
      simp only [if_true, warm]
      refine Neutral.bind (by grind) fun gap => ?_
      cases gap with
      | some error => exact (Neutral.takes (by grind) _).mono fun _ _ same => ⟨true, same⟩
      | none => exact (recordGrant_takes grant fresh channel).mono fun _ _ same => ⟨true, same⟩
    | false => exact (Neutral.takes (by grind) _).mono fun _ _ same => ⟨false, same⟩

theorem admitEntered_takes (channel : Nat) :
    Takes (admitEntered cfg rounds grant channel) (admitting grant.uid channel false false)
      fun _ later => ∃ passed ready, later = admitting grant.uid channel passed ready := by
  refine Neutral.bind (by grind) fun now => follows_act fun refused => ?_
  refine ⟨admitting grant.uid channel (!refused) false, if_pos rfl, ?_⟩
  cases refused with
  | true => exact (Neutral.takes (by grind) _).mono fun _ _ same => ⟨_, _, same⟩
  | false =>
    have warms : Takes (warmAndRecord cfg rounds grant)
        (admitting grant.uid channel true false)
        fun _ later => ∃ passed ready, later = admitting grant.uid channel passed ready :=
      (warmAndRecord_takes cfg rounds grant channel).mono
        fun _ _ ⟨ready, same⟩ => ⟨true, ready, same⟩
    refine Neutral.bind (neutral_act rfl) fun got => ?_
    cases got with
    | none => exact warms
    | some held =>
      dsimp only
      split
      · exact ⟨_, _, rfl⟩
      · exact warms

theorem admitSlot_takes : Takes (admitSlot cfg rounds grant) {} fun _ later => later = {} := by
  refine (enterAdmission_takes grant rounds).bind fun entry later entered => ?_
  cases entry with
  | shared => exact entered
  | ended => exact entered
  | entered channel =>
    simp only at entered
    subst later
    refine (admitEntered_takes cfg rounds grant channel).bind ?_
    rintro refusal _ ⟨passed, ready, rfl⟩
    refine follows_act fun _ => ⟨{ slot := .left channel }, if_pos rfl, ?_⟩
    exact follows_act fun _ => ⟨{}, if_pos rfl, rfl⟩

theorem selfAdmit_takes : Returns Local.after {} (coreAdmit cfg rounds grant) ∧
    Returns Local.after {} (selfAdmit cfg rounds grant) :=
  selfAdmit_returns cfg (Act.after_quiet {}) (admitSlot_takes cfg rounds) grant

end Admissions

section Yields

variable (cfg : HomeConfig)

theorem yieldRevoked_takes (uid reason : String) :
    Takes (yieldRevoked cfg uid reason) (revokedHold uid) fun _ later => later = {} := by
  refine Neutral.bind (neutral_act rfl) fun fibers => Neutral.bind (by grind) fun _ => ?_
  have ends : ∀ drop, Takes (do
      let _ ← auditGrant "revoke" uid "" reason
      act .yielded) { template := { drop := drop } } fun _ later => later = {} := by
    intro drop
    exact Neutral.bind (by grind) fun _ _ => ⟨_, rfl, rfl⟩
  split
  · refine Takes.bind (dropTemplate_takes uid) ?_
    rintro _ _ rfl
    exact ends (.taken uid)
  · exact ends (.revoked uid)

theorem yield_takes (uid reason : String) :
    Takes (yield cfg uid reason) {} fun _ later => later = {} := by
  intro _
  refine ⟨revokedHold uid, rfl, ?_⟩
  exact Neutral.bind (neutral_releaseDevices uid) fun _ => yieldRevoked_takes cfg uid reason

end Yields

def NotCloned (outcome : Outcome) : Prop := ∀ response, outcome ≠ .cloned response

def Ends (outcome : Outcome) (later : Local) : Prop :=
  later = { fence := later.fence } ∧
    ∀ response, outcome = .cloned response → later.fence = some response.fence

theorem ends_of_idle {outcome : Outcome} {later : Local} (idle : later = {})
    (other : NotCloned outcome) : Ends outcome later := by
  subst later
  exact ⟨rfl, fun response same => (other response same).elim⟩

section Answers

variable (cfg : HomeConfig)

theorem refusedCommit_results (grant : Grant) (session : String) (fence : Fence) :
    (refusedCommit grant session fence).Results NotCloned := by
  unfold refusedCommit
  repeat' first | with_reducible refine Prog.results_bind _ fun _ => ?_ | split
  all_goals exact nofun

theorem releaseFiber_results (fiberID : String) (dropped : Bool) :
    (releaseFiber cfg fiberID dropped).Results NotCloned := by
  unfold releaseFiber
  repeat' first | with_reducible refine Prog.results_bind _ fun _ => ?_ | split
  all_goals exact nofun

theorem bumpEpoch_results (reason : String) : (bumpEpoch cfg reason).Results NotCloned := by
  unfold bumpEpoch sweepEpoch
  repeat' first | with_reducible refine Prog.results_bind _ fun _ => ?_ | split
  all_goals exact nofun

theorem parkHeld_results (fence : Fence) (fiberID : String) (sync : Bool) :
    (parkHeld cfg fence fiberID sync).Results NotCloned := by
  unfold parkHeld parkAnswer
  repeat' first | with_reducible refine Prog.results_bind _ fun _ => ?_ | dsimp only | split
  all_goals exact nofun

theorem discardParked_results (grant : Grant) (fence : Fence) (session ref : String) :
    (discardParked cfg grant fence session ref).Results NotCloned := by
  unfold discardParked
  repeat' first | with_reducible refine Prog.results_bind _ fun _ => ?_ | dsimp only | split
  all_goals exact nofun

theorem discardRemote_results (grant : Grant) (fence : Fence) (session : String) :
    (discardRemote cfg grant fence session).Results NotCloned := by
  unfold discardRemote
  repeat' first | with_reducible refine Prog.results_bind _ fun _ => ?_ | split
  all_goals exact nofun

theorem discardHeld_results (grant : Grant) (session : String) :
    (discardHeld cfg grant session).Results NotCloned := by
  unfold discardHeld
  repeat' first | with_reducible refine Prog.results_bind _ fun _ => ?_ | dsimp only | split
  all_goals first
    | exact discardParked_results cfg grant _ session _
    | exact discardRemote_results cfg grant _ session
    | exact nofun

theorem committedClone_results (session : String) (kind : Action) (fence : Fence)
    (ref endpoint : String) (exit : Option FiberExit) :
    (committedClone cfg session kind fence ref endpoint exit).Results fun outcome =>
      ∀ response, outcome = .cloned response → response.fence = fence := by
  unfold committedClone
  repeat' first | with_reducible refine Prog.results_bind _ fun _ => ?_ | split
  all_goals
    intro response same
    cases same
    rfl

end Answers

def Resolved (uid session : String) (fence : Fence) (outcome : Outcome) (later : Local) : Prop :=
  (∃ fresh, later = resolving uid session fence fresh) ∧
    ∀ response, outcome = .cloned response → response.fence = fence

theorem Neutral.resolved {uid session : String} {fence : Fence} {fresh : Bool}
    {program : Call Outcome} (neutral : Neutral program) (results : program.Results fun outcome =>
      ∀ response, outcome = .cloned response → response.fence = fence) :
    Takes program (resolving uid session fence fresh) (Resolved uid session fence) :=
  ((neutral.takes _).with_results results).mono fun _ _ facts => ⟨⟨fresh, facts.1⟩, facts.2⟩

section Clones

variable (cfg : HomeConfig) (uid session : String)

theorem rollBack_takes (fence : Fence) (endpoint : String) (pooled : Bool) :
    Takes (rollBack cfg fence endpoint pooled) (resolving uid session fence true)
      fun _ later => ∃ fresh, later = resolving uid session fence fresh := by
  refine Neutral.bind (by grind) fun released => ?_
  split
  · exact (Neutral.takes (neutral_act rfl) _).mono fun _ _ same => ⟨_, same⟩
  · refine follows_act fun outcome => ⟨resolving uid session fence (!outcome.1), rfl, ?_⟩
    refine (Neutral.takes ?_ _).mono fun _ _ same => ⟨_, same⟩
    repeat' first | with_reducible refine neutral_bind ?_ fun _ => ?_ | split
    all_goals grind

theorem settleBirth_takes (grant : Grant) (kind : Action) (fence : Fence) (ref endpoint : String)
    (pooled : Bool) : Takes (settleBirth cfg grant session kind fence ref endpoint pooled)
      (resolving uid session fence true) (Resolved uid session fence) := by
  refine Neutral.bind (by grind) fun audited => ?_
  split
  · refine follows_act fun outcome => ⟨resolving uid session fence (!outcome.1), rfl, ?_⟩
    split
    · exact Neutral.resolved (by grind) (committedClone_results cfg session kind fence ref _ _)
    · refine Neutral.resolved (by grind) ?_
      refine (refusedCommit_results grant session fence).mono ?_
      intro outcome other response same
      exact (other response same).elim
  · refine (rollBack_takes cfg uid session fence endpoint pooled).bind ?_
    intro _ later resolving
    exact ⟨resolving, nofun⟩

theorem runtimeClone_takes (rounds : Nat) (grant : Grant) (kind : Action) (fence : Fence)
    (ref : String) {holds : Local} (out : holds.template.prep = .out) (free : holds.slot = .out) :
    Takes (runtimeClone cfg rounds grant kind fence ref) holds fun _ later => later = holds := by
  unfold runtimeClone
  split
  · refine Neutral.bind (by grind) fun engine => ?_
    split
    · refine Neutral.bind (by grind) fun known => ?_
      split
      · exact (neutral_ask _).takes _
      · rfl
    · rfl
  · refine Takes.bind (needWarm_takes holds cfg.host rounds grant out free) ?_
    rintro warm _ rfl
    split
    · exact (neutral_ask _).takes _
    · rfl

theorem cloneResolved_takes (rounds : Nat) (grant : Grant) (shedding : Bool) (kind : Action)
    (fence : Fence) (ref : String) :
    Takes (cloneResolved cfg rounds grant session shedding kind fence ref)
      (resolving uid session fence (decide (kind ≠ .attach))) (Resolved uid session fence) := by
  unfold cloneResolved
  split
  · refine Neutral.bind (by grind) fun audited => ?_
    split
    · refine ⟨⟨_, rfl⟩, ?_⟩
      rintro response ⟨⟩
      rfl
    · exact ⟨⟨_, rfl⟩, nofun⟩
  · rename_i fresh
    split
    · exact ⟨⟨_, rfl⟩, nofun⟩
    · refine (runtimeClone_takes cfg rounds grant kind fence ref ?_ ?_).bind ?_
      iterate 2
        unfold resolving held
        split <;> rfl
      rintro born _ rfl
      cases born with
      | error error => exact ⟨⟨_, rfl⟩, nofun⟩
      | ok named =>
        simp only [ne_eq, fresh, not_false_eq_true, decide_true]
        exact settleBirth_takes cfg uid session grant kind fence ref _ _

theorem held_mayResolve : (held uid session).mayResolve uid session = true := by
  unfold held Local.mayResolve
  split <;> simp_all

theorem cloneHeld_takes (rounds : Nat) (grant : Grant) (shedding : Bool) :
    Takes (cloneHeld cfg rounds grant session shedding) (held grant.uid session) Ends := by
  refine follows_act fun out => ⟨_, if_pos (held_mayResolve grant.uid session), ?_⟩
  cases out with
  | error error =>
    have idle : held grant.uid session = { held grant.uid session with fence := none } := by
      unfold held
      split <;> rfl
    simp only [Local.resolved]
    rw [idle]
    refine (release_takes grant.uid session none).bind ?_
    rintro _ _ rfl
    exact Neutral.bind (by grind) fun refusal => ⟨rfl, by simp⟩
  | ok got =>
    obtain ⟨kind, fence, ref⟩ := got
    refine (cloneResolved_takes cfg grant.uid session rounds grant shedding kind fence
      ref).bind ?_
    rintro outcome _ ⟨⟨fresh, rfl⟩, answers⟩
    refine follows_act fun _ =>
      ⟨{ held grant.uid session with fence := some fence }, ?_, ?_⟩
    · unfold resolving held
      split <;> rfl
    · refine (release_takes grant.uid session (some fence)).bind ?_
      rintro _ _ rfl
      exact ⟨rfl, fun response same => by rw [answers response same]⟩

theorem cloneAdmitted_takes (rounds : Nat) (grant : Grant) :
    Takes (cloneAdmitted cfg rounds grant session) {} Ends := by
  refine Neutral.bind (by grind) fun may => ?_
  split
  · refine Neutral.bind (by grind) fun shedding => ?_
    split
    · rename_i bare
      have clones := cloneHeld_takes cfg session rounds grant shedding
      rwa [held, if_pos bare] at clones
    · rename_i named
      refine (holdSession_takes grant.uid session).bind ?_
      rintro _ _ rfl
      refine Neutral.bind (by grind) fun refusal => ?_
      cases refusal with
      | some refusal =>
        refine (releaseSession_takes _ none).bind ?_
        rintro _ _ rfl
        exact ⟨rfl, nofun⟩
      | none =>
        have clones := cloneHeld_takes cfg session rounds grant shedding
        rwa [held, if_neg named] at clones
  · exact ⟨rfl, nofun⟩

theorem clone_takes (rounds : Nat) (request : CloneRequest) :
    Takes (clone cfg rounds request) {} Ends := by
  refine Neutral.bind (by grind) fun verified => ?_
  cases verified with
  | error refusal => exact ⟨rfl, nofun⟩
  | ok grant =>
    refine (selfAdmit_takes cfg rounds grant).2.bind fun refusal => ?_
    cases refusal with
    | some refusal => exact ⟨rfl, nofun⟩
    | none =>
      refine Neutral.bind (by grind) fun got => ?_
      cases got with
      | error refusal => exact ⟨rfl, nofun⟩
      | ok held => exact cloneAdmitted_takes cfg request.session rounds held

end Clones

section Sessions

variable (cfg : HomeConfig)

theorem underGate_takes (uid session : String) {program : Call Outcome}
    (neutral : Neutral program) (results : program.Results NotCloned) :
    Takes (do
      holdSession uid session
      let outcome ← program
      releaseSession
      pure outcome) {} Ends := by
  refine (holdSession_takes uid session).bind ?_
  rintro _ _ rfl
  refine ((neutral.takes _).with_results results).bind ?_
  rintro outcome _ ⟨rfl, other⟩
  refine (releaseSession_takes _ none).bind ?_
  rintro _ _ rfl
  exact ends_of_idle rfl other

theorem park_takes (fiberID : String) (sync : Bool) : Takes (park cfg fiberID sync) {} Ends := by
  refine Neutral.bind (neutral_act rfl) fun got => ?_
  cases got with
  | none => exact ⟨rfl, nofun⟩
  | some fence =>
    refine Neutral.bind (neutral_act rfl) fun name => ?_
    split
    · exact ⟨rfl, nofun⟩
    · refine Neutral.bind (neutral_act rfl) fun grant => ?_
      split
      · exact ⟨rfl, nofun⟩
      · exact underGate_takes fence.grantUID name (by grind)
          (parkHeld_results cfg fence fiberID sync)

theorem discard_takes (token session thumbprint : String) :
    Takes (discard cfg token session thumbprint) {} Ends := by
  unfold discard
  split
  · exact ⟨rfl, nofun⟩
  · refine Neutral.bind (by grind) fun verified => ?_
    cases verified with
    | error refusal => exact ⟨rfl, nofun⟩
    | ok grant =>
      refine Neutral.bind (by grind) fun now => ?_
      split
      · exact Neutral.bind (by grind) fun refusal => ⟨rfl, nofun⟩
      · split
        · exact ⟨rfl, nofun⟩
        · exact underGate_takes grant.uid session (by grind)
            (discardHeld_results cfg grant session)

theorem Neutral.ends {program : Call Outcome} (neutral : Neutral program)
    (results : program.Results NotCloned) : Takes program {} Ends :=
  ((neutral.takes _).with_results results).mono fun _ _ facts => ends_of_idle facts.1 facts.2

theorem Takes.ends {program : Call Unit} (takes : Takes program {} fun _ later => later = {}) :
    Takes (do program; return Outcome.done) {} Ends := by
  refine takes.bind ?_
  rintro _ _ rfl
  exact ⟨rfl, nofun⟩

end Sessions

end Call

open Call in
theorem HomeCall.body_takes (cfg : HomeConfig) (call : HomeCall) :
    Takes (call.body cfg) {} Ends := by
  cases call with
  | clone rounds request => exact clone_takes cfg rounds request
  | coreAdmit rounds grant =>
    refine (selfAdmit_takes cfg rounds grant).1.bind fun refusal => ?_
    cases refusal <;> exact ⟨rfl, nofun⟩
  | park fiberID sync => exact park_takes cfg fiberID sync
  | discard token session thumbprint => exact discard_takes cfg token session thumbprint
  | release fiberID dropped =>
    exact (quiet_releaseFiber cfg fiberID dropped).neutral.ends
      (releaseFiber_results cfg fiberID dropped)
  | bumpEpoch reason =>
    exact (quiet_bumpEpoch cfg reason).neutral.ends (bumpEpoch_results cfg reason)
  | exit ended => exact Neutral.bind (quiet_onExit cfg ended).neutral fun _ => ⟨rfl, nofun⟩
  | yield uid reason => exact (yield_takes cfg uid reason).ends
  | remove uid => exact Takes.ends (remove_returns cfg (Act.after_quiet {}) (yield_takes cfg) uid)
  | redeliver uid => exact Neutral.bind (quiet_redeliver uid).neutral fun _ => ⟨rfl, nofun⟩
  | sweep => exact Takes.ends (sweep_returns cfg (Act.after_quiet {}) (yield_takes cfg))
  | sample => exact Neutral.bind quiet_sample.neutral fun _ => ⟨rfl, nofun⟩
  | setPooled uid count | startDrain | holdGrant uid =>
    exact Neutral.bind (neutral_act rfl) fun _ => ⟨rfl, nofun⟩
  | reconcileParked snap =>
    exact Neutral.bind (neutral_reconcileParked snap) fun _ => ⟨rfl, nofun⟩
  | instanceDied uid number => exact Takes.ends (instanceDied_takes uid number)

def homeProtocol (config : HomeConfig) : Protocol (homeKernel config) Local where
  inv := Home.Ok
  idle := {}
  At := LocalAt
  ends := Call.Ends
  after := Local.after
  started := by
    rintro _ ⟨epoch, revoked, _, rfl⟩
    exact ⟨newHome_ok epoch revoked, newHome_idle epoch revoked⟩
  moved := by
    intro home thread holds action answer result next later kept stands may ran
    have moved := Home.moved kept stands may ran
    exact ⟨moved.ok, moved.mover, moved.others⟩
  bodies := HomeCall.body_takes config

end Fiberd
