import Fiberd.Home.HomeProtocol

/-!
Most of what a verb does touches nothing its call holds: no gate, no resolution, no
slot of an admission or a prepare, and no template it is dropping.
-/

namespace Fiberd

open Heaps Tables Programs

@[grind] def HostAct.neutral : HostAct → Bool
  | .enterPrepare _ | .leavePrepare _ | .warm _ | .unwarm _ | .publish _ _ | .takeWarm _
  | .lose _ _ | .warmGone _ _ => false
  | _ => true

@[grind] def Act.neutral : Act → Bool
  | .joinGate _ _ | .lockGate | .unlockGate | .leaveGate | .resolve _ _ _ | .commitHeld _ _
  | .unlock | .enterAdmission _ | .denied _ _ _ (some _) | .admitGrant _ | .leaveAdmission _
  | .closeAdmission _ | .revokeGrant _ | .yielded => false
  | .host action => action.neutral
  | _ => true

@[grind] def Act.quiet : Act → Bool
  | .provision _ | .keepChannel _ _ | .dropChannel _ | .releaseChannel _ | .takeHeld _
  | .restoreParked _ => false
  | action => action.neutral

theorem HostAct.after_neutral (template : TemplateHold) (slot : SlotHold) (action : HostAct)
    (out : action.Result) (neutral : action.neutral = true) :
    template.after slot action out = some template := by
  cases action with
  | _ => first | rfl | simp [HostAct.neutral] at neutral

theorem Act.after_neutral (holds : Local) (action : Act) (out : action.Result)
    (neutral : action.neutral = true) : holds.after action out = some holds := by
  cases action with
  | denied uid lease now slot =>
    cases slot with
    | none => rfl
    | some chan => simp [Act.neutral] at neutral
  | host action =>
    simp [Local.after, HostAct.after_neutral holds.template holds.slot action out neutral]
  | _ => first | rfl | simp [Act.neutral] at neutral

namespace HostCall

def Neutral {β : Type} (program : HostCall β) : Prop :=
  program.Only fun action => action.neutral = true

variable {β γ : Type}

@[grind ←] theorem neutral_pure (value : β) : Neutral (pure value) := trivial

@[grind ←] theorem neutral_bind {program : HostCall β} {rest : β → HostCall γ}
    (first : Neutral program) (second : ∀ value, Neutral (rest value)) :
    Neutral (program >>= rest) :=
  Prog.Only.bind first second

@[grind ←] theorem neutral_act {action : HostAct} (neutral : action.neutral = true) :
    Neutral (act action) :=
  ⟨neutral, fun _ => trivial⟩

@[grind ←] theorem neutral_able (question : HostQuestion) : Neutral (able question) :=
  ⟨rfl, fun _ => trivial⟩

@[grind ←] theorem neutral_prepareIdentity (uid caller : String) :
    Neutral (prepareIdentity uid caller) := by
  unfold prepareIdentity
  grind

@[grind ←] theorem neutral_dropEngine (uid : String) (engine : Nat) :
    Neutral (dropEngine uid engine) := by
  unfold dropEngine
  grind

@[grind ←] theorem neutral_startEngine (uid : String) (rounds : Nat) (gone : Option Nat) :
    Neutral (startEngine uid rounds gone) := by
  induction rounds generalizing gone with
  | zero => exact ⟨rfl, fun never => never.elim⟩
  | succ rounds ih =>
    unfold startEngine
    grind

@[grind ←] theorem neutral_settleEngine (uid : String) (entered : Option (Nat × Bool)) :
    Neutral (settleEngine uid entered) := by
  unfold settleEngine
  grind

@[grind ←] theorem neutral_ensureEngine (uid : String) (rounds : Nat) :
    Neutral (ensureEngine uid rounds) := by
  unfold ensureEngine
  grind

@[grind ←] theorem neutral_removeSnapshot (snap : Option Nat) : Neutral (removeSnapshot snap) := by
  unfold removeSnapshot
  split <;> grind

@[grind ←] theorem neutral_openSnapshot : Neutral openSnapshot := by
  unfold openSnapshot
  grind

@[grind ←] theorem neutral_stopEngine (uid : String) : Neutral (stopEngine uid) := by
  unfold stopEngine
  grind

@[grind ←] theorem neutral_needEngine (cfg : HostConfig) (rounds : Nat) (grant : Grant) :
    Neutral (needEngine cfg rounds grant) := by
  unfold needEngine
  grind

@[grind ←] theorem neutral_needIdentity (cfg : HostConfig) (grant : Grant) :
    Neutral (needIdentity cfg grant) := by
  unfold needIdentity
  grind

end HostCall

namespace Call

def Neutral {β : Type} (program : Call β) : Prop :=
  program.Only fun action => action.neutral = true

variable {β γ : Type}

@[grind ←] theorem neutral_pure (value : β) : Neutral (pure value) := trivial

variable {program : Call β}

@[grind ←] theorem neutral_bind {rest : β → Call γ} (first : Neutral program)
    (second : ∀ value, Neutral (rest value)) : Neutral (program >>= rest) :=
  Prog.Only.bind first second

@[grind ←] theorem neutral_map (wrap : β → γ) (first : Neutral program) :
    Neutral (wrap <$> program) :=
  neutral_bind first fun _ => trivial

variable {action : Act}

@[grind ←] theorem neutral_act (neutral : action.neutral = true) : Neutral (act action) :=
  ⟨neutral, fun _ => trivial⟩

@[grind ←] theorem neutral_ask (question : Question) : Neutral (ask question) :=
  ⟨rfl, fun _ => trivial⟩

@[grind ←] theorem neutral_onHost {program : HostCall β} (neutral : HostCall.Neutral program) :
    Neutral (onHost program) := by
  induction program with
  | done value => trivial
  | call action next ih => exact ⟨neutral.1, fun out => ih out (neutral.2 out)⟩

def Quiet {β : Type} (program : Call β) : Prop :=
  program.Only fun action => action.quiet = true

theorem Act.neutral_of_quiet (quiet : action.quiet = true) : action.neutral = true := by
  cases action with
  | _ => first | exact quiet | simp [Act.quiet] at quiet

theorem Act.after_quiet (holds : Local) (action : Act) (out : action.Result)
    (quiet : action.quiet = true) : holds.after action out = some holds :=
  Act.after_neutral holds action out (Act.neutral_of_quiet quiet)

@[grind ←] theorem Quiet.neutral (quiet : Quiet program) : Neutral program :=
  Prog.Only.mono quiet fun _ => Act.neutral_of_quiet

@[grind ←] theorem quiet_pure (value : β) : Quiet (pure value) := trivial

@[grind ←] theorem quiet_bind {rest : β → Call γ} (first : Quiet program)
    (second : ∀ value, Quiet (rest value)) : Quiet (program >>= rest) :=
  Prog.Only.bind first second

@[grind ←] theorem quiet_map (wrap : β → γ) (first : Quiet program) : Quiet (wrap <$> program) :=
  quiet_bind first fun _ => trivial

@[grind ←] theorem quiet_act (quiet : action.quiet = true) : Quiet (act action) :=
  ⟨quiet, fun _ => trivial⟩

@[grind ←] theorem quiet_ask (question : Question) : Quiet (ask question) :=
  ⟨rfl, fun _ => trivial⟩

@[grind ←] theorem quiet_missCode (error : CoreError) : Quiet (missCode error) := by
  unfold missCode
  grind

@[grind ←] theorem quiet_miss (error : CoreError) : Quiet (miss error) := by
  unfold miss
  grind

@[grind ←] theorem quiet_audit (durability : Durability) (record : CoreRecord) :
    Quiet (audit durability record) := by
  unfold audit
  grind

@[grind ←] theorem quiet_durability (uid : String) : Quiet (durability uid) := by
  unfold durability
  grind

@[grind ←] theorem quiet_auditGrant (event uid session detail : String) :
    Quiet (auditGrant event uid session detail) := by
  unfold auditGrant
  grind

@[grind ←] theorem quiet_retireDelta (cfg : HomeConfig) (fence : Fence)
    (session ref : String) : Quiet (retireDelta cfg fence session ref) := by
  unfold retireDelta
  grind

@[grind ←] theorem quiet_discardDelta (cfg : HomeConfig) (fence : Fence)
    (session ref : String) : Quiet (discardDelta cfg fence session ref) := by
  unfold discardDelta
  grind

section Verbs

variable (cfg : HomeConfig)

@[grind ←] theorem neutral_refuseDevices (uid : String) (fresh : Option Nat) :
    Neutral (refuseDevices cfg uid fresh) := by
  unfold refuseDevices
  repeat' first | with_reducible refine neutral_bind ?_ fun _ => ?_ | split
  all_goals grind

@[grind ←] theorem quiet_checkOffer (grant : Grant) : Quiet (checkOffer cfg grant) := by
  unfold checkOffer
  grind

@[grind ←] theorem neutral_provision (grant : Grant) : Neutral (provision cfg grant) := by
  unfold provision
  grind

@[grind ←] theorem neutral_keepDevices (uid : String) (fresh : Option Nat) :
    Neutral (keepDevices uid fresh) := by
  unfold keepDevices
  grind

@[grind ←] theorem neutral_restoreAll (snapshots : List SessionSnapshot) :
    Neutral (restoreAll snapshots) := by
  induction snapshots with
  | nil => trivial
  | cons snap rest ih =>
    unfold restoreAll
    grind

@[grind ←] theorem neutral_restoreHeld (uid : String) : Neutral (restoreHeld uid) := by
  unfold restoreHeld
  grind

@[grind ←] theorem neutral_releaseDevices (uid : String) : Neutral (releaseDevices uid) := by
  unfold releaseDevices
  grind

@[grind ←] theorem quiet_yieldFibers (reason : String) (fibers : List Ledger.FiberInfo) :
    Quiet (yieldFibers cfg reason fibers) := by
  induction fibers with
  | nil => trivial
  | cons info rest ih =>
    refine quiet_bind (by grind) fun got => ?_
    cases got with
    | none => exact ih
    | some fence =>
      refine quiet_bind (by grind) fun _ => quiet_bind (by grind) fun gone => ?_
      grind

@[grind ←] theorem quiet_removedLease (uid : String) : Quiet (removedLease uid) := by
  unfold removedLease
  grind

@[grind ←] theorem quiet_redeliver (uid : String) : Quiet (redeliver uid) := by
  unfold redeliver
  grind

@[grind ←] theorem quiet_onExit (exit : FiberExit) : Quiet (onExit cfg exit) := by
  unfold onExit
  grind

@[grind ←] theorem quiet_bumpFibers (epoch : Nat) (reason : String) (ids : List String) :
    Quiet (bumpFibers cfg epoch reason ids) := by
  induction ids with
  | nil => trivial
  | cons id rest ih =>
    refine quiet_bind (by grind) fun got => ?_
    cases got with
    | none => exact ih
    | some fence =>
      dsimp only
      split
      · exact ih
      · refine quiet_bind (by grind) fun _ => quiet_bind (by grind) fun gone => ?_
        grind

@[grind ←] theorem quiet_sweepEpoch (epoch : Nat) (reason : String) :
    Quiet (sweepEpoch cfg epoch reason) := by
  unfold sweepEpoch
  grind

@[grind ←] theorem quiet_bumpEpoch (reason : String) : Quiet (bumpEpoch cfg reason) := by
  unfold bumpEpoch
  grind

@[grind ←] theorem quiet_publishDelta (fence : Fence) (session deltaRef : String) :
    Quiet (publishDelta cfg fence session deltaRef) := by
  unfold publishDelta
  grind

@[grind ←] theorem quiet_parkHeld (fence : Fence) (fiberID : String) (sync : Bool) :
    Quiet (parkHeld cfg fence fiberID sync) := by
  refine quiet_bind (by grind) fun stored => ?_
  split
  · grind
  · refine quiet_bind (by grind) fun gone => quiet_bind (by grind) fun level =>
      quiet_bind (by grind) fun audited => ?_
    grind

@[grind ←] theorem quiet_releaseFiber (fiberID : String) (discard : Bool) :
    Quiet (releaseFiber cfg fiberID discard) := by
  refine quiet_bind (by grind) fun got => ?_
  cases got with
  | none => trivial
  | some fence =>
    refine quiet_bind (by grind) fun released => ?_
    grind

@[grind ←] theorem quiet_sampleFibers (ids : List String) : Quiet (sampleFibers ids) := by
  induction ids with
  | nil => trivial
  | cons id rest ih =>
    unfold sampleFibers
    repeat' first | with_reducible refine quiet_bind ?_ fun _ => ?_ | split
    all_goals grind

@[grind ←] theorem quiet_sample : Quiet sample := by
  unfold sample
  grind

@[grind ←] theorem quiet_frontend (request : CloneRequest) : Quiet (frontend cfg request) := by
  unfold frontend
  grind

@[grind ←] theorem quiet_reverify (uid token : String) : Quiet (reverify cfg uid token) := by
  unfold reverify
  grind

@[grind ←] theorem quiet_ownGrant (grant : Grant) : Quiet (ownGrant cfg grant) := by
  unfold ownGrant
  grind

@[grind ←] theorem quiet_admittedGrant (grant : Grant) : Quiet (admittedGrant cfg grant) := by
  unfold admittedGrant
  grind

@[grind ←] theorem quiet_heldGrant (grant : Grant) : Quiet (heldGrant grant) := by
  unfold heldGrant
  grind

@[grind ←] theorem quiet_swept (grant : Grant) (epoch : Nat) : Quiet (swept grant epoch) := by
  unfold swept
  grind

@[grind ←] theorem quiet_migrateOut (uid session ref : String) :
    Quiet (migrateOut cfg uid session ref) := by
  unfold migrateOut
  grind

@[grind ←] theorem neutral_migrateIn (grant : Grant) (session ref : String) :
    Neutral (migrateIn cfg grant session ref) := by
  unfold migrateIn
  grind

section

variable (grant : Grant) (session : String)
include grant session

@[grind ←] theorem neutral_claim (delta : RemoteDelta) :
    Neutral (claim cfg grant session delta) := by
  unfold claim
  grind

@[grind ←] theorem neutral_findRemote : Neutral (findRemote cfg grant session) := by
  unfold findRemote
  grind

@[grind ←] theorem neutral_locate : Neutral (locate cfg grant session) := by
  unfold locate
  grind

@[grind ←] theorem quiet_refusedCommit (fence : Fence) :
    Quiet (refusedCommit grant session fence) := by
  unfold refusedCommit
  grind

end

@[grind ←] theorem quiet_committedClone (session : String) (kind : Action) (fence : Fence)
    (ref endpoint : String) (exit : Option FiberExit) :
    Quiet (committedClone cfg session kind fence ref endpoint exit) := by
  unfold committedClone
  grind

@[grind ←] theorem quiet_authenticate (token thumbprint : String) :
    Quiet (authenticate cfg token thumbprint) := by
  unfold authenticate
  repeat' first | with_reducible refine quiet_bind ?_ fun _ => ?_ | split
  all_goals grind

@[grind ←] theorem quiet_discardParked (grant : Grant) (fence : Fence) (session ref : String) :
    Quiet (discardParked cfg grant fence session ref) := by
  unfold discardParked
  grind

@[grind ←] theorem quiet_discardRemote (grant : Grant) (fence : Fence) (session : String) :
    Quiet (discardRemote cfg grant fence session) := by
  unfold discardRemote
  grind

@[grind ←] theorem quiet_discardHeld (grant : Grant) (session : String) :
    Quiet (discardHeld cfg grant session) := by
  unfold discardHeld
  repeat' first | with_reducible refine quiet_bind ?_ fun _ => ?_ | split
  all_goals grind

@[grind ←] theorem neutral_reconcileParked (snap : SessionSnapshot) :
    Neutral (reconcileParked snap) := by
  unfold reconcileParked
  grind

end Verbs

/-- The program takes what it takes in turn, from what its call holds. -/
def Takes (program : Call β) (holds : Local) (post : β → Local → Prop) : Prop :=
  program.Follows Local.after holds post

section Takes

variable {holds : Local} {program : Call β}

variable {post : γ → Local → Prop}

theorem Takes.bind {rest : β → Call γ} {mid : β → Local → Prop} (first : Takes program holds mid)
    (second : ∀ value later, mid value later → Takes (rest value) later post) :
    Takes (program >>= rest) holds post :=
  Prog.Follows.bind first second

theorem Neutral.takes (neutral : Neutral program) (holds : Local) :
    Takes program holds fun _ later => later = holds :=
  Prog.Only.follows neutral (Act.after_neutral holds)

theorem Neutral.bind {rest : β → Call γ} (neutral : Neutral program)
    (second : ∀ value, Takes (rest value) holds post) : Takes (program >>= rest) holds post := by
  refine (neutral.takes holds).bind ?_
  intro value later same
  exact same ▸ second value

theorem Takes.with_results {post : β → Local → Prop} {good : β → Prop}
    (takes : Takes program holds post) (results : program.Results good) :
    Takes program holds fun value later => post value later ∧ good value :=
  Prog.Follows.with_results takes results

theorem Takes.mono {post weaker : β → Local → Prop} (takes : Takes program holds post)
    (weaken : ∀ value later, post value later → weaker value later) : Takes program holds weaker :=
  Prog.Follows.mono takes weaken

end Takes

/-- The program ends where it began, by the steps of what is kept of its call. -/
def Returns {ℓ : Type} (after : ℓ → (action : Act) → action.Result → Option ℓ) (idle : ℓ)
    (program : Call β) : Prop :=
  program.Follows after idle fun _ later => later = idle

section Returns

variable {ℓ : Type} {after : ℓ → (action : Act) → action.Result → Option ℓ} {idle : ℓ}
  {program : Call β}

theorem Returns.bind {rest : β → Call γ} {post : γ → ℓ → Prop} (first : Returns after idle program)
    (second : ∀ value, (rest value).Follows after idle post) :
    (program >>= rest).Follows after idle post := by
  refine Prog.Follows.bind first ?_
  rintro value _ rfl
  exact second value

theorem returns_bind {rest : β → Call γ} (first : Returns after idle program)
    (second : ∀ value, Returns after idle (rest value)) : Returns after idle (program >>= rest) :=
  first.bind second

variable (cfg : HomeConfig)
  (quietly : ∀ action out, action.quiet = true → after idle action out = some idle)
include quietly

theorem Quiet.returns (quiet : Quiet program) : Returns after idle program :=
  Prog.Only.follows quiet quietly

theorem returns_act {action : Act} (quiet : action.quiet = true) : Returns after idle (act action) :=
  Quiet.returns quietly (quiet_act quiet)

theorem remove_returns (yields : ∀ uid reason, Returns after idle (yield cfg uid reason))
    (uid : String) : Returns after idle (remove cfg uid) := by
  unfold remove removeDenied
  repeat' first | with_reducible refine returns_bind ?_ fun _ => ?_ | split
  all_goals first | exact yields _ _ | exact returns_act quietly rfl | exact Quiet.returns quietly (by grind)

theorem sweep_returns (yields : ∀ uid reason, Returns after idle (yield cfg uid reason)) :
    Returns after idle (sweep cfg) := by
  have each : ∀ now uids, Returns after idle (sweepGrants cfg now uids) := by
    intro now uids
    induction uids with
    | nil => rfl
    | cons uid rest ih =>
      unfold sweepGrants
      repeat' first | with_reducible refine returns_bind ?_ fun _ => ?_ | split
      all_goals first | exact ih | exact yields _ _ | exact returns_act quietly rfl
  exact returns_bind (returns_act quietly rfl) fun now =>
    returns_bind (returns_act quietly rfl) (each now)

theorem selfAdmit_returns {rounds : Nat}
    (slots : ∀ grant, Returns after idle (admitSlot cfg rounds grant)) (grant : Grant) :
    Returns after idle (coreAdmit cfg rounds grant) ∧
      Returns after idle (selfAdmit cfg rounds grant) := by
  have admits : ∀ grant, Returns after idle (coreAdmit cfg rounds grant) := by
    intro grant
    unfold coreAdmit
    repeat' first | with_reducible refine returns_bind ?_ fun _ => ?_ | split
    all_goals first | exact slots _ | exact returns_act quietly rfl | exact Quiet.returns quietly (by grind)
  refine ⟨admits grant, ?_⟩
  unfold selfAdmit
  repeat' first | with_reducible refine returns_bind ?_ fun _ => ?_ | split
  all_goals first | exact admits _ | exact returns_act quietly rfl | exact Quiet.returns quietly (by grind)

end Returns
end Call

end Fiberd
