import Fiberd.Home.HomeCalls

/-!
What a call of the home holds between its actions, and what each action does to
the ledger, the session gates and the admission slots.
-/

namespace Fiberd

open Heaps Tables Programs

inductive GateHold where
  | free
  | joined (key : String)
  | locked (key : String)
  | left (key : String)
  deriving DecidableEq

structure OpenHold where
  key : Option String
  fresh : Bool
  deriving DecidableEq

inductive SlotHold where
  | out
  | entered (uid : String) (channel : Nat) (passed : Bool)
  | left (channel : Nat)
  deriving DecidableEq

inductive PrepStage where
  | opened
  | warmed (number : Nat)
  | published
  deriving DecidableEq

inductive PrepHold where
  | out
  | within (uid : String) (channel : Nat) (stage : PrepStage)
  deriving DecidableEq

inductive DropHold where
  | idle
  | revoked (uid : String)
  | taken (uid : String)
  deriving DecidableEq

structure TemplateHold where
  prep : PrepHold := .out
  /-- The call has found or made the warm instance of the UID whose slot it has. -/
  ready : Bool := false
  drop : DropHold := .idle
  /-- The grant whose warm instance the call reports gone. -/
  lost : Option String := none
  deriving DecidableEq

structure Local where
  gate : GateHold := .free
  opened : Option OpenHold := none
  slot : SlotHold := .out
  /-- The fence the call resolved to. -/
  fence : Option Fence := none
  template : TemplateHold := {}
  deriving DecidableEq

namespace TemplateHold

def found (template : TemplateHold) (slot : SlotHold) (uid : String) : TemplateHold :=
  match slot with
  | .entered entered _ _ => if entered = uid then { template with ready := true } else template
  | _ => template

def after (template : TemplateHold) (slot : SlotHold) :
    (action : HostAct) → action.Result → Option TemplateHold
  | .enterPrepare uid, entry =>
    if template.prep = .out then
      match entry with
      | .entered channel => some { template with prep := .within uid channel .opened }
      | .warm => some (template.found slot uid)
      | .running _ => some template
    else none
  | .leavePrepare uid, _ =>
    match template.prep with
    | .within within _ _ => if within = uid then some { template with prep := .out } else none
    | .out => none
  | .warm uid, number =>
    match template.prep with
    | .within within channel .opened =>
      if within = uid then some { template with prep := .within uid channel (.warmed number) }
      else none
    | _ => none
  | .unwarm uid, _ =>
    match template.prep with
    | .within within channel (.warmed _) =>
      if within = uid then some { template with prep := .within uid channel .opened }
      else none
    | _ => if template.drop = .taken uid then some template else none
  | .publish uid warm, _ =>
    match template.prep with
    | .within within channel (.warmed number) =>
      if within = uid ∧ number = warm.number then
        some ({ template with prep := .within uid channel .published }.found slot uid)
      else none
    | _ => none
  | .takeWarm uid, _ =>
    if template.drop = .revoked uid then some { template with drop := .taken uid } else none
  | .lose uid _, _ =>
    if template.lost = none then some { template with lost := some uid } else none
  | .warmGone uid _, _ =>
    if template.lost = some uid then some { template with lost := none } else none
  | _, _ => some template

end TemplateHold

namespace Local

def mayResolve (holds : Local) (uid session : String) : Bool :=
  decide (holds.opened = none) && decide (holds.fence = none) &&
    (decide (session = "") || decide (holds.gate = .locked (sessionKey uid session)))

def resolved (holds : Local) (uid session : String) :
    Except ResolveError (Action × Fence × String) → Local
  | .error _ => holds
  | .ok (kind, fence, _) => { holds with
      opened := some {
        key := if session = "" then none else some (sessionKey uid session)
        fresh := decide (kind ≠ .attach) }
      fence := some fence }

/-- What a call holds after an action and its result, or `none` where the action is out of
turn. -/
def after (holds : Local) : (action : Act) → action.Result → Option Local
  | .joinGate uid session, _ =>
    if holds.gate = .free then some { holds with gate := .joined (sessionKey uid session) }
    else none
  | .lockGate, _ =>
    match holds.gate with
    | .joined key => some { holds with gate := .locked key }
    | _ => none
  | .unlockGate, _ =>
    match holds.gate, holds.opened with
    | .locked key, none => some { holds with gate := .left key }
    | _, _ => none
  | .leaveGate, _ =>
    match holds.gate with
    | .left _ => some { holds with gate := .free }
    | _ => none
  | .resolve uid session _, result =>
    if holds.mayResolve uid session then some (holds.resolved uid session result) else none
  | .commitHeld _ _, (committed, _) =>
    match holds.opened with
    | some opened =>
      if opened.fresh then some { holds with
        opened := some { opened with fresh := !committed } }
      else none
    | none => none
  | .unlock, _ =>
    match holds.opened with
    | some _ => some { holds with opened := none }
    | none => none
  | .enterAdmission uid, slot =>
    if holds.slot = .out then
      match slot with
      | .entered channel => some { holds with slot := .entered uid channel false }
      | .inFlight _ => some holds
    else none
  | .denied uid _ _ (some channel), refused =>
    if holds.slot = .entered uid channel false then
      some { holds with slot := .entered uid channel (!refused) }
    else none
  | .admitGrant grant, _ =>
    match holds.slot with
    | .entered uid _ passed =>
      if uid = grant.uid ∧ passed ∧ holds.template.ready then some holds else none
    | _ => none
  | .leaveAdmission uid, _ =>
    match holds.slot with
    | .entered entered channel _ =>
      if entered = uid then some { holds with
        slot := .left channel
        template := { holds.template with ready := false } }
      else none
    | _ => none
  | .closeAdmission channel, _ =>
    if holds.slot = .left channel then some { holds with slot := .out } else none
  | .host action, result =>
    (holds.template.after holds.slot action result).map fun template =>
      { holds with template := template }
  | .revokeGrant uid, _ =>
    if holds.template.drop = .idle then some { holds with
      template := { holds.template with drop := .revoked uid } }
    else none
  | .yielded, _ => some { holds with template := { holds.template with drop := .idle } }
  | _, _ => some holds

def core (holds : Local) : Local := { holds with template := {} }

end Local

def Act.plainOp : Act → Option LedgerOp
  | .revokeGrant uid => some (.revokeGrant uid)
  | .bumpEpoch next => some (.bumpEpoch next)
  | .forgetSession uid session => some (.forgetSession uid session)
  | .setFiberW fiberID bytes => some (.setFiberW fiberID bytes)
  | .setPooled uid count => some (.setPooled uid count)
  | .onPark fiberID deltaRef => some (.onPark fiberID deltaRef)
  | .onRelease fiberID => some (.onRelease fiberID)
  | .restoreParked snapshot => some (.restoreParked snapshot)
  | .exited exit => some (.onFiberExit exit.fiberID)
  | _ => none

def Act.touchesRevoked : Act → Bool
  | .deny _ _ _ | .denied _ _ _ _ | .lift _ => true
  | _ => false

def Act.touchesHost : Act → Bool
  | .host _ => true
  | _ => false

def Act.touchesYielding : Act → Bool
  | .revokeGrant _ | .yielded => true
  | _ => false

def Act.touchesDevices : Act → Bool
  | .provision _ | .keepChannel _ _ | .dropChannel _ | .releaseChannel _ => true
  | _ => false

def Act.touchesHeld : Act → Bool
  | .holdGrant _ | .holdParked _ | .takeHeld _ => true
  | _ => false

def Act.touchesDraining : Act → Bool
  | .startDrain => true
  | _ => false

def Act.touches (action : Act) : Bool :=
  action.touchesRevoked || action.touchesHost || action.touchesYielding || action.touchesDevices ||
    action.touchesHeld || action.touchesDraining

structure HomeParts where
  revoked : Option Revoked
  host : Host
  yielding : Table Nat (String × Nat)
  devices : Table String Nat
  provisioned : Heap Bool
  held : Table String (List SessionSnapshot)
  draining : Bool

namespace Home

def parts (home : Home) : HomeParts where
  revoked := home.revoked
  host := home.host
  yielding := home.yielding
  devices := home.devices
  provisioned := home.provisioned
  held := home.held
  draining := home.draining

structure SameLocks (home next : Home) : Prop where
  holds : next.holds = home.holds
  admitting : next.admitting = home.admitting
  channels : next.channels = home.channels

inductive Effect (home : Home) (thread : Nat) : (action : Act) → action.Result → Home → Prop
  | still {action result next} (system : next.system = home.system)
      (locks : home.SameLocks next) (asked : next.resolvedAt = home.resolvedAt)
      (unmoved : ∀ holds later : Local, holds.after action result = some later →
        later.core = holds.core) :
      Effect home thread action result next
  | plain {action result next op} (does : action.plainOp = some op)
      (applied : home.system.apply op = some next.system) (locks : home.SameLocks next)
      (asked : next.resolvedAt = home.resolvedAt) :
      Effect home thread action result next
  | admitted {grant next} (applied : home.system.apply (.admitGrant grant) = some next.system)
      (locks : home.SameLocks next) (asked : next.resolvedAt = home.resolvedAt) :
      Effect home thread (.admitGrant grant) () next
  | resolved {uid session tier now resolution ledger next}
      (applied : home.system.apply (.resolve thread uid session tier now) = some next.system)
      (found : home.ledger.resolveHeld uid session tier now = .ok (resolution, ledger))
      (locks : home.SameLocks next)
      (asked : next.resolvedAt =
        home.resolvedAt.put thread (home.ledger.epoch, resolution.fence)) :
      Effect home thread (.resolve uid session tier)
        (.ok (resolution.act, resolution.fence, resolution.ref)) next
  | committed {endpoint pooled resolution exit next}
      (found : home.system.resolved.get thread = some resolution)
      (applied : home.system.apply (.commit thread endpoint pooled home.draining) =
        some next.system)
      (locks : home.SameLocks next) (asked : next.resolvedAt = home.resolvedAt) :
      Effect home thread (.commitHeld endpoint pooled)
        ((home.system.commit thread resolution endpoint pooled home.draining).1, exit) next
  | closed {next} (applied : home.system.apply (.unlock thread) = some next.system)
      (locks : home.SameLocks next) (asked : next.resolvedAt = home.resolvedAt) :
      Effect home thread .unlock () next
  | joined {uid session} (free : home.holds.get thread = none) :
      Effect home thread (.joinGate uid session) () { home.withLedger
          (home.ledger.joinGate (sessionKey uid session)).2 with
        holds := home.holds.put thread
          (sessionKey uid session, (home.ledger.joinGate (sessionKey uid session)).1) }
  | locked {key pointer ledger} (joined : home.holds.get thread = some (key, pointer))
      (taken : home.ledger.lockGate pointer thread = some ledger) :
      Effect home thread .lockGate () (home.withLedger ledger)
  | unlocked {key pointer} (joined : home.holds.get thread = some (key, pointer)) :
      Effect home thread .unlockGate () (home.withLedger (home.ledger.unlockGate pointer))
  | left {key pointer} (joined : home.holds.get thread = some (key, pointer)) :
      Effect home thread .leaveGate ()
        { home.withLedger (home.ledger.leaveGate key pointer) with
          holds := home.holds.drop thread }
  | entered {uid} (free : home.admitting.get uid = none) :
      Effect home thread (.enterAdmission uid) (.entered home.channels.size) { home with
        admitting := home.admitting.put uid home.channels.size
        channels := home.channels.alloc { owner := thread } }
  | passed {uid lease now channel next} (system : next.system = home.system)
      (holds : next.holds = home.holds) (admitting : next.admitting = home.admitting)
      (channels : next.channels = home.channels.write channel
        { home.channels.read channel with passed := true })
      (asked : next.resolvedAt = home.resolvedAt) :
      Effect home thread (.denied uid lease now (some channel)) false next
  | refused {uid lease now channel next} (system : next.system = home.system)
      (locks : home.SameLocks next) (asked : next.resolvedAt = home.resolvedAt) :
      Effect home thread (.denied uid lease now (some channel)) true next
  | leftSlot {uid} : Effect home thread (.leaveAdmission uid) ()
      { home with admitting := home.admitting.drop uid }
  | closedSlot {channel} : Effect home thread (.closeAdmission channel) () { home with
      channels := home.channels.write channel
        { home.channels.read channel with closed := true } }

variable {home next : Home}

theorem op_eq {op : LedgerOp} (done : home.op op = some next) :
    home.system.apply op = some next.system ∧ home.SameLocks next ∧
      next.resolvedAt = home.resolvedAt := by
  obtain ⟨system, step, rfl⟩ := Option.map_eq_some_iff.mp done
  exact ⟨step, ⟨rfl, rfl, rfl⟩, rfl⟩

variable {tid : Nat} {action : Act}

variable {result : action.Result}

theorem plain_effect {op : LedgerOp} {value : Home → action.Result × Home}
    (ran : (home.op op).map value = some (result, next)) (does : action.plainOp = some op)
    (same : ∀ mid, (value mid).2 = mid) : Effect home tid action result next := by
  obtain ⟨mid, done, outcome⟩ := Option.map_eq_some_iff.mp ran
  have last : mid = next := by
    rw [← same mid, outcome]
  subst mid
  obtain ⟨step, locks, asked⟩ := op_eq done
  exact .plain does step locks asked

theorem resolve_effect {uid session : String} {tier : Tier}
    {now : Time} {result : Except ResolveError (Action × Fence × String)}
    (ran : home.resolved tid uid session tier now = some (result, next)) :
    Effect home tid (.resolve uid session tier) result next := by
  obtain ⟨mid, done, outcome⟩ := Option.map_eq_some_iff.mp ran
  obtain ⟨step, locks, asked⟩ := op_eq done
  split at outcome
  · rename_i res ledger got
    cases outcome
    exact .resolved step got ⟨locks.holds, locks.admitting, locks.channels⟩ rfl
  · rename_i error refused
    simp only [Prod.mk.injEq] at outcome
    obtain ⟨rfl, rfl⟩ := outcome
    have kept : mid.system = home.system := by
      simp only [LedgerSystem.apply, refused] at step
      split at step
      · simp at step
      · simpa using step.symm
    refine .still kept locks asked ?_
    intro has later may
    simp only [Local.after, Local.resolved] at may
    split at may
    · simp only [Option.some.injEq] at may
      rw [may]
    · simp at may

theorem commit_effect {endpoint : String} {pooled : Bool} {result : Bool × Option FiberExit}
    (ran : home.commitHeld tid endpoint pooled = some (result, next)) :
    Effect home tid (.commitHeld endpoint pooled) result next := by
  unfold commitHeld at ran
  split at ran
  · simp at ran
  · rename_i res got
    obtain ⟨mid, done, outcome⟩ := Option.map_eq_some_iff.mp ran
    obtain ⟨step, locks, asked⟩ := op_eq done
    cases outcome
    exact .committed got step ⟨locks.holds, locks.admitting, locks.channels⟩ asked

theorem exited_effect {exit : FiberExit}
    {result : Option Ledger.Gone} (ran : home.exited exit = some (result, next)) :
    Effect home tid (.exited exit) result next := by
  obtain ⟨mid, done, outcome⟩ := Option.map_eq_some_iff.mp ran
  obtain ⟨step, locks, asked⟩ := op_eq done
  split at outcome
  · cases outcome
    exact .plain rfl step locks asked
  · cases outcome
    exact .plain rfl step ⟨locks.holds, locks.admitting, locks.channels⟩ asked

theorem denied_effect (home : Home) (tid : Nat) (uid : String) (lease now : Time)
    (slot : Option Nat) : Effect home tid (.denied uid lease now slot)
      (home.denied uid lease now slot).1 (home.denied uid lease now slot).2 := by
  cases slot with
  | none =>
    refine .still ?_ ?_ ?_ ?_
    · unfold denied
      split
      · rfl
      · split <;> rfl
    · unfold denied
      split
      · exact ⟨rfl, rfl, rfl⟩
      · split <;> exact ⟨rfl, rfl, rfl⟩
    · unfold denied
      split
      · rfl
      · split <;> rfl
    · intro has later may
      replace may := Option.some.inj may
      rw [may]
  | some chan =>
    unfold denied
    split
    · exact .passed rfl rfl rfl rfl rfl
    · split
      · exact .refused rfl ⟨rfl, rfl, rfl⟩ rfl
      · exact .passed rfl rfl rfl rfl rfl

theorem enter_effect (home : Home) (tid : Nat) (uid : String) :
    Effect home tid (.enterAdmission uid) (home.enterAdmission tid uid).1
      (home.enterAdmission tid uid).2 := by
  unfold enterAdmission
  split
  · refine .still rfl ⟨rfl, rfl, rfl⟩ rfl ?_
    intro has later may
    simp only [Local.after] at may
    split at may
    · simp only [Option.some.injEq] at may
      rw [may]
    · simp at may
  · rename_i free
    exact .entered free

theorem still_effect (system : next.system = home.system) (locks : home.SameLocks next)
    (asked : next.resolvedAt = home.resolvedAt)
    (free : ∀ has : Local, has.after action result = some has) :
    Effect home tid action result next :=
  .still system locks asked fun has _ may =>
    congrArg Local.core (Option.some.inj (may.symm.trans (free has)))

variable {answer : Answer}

theorem perform_effect (ran : home.perform tid action answer = some (result, next)) :
    Effect home tid action result next := by
  cases action with
  | ask question =>
    obtain ⟨reply, _, outcome⟩ := Option.map_eq_some_iff.mp ran
    cases outcome
    exact still_effect rfl ⟨rfl, rfl, rfl⟩ rfl fun _ => rfl
  | host action =>
    simp only [perform] at ran
    split at ran
    · obtain ⟨outcome, _, outcomes⟩ := Option.map_eq_some_iff.mp ran
      cases outcomes
      refine .still rfl ⟨rfl, rfl, rfl⟩ rfl ?_
      intro has later may
      obtain ⟨template, _, rfl⟩ := Option.map_eq_some_iff.mp may
      rfl
    · simp at ran
  | revokeGrant uid =>
    simp only [perform] at ran
    obtain ⟨mid, done, outcome⟩ := Option.map_eq_some_iff.mp ran
    cases outcome
    obtain ⟨step, locks, asked⟩ := op_eq done
    exact .plain rfl step ⟨locks.holds, locks.admitting, locks.channels⟩ asked
  | yielded =>
    cases ran
    refine .still rfl ⟨rfl, rfl, rfl⟩ rfl ?_
    intro has later may
    cases may
    rfl
  | bumpEpoch epoch | forgetSession uid session | setFiberW fiberID bytes | setPooled uid count
  | onPark fiberID deltaRef | onRelease fiberID =>
    simp only [perform] at ran
    exact plain_effect ran rfl fun _ => rfl
  | restoreParked snap =>
    simp only [perform] at ran
    refine plain_effect ran rfl ?_
    intro mid
    split <;> rfl
  | exited exit => exact exited_effect ran
  | admitGrant grant =>
    simp only [perform] at ran
    obtain ⟨mid, done, outcome⟩ := Option.map_eq_some_iff.mp ran
    cases outcome
    obtain ⟨step, locks, asked⟩ := op_eq done
    exact .admitted step locks asked
  | unlock =>
    simp only [perform] at ran
    obtain ⟨mid, done, outcome⟩ := Option.map_eq_some_iff.mp ran
    cases outcome
    obtain ⟨step, locks, asked⟩ := op_eq done
    exact .closed step locks asked
  | resolve uid session tier =>
    simp only [perform] at ran
    split at ran
    · exact resolve_effect ran
    · simp at ran
  | commitHeld endpoint pooled => exact commit_effect ran
  | joinGate uid session =>
    simp only [perform] at ran
    split at ran <;> cases ran
    rename_i free
    exact .joined free
  | lockGate =>
    simp only [perform] at ran
    split at ran
    · rename_i key ptr joined
      obtain ⟨ledger, took, outcome⟩ := Option.map_eq_some_iff.mp ran
      cases outcome
      exact .locked joined took
    · simp at ran
  | unlockGate =>
    simp only [perform] at ran
    split at ran <;> cases ran
    rename_i key ptr joined
    exact .unlocked joined
  | leaveGate =>
    simp only [perform] at ran
    split at ran <;> cases ran
    rename_i key ptr joined
    exact .left joined
  | enterAdmission uid =>
    replace ran := Option.some.inj ran
    have effect := enter_effect home tid uid
    rw [ran] at effect
    exact effect
  | denied uid lease now slot =>
    replace ran := Option.some.inj ran
    have effect := denied_effect home tid uid lease now slot
    rw [ran] at effect
    exact effect
  | leaveAdmission uid =>
    cases ran
    exact .leftSlot
  | closeAdmission chan =>
    cases ran
    exact .closedSlot
  | awaitAdmission chan =>
    simp only [perform] at ran
    split at ran
    · split at ran
      · cases ran
        exact still_effect rfl ⟨rfl, rfl, rfl⟩ rfl fun _ => rfl
      · split at ran <;> cases ran
        exact still_effect rfl ⟨rfl, rfl, rfl⟩ rfl fun _ => rfl
    · simp at ran
  | lift uid =>
    simp only [perform] at ran
    split at ran <;>
      · cases ran
        exact still_effect rfl ⟨rfl, rfl, rfl⟩ rfl fun _ => rfl
  | provision uid =>
    simp only [perform] at ran
    split at ran
    · cases ran
      exact still_effect rfl ⟨rfl, rfl, rfl⟩ rfl fun _ => rfl
    · cases ran
      exact still_effect rfl ⟨rfl, rfl, rfl⟩ rfl fun _ => rfl
    · simp at ran
  | holdParked snap =>
    simp only [perform, holdParked] at ran
    split at ran <;>
      · cases ran
        exact still_effect rfl ⟨rfl, rfl, rfl⟩ rfl fun _ => rfl
  | spin => cases ran
  | _ =>
    cases ran
    exact still_effect rfl ⟨rfl, rfl, rfl⟩ rfl fun _ => rfl

theorem op_parts {op : LedgerOp} (done : home.op op = some next) : next.parts = home.parts := by
  obtain ⟨system, _, rfl⟩ := Option.map_eq_some_iff.mp done
  rfl

theorem denied_parts (home : Home) (uid : String) (lease now : Time) (slot : Option Nat) :
    (home.denied uid lease now slot).2.parts =
      { home.parts with revoked := (home.denied uid lease now slot).2.revoked } := by
  unfold denied
  split
  · cases slot <;> rfl
  · split
    · rfl
    · cases slot <;> rfl

theorem perform_parts (ran : home.perform tid action answer = some (result, next))
    (plain : action.touches = false) : next.parts = home.parts := by
  cases action with
  | ask question =>
    obtain ⟨reply, _, outcome⟩ := Option.map_eq_some_iff.mp ran
    cases outcome
    rfl
  | joinGate uid session | unlockGate | leaveGate =>
    simp only [perform] at ran
    split at ran <;> cases ran
    rfl
  | lockGate =>
    simp only [perform] at ran
    split at ran
    · obtain ⟨ledger, _, outcome⟩ := Option.map_eq_some_iff.mp ran
      cases outcome
      rfl
    · simp at ran
  | resolve uid session tier =>
    simp only [perform] at ran
    split at ran
    · obtain ⟨mid, done, outcome⟩ := Option.map_eq_some_iff.mp ran
      rw [← op_parts done]
      split at outcome <;>
        · cases outcome
          rfl
    · simp at ran
  | commitHeld endpoint pooled =>
    simp only [perform, commitHeld] at ran
    split at ran
    · simp at ran
    · obtain ⟨mid, done, outcome⟩ := Option.map_eq_some_iff.mp ran
      rw [← op_parts done]
      cases outcome
      rfl
  | exited exit =>
    simp only [perform, exited] at ran
    obtain ⟨mid, done, outcome⟩ := Option.map_eq_some_iff.mp ran
    rw [← op_parts done]
    split at outcome <;>
      · cases outcome
        rfl
  | restoreParked snap =>
    obtain ⟨mid, done, outcome⟩ := Option.map_eq_some_iff.mp ran
    rw [← op_parts done]
    split at outcome <;>
      · cases outcome
        rfl
  | enterAdmission uid =>
    simp only [perform, enterAdmission, Option.some.injEq] at ran
    split at ran <;>
      · cases ran
        rfl
  | awaitAdmission chan =>
    simp only [perform] at ran
    repeat' split at ran
    all_goals
      first
      | (cases ran; rfl)
      | cases ran
  | spin => cases ran
  | _ =>
    first
    | (cases ran; rfl)
    | (obtain ⟨mid, done, outcome⟩ := Option.map_eq_some_iff.mp ran
       rw [← op_parts done]
       cases outcome
       rfl)
    | cases plain

structure Frame (home : Home) (action : Act) (next : Home) : Prop where
  revoked : action.touchesRevoked = false → next.revoked = home.revoked
  host : action.touchesHost = false → next.host = home.host
  yielding : action.touchesYielding = false → next.yielding = home.yielding
  devices : action.touchesDevices = false →
    next.devices = home.devices ∧ next.provisioned = home.provisioned
  held : action.touchesHeld = false → next.held = home.held
  draining : action.touchesDraining = false → next.draining = home.draining

theorem frame_of_parts (action : Act) (same : next.parts = home.parts) : Frame home action next :=
  ⟨fun _ => congrArg HomeParts.revoked same, fun _ => congrArg HomeParts.host same,
    fun _ => congrArg HomeParts.yielding same,
    fun _ => ⟨congrArg HomeParts.devices same, congrArg HomeParts.provisioned same⟩,
    fun _ => congrArg HomeParts.held same, fun _ => congrArg HomeParts.draining same⟩

theorem perform_frame (ran : home.perform tid action answer = some (result, next)) :
    Frame home action next := by
  by_cases plain : action.touches = false
  · exact frame_of_parts action (perform_parts ran plain)
  · cases action with
    | host action =>
      simp only [perform] at ran
      split at ran
      · obtain ⟨outcome, _, outcomes⟩ := Option.map_eq_some_iff.mp ran
        cases outcomes
        exact ⟨fun _ => rfl, nofun, fun _ => rfl, fun _ => ⟨rfl, rfl⟩, fun _ => rfl, fun _ => rfl⟩
      · simp at ran
    | revokeGrant uid =>
      simp only [perform] at ran
      obtain ⟨mid, done, outcome⟩ := Option.map_eq_some_iff.mp ran
      obtain ⟨system, _, rfl⟩ := Option.map_eq_some_iff.mp done
      cases outcome
      exact ⟨fun _ => rfl, fun _ => rfl, nofun, fun _ => ⟨rfl, rfl⟩, fun _ => rfl, fun _ => rfl⟩
    | yielded =>
      cases ran
      exact ⟨fun _ => rfl, fun _ => rfl, nofun, fun _ => ⟨rfl, rfl⟩, fun _ => rfl, fun _ => rfl⟩
    | denied uid lease now slot =>
      replace ran := Option.some.inj ran
      have same := denied_parts home uid lease now slot
      rw [ran] at same
      exact ⟨nofun, fun _ => congrArg HomeParts.host same,
        fun _ => congrArg HomeParts.yielding same,
        fun _ => ⟨congrArg HomeParts.devices same, congrArg HomeParts.provisioned same⟩,
        fun _ => congrArg HomeParts.held same, fun _ => congrArg HomeParts.draining same⟩
    | lift uid =>
      simp only [perform] at ran
      split at ran <;>
        · cases ran
          exact ⟨nofun, fun _ => rfl, fun _ => rfl, fun _ => ⟨rfl, rfl⟩, fun _ => rfl,
            fun _ => rfl⟩
    | deny uid lease now =>
      cases ran
      exact ⟨nofun, fun _ => rfl, fun _ => rfl, fun _ => ⟨rfl, rfl⟩, fun _ => rfl, fun _ => rfl⟩
    | provision uid =>
      simp only [perform] at ran
      split at ran
      · cases ran
        exact ⟨fun _ => rfl, fun _ => rfl, fun _ => rfl, nofun, fun _ => rfl, fun _ => rfl⟩
      · cases ran
        exact ⟨fun _ => rfl, fun _ => rfl, fun _ => rfl, nofun, fun _ => rfl, fun _ => rfl⟩
      · simp at ran
    | holdParked snap =>
      simp only [perform, holdParked, Option.some.injEq] at ran
      split at ran <;>
        · cases ran
          exact ⟨fun _ => rfl, fun _ => rfl, fun _ => rfl, fun _ => ⟨rfl, rfl⟩, nofun,
            fun _ => rfl⟩
    | startDrain =>
      cases ran
      exact ⟨fun _ => rfl, fun _ => rfl, fun _ => rfl, fun _ => ⟨rfl, rfl⟩, fun _ => rfl, nofun⟩
    | keepChannel uid chan | dropChannel uid | releaseChannel chan =>
      cases ran
      exact ⟨fun _ => rfl, fun _ => rfl, fun _ => rfl, nofun, fun _ => rfl, fun _ => rfl⟩
    | holdGrant uid | takeHeld uid =>
      cases ran
      exact ⟨fun _ => rfl, fun _ => rfl, fun _ => rfl, fun _ => ⟨rfl, rfl⟩, nofun, fun _ => rfl⟩
    | _ => exact (plain rfl).elim

end Home

end Fiberd
