import Fiberd.Home.HomeYield

/-!
The templates of a home whose yields stay apart from its admissions.  A yield drops
the template of its UID step by step and under no lock an admission takes, so what
is kept here is kept by the calls that do not come between: while a UID is being
yielded no admission of it and no prepare of it is under way.
-/

namespace Fiberd

open Heaps Tables Programs Machines LedgerSystem

def Home.yields (home : Home) (uid : String) : Bool :=
  home.yielding.rows.any fun row => decide (row.2.1 = uid)

theorem Home.yields_of_get {home : Home} {thread mark : Nat} {uid : String}
    (yielding : home.yielding.get thread = some (uid, mark)) : home.yields uid = true := by
  refine List.any_eq_true.mpr ⟨(thread, uid, mark), ?_, by simp⟩
  exact (mem_rows_iff _ _ _).mpr yielding

/-- A yield revokes while no admission and no prepare of its UID is under way, and none is
entered until it returns. -/
def Act.apart (home : Home) : Act → Bool
  | .revokeGrant uid => (home.admitting.get uid).isNone && (home.host.preparing.get uid).isNone
  | .enterAdmission uid => !home.yields uid
  | .host (.enterPrepare uid) => !home.yields uid
  | _ => true

def yieldsApart (home : Home) (_ : Nat) (action : Act) (_ : Answer) : Bool := action.apart home

structure YieldedApart (uid : String) (mark : Nat) (home : Home) : Prop where
  slot : home.admitting.get uid = none
  prepare : home.host.preparing.get uid = none
  grant : home.ledger.grants.get uid = none
  fibers : ∀ id ref origin, home.ledger.fibers.get id = some ref → ref.grantUID = uid →
    home.system.origins.get id = some origin → origin < mark

structure TemplatesKept (home : Home) : Prop where
  yields : ∀ thread uid mark, home.yielding.get thread = some (uid, mark) →
    YieldedApart uid mark home
  origins : ∀ id ref origin, home.ledger.fibers.get id = some ref →
    home.system.origins.get id = some origin → origin < home.ledger.entries.size
  placed : ∀ uid channel, home.host.preparing.get uid = some channel →
    channel < home.host.prepared.size
  warm : ∀ uid, home.ledger.grants.get uid ≠ none → home.host.died.get uid = none →
    home.host.warms.get uid ≠ none
  same : ∀ uid warm, home.host.warms.get uid = some warm → home.host.died.get uid = none →
    home.host.instances.get uid = some warm.number

def StageAt (uid : String) (stage : PrepStage) (host : Host) : Prop :=
  match stage with
  | .opened => host.warms.get uid = none
  | .warmed number => host.warms.get uid = none ∧
      (host.died.get uid = none → host.instances.get uid = some number)
  | .published => True

def PrepAt (thread : Nat) (prep : PrepHold) (host : Host) : Prop :=
  match prep with
  | .out => True
  | .within uid channel stage => host.preparing.get uid = some channel ∧
      (host.prepared.read channel).owner = thread ∧ StageAt uid stage host

def DropAt (thread : Nat) (drop : DropHold) (home : Home) : Prop :=
  match drop with
  | .idle => home.yielding.get thread = none
  | .revoked uid => ∃ mark, home.yielding.get thread = some (uid, mark)
  | .taken uid => (∃ mark, home.yielding.get thread = some (uid, mark)) ∧
      home.host.warms.get uid = none

structure TemplateAt (thread : Nat) (holds : Local) (home : Home) : Prop where
  prep : PrepAt thread holds.template.prep home.host
  entered : holds.template.ready = true → ∃ uid channel passed,
    holds.slot = .entered uid channel passed
  ready : holds.template.ready = true → ∀ uid channel passed,
    holds.slot = .entered uid channel passed → home.host.died.get uid = none →
      home.host.warms.get uid ≠ none
  drop : DropAt thread holds.template.drop home
  lost : ∀ uid, holds.template.lost = some uid → home.host.died.get uid ≠ none

theorem newHome_templates (epoch : Nat) (revoked : Option Revoked) :
    TemplatesKept (newHome epoch revoked) := by
  constructor <;> simp [newHome, newHost, newSystem, newLedger]

theorem newHome_untemplated (epoch : Nat) (revoked : Option Revoked) (thread : Nat) :
    TemplateAt thread {} (newHome epoch revoked) := by
  refine ⟨trivial, by simp, by simp, ?_, by simp⟩
  simp [DropAt, newHome]

structure TemplatesMoved (thread : Nat) (later : Local) (home next : Home) : Prop where
  kept : TemplatesKept next
  mover : TemplateAt thread later next
  others : ∀ other held, other ≠ thread → LocalAt other held home →
    TemplateAt other held home → TemplateAt other held next

section Ledger

variable {home next : Home} {thread : Nat} {holds later : Local} {action : Act}
  {answer : Answer} {result : action.Result}

theorem Home.perform_admitting (ran : home.perform thread action answer = some (result, next))
    (uid : String) : next.admitting.get uid = home.admitting.get uid ∨
      action = .enterAdmission uid ∨ next.admitting.get uid = none := by
  cases perform_effect ran with
  | still _ locks _ _ | plain _ _ locks _ | admitted _ locks _ | resolved _ _ locks _
  | committed _ _ locks _ | closed _ locks _ | refused _ locks _ =>
    exact .inl (by rw [locks.admitting])
  | passed _ _ admitting _ _ => exact .inl (by rw [admitting])
  | @entered entering _ =>
    by_cases same : uid = entering
    · exact .inr (.inl (by rw [same]))
    · exact .inl (get_put_other _ _ same)
  | @leftSlot leaving =>
    by_cases same : uid = leaving
    · exact .inr (.inr (by rw [same]; exact get_drop_same _ _))
    · exact .inl (get_drop_other _ same)
  | _ => exact .inl rfl

theorem YieldedApart.act {uid : String} {mark yielder : Nat}
    (yielding : home.yielding.get yielder = some (uid, mark)) (kept : YieldedApart uid mark home)
    (stands : LocalAt thread holds home) (turn : holds.after action result = some later)
    (may : action.apart home = true) (ran : home.perform thread action answer = some (result, next))
    (ours : action.touchesHost = false) : YieldedApart uid mark next := by
  have admits : ∀ grant, action = .admitGrant grant → grant.uid ≠ uid := by
    rintro grant rfl rfl
    obtain ⟨channel, here, _⟩ := stands.admits turn
    simp [kept.slot] at here
  refine ⟨?_, ?_, ?_, ?_⟩
  · rcases Home.perform_admitting ran uid with same | rfl | gone
    · exact same.trans kept.slot
    · simp [Act.apart, Home.yields_of_get yielding] at may
    · exact gone
  · rw [(Home.perform_frame ran).host ours]
    exact kept.prepare
  · rcases Home.perform_grants ran uid with same | ⟨grant, lets, mine, _⟩ | ⟨_, revoked⟩
    · exact same.trans kept.grant
    · exact (admits grant lets mine).elim
    · exact revoked
  · intro id ref origin got mine known
    rcases (Home.perform_grows ran).fibers id ref got with
      ⟨old, before, sameGrant, sameOrigin⟩ | ⟨ptr, _, admitted⟩
    · exact kept.fibers id old origin before (sameGrant.trans mine) (sameOrigin ▸ known)
    · simp [mine, kept.grant] at admitted

end Ledger

structure Local.Carried (yields : Bool) (holds later : Local) : Prop where
  prep : later.template.prep = holds.template.prep
  lost : later.template.lost = holds.template.lost
  drop : yields = false → later.template.drop = holds.template.drop
  ready : later.template.ready = true → holds.template.ready = true ∧
    ∃ uid channel before after, holds.slot = .entered uid channel before ∧
      later.slot = .entered uid channel after

section Carried

variable {holds later : Local} {action : Act} {result : action.Result} {yields : Bool}

theorem Local.carried_of_eq (coupled : holds.template.ready = true → ∃ uid channel passed,
      holds.slot = .entered uid channel passed)
    (template : later.template = holds.template) (slot : later.slot = holds.slot) :
    Carried yields holds later := by
  refine ⟨by rw [template], by rw [template], fun _ => by rw [template], ?_⟩
  intro ready
  rw [template] at ready
  obtain ⟨uid, channel, passed, place⟩ := coupled ready
  exact ⟨ready, uid, channel, passed, passed, place, slot.trans place⟩

theorem Local.carried_of_unready (template : later.template = holds.template)
    (unready : holds.template.ready = false) : Carried yields holds later := by
  refine ⟨by rw [template], by rw [template], fun _ => by rw [template], ?_⟩
  simp [template, unready]

theorem Local.carried (turn : holds.after action result = some later)
    (ours : action.touchesHost = false)
    (coupled : holds.template.ready = true → ∃ uid channel passed,
      holds.slot = .entered uid channel passed) : Carried action.touchesYielding holds later := by
  have unready : ∀ slot, holds.slot = slot → (∀ uid channel passed,
      slot ≠ .entered uid channel passed) → holds.template.ready = false := by
    intro slot place apart
    by_contra ready
    simp only [Bool.not_eq_false] at ready
    obtain ⟨uid, channel, passed, entered⟩ := coupled ready
    exact apart uid channel passed (place.symm.trans entered)
  cases action with
  | host action => simp [Act.touchesHost] at ours
  | revokeGrant uid =>
    simp only [Local.after] at turn
    split at turn <;> cases turn
    exact ⟨rfl, rfl, by simp [Act.touchesYielding],
      (carried_of_eq coupled rfl rfl : Carried false holds holds).ready⟩
  | yielded =>
    cases turn
    exact ⟨rfl, rfl, by simp [Act.touchesYielding],
      (carried_of_eq coupled rfl rfl : Carried false holds holds).ready⟩
  | leaveAdmission uid =>
    simp only [Local.after] at turn
    split at turn
    · split at turn <;> cases turn
      exact ⟨rfl, rfl, fun _ => rfl, by simp⟩
    · simp at turn
  | enterAdmission uid =>
    simp only [Local.after] at turn
    split at turn
    · rename_i out
      split at turn <;>
        · cases turn
          exact carried_of_unready rfl (unready _ out (by simp))
    · simp at turn
  | denied uid lease now slot =>
    cases slot with
    | none =>
      cases turn
      exact carried_of_eq coupled rfl rfl
    | some channel =>
      simp only [Local.after] at turn
      split at turn <;> cases turn
      rename_i place
      exact ⟨rfl, rfl, fun _ => rfl,
        fun ready => ⟨ready, uid, channel, false, _, place, rfl⟩⟩
  | closeAdmission channel =>
    simp only [Local.after] at turn
    split at turn <;> cases turn
    rename_i left
    exact carried_of_unready rfl (unready _ left (by simp))
  | admitGrant grant =>
    obtain ⟨rfl, _⟩ := Local.admits turn
    exact carried_of_eq coupled rfl rfl
  | resolve uid session tier =>
    simp only [Local.after] at turn
    split at turn <;> cases turn
    cases result <;> exact carried_of_eq coupled rfl rfl
  | joinGate _ _ | lockGate | unlockGate | leaveGate | unlock =>
    simp only [Local.after] at turn
    split at turn <;> cases turn
    exact carried_of_eq coupled rfl rfl
  | commitHeld endpoint pooled =>
    simp only [Local.after] at turn
    split at turn
    · split at turn <;> cases turn
      exact carried_of_eq coupled rfl rfl
    · simp at turn
  | _ =>
    cases turn
    exact carried_of_eq coupled rfl rfl

end Carried

section Calls

variable {home next : Home} {thread : Nat} {holds later : Local} {action : Act}
  {answer : Answer} {result : action.Result}

theorem TemplateAt.other {other : Nat} {held : Local} (at_ : TemplateAt other held home)
    (host : next.host = home.host) (yielding : next.yielding.get other = home.yielding.get other) :
    TemplateAt other held next := by
  obtain ⟨prep, entered, ready, drop, lost⟩ := at_
  refine ⟨host ▸ prep, entered, host ▸ ready, ?_, host ▸ lost⟩
  cases case : held.template.drop with
  | idle =>
    rw [case] at drop
    exact yielding.trans drop
  | revoked uid =>
    rw [case] at drop
    obtain ⟨mark, known⟩ := drop
    exact ⟨mark, yielding.trans known⟩
  | taken uid =>
    rw [case] at drop
    obtain ⟨⟨mark, known⟩, gone⟩ := drop
    exact ⟨⟨mark, yielding.trans known⟩, host ▸ gone⟩

theorem TemplateAt.carry {yields : Bool} (at_ : TemplateAt thread holds home)
    (carried : Local.Carried yields holds later)
    (host : next.host = home.host) (drop : DropAt thread later.template.drop next) :
    TemplateAt thread later next := by
  refine ⟨?_, ?_, ?_, drop, ?_⟩
  · rw [carried.prep, host]
    exact at_.prep
  · intro ready
    obtain ⟨_, uid, channel, _, after, _, place⟩ := carried.ready ready
    exact ⟨uid, channel, after, place⟩
  · intro ready uid channel passed place
    obtain ⟨was, uid', channel', old, _, placeBefore, placeAfter⟩ := carried.ready ready
    rw [place, SlotHold.entered.injEq] at placeAfter
    rw [host, placeAfter.1]
    exact at_.ready was uid' channel' old placeBefore
  · rw [carried.lost, host]
    exact at_.lost

variable (templates : TemplatesKept home) (kept : home.Ok) (stands : LocalAt thread holds home)
  (at_ : TemplateAt thread holds home)
include templates kept stands at_

theorem TemplatesKept.act (turn : holds.after action result = some later)
    (may : action.apart home = true) (ran : home.perform thread action answer = some (result, next))
    (ours : action.touchesHost = false)
    (yields : ∀ yielder uid mark, next.yielding.get yielder = some (uid, mark) →
      home.yielding.get yielder = some (uid, mark) ∨ YieldedApart uid mark next) :
    TemplatesKept next := by
  have host := (Home.perform_frame ran).host ours
  have grows := Home.perform_grows ran
  refine ⟨?_, ?_, host ▸ templates.placed, ?_, host ▸ templates.same⟩
  · intro yielder uid mark yielding
    rcases yields yielder uid mark yielding with before | fresh
    · exact (templates.yields yielder uid mark before).act before stands turn may ran ours
    · exact fresh
  · intro id ref origin got known
    rcases grows.fibers id ref got with ⟨old, before, _, sameOrigin⟩ | ⟨ptr, same, admitted⟩
    · exact Nat.lt_of_lt_of_le (templates.origins id old origin before (sameOrigin ▸ known))
        grows.size
    · rw [same, Option.some.injEq] at known
      subst origin
      exact Nat.lt_of_lt_of_le (kept.sound.admitted _ ptr admitted).1 grows.size
  · intro uid admitted alive
    rw [host] at alive ⊢
    rcases Home.perform_grants ran uid with same | ⟨grant, rfl, rfl, _⟩ | ⟨_, revoked⟩
    · exact templates.warm uid (same ▸ admitted) alive
    · obtain ⟨_, ready, channel, place⟩ := Local.admits turn
      exact at_.ready ready grant.uid channel true place alive
    · exact (admitted revoked).elim

theorem templates_revoke {uid : String} {result : (Act.revokeGrant uid).Result}
    (turn : holds.after (.revokeGrant uid) result = some later)
    (may : (Act.revokeGrant uid).apart home = true)
    (ran : home.perform thread (.revokeGrant uid) answer = some (result, next)) :
    TemplatesMoved thread later home next := by
  have host := (Home.perform_frame ran).host rfl
  have grows := Home.perform_grows ran
  obtain ⟨grants, yielding⟩ := Home.perform_revokes ran
  simp only [Act.apart, Bool.and_eq_true, Option.isNone_iff_eq_none] at may
  have fresh : YieldedApart uid home.ledger.entries.size next := by
    refine ⟨?_, host ▸ may.2, ?_, ?_⟩
    · rcases Home.perform_admitting ran uid with same | enters | gone
      · exact same.trans may.1
      · simp at enters
      · exact gone
    · rw [grants]
      exact get_drop_same _ _
    · intro id ref origin got mine known
      rcases grows.fibers id ref got with ⟨old, before, _, sameOrigin⟩ | ⟨ptr, same, admitted⟩
      · exact templates.origins id old origin before (sameOrigin ▸ known)
      · rw [same, Option.some.injEq] at known
        subst origin
        exact (kept.sound.admitted _ ptr admitted).1
  refine ⟨?_, ?_, ?_⟩
  · refine templates.act kept stands at_ turn (by simp [Act.apart, may]) ran rfl ?_
    intro yielder name mark known
    rw [yielding, get_put] at known
    split at known
    · cases known
      exact .inr fresh
    · exact .inl known
  · refine at_.carry (Local.carried turn rfl at_.entered) host ?_
    simp only [Local.after] at turn
    split at turn <;> cases turn
    exact ⟨_, by rw [yielding]; exact get_put_same _ _ _⟩
  · intro other held apart _ standsThere
    exact standsThere.other host (by rw [yielding, get_put_other _ _ apart])

theorem templates_yielded {result : Act.yielded.Result}
    (turn : holds.after .yielded result = some later)
    (ran : home.perform thread .yielded answer = some (result, next)) :
    TemplatesMoved thread later home next := by
  have host := (Home.perform_frame ran).host rfl
  have yielding : next.yielding = home.yielding.drop thread := by
    replace ran := (outcome_eq ran).2
    rw [← ran]
  refine ⟨?_, ?_, ?_⟩
  · refine templates.act kept stands at_ turn rfl ran rfl ?_
    intro yielder uid mark known
    rw [yielding, get_drop] at known
    split at known
    · simp at known
    · exact .inl known
  · refine at_.carry (Local.carried turn rfl at_.entered) host ?_
    cases turn
    simp [DropAt, yielding]
  · intro other held apart _ standsThere
    exact standsThere.other host (by rw [yielding, get_drop_other _ apart])

theorem templates_calls (turn : holds.after action result = some later)
    (may : action.apart home = true) (ran : home.perform thread action answer = some (result, next))
    (ours : action.touchesHost = false) (others : action.touchesYielding = false) :
    TemplatesMoved thread later home next := by
  have host := (Home.perform_frame ran).host ours
  have yielding := (Home.perform_frame ran).yielding others
  have carried := Local.carried turn ours at_.entered
  refine ⟨?_, ?_, ?_⟩
  · refine templates.act kept stands at_ turn may ran ours ?_
    intro yielder uid mark known
    exact .inl (yielding ▸ known)
  · refine at_.carry carried host ?_
    rw [carried.drop others]
    exact (at_.other host (by rw [yielding])).drop
  · intro other held _ _ standsThere
    exact standsThere.other host (by rw [yielding])

end Calls

structure Host.Same (host next : Host) : Prop where
  warms : next.warms = host.warms
  instances : next.instances = host.instances
  preparing : next.preparing = host.preparing
  died : next.died = host.died
  size : next.prepared.size = host.prepared.size
  owner : ∀ channel, (next.prepared.read channel).owner = (host.prepared.read channel).owner

theorem Host.Same.refl (host : Host) : host.Same host := ⟨rfl, rfl, rfl, rfl, rfl, fun _ => rfl⟩

theorem Host.same_of_neutral {host next : Host} {thread : Nat} {action : HostAct} {answer : Bool}
    {result : action.Result} (neutral : action.neutral = true)
    (ran : host.perform thread action answer = some (result, next)) : host.Same next := by
  cases action with
  | closePrepare channel =>
    cases ran
    refine ⟨rfl, rfl, rfl, rfl, size_write _ _ _, ?_⟩
    intro query
    simp only [read_write]
    split
    · rename_i same
      rw [same]
    · rfl
  | awaitPrepare channel | awaitEngine engine =>
    simp only [perform] at ran
    split at ran
    · simp only [Option.some.injEq, Prod.mk.injEq] at ran
      exact ran.2 ▸ .refl host
    · split at ran
      · simp only [Option.some.injEq, Prod.mk.injEq] at ran
        exact ran.2 ▸ .refl host
      · simp at ran
  | enterEngine uid gone =>
    replace ran := Option.some.inj ran
    have same : host.Same (host.enterEngine uid gone).2 := by
      simp only [enterEngine]
      generalize (if gone.isSome = true ∧ host.engines.get uid = gone
        then host.engines.drop uid else host.engines) = kept
      split
      · split <;> exact ⟨rfl, rfl, rfl, rfl, rfl, fun _ => rfl⟩
      · exact ⟨rfl, rfl, rfl, rfl, rfl, fun _ => rfl⟩
    rwa [ran] at same
  | forgetEngine uid engine =>
    cases ran
    split <;> exact ⟨rfl, rfl, rfl, rfl, rfl, fun _ => rfl⟩
  | spin => cases ran
  | enterPrepare | leavePrepare | warm | unwarm | publish | takeWarm | lose | warmGone =>
    simp [HostAct.neutral] at neutral
  | _ =>
    cases ran
    exact ⟨rfl, rfl, rfl, rfl, rfl, fun _ => rfl⟩

section Host

variable {home : Home} {host : Host} {thread : Nat} {holds : Local} {template : TemplateHold}

structure HostKept (home : Home) (host : Host) : Prop where
  prepare : ∀ thread uid mark, home.yielding.get thread = some (uid, mark) →
    host.preparing.get uid = none
  placed : ∀ uid channel, host.preparing.get uid = some channel → channel < host.prepared.size
  warm : ∀ uid, home.ledger.grants.get uid ≠ none → host.died.get uid = none →
    host.warms.get uid ≠ none
  same : ∀ uid warm, host.warms.get uid = some warm → host.died.get uid = none →
    host.instances.get uid = some warm.number

theorem TemplatesKept.hostKept (templates : TemplatesKept home) : HostKept home home.host :=
  ⟨fun thread uid mark yielding => (templates.yields thread uid mark yielding).prepare,
    templates.placed, templates.warm, templates.same⟩

theorem TemplatesKept.hosted (templates : TemplatesKept home) (kept : HostKept home host) :
    TemplatesKept { home with host := host } := by
  refine ⟨?_, templates.origins, kept.placed, kept.warm, kept.same⟩
  intro yielder uid mark yielding
  have apart := templates.yields yielder uid mark yielding
  exact ⟨apart.slot, kept.prepare yielder uid mark yielding, apart.grant, apart.fibers⟩

structure Hosted (thread : Nat) (holds : Local) (home : Home) (host : Host) : Prop where
  prep : PrepAt thread holds.template.prep home.host → PrepAt thread holds.template.prep host
  ready : ∀ uid channel passed, holds.slot = .entered uid channel passed →
    host.died.get uid = none → home.host.died.get uid = none ∧
      (home.host.warms.get uid ≠ none → host.warms.get uid ≠ none)
  taken : ∀ uid, holds.template.drop = .taken uid → home.host.warms.get uid = none →
    host.warms.get uid = none
  lost : ∀ uid, home.host.died.get uid ≠ none → host.died.get uid ≠ none

theorem Hosted.dropAt (hosted : Hosted thread holds home host)
    (at_ : DropAt thread holds.template.drop home) :
    DropAt thread holds.template.drop { home with host := host } := by
  cases case : holds.template.drop with
  | idle | revoked uid =>
    rw [case] at at_
    exact at_
  | taken uid =>
    rw [case] at at_
    exact ⟨at_.1, hosted.taken uid case at_.2⟩

theorem TemplateAt.hosted (at_ : TemplateAt thread holds home)
    (hosted : Hosted thread holds home host) :
    TemplateAt thread holds { home with host := host } := by
  refine ⟨hosted.prep at_.prep, at_.entered, ?_, hosted.dropAt at_.drop, ?_⟩
  · intro ready uid channel passed place alive
    obtain ⟨old, kept⟩ := hosted.ready uid channel passed place alive
    exact kept (at_.ready ready uid channel passed place old)
  · intro uid lost
    exact hosted.lost uid (at_.lost uid lost)

theorem TemplateAt.found (at_ : TemplateAt thread holds home) {uid : String}
    (warm : home.host.warms.get uid ≠ none) :
    TemplateAt thread { holds with template := holds.template.found holds.slot uid } home := by
  unfold TemplateHold.found
  split
  · rename_i entered channel passed place
    split
    · rename_i same
      subst entered
      refine ⟨at_.prep, fun _ => ⟨uid, channel, passed, place⟩, ?_, at_.drop, at_.lost⟩
      intro _ name slot let_ here _
      rw [place, SlotHold.entered.injEq] at here
      exact here.1 ▸ warm
    · exact at_
  · exact at_

theorem Host.Same.prepAt {host next : Host} (same : host.Same next) {prep : PrepHold}
    (at_ : PrepAt thread prep host) : PrepAt thread prep next := by
  cases prep with
  | out => trivial
  | within uid channel stage =>
    obtain ⟨got, owner, at_⟩ := at_
    refine ⟨by rw [same.preparing, got], by rw [same.owner, owner], ?_⟩
    cases stage with
    | opened =>
      simp only [StageAt, same.warms]
      exact at_
    | warmed number =>
      refine ⟨by rw [same.warms, at_.1], ?_⟩
      rw [same.died, same.instances]
      exact at_.2
    | published => trivial

theorem Host.Same.hosted (same : home.host.Same host) : Hosted thread holds home host := by
  refine ⟨same.prepAt, ?_, ?_, ?_⟩
  · intro uid _ _ _ alive
    rw [same.died] at alive
    exact ⟨alive, by rw [same.warms]; exact id⟩
  · intro uid _ none
    rw [same.warms, none]
  · intro uid
    rw [same.died]
    exact id

theorem Host.Same.kept (same : home.host.Same host) (templates : TemplatesKept home) :
    HostKept home host := by
  refine ⟨?_, ?_, ?_, ?_⟩
  · rw [same.preparing]
    exact templates.hostKept.prepare
  · rw [same.preparing, same.size]
    exact templates.placed
  · rw [same.died, same.warms]
    exact templates.warm
  · rw [same.warms, same.died, same.instances]
    exact templates.same

end Host

section Prepares

variable {home : Home} {thread other : Nat} {holds held : Local} {uid : String} {channel : Nat}

theorem PrepAt.apart {host : Host} {name : String} {place : Nat} {stage its : PrepStage}
    (mine : PrepAt thread (.within uid channel stage) host)
    (there : PrepAt other (.within name place its) host) (apart : other ≠ thread) : name ≠ uid := by
  rintro rfl
  have same : place = channel := by
    have both := there.1.symm.trans mine.1
    simpa using both
  subst place
  exact apart (there.2.1.symm.trans mine.2.1)

theorem PrepAt.unyielded (templates : TemplatesKept home) {stage : PrepStage}
    (mine : PrepAt thread (.within uid channel stage) home.host) (yielder mark : Nat) :
    home.yielding.get yielder ≠ some (uid, mark) := by
  intro yielding
  have none := (templates.yields yielder uid mark yielding).prepare
  have got := mine.1
  simp [none] at got

theorem LocalAt.unyielded (templates : TemplatesKept home) (stands : LocalAt other held home)
    {passed : Bool} (place : held.slot = .entered uid channel passed) (yielder mark : Nat) :
    home.yielding.get yielder ≠ some (uid, mark) := by
  intro yielding
  have slot := stands.slot
  rw [place] at slot
  have none := (templates.yields yielder uid mark yielding).slot
  simp [slot.1] at none

end Prepares

structure Host.Away (uid : String) (host next : Host) : Prop where
  warms : ∀ name, name ≠ uid → next.warms.get name = host.warms.get name
  instances : ∀ name, name ≠ uid → next.instances.get name = host.instances.get name
  preparing : ∀ name, name ≠ uid → next.preparing.get name = host.preparing.get name
  died : ∀ name, name ≠ uid → next.died.get name = host.died.get name
  size : host.prepared.size ≤ next.prepared.size
  owner : ∀ channel, channel < host.prepared.size →
    (next.prepared.read channel).owner = (host.prepared.read channel).owner

section Away

variable {home : Home} {host : Host} {thread other : Nat} {holds held : Local} {uid : String}

theorem Host.Away.prepAt {host next : Host} (away : host.Away uid next) {name : String}
    {channel : Nat} {stage : PrepStage} (bound : channel < host.prepared.size)
    (apart : name ≠ uid) (at_ : PrepAt other (.within name channel stage) host) :
    PrepAt other (.within name channel stage) next := by
  obtain ⟨got, owner, at_⟩ := at_
  refine ⟨by rw [away.preparing name apart, got], by rw [away.owner channel bound, owner], ?_⟩
  cases stage with
  | opened => exact (away.warms name apart).trans at_
  | warmed number =>
    refine ⟨(away.warms name apart).trans at_.1, ?_⟩
    rw [away.died name apart, away.instances name apart]
    exact at_.2
  | published => trivial

theorem Host.Away.hosted (away : home.host.Away uid host) (templates : TemplatesKept home)
    (prep : ∀ channel stage, held.template.prep = .within uid channel stage →
      PrepAt other (.within uid channel stage) home.host →
        PrepAt other (.within uid channel stage) host)
    (ready : ∀ channel passed, held.slot = .entered uid channel passed →
      host.died.get uid = none → home.host.died.get uid = none ∧
        (home.host.warms.get uid ≠ none → host.warms.get uid ≠ none))
    (took : held.template.drop = .taken uid → home.host.warms.get uid = none →
      host.warms.get uid = none) (lost : home.host.died.get uid ≠ none → host.died.get uid ≠ none) :
    Hosted other held home host := by
  refine ⟨?_, ?_, ?_, ?_⟩
  · intro at_
    cases case : held.template.prep with
    | out => trivial
    | within name channel stage =>
      rw [case] at at_
      by_cases same : name = uid
      · subst name
        exact prep channel stage case at_
      · exact away.prepAt (templates.placed name channel at_.1) same at_
  · intro name channel passed place
    by_cases same : name = uid
    · subst name
      exact ready channel passed place
    · rw [away.died name same, away.warms name same]
      exact fun alive => ⟨alive, id⟩
  · intro name drop
    by_cases same : name = uid
    · subst name
      exact took drop
    · rw [away.warms name same]
      exact id
  · intro name
    by_cases same : name = uid
    · subst name
      exact lost
    · rw [away.died name same]
      exact id

theorem Host.Away.kept (away : home.host.Away uid host) (templates : TemplatesKept home)
    (prepare : (∃ yielder mark, home.yielding.get yielder = some (uid, mark)) →
      host.preparing.get uid = none)
    (placed : ∀ channel, host.preparing.get uid = some channel → channel < host.prepared.size)
    (warm : home.ledger.grants.get uid ≠ none → host.died.get uid = none →
      host.warms.get uid ≠ none)
    (same : ∀ warm, host.warms.get uid = some warm → host.died.get uid = none →
      host.instances.get uid = some warm.number) : HostKept home host := by
  refine ⟨?_, ?_, ?_, ?_⟩
  · intro yielder name mark yielding
    by_cases mine : name = uid
    · subst name
      exact prepare ⟨yielder, mark, yielding⟩
    · rw [away.preparing name mine]
      exact (templates.yields yielder name mark yielding).prepare
  · intro name channel
    by_cases mine : name = uid
    · subst name
      exact placed channel
    · rw [away.preparing name mine]
      intro got
      exact Nat.lt_of_lt_of_le (templates.placed name channel got) away.size
  · intro name
    by_cases mine : name = uid
    · subst name
      exact warm
    · rw [away.died name mine, away.warms name mine]
      exact templates.warm name
  · intro name value
    by_cases mine : name = uid
    · subst name
      exact same value
    · rw [away.warms name mine, away.died name mine, away.instances name mine]
      exact templates.same name value

end Away

section HostMoves

variable {home : Home} {thread : Nat} {holds : Local} {uid : String} {channel number : Nat}

theorem templates_enterPrepare {host : Host} (templates : TemplatesKept home)
    (at_ : TemplateAt thread holds home) (apart : home.yields uid = false)
    (cold : home.host.warms.get uid = none) (free : home.host.preparing.get uid = none)
    (enters : host = { home.host with
      preparing := home.host.preparing.put uid home.host.prepared.size
      prepared := home.host.prepared.alloc { owner := thread } }) :
    TemplatesMoved thread (holds.preparing uid home.host.prepared.size .opened) home
      { home with host := host } := by
  have away : home.host.Away uid host := by
    subst host
    refine ⟨fun _ _ => rfl, fun _ _ => rfl, ?_, fun _ _ => rfl, by simp, ?_⟩
    · intro name different
      exact get_put_other _ _ different
    · intro query bound
      dsimp only
      rw [read_alloc_old _ _ bound]
  have hosted : ∀ other held, (∀ place stage, held.template.prep ≠ .within uid place stage) →
      Hosted other held home host := by
    intro other held elsewhere
    subst host
    exact away.hosted templates (fun place stage here => (elsewhere place stage here).elim)
      (fun _ _ _ alive => ⟨alive, id⟩) (fun _ => id) id
  refine ⟨templates.hosted (away.kept templates ?_ ?_ ?_ ?_), ?_, ?_⟩
  · rintro ⟨yielder, mark, yielding⟩
    simp [Home.yields_of_get yielding] at apart
  · intro query got
    simp only [enters, get_put_same, Option.some.injEq] at got
    simp [enters, ← got]
  · subst host
    exact templates.warm uid
  · subst host
    exact templates.same uid
  · have still : TemplateAt thread { holds with template := { holds.template with prep := .out } }
        home := ⟨trivial, at_.entered, at_.ready, at_.drop, at_.lost⟩
    have moved := still.hosted (hosted thread _ (by simp))
    refine ⟨?_, moved.entered, moved.ready, moved.drop, moved.lost⟩
    subst host
    exact ⟨get_put_same _ _ _, by simp, cold⟩
  · intro other held different _ standsThere
    refine standsThere.hosted (hosted other held ?_)
    intro place stage here
    have there := standsThere.prep
    rw [here] at there
    simp [there.1] at free

theorem templates_preparing {host : Host} {stage next : PrepStage}
    (templates : TemplatesKept home) (at_ : TemplateAt thread holds home)
    (within : holds.template.prep = .within uid channel stage) (away : home.host.Away uid host)
    (kept : HostKept home host) (preparing : host.preparing = home.host.preparing)
    (prepared : host.prepared = home.host.prepared) (died : host.died = home.host.died)
    (warms : home.host.warms.get uid ≠ none → host.warms.get uid ≠ none)
    (now : StageAt uid next host) :
    TemplatesMoved thread (holds.preparing uid channel next) home { home with host := host } := by
  have mine := at_.prep
  rw [within] at mine
  have unyielded := mine.unyielded templates
  have untaken : ∀ other held, DropAt other held home → held ≠ .taken uid := by
    rintro other held drop rfl
    obtain ⟨⟨mark, yielding⟩, _⟩ := drop
    exact unyielded other mark yielding
  have hosted : ∀ other held, TemplateAt other held home →
      (∀ place its, held.template.prep ≠ .within uid place its) → Hosted other held home host := by
    intro other held there elsewhere
    refine away.hosted templates (fun place its here => (elsewhere place its here).elim) ?_ ?_ ?_
    · intro _ _ _ alive
      rw [died] at alive
      exact ⟨alive, warms⟩
    · intro took
      exact (untaken other _ there.drop took).elim
    · rw [died]
      exact id
  refine ⟨templates.hosted kept, ?_, ?_⟩
  · have still : TemplateAt thread { holds with template := { holds.template with prep := .out } }
        home := ⟨trivial, at_.entered, at_.ready, at_.drop, at_.lost⟩
    have moved := still.hosted (hosted thread _ still (by simp))
    refine ⟨⟨?_, ?_, now⟩, moved.entered, moved.ready, moved.drop, moved.lost⟩
    · simp only [preparing]
      exact mine.1
    · simp only [prepared]
      exact mine.2.1
  · intro other held apart _ there
    refine there.hosted (hosted other held there ?_)
    intro place its here
    have its_ := there.prep
    rw [here] at its_
    exact mine.apart its_ apart rfl

theorem templates_warm (templates : TemplatesKept home) (at_ : TemplateAt thread holds home)
    (within : holds.template.prep = .within uid channel .opened) :
    TemplatesMoved thread (holds.preparing uid channel (.warmed home.host.instanceCount)) home
      { home with host := { home.host with
          instances := home.host.instances.put uid home.host.instanceCount
          instanceCount := home.host.instanceCount + 1 } } := by
  have mine := at_.prep
  rw [within] at mine
  have cold : home.host.warms.get uid = none := mine.2.2
  have away : home.host.Away uid { home.host with
      instances := home.host.instances.put uid home.host.instanceCount
      instanceCount := home.host.instanceCount + 1 } :=
    ⟨fun _ _ => rfl, fun _ apart => get_put_other _ _ apart, fun _ _ => rfl,
      fun _ _ => rfl, Nat.le_refl _, fun _ _ => rfl⟩
  refine templates_preparing templates at_ within away ?_ rfl rfl rfl id ?_
  · refine away.kept templates ?_ (templates.placed uid) (templates.warm uid) ?_
    · rintro ⟨yielder, mark, yielding⟩
      exact (templates.yields yielder uid mark yielding).prepare
    · intro warm got
      simp [cold] at got
  · exact ⟨cold, fun _ => get_put_same _ _ _⟩

theorem unwarm_away (host : Host) (uid : String) :
    host.Away uid { host with instances := host.instances.drop uid } :=
  ⟨fun _ _ => rfl, fun _ apart => get_drop_other _ apart, fun _ _ => rfl,
    fun _ _ => rfl, Nat.le_refl _, fun _ _ => rfl⟩

theorem unwarm_kept (templates : TemplatesKept home) (cold : home.host.warms.get uid = none) :
    HostKept home { home.host with instances := home.host.instances.drop uid } := by
  refine (unwarm_away home.host uid).kept templates ?_ (templates.placed uid)
    (templates.warm uid) ?_
  · rintro ⟨yielder, mark, yielding⟩
    exact (templates.yields yielder uid mark yielding).prepare
  · intro warm got
    simp [cold] at got

theorem templates_unwarm (templates : TemplatesKept home) (at_ : TemplateAt thread holds home)
    (within : holds.template.prep = .within uid channel (.warmed number)) :
    TemplatesMoved thread (holds.preparing uid channel .opened) home
      { home with host := { home.host with instances := home.host.instances.drop uid } } := by
  have mine := at_.prep
  rw [within] at mine
  exact templates_preparing templates at_ within (unwarm_away home.host uid)
    (unwarm_kept templates mine.2.2.1) rfl rfl rfl id mine.2.2.1

theorem templates_publish {warm : Warm} (templates : TemplatesKept home)
    (at_ : TemplateAt thread holds home)
    (within : holds.template.prep = .within uid channel (.warmed warm.number)) :
    TemplatesMoved thread { holds with template :=
        (holds.preparing uid channel .published).template.found holds.slot uid } home
      { home with host := { home.host with warms := home.host.warms.put uid warm } } := by
  have mine := at_.prep
  rw [within] at mine
  have away : home.host.Away uid { home.host with warms := home.host.warms.put uid warm } :=
    ⟨fun _ apart => get_put_other _ _ apart, fun _ _ => rfl, fun _ _ => rfl,
      fun _ _ => rfl, Nat.le_refl _, fun _ _ => rfl⟩
  have kept : HostKept home { home.host with warms := home.host.warms.put uid warm } := by
    refine away.kept templates ?_ (templates.placed uid) (by simp) ?_
    · rintro ⟨yielder, mark, yielding⟩
      exact (templates.yields yielder uid mark yielding).prepare
    · intro got isWarm alive
      simp only [get_put_same] at isWarm
      cases isWarm
      exact mine.2.2.2 alive
  have moved : TemplatesMoved thread (holds.preparing uid channel .published) home
      { home with host := { home.host with warms := home.host.warms.put uid warm } } :=
    templates_preparing templates at_ within away kept rfl rfl rfl (by simp) trivial
  exact ⟨moved.kept, moved.mover.found (by simp), moved.others⟩

theorem templates_leavePrepare {stage : PrepStage} (templates : TemplatesKept home)
    (at_ : TemplateAt thread holds home)
    (within : holds.template.prep = .within uid channel stage) :
    TemplatesMoved thread { holds with template := { holds.template with prep := .out } } home
      { home with host := { home.host with preparing := home.host.preparing.drop uid } } := by
  have mine := at_.prep
  rw [within] at mine
  have away : home.host.Away uid
      { home.host with preparing := home.host.preparing.drop uid } :=
    ⟨fun _ _ => rfl, fun _ _ => rfl, fun _ apart => get_drop_other _ apart,
      fun _ _ => rfl, Nat.le_refl _, fun _ _ => rfl⟩
  have hosted : ∀ other held, (∀ place its, held.template.prep ≠ .within uid place its) →
      Hosted other held home
        { home.host with preparing := home.host.preparing.drop uid } := by
    intro other held elsewhere
    exact away.hosted templates (fun place its here => (elsewhere place its here).elim)
      (fun _ _ _ alive => ⟨alive, id⟩) (fun _ => id) id
  refine ⟨templates.hosted (away.kept templates (fun _ => get_drop_same _ _) (by simp)
    (templates.warm uid) (templates.same uid)), ?_, ?_⟩
  · have still : TemplateAt thread { holds with template := { holds.template with prep := .out } }
        home := ⟨trivial, at_.entered, at_.ready, at_.drop, at_.lost⟩
    exact still.hosted (hosted thread _ (by simp))
  · intro other held apart _ there
    refine there.hosted (hosted other held ?_)
    intro place its here
    have its_ := there.prep
    rw [here] at its_
    exact mine.apart its_ apart rfl

theorem templates_unwarmTaken (templates : TemplatesKept home)
    (at_ : TemplateAt thread holds home) (took : holds.template.drop = .taken uid) :
    TemplatesMoved thread holds home
      { home with host := { home.host with instances := home.host.instances.drop uid } } := by
  have drop := at_.drop
  rw [took] at drop
  obtain ⟨⟨mark, yielding⟩, cold⟩ := drop
  have hosted : ∀ other held, Hosted other held home
      { home.host with instances := home.host.instances.drop uid } := by
    intro other held
    refine (unwarm_away home.host uid).hosted templates ?_ (fun _ _ _ alive => ⟨alive, id⟩)
      (fun _ => id) id
    intro place stage _ within
    exact (within.unyielded templates thread mark yielding).elim
  exact ⟨templates.hosted (unwarm_kept templates cold), at_.hosted (hosted thread holds),
    fun other held _ _ there => there.hosted (hosted other held)⟩

theorem templates_takeWarm (templates : TemplatesKept home) (stands : LocalAt thread holds home)
    (at_ : TemplateAt thread holds home) (revoked : holds.template.drop = .revoked uid) :
    TemplatesMoved thread { holds with template := { holds.template with drop := .taken uid } } home
      { home with host := { home.host with warms := home.host.warms.drop uid } } := by
  have drop := at_.drop
  rw [revoked] at drop
  obtain ⟨mark, yielding⟩ := drop
  have away : home.host.Away uid { home.host with warms := home.host.warms.drop uid } :=
    ⟨fun _ apart => get_drop_other _ apart, fun _ _ => rfl, fun _ _ => rfl,
      fun _ _ => rfl, Nat.le_refl _, fun _ _ => rfl⟩
  have hosted : ∀ other held, LocalAt other held home → Hosted other held home
      { home.host with warms := home.host.warms.drop uid } := by
    intro other held standsThere
    refine away.hosted templates ?_ ?_ (fun _ _ => get_drop_same _ _) id
    · intro place stage _ within
      exact (within.unyielded templates thread mark yielding).elim
    · intro place passed slot
      exact (standsThere.unyielded templates slot thread mark yielding).elim
  have kept : HostKept home { home.host with warms := home.host.warms.drop uid } := by
    refine away.kept templates ?_ (templates.placed uid) ?_ (by simp)
    · rintro ⟨yielder, mark, yielding⟩
      exact (templates.yields yielder uid mark yielding).prepare
    · intro admitted
      exact (admitted (templates.yields thread uid mark yielding).grant).elim
  have moved := at_.hosted (hosted thread holds stands)
  exact ⟨templates.hosted kept,
    ⟨moved.prep, moved.entered, moved.ready, ⟨⟨mark, yielding⟩, get_drop_same _ _⟩, moved.lost⟩,
    fun other held _ standsThere there => there.hosted (hosted other held standsThere)⟩

theorem templates_lose (templates : TemplatesKept home) (at_ : TemplateAt thread holds home) :
    TemplatesMoved thread { holds with template := { holds.template with lost := some uid } } home
      { home with host := { home.host with
          instances := home.host.instances.drop uid
          died := home.host.died.put uid () } } := by
  have away : home.host.Away uid { home.host with
      instances := home.host.instances.drop uid
      died := home.host.died.put uid () } :=
    ⟨fun _ _ => rfl, fun _ apart => get_drop_other _ apart, fun _ _ => rfl,
      fun _ apart => get_put_other _ _ apart, Nat.le_refl _, fun _ _ => rfl⟩
  have hosted : ∀ other held, Hosted other held home { home.host with
      instances := home.host.instances.drop uid
      died := home.host.died.put uid () } := by
    intro other held
    refine away.hosted templates ?_ (by simp) (fun _ => id) (by simp)
    rintro place stage _ ⟨got, owner, at_⟩
    refine ⟨got, owner, ?_⟩
    cases stage with
    | opened => exact at_
    | warmed number => exact ⟨at_.1, by simp⟩
    | published => trivial
  have kept : HostKept home { home.host with
      instances := home.host.instances.drop uid
      died := home.host.died.put uid () } := by
    refine away.kept templates ?_ (templates.placed uid) (by simp) (by simp)
    rintro ⟨yielder, mark, yielding⟩
    exact (templates.yields yielder uid mark yielding).prepare
  have moved := at_.hosted (hosted thread holds)
  refine ⟨templates.hosted kept, ⟨moved.prep, moved.entered, moved.ready, moved.drop, ?_⟩,
    fun other held _ _ there => there.hosted (hosted other held)⟩
  intro name lost
  simp only [Option.some.injEq] at lost
  simp [← lost]

theorem templates_warmGone (templates : TemplatesKept home) (at_ : TemplateAt thread holds home)
    (lost : holds.template.lost = some uid) :
    TemplatesMoved thread { holds with template := { holds.template with lost := none } } home
      { home with host := (home.host.warmGone uid number).2 } := by
  have dead := at_.lost uid lost
  have warms : (home.host.warmGone uid number).2.warms.get uid = none ∨
      (home.host.warmGone uid number).2.warms.get uid = home.host.warms.get uid := by
    unfold Host.warmGone
    split
    · split
      · exact .inr rfl
      · exact .inl (get_drop_same _ _)
    · exact .inr rfl
  have rest : (home.host.warmGone uid number).2 = { home.host with
      warms := (home.host.warmGone uid number).2.warms } := by
    unfold Host.warmGone
    split
    · split <;> rfl
    · rfl
  have others : ∀ name, name ≠ uid → (home.host.warmGone uid number).2.warms.get name =
      home.host.warms.get name := by
    intro name apart
    unfold Host.warmGone
    split
    · split
      · rfl
      · exact get_drop_other _ apart
    · rfl
  generalize (home.host.warmGone uid number).2 = host at warms rest others ⊢
  have away : home.host.Away uid host := by
    rw [rest]
    exact ⟨others, fun _ _ => rfl, fun _ _ => rfl, fun _ _ => rfl, Nat.le_refl _, fun _ _ => rfl⟩
  have died : host.died = home.host.died := by rw [rest]
  have cold : home.host.warms.get uid = none → host.warms.get uid = none := by
    intro none
    rcases warms with gone | same
    · exact gone
    · exact same.trans none
  have hosted : ∀ other held, Hosted other held home host := by
    intro other held
    refine away.hosted templates ?_ ?_ (fun _ => cold) (by rw [died]; exact id)
    · rintro place stage _ ⟨got, owner, at_⟩
      refine ⟨by rw [rest]; exact got, by rw [rest]; exact owner, ?_⟩
      cases stage with
      | opened => exact cold at_
      | warmed number => exact ⟨cold at_.1, fun alive => (dead (died ▸ alive)).elim⟩
      | published => trivial
    · intro _ _ _ alive
      exact (dead (died ▸ alive)).elim
  have kept : HostKept home host := by
    refine away.kept templates ?_ ?_ ?_ ?_
    · rintro ⟨yielder, mark, yielding⟩
      rw [rest]
      exact (templates.yields yielder uid mark yielding).prepare
    · rw [rest]
      exact templates.placed uid
    · intro _ alive
      exact (dead (died ▸ alive)).elim
    · intro _ _ alive
      exact (dead (died ▸ alive)).elim
  have moved := at_.hosted (hosted thread holds)
  exact ⟨templates.hosted kept, ⟨moved.prep, moved.entered, moved.ready, moved.drop, by simp⟩,
    fun other held _ _ there => there.hosted (hosted other held)⟩

theorem templates_same {host : Host} (templates : TemplatesKept home)
    (at_ : TemplateAt thread holds home) (same : home.host.Same host) :
    TemplatesMoved thread holds home { home with host := host } :=
  ⟨templates.hosted (same.kept templates), at_.hosted same.hosted,
    fun _ _ _ _ there => there.hosted same.hosted⟩

theorem templates_prepares {template : TemplateHold} (templates : TemplatesKept home)
    (at_ : TemplateAt thread holds home) (apart : home.yields uid = false)
    (turn : holds.template.after holds.slot (.enterPrepare uid)
      (home.host.enterPrepare thread uid).1 = some template) :
    TemplatesMoved thread { holds with template := template } home
      { home with host := (home.host.enterPrepare thread uid).2 } := by
  simp only [TemplateHold.after] at turn
  split at turn
  · unfold Host.enterPrepare at turn ⊢
    cases warm : home.host.warms.get uid with
    | some got =>
      simp only [warm, Option.some.injEq] at turn ⊢
      subst template
      have moved := templates_same templates at_ (Host.Same.refl home.host)
      exact ⟨moved.kept, moved.mover.found (by simp [warm]), moved.others⟩
    | none =>
      cases free : home.host.preparing.get uid with
      | some channel =>
        simp only [warm, free, Option.some.injEq] at turn ⊢
        subst template
        exact templates_same templates at_ (Host.Same.refl home.host)
      | none =>
        simp only [warm, free, Option.some.injEq] at turn ⊢
        subst template
        exact templates_enterPrepare templates at_ apart warm free rfl
  · simp at turn

theorem templates_host {action : HostAct} {answer : Bool} {result : action.Result} {host : Host}
    {template : TemplateHold} (templates : TemplatesKept home)
    (stands : LocalAt thread holds home) (at_ : TemplateAt thread holds home)
    (may : (Act.host action).apart home = true)
    (turn : holds.template.after holds.slot action result = some template)
    (ran : home.host.perform thread action answer = some (result, host)) :
    TemplatesMoved thread { holds with template := template } home
      { home with host := host } := by
  by_cases neutral : action.neutral = true
  · cases (HostAct.after_neutral _ _ _ _ neutral).symm.trans turn
    exact templates_same templates at_ (Host.same_of_neutral neutral ran)
  cases action with
  | enterPrepare uid =>
    replace ran := Option.some.inj ran
    have moved := @templates_prepares home thread holds uid template templates at_
      (by simpa [Act.apart] using may)
    rw [ran] at moved
    exact moved turn
  | leavePrepare uid =>
    cases ran
    simp only [TemplateHold.after] at turn
    split at turn
    · rename_i within channel stage here
      split at turn
      · rename_i same
        subst within
        cases turn
        exact templates_leavePrepare templates at_ here
      · simp at turn
    · simp at turn
  | warm uid =>
    cases ran
    simp only [TemplateHold.after] at turn
    split at turn
    · rename_i within channel here
      split at turn
      · rename_i same
        subst within
        cases turn
        exact templates_warm templates at_ here
      · simp at turn
    · simp at turn
  | unwarm uid =>
    cases ran
    simp only [TemplateHold.after] at turn
    split at turn
    · rename_i within channel number here
      split at turn
      · rename_i same
        subst within
        cases turn
        exact templates_unwarm templates at_ here
      · simp at turn
    · split at turn <;> cases turn
      rename_i took
      exact templates_unwarmTaken templates at_ took
  | publish uid warm =>
    cases ran
    simp only [TemplateHold.after] at turn
    split at turn
    · rename_i within channel number here
      split at turn
      · rename_i same
        obtain ⟨rfl, rfl⟩ := same
        cases turn
        exact templates_publish templates at_ here
      · simp at turn
    · simp at turn
  | takeWarm uid =>
    cases ran
    simp only [TemplateHold.after] at turn
    split at turn <;> cases turn
    rename_i revoked
    exact templates_takeWarm templates stands at_ revoked
  | lose uid number =>
    simp only [Host.perform] at ran
    split at ran <;> cases ran
    simp only [TemplateHold.after] at turn
    split at turn <;> cases turn
    exact templates_lose templates at_
  | warmGone uid number =>
    replace ran := Option.some.inj ran
    simp only [TemplateHold.after] at turn
    split at turn <;> cases turn
    rename_i lost
    have moved := @templates_warmGone home thread holds uid number templates at_ lost
    rw [ran] at moved
    exact moved
  | _ => simp [HostAct.neutral] at neutral

end HostMoves

theorem Home.templatesMoved {home next : Home} {thread : Nat} {holds later : Local} {action : Act}
    {answer : Answer} {result : action.Result} (kept : home.Ok) (templates : TemplatesKept home)
    (stands : LocalAt thread holds home) (at_ : TemplateAt thread holds home)
    (may : action.apart home = true) (turn : holds.after action result = some later)
    (ran : home.perform thread action answer = some (result, next)) :
    TemplatesMoved thread later home next := by
  cases action with
  | revokeGrant uid => exact templates_revoke templates kept stands at_ turn may ran
  | yielded => exact templates_yielded templates kept stands at_ turn ran
  | host action =>
    obtain ⟨template, allowed, rfl⟩ := Option.map_eq_some_iff.mp turn
    simp only [perform] at ran
    split at ran
    · obtain ⟨outcome, done, outcomes⟩ := Option.map_eq_some_iff.mp ran
      cases outcomes
      exact templates_host templates stands at_ may allowed done
    · simp at ran
  | _ => exact templates_calls templates kept stands at_ turn may ran rfl rfl

def templateProtocol (cfg : HomeConfig) :
    Protocol ((homeKernel cfg).guarded yieldsApart) Local where
  inv home := home.Ok ∧ TemplatesKept home
  idle := {}
  At thread holds home := LocalAt thread holds home ∧ TemplateAt thread holds home
  ends := Call.Ends
  after := Local.after
  started := by
    rintro _ ⟨epoch, revoked, _, rfl⟩
    exact ⟨⟨newHome_ok epoch revoked, newHome_templates epoch revoked⟩, fun thread =>
      ⟨newHome_idle epoch revoked thread, newHome_untemplated epoch revoked thread⟩⟩
  moved := by
    rintro home thread holds action answer result next later ⟨kept, templates⟩ ⟨stands, at_⟩
      allowed ran
    obtain ⟨may, done⟩ := Kernel.guarded_perform ran
    have moved := Home.moved kept stands allowed done
    have templatesMoved := Home.templatesMoved kept templates stands at_ may allowed done
    refine ⟨⟨moved.ok, templatesMoved.kept⟩, ⟨moved.mover, templatesMoved.mover⟩, ?_⟩
    rintro other held apart ⟨standsThere, there⟩
    exact ⟨moved.others other held apart standsThere,
      templatesMoved.others other held apart standsThere there⟩
  bodies := HomeCall.body_takes cfg

end Fiberd
