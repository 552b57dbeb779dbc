import Fiberd.Home.HomeYield

/-!
A removed grant stays removed.  From its `Add` on, a removal has every later
admission of the UID refused; the one admission that was let through before is the
one it waits for, so the yield that follows leaves nothing to let the grant in.
-/

namespace Fiberd

open Heaps Tables Programs Machines LedgerSystem

def Home.deniedUntil (home : Home) (uid : String) : Option Time :=
  home.revoked.bind fun revoked => revoked.until_.get uid

def Home.Listed (uid : String) (home : Home) : Prop := home.deniedUntil uid ≠ none

def Home.lifts (home : Home) (uid : String) : Act → Bool
  | .lift lifted => decide (lifted = uid)
  | .denied checked _ now _ => decide (checked = uid) &&
      (home.deniedUntil uid).any fun deadline => decide (deadline ≠ 0) && !decide (now < deadline)
  | _ => false

def Act.contextEnds : Act → Answer → Bool
  | .awaitAdmission _, .flag ended => ended
  | _, _ => false

/-- The UID stays denied over the action, and the context of the removal does not end. -/
def lasting (uid : String) (remover : Nat) (home : Home) (thread : Nat) (action : Act)
    (answer : Answer) : Bool :=
  !home.lifts uid action && (decide (thread ≠ remover) || !action.contextEnds answer)

section Denial

variable {home next : Home} {tid : Nat} {uid : String}

variable {revoked : Revoked} {now lease : Time}

theorem Home.markPassed_revoked (home : Home) (slot : Option Nat) :
    (home.markPassed slot).revoked = home.revoked := by
  cases slot <;> rfl

theorem Home.denied_revoked (got : home.revoked = some revoked)
    (uid : String) (lease now : Time) (slot : Option Nat) :
    (home.denied uid lease now slot).1 = (revoked.denied uid lease now).1 ∧
      (home.denied uid lease now slot).2.revoked = some (revoked.denied uid lease now).2 := by
  simp only [denied, got]
  split
  · rename_i outcome
    exact ⟨by rw [outcome], by rw [outcome]⟩
  · rename_i outcome
    exact ⟨by rw [outcome], by rw [outcome, markPassed_revoked]⟩

theorem Home.listed_iff : home.Listed uid ↔
    ∃ revoked deadline, home.revoked = some revoked ∧ revoked.until_.get uid = some deadline := by
  simp only [Listed, deniedUntil, ne_eq, Option.ne_none_iff_exists', Option.bind_eq_some_iff]
  constructor
  · rintro ⟨deadline, revoked, got, listed⟩
    exact ⟨revoked, deadline, got, listed⟩
  · rintro ⟨revoked, deadline, got, listed⟩
    exact ⟨deadline, revoked, got, listed⟩

theorem Home.denied_of_listed (listed : home.Listed uid) {slot : Option Nat}
    (lasts : home.lifts uid (.denied uid lease now slot) = false) :
    (home.denied uid lease now slot).1 = true ∧ (home.denied uid lease now slot).2.Listed uid := by
  obtain ⟨revoked, deadline, got, known⟩ := listed_iff.mp listed
  have current : ¬(deadline ≠ 0 ∧ ¬now < deadline) := by
    simp only [lifts, deniedUntil, got, known, Option.bind_some, Option.any_some,
      decide_true, Bool.true_and, Bool.and_eq_false_iff, decide_eq_false_iff_not,
      Bool.not_eq_false', decide_eq_true_eq] at lasts
    rintro ⟨bounded, beyond⟩
    rcases lasts with unbounded | within
    · exact unbounded bounded
    · exact beyond within
  obtain ⟨refused, kept⟩ : (revoked.denied uid lease now).1 = true ∧
      (revoked.denied uid lease now).2.until_.get uid ≠ none := by
    simp only [Revoked.denied, known, if_neg current]
    split <;> simp [known]
  obtain ⟨answer, list⟩ := denied_revoked got uid lease now slot
  refine ⟨answer.trans refused, ?_⟩
  simp only [Listed, deniedUntil, list, Option.bind_some]
  exact kept

variable {answer : Answer}

section

variable (listed : home.Listed uid)
include listed

theorem Home.Listed.deny {denied : String} {out : (Act.deny denied lease now).Result}
    (ran : home.perform tid (.deny denied lease now) answer = some (out, next)) :
    next.Listed uid := by
  obtain ⟨revoked, deadline, got, known⟩ := listed_iff.mp listed
  simp only [perform, got, Option.map_some] at ran
  cases ran
  exact (Revoked.deny_until known).listed

theorem Home.Listed.check {checked : String} {slot : Option Nat}
    (lasts : home.lifts uid (.denied checked lease now slot) = false) :
    (home.denied checked lease now slot).2.Listed uid := by
  by_cases mine : uid = checked
  · subst checked
    exact (denied_of_listed listed lasts).2
  · obtain ⟨revoked, deadline, got, known⟩ := listed_iff.mp listed
    simp only [Listed, deniedUntil, (denied_revoked got checked lease now slot).2,
      Option.bind_some, Revoked.denied_other mine, known]
    simp

theorem Home.Listed.lift {lifted : String} {out : (Act.lift lifted).Result}
    (lasts : home.lifts uid (.lift lifted) = false)
    (ran : home.perform tid (.lift lifted) answer = some (out, next)) : next.Listed uid := by
  obtain ⟨revoked, deadline, got, known⟩ := listed_iff.mp listed
  have apart : uid ≠ lifted := by
    simp only [lifts, decide_eq_false_iff_not] at lasts
    exact Ne.symm lasts
  simp only [perform, got] at ran
  cases ran
  simp only [Listed, deniedUntil, Option.bind_some, Revoked.clear_other apart, known]
  simp

theorem Home.Listed.kept {action : Act} {out : action.Result}
    (lasts : home.lifts uid action = false)
    (ran : home.perform tid action answer = some (out, next)) : next.Listed uid := by
  by_cases touches : action.touchesRevoked = true
  · cases action with
    | deny denied lease now => exact listed.deny ran
    | denied checked lease now slot =>
      replace ran := Option.some.inj ran
      have kept := listed.check lasts
      rwa [ran] at kept
    | lift lifted => exact listed.lift lasts ran
    | _ => simp [Act.touchesRevoked] at touches
  · simp only [Bool.not_eq_true] at touches
    rw [Listed, deniedUntil, (perform_frame ran).revoked touches]
    exact listed

end

theorem Home.denied_isSome (home : Home) (checked : String) (lease now : Time) (slot : Option Nat) :
    (home.denied checked lease now slot).2.revoked.isSome = home.revoked.isSome := by
  cases got : home.revoked with
  | none => simp [denied, got, markPassed_revoked]
  | some revoked => simp [(denied_revoked got checked lease now slot).2]

theorem Home.perform_isSome {action : Act} {out : action.Result}
    (ran : home.perform tid action answer = some (out, next)) :
    next.revoked.isSome = home.revoked.isSome := by
  by_cases touches : action.touchesRevoked = true
  · cases action with
    | deny denied lease now =>
      replace ran := (outcome_eq ran).2
      simp [← ran]
    | denied checked lease now slot =>
      replace ran := Option.some.inj ran
      rw [← home.denied_isSome checked lease now slot, ran]
    | lift lifted =>
      simp only [perform] at ran
      split at ran <;>
        · rename_i got
          simp only [Option.some.injEq, Prod.mk.injEq] at ran
          simp [← ran.2, got]
    | _ => simp [Act.touchesRevoked] at touches
  · simp only [Bool.not_eq_true] at touches
    rw [(perform_frame ran).revoked touches]

end Denial

def PassedOnly (allowed : Option Nat) (uid : String) (home : Home) : Prop :=
  ∀ channel, home.admitting.get uid = some channel →
    (home.channels.read channel).passed = true → allowed = some channel

section Admissions

variable {home next : Home} {tid : Nat} {uid : String} {allowed : Option Nat}

theorem PassedOnly.same (only : PassedOnly allowed uid home)
    (admitting : next.admitting = home.admitting) (channels : next.channels = home.channels) :
    PassedOnly allowed uid next := by
  intro chan
  rw [admitting, channels]
  exact only chan

theorem PassedOnly.kept (only : PassedOnly allowed uid home) (kept : home.Ok)
    (listed : home.Listed uid) {has later : Local} {action : Act} {answer : Answer}
    {out : action.Result} (stands : LocalAt tid has home)
    (turn : has.after action out = some later) (lasts : home.lifts uid action = false)
    (ran : home.perform tid action answer = some (out, next)) : PassedOnly allowed uid next := by
  cases Home.perform_effect ran with
  | still _ locks _ _ | plain _ _ locks _ | admitted _ locks _ | resolved _ _ locks _
  | committed _ _ locks _ | closed _ locks _ | refused _ locks _ =>
    exact only.same locks.admitting locks.channels
  | joined _ | locked _ _ | unlocked _ | left _ => exact only.same rfl rfl
  | @entered entering _ =>
    intro chan here passed
    obtain ⟨_, rfl⟩ | ⟨_, here⟩ := get_put_eq_some here
    · simp at passed
    · have bound := (kept.slots.placed uid chan here).1
      rw [read_alloc_old _ _ bound] at passed
      exact only chan here passed
  | @passed checked lease now mine _ _ _ admitting channels _ =>
    simp only [Local.after] at turn
    split at turn
    · rename_i entered
      have slot := stands.slot
      rw [entered] at slot
      intro chan here passed
      rw [admitting] at here
      rw [channels, read_write] at passed
      split at passed
      · rename_i same
        subst chan
        have mineToo := kept.slots.single uid checked mine here slot.1
        subst checked
        have refused := (Home.denied_of_listed listed lasts).1
        replace ran := Option.some.inj ran
        simp [ran] at refused
      · exact only chan here passed
    · simp at turn
  | leftSlot =>
    intro chan here passed
    obtain ⟨_, here⟩ := get_drop_eq_some here
    exact only chan here passed
  | closedSlot =>
    intro chan here passed
    rw [read_write] at passed
    split at passed
    · rename_i same
      subst chan
      exact only _ here passed
    · exact only chan here passed

end Admissions

structure RemoveMove (uid : String) (remover thread : Nat) (home : Home) (action : Act)
    (answer : Answer) (next : Home) : Prop where
  ok : home.Ok
  turn : ∃ holds later result, LocalAt thread holds home ∧
    holds.after action result = some later ∧
      home.perform thread action answer = some (result, next)
  lasts : home.lifts uid action = false
  context : thread = remover → action.contextEnds answer = false

def removeRely (uid : String) (remover : Nat) : Nat → Home → Act → Answer → Home → Prop :=
  RemoveMove uid remover

variable {cfg : HomeConfig}

theorem remove_relies {uid : String} {remover : Nat} (threads : HomeThreads) (event : HomeEvent)
    (reached : (homeKernel cfg).machine.Reachable threads)
    (lasts : Kernel.Allows (lasting uid remover) threads event) :
    Relies (homeKernel cfg) (removeRely uid remover) threads event := by
  have kept : (homeProtocol cfg).Kept threads := Protocol.kept_of_reachable reached
  cases event with
  | start tid call => trivial
  | act tid answer =>
    intro action rest out shared runs ran
    obtain ⟨has, later, stands, allowed⟩ := kept.allowed runs out
    simp only [Kernel.Allows, runs, lasting, Bool.and_eq_true, Bool.or_eq_true,
      Bool.not_eq_true', decide_eq_true_eq] at lasts
    refine ⟨kept.inv, ⟨has, later, out, stands, allowed, ran⟩, lasts.1, ?_⟩
    intro mine
    exact lasts.2.resolve_left fun other => other mine

structure Closing (allowed : Option Nat) (uid : String) (home : Home) : Prop where
  listed : home.Listed uid
  only : PassedOnly allowed uid home

structure Removed (uid : String) (home : Home) : Prop where
  closed : Closing none uid home
  absent : home.ledger.grants.get uid = none

section Removal

variable {uid : String} {remover : Nat} {allowed : Option Nat}

theorem listed_kept : KeptBy (removeRely uid remover) (Home.Listed uid) := by
  intro tid home action answer next move listed
  obtain ⟨_, _, _, _, _, ran⟩ := move.turn
  exact listed.kept move.lasts ran

theorem closing_kept : KeptBy (removeRely uid remover) (Closing allowed uid) := by
  intro tid home action answer next move closing
  obtain ⟨_, _, _, stands, turn, ran⟩ := move.turn
  exact ⟨closing.listed.kept move.lasts ran,
    closing.only.kept move.ok closing.listed stands turn move.lasts ran⟩

theorem removed_kept : KeptBy (removeRely uid remover) (Removed uid) := by
  intro tid home action answer next move removed
  refine ⟨closing_kept tid home action answer next move removed.closed, ?_⟩
  obtain ⟨_, _, _, stands, turn, ran⟩ := move.turn
  rcases Home.perform_grants ran uid with same | ⟨grant, rfl, mine, _⟩ | ⟨_, revoked⟩
  · exact same.trans removed.absent
  · obtain ⟨chan, here, passed⟩ := stands.admits turn
    rw [mine] at here
    have none := removed.closed.only chan here passed
    simp at none
  · exact revoked

variable (cfg : HomeConfig)

theorem yield_removes (reason : String) :
    Outline (homeKernel cfg) (removeRely uid remover) remover (Call.yield cfg uid reason)
      (Closing none uid) fun _ => Removed uid := by
  refine outline_act (fun _ => Removed uid) (fun _ => removed_kept.stable) ?_
    fun _ => outline_of_kept removed_kept _
  intro home answer out next closing ran move
  refine ⟨closing_kept _ _ _ _ _ move closing, ?_⟩
  have revoked : home.perform remover (.revokeGrant uid) answer = some (out, next) := ran
  rw [(Home.perform_revokes revoked).1]
  exact get_drop_same _ _

theorem Closing.waited {chan : Nat} {home next : Home} {answer : Answer}
    {out : (Act.awaitAdmission chan).Result} (closing : Closing (some chan) uid home)
    (ran : home.perform remover (.awaitAdmission chan) answer = some (out, next))
    (move : RemoveMove uid remover remover home (.awaitAdmission chan) answer next) :
    Closing none uid next := by
  have context := move.context rfl
  cases answer with
  | flag ended =>
    simp only [Act.contextEnds] at context
    subst ended
    simp only [Home.perform, Bool.false_eq_true, if_false] at ran
    split at ran <;> cases ran
    rename_i closed
    refine ⟨closing.listed, ?_⟩
    intro other here passed
    have same := closing.only other here passed
    cases same
    simp [(move.ok.slots.placed uid chan here).2] at closed
  | _ => cases ran

theorem removeDenied_outline :
    Outline (homeKernel cfg) (removeRely uid remover) remover (Call.removeDenied cfg uid)
      (Home.Listed uid) fun _ => Removed uid := by
  refine outline_act (fun got => Closing got uid) (fun _ => closing_kept.stable) ?_ ?_
  · intro home answer got next listed ran _
    cases ran
    exact ⟨listed, fun _ here _ => here⟩
  · intro got
    cases got with
    | none => exact yield_removes cfg _
    | some chan =>
      refine outline_act (fun _ => Closing none uid) (fun _ => closing_kept.stable) ?_
        fun _ => yield_removes cfg _
      intro home answer out next closing ran move
      exact closing.waited ran move

end Removal

def removing (config : HomeConfig) (uid : String) (lease now : Time) : Call Outcome :=
  .call (.deny uid lease now) fun _ => Call.removeDenied config uid >>= fun _ => pure .done

variable {threads : HomeThreads}

theorem revoked_isSome (reached : (homeKernel cfg).machine.Reachable threads) :
    threads.shared.revoked.isSome = cfg.denies := by
  have step : ∀ (threads : HomeThreads) event next,
      threads.shared.revoked.isSome = cfg.denies →
        (homeKernel cfg).machine.step threads event = some next →
          next.shared.revoked.isSome = cfg.denies := by
    intro threads event next wired took
    cases event with
    | start tid call =>
      obtain ⟨_, rfl⟩ := Kernel.step_start took
      exact wired
    | act tid answer =>
      obtain ⟨_, _, _, shared, _, ran, rfl⟩ := Kernel.step_act took
      exact (Home.perform_isSome ran).trans wired
  obtain ⟨first, events, ⟨⟨_, revoked, wired, isNew⟩, _⟩, run⟩ := reached
  exact exec_keeps step (by simpa [isNew, newHome] using wired) run

/-- The grant is out of the ledger, and no step brings up a fiber under it. -/
structure GrantGone (config : HomeConfig) (uid : String) (threads : HomeThreads) : Prop where
  absent : threads.shared.ledger.grants.get uid = none
  refused : ∀ clone resolution, threads.shared.system.resolved.get clone = some resolution →
    resolution.grantUID = uid → ∀ endpoint pooled refuse,
      (threads.shared.system.commit clone resolution endpoint pooled refuse).1 = false
  recorded : ∀ event next, (homeKernel config).machine.step threads event = some next →
    ∀ id ref, next.shared.ledger.fibers.get id = some ref → ref.grantUID = uid →
      ∃ old, threads.shared.ledger.fibers.get id = some old ∧ old.grantUID = uid

theorem grantGone_of_absent {uid : String}
    (gone : threads.shared.ledger.grants.get uid = none) : GrantGone cfg uid threads := by
  refine ⟨gone, ?_, ?_⟩
  · intro clone res _ mine endpoint pooled refuse
    rcases commit_cases threads.shared.system clone res endpoint pooled refuse with
      refused | ⟨admitted, _, _, _⟩
    · rw [refused]
    · simp [mine, gone] at admitted
  · intro event next took id ref got mine
    cases event with
    | start tid call =>
      obtain ⟨_, rfl⟩ := Kernel.step_start took
      exact ⟨ref, got, mine⟩
    | act tid answer =>
      obtain ⟨_, _, _, shared, _, ran, rfl⟩ := Kernel.step_act took
      rcases (Home.perform_grows ran).fibers id ref got with ⟨old, before, same, _⟩ |
        ⟨ptr, _, admitted⟩
      · exact ⟨old, before, same.trans mine⟩
      · simp [mine, gone] at admitted

theorem removed_grant_stays_removed {config : HomeConfig} {before next final : HomeThreads}
    {thread : Nat} {uid : String} {lease now : Time} {answer : Answer} {events : List HomeEvent}
    (denies : config.denies = true) (reached : (homeKernel config).machine.Reachable before)
    (removes : before.programs.get thread = some (removing config uid lease now))
    (adds : (homeKernel config).machine.step before (.act thread answer) = some next)
    (lasts : (homeKernel config).machine.Meets (Kernel.Allows (lasting uid thread)) next events)
    (run : (homeKernel config).machine.exec next events = some final)
    (returned : answerOf final thread = some .done) : GrantGone config uid final := by
  have relies : (homeKernel config).machine.Meets
      (Relies (homeKernel config) (removeRely uid thread)) next events :=
    lasts.of_reachable remove_relies (reached.next adds)
  obtain ⟨result, shared, performed, rfl⟩ := Kernel.step_act_call removes adds
  have listed : shared.Listed uid := by
    have isSome := revoked_isSome reached
    rw [denies] at isSome
    obtain ⟨revoked, found⟩ := Option.isSome_iff_exists.mp isSome
    simp only [homeKernel, Home.perform, found, Option.map_some] at performed
    cases performed
    exact Revoked.until_deny.listed
  have outlined : Outlined (homeKernel config) (removeRely uid thread) thread
      (fun _ => Removed uid) ⟨shared, before.programs.put thread
        (Call.removeDenied config uid >>= fun _ => pure .done)⟩ :=
    ⟨_, Home.Listed uid, get_put_same _ _ _, listed_kept.stable, listed,
      (removeDenied_outline config).bind fun _ _ removed => removed⟩
  exact grantGone_of_absent
    ((outlined.run relies run).post (answerOf_eq_some.mp returned)).absent

def removedRun : List HomeEvent :=
  .start 0 (.coreAdmit 1 plainGrant) :: answered 0 (admitAnswers.take 4) ++
    .start 1 (.remove "g") :: answered 1 [.flag true, .time 1, .time 1]

def refusedRun : List HomeEvent :=
  .act 1 (.flag true) :: .start 2 (.coreAdmit 2 plainGrant) :: answered 2 [.time 1, .flag true] ++
    answered 0 (admitAnswers.drop 4) ++
    answered 1 [.flag false, .flag true, .flag true, .flag true, .flag true, .flag true,
      .flag true] ++
    answered 2 [.flag false, .flag true, .flag true, .time 2, .flag true, .flag true, .flag true,
      .flag true]

def denyingThreads : HomeThreads := ⟨newHome 1 (some { ttl := 5, until_ := ∅ }), ∅⟩

theorem denyingThreads_start : (homeKernel { denies := true }).machine.start denyingThreads :=
  ⟨⟨1, _, rfl, rfl⟩, rfl⟩

theorem removedRun_removes {old : HomeThreads}
    (run : (homeKernel { denies := true }).machine.exec denyingThreads removedRun = some old) :
    old.programs.get 1 = some (removing { denies := true } "g" 1 1) := by
  have prog : ((homeKernel { denies := true }).machine.exec denyingThreads removedRun).bind
      (fun threads => threads.programs.get 1) = some (removing { denies := true } "g" 1 1) := rfl
  rwa [run, Option.bind_some] at prog

theorem removed_of_refusedRun :
    ((homeKernel { denies := true }).machine.exec denyingThreads
        (removedRun ++ .act 1 (.flag true) :: refusedRun)).map (fun threads =>
      (answerOf threads 0, answerOf threads 1, answerOf threads 2)) =
        some (some .done, some .done, some (.refused .deferredFallback .grantRevoked)) ∧
      ∀ final, (homeKernel { denies := true }).machine.exec denyingThreads
          (removedRun ++ .act 1 (.flag true) :: refusedRun) = some final →
        GrantGone { denies := true } "g" final := by
  have answers : ((homeKernel { denies := true }).machine.exec denyingThreads
        (removedRun ++ .act 1 (.flag true) :: refusedRun)).map (fun threads =>
      (answerOf threads 0, answerOf threads 1, answerOf threads 2)) =
        some (some .done, some .done, some (.refused .deferredFallback .grantRevoked)) := by
    decide
  refine ⟨answers, ?_⟩
  intro final run
  have lasts : (homeKernel { denies := true }).machine.Meets (Kernel.Allows (lasting "g" 1))
      denyingThreads (removedRun ++ .act 1 (.flag true) :: refusedRun) := by
    decide +kernel
  simp only [run, Option.map_some, Option.some.injEq, Prod.mk.injEq] at answers
  obtain ⟨before, front, back⟩ := exec_append_eq_some.mp run
  obtain ⟨next, adds, rest⟩ := exec_cons_eq_some.mp back
  exact removed_grant_stays_removed rfl ⟨denyingThreads, removedRun, denyingThreads_start, front⟩
    (removedRun_removes front) adds ((lasts.back front).2 next adds) rest answers.2.1

end Fiberd
