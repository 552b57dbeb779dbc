import Fiberd.Home.HomeEpochs

/-!
A yield leaves no fiber behind.  Its revocation is a mark: an entry the grant has
from then on is new, so no commit can reach back over it, and the fibers that are
older are all in the list the yield works off.
-/

namespace Fiberd

open Heaps Tables Programs Machines LedgerSystem

structure LedgerSystem.Grows (system next : LedgerSystem) : Prop where
  size : system.ledger.entries.size ≤ next.ledger.entries.size
  grants : ∀ uid pointer, next.ledger.grants.get uid = some pointer →
    system.ledger.grants.get uid = some pointer ∨ system.ledger.entries.size ≤ pointer
  fibers : ∀ id ref, next.ledger.fibers.get id = some ref →
    (∃ old, system.ledger.fibers.get id = some old ∧ old.grantUID = ref.grantUID ∧
      next.origins.get id = system.origins.get id) ∨
    ∃ pointer, next.origins.get id = some pointer ∧
      system.ledger.grants.get ref.grantUID = some pointer

variable {system next : LedgerSystem}

theorem LedgerSystem.grows_of_quiet {ledger : Ledger}
    (quiet : system.ledger.Quiet ledger) : system.Grows (system.withLedger ledger) := by
  refine ⟨Nat.le_of_eq quiet.size.symm, ?_, ?_⟩
  · intro uid ptr got
    exact .inl (quiet.grants ▸ got)
  · intro id ref got
    obtain ⟨old, before, grant, _⟩ := quiet.fibers id ref got
    exact .inl ⟨old, before, grant, rfl⟩

theorem LedgerSystem.grows_of_fibers (size : system.ledger.entries.size ≤ next.ledger.entries.size)
    (grants : ∀ uid ptr, next.ledger.grants.get uid = some ptr →
      system.ledger.grants.get uid = some ptr ∨ system.ledger.entries.size ≤ ptr)
    (fibers : next.ledger.fibers = system.ledger.fibers)
    (origins : next.origins = system.origins) : system.Grows next := by
  refine ⟨size, grants, ?_⟩
  intro id ref got
  exact .inl ⟨ref, fibers ▸ got, rfl, by rw [origins]⟩

theorem grows_admitGrant (system : LedgerSystem) (grant : Grant) :
    system.Grows (system.withLedger (system.ledger.admitGrant grant)) := by
  unfold Ledger.admitGrant
  split
  · exact grows_of_fibers (Nat.le_refl _) (fun _ _ got => .inl got) rfl rfl
  · refine grows_of_fibers (by simp [withLedger]) ?_ rfl rfl
    intro uid ptr got
    obtain ⟨_, got⟩ | ⟨_, got⟩ := get_put_eq_some got
    · exact .inr (Nat.le_of_eq got)
    · exact .inl got

theorem grows_revokeGrant (system : LedgerSystem) (revoked : String) :
    system.Grows (system.withLedger (system.ledger.revokeGrant revoked)) := by
  have grants : ∀ uid ptr, (system.ledger.grants.drop revoked).get uid = some ptr →
      system.ledger.grants.get uid = some ptr ∨ system.ledger.entries.size ≤ ptr := by
    intro uid ptr got
    obtain ⟨_, got⟩ := get_drop_eq_some got
    exact .inl got
  unfold Ledger.revokeGrant
  split <;> exact grows_of_fibers (Nat.le_refl _) grants rfl rfl

theorem grows_apply {op : LedgerOp} (took : system.apply op = some next) : system.Grows next := by
  cases apply_effect took with
  | refused => exact grows_of_quiet (Ledger.Quiet.refl _)
  | admitGrant grant => exact grows_admitGrant system grant
  | revokeGrant uid => exact grows_revokeGrant system uid
  | bumpEpoch epoch =>
    unfold Ledger.bumpEpoch
    split <;> exact grows_of_fibers (Nat.le_refl _) (fun _ _ got => .inl got) rfl rfl
  | minted _ _ _ _ minted _ =>
    refine grows_of_fibers ?_ ?_ ?_ rfl
    · simp [opened, minted.nextEq]
    · intro uid ptr got
      simp only [opened, minted.nextEq] at got
      exact .inl got
    · simp [opened, minted.nextEq]
  | attached _ _ _ _ _ _ _ | restored _ =>
    exact grows_of_fibers (Nat.le_refl _) (fun _ _ got => .inl got) rfl rfl
  | committed endpoint pooled _ _ _ current _ =>
    refine ⟨Nat.le_refl _, fun _ _ got => .inl got, ?_⟩
    intro id ref got
    simp only [committed, get_put] at got ⊢
    split at got
    · rename_i mine
      cases got
      exact .inr ⟨_, by rw [if_pos mine], current⟩
    · rename_i apart
      exact .inl ⟨ref, got, rfl, by rw [if_neg apart]⟩
  | unlocked _ =>
    rename_i clone res _
    have quiet := grows_of_quiet (Ledger.quiet_unlock system.ledger res)
    exact ⟨quiet.size, quiet.grants, quiet.fibers⟩
  | parked deltaRef _ => exact grows_of_quiet (Ledger.quiet_onPark system.ledger _ deltaRef)
  | gone _ _ => exact grows_of_quiet (Ledger.quiet_onGone system.ledger _)
  | forgot grantUID session => exact grows_of_quiet (Ledger.quiet_forgetSession system.ledger _ _)
  | setFiberW fiberID bytes => exact grows_of_quiet (Ledger.quiet_setFiberW system.ledger _ _)
  | setPooled grantUID count => exact grows_of_quiet (Ledger.quiet_setPooled system.ledger _ _)

theorem Home.perform_grows {home next : Home} {tid : Nat} {action : Act} {answer : Answer}
    {out : action.Result} (ran : home.perform tid action answer = some (out, next)) :
    home.system.Grows next.system := by
  rcases perform_books ran with ⟨op, done, _⟩ | ⟨same, books⟩
  · exact grows_apply done
  · rw [same]
    exact grows_of_quiet books.quiet

structure EntriesSince (mark : Nat) (uid : String) (home : Home) : Prop where
  size : mark ≤ home.ledger.entries.size
  current : ∀ pointer, home.ledger.grants.get uid = some pointer → mark ≤ pointer

structure RevokedSince (mark : Nat) (uid : String) (rest : List String) (home : Home) : Prop where
  entries : EntriesSince mark uid home
  fibers : ∀ id ref, home.ledger.fibers.get id = some ref → ref.grantUID = uid →
    (∃ origin, home.system.origins.get id = some origin ∧ mark ≤ origin) ∨ id ∈ rest

def yieldRely : Nat → Home → Act → Answer → Home → Prop :=
  fun _ home _ _ next => home.system.Grows next.system

section Yield

variable {mark : Nat} {uid : String} {rest : List String}

variable {home next : Home}

theorem EntriesSince.kept (since : EntriesSince mark uid home)
    (moved : home.system.Grows next.system) : EntriesSince mark uid next := by
  refine ⟨Nat.le_trans since.size moved.size, ?_⟩
  intro ptr got
  rcases moved.grants uid ptr got with old | fresh
  · exact since.current ptr old
  · exact Nat.le_trans since.size fresh

theorem RevokedSince.kept (since : RevokedSince mark uid rest home)
    (moved : home.system.Grows next.system) : RevokedSince mark uid rest next := by
  refine ⟨since.entries.kept moved, ?_⟩
  intro id ref got mine
  rcases moved.fibers id ref got with ⟨old, before, sameGrant, sameOrigin⟩ | ⟨ptr, origin,
    admitted⟩
  · rw [sameOrigin]
    exact since.fibers id old before (sameGrant.trans mine)
  · exact .inl ⟨ptr, origin, since.entries.current ptr (mine ▸ admitted)⟩

theorem entriesSince_kept : KeptBy yieldRely (EntriesSince mark uid) :=
  fun _ _ _ _ _ moved since => since.kept moved

theorem revokedSince_kept : KeptBy yieldRely (RevokedSince mark uid rest) :=
  fun _ _ _ _ _ moved since => since.kept moved

theorem RevokedSince.skip {id : String} (since : RevokedSince mark uid (id :: rest) home)
    (gone : home.ledger.fibers.get id = none) : RevokedSince mark uid rest home := by
  refine ⟨since.entries, ?_⟩
  intro query ref got mine
  rcases since.fibers query ref got mine with newer | listed
  · exact .inl newer
  · simp only [List.mem_cons] at listed
    rcases listed with same | later
    · subst query
      simp [gone] at got
    · exact .inr later

variable (cfg : HomeConfig) (tid : Nat)

theorem yieldFibers_outline (reason : String) (fibers : List Ledger.FiberInfo) :
    Outline (homeKernel cfg) yieldRely tid (Call.yieldFibers cfg reason fibers)
      (RevokedSince mark uid (fibers.map Ledger.FiberInfo.id))
      fun _ => RevokedSince mark uid [] := by
  induction fibers with
  | nil => exact fun _ since => since
  | cons info fibers ih =>
    refine outline_act (fun got => RevokedSince mark uid (got.elim
      (fibers.map Ledger.FiberInfo.id) fun _ => info.id :: fibers.map Ledger.FiberInfo.id))
      ?_ ?_ ?_
    · intro got
      exact revokedSince_kept.stable
    · intro home answer got next since ran _
      cases ran
      cases known : home.ledger.fibers.get info.id with
      | none =>
        simp only [Ledger.fiber?, known, Option.map_none]
        exact since.skip known
      | some ref =>
        simp only [Ledger.fiber?, known, Option.map_some]
        exact since
    · intro got
      cases got with
      | none => exact ih
      | some fence =>
        refine outline_past revokedSince_kept _ fun _ => ?_
        refine outline_act (fun _ => RevokedSince mark uid (fibers.map Ledger.FiberInfo.id))
          (fun _ => revokedSince_kept.stable) ?_ ?_
        · intro home answer gone next since ran moved
          exact (since.kept moved).skip
            (perform_onRelease tid answer ran)
        · intro gone
          dsimp only
          split
          · refine outline_past revokedSince_kept _ fun _ => ?_
            exact outline_past revokedSince_kept _ fun _ => ih
          · exact outline_past revokedSince_kept _ fun _ => ih

theorem mem_fibersOf {ledger : Ledger} {id : String} {ref : FiberRef}
    (got : ledger.fibers.get id = some ref) :
    id ∈ (ledger.fibersOf ref.grantUID).map Ledger.FiberInfo.id := by
  refine List.mem_map.mpr ⟨ledger.fiberInfo id ref, ?_, rfl⟩
  simp only [Ledger.fibersOf, List.mem_insertionSort, List.mem_map, List.mem_filter]
  exact ⟨(id, ref), ⟨(mem_rows_iff _ _ _).mpr got, by simp⟩, rfl⟩

theorem yieldRevoked_outline (reason : String) :
    Outline (homeKernel cfg) yieldRely tid (Call.yieldRevoked cfg uid reason)
      (EntriesSince mark uid) fun _ => RevokedSince mark uid [] := by
  refine outline_act (fun fibers => RevokedSince mark uid (fibers.map Ledger.FiberInfo.id))
    (fun _ => revokedSince_kept.stable) ?_ ?_
  · intro home answer fibers next since ran _
    cases ran
    refine ⟨since, ?_⟩
    intro id ref got mine
    exact .inr (mine ▸ mem_fibersOf got)
  · intro fibers
    refine (yieldFibers_outline cfg tid reason fibers).bind fun _ => ?_
    exact outline_of_kept revokedSince_kept _

theorem EntriesSince.refused (since : EntriesSince mark uid home) {clone : Nat}
    {res : Resolution} (mine : res.grantUID = uid) (older : res.entry < mark)
    (endpoint : String) (pooled refuse : Bool) :
    (home.system.commit clone res endpoint pooled refuse).1 = false := by
  rcases commit_cases home.system clone res endpoint pooled refuse with
    refused | ⟨admitted, _, _, _⟩
  · rw [refused]
  · have newer := since.current res.entry (mine ▸ admitted)
    omega

theorem EntriesSince.start (answer : Answer) {out : (Act.revokeGrant uid).Result}
    (ran : home.perform tid (.revokeGrant uid) answer = some (out, next)) :
    EntriesSince home.ledger.entries.size uid next := by
  simp only [Home.perform, Home.op, LedgerSystem.apply, Option.map_some] at ran
  cases ran
  obtain ⟨_, grants, entries, _⟩ := revokeGrant_fields home.ledger uid
  refine ⟨?_, ?_⟩
  · simp only [Home.ledger, withLedger]
    rw [entries]
  · intro ptr got
    simp only [Home.ledger, withLedger] at got
    rw [grants, get_drop_same] at got
    simp at got

end Yield

theorem yield_outlined {cfg : HomeConfig} {old next : HomeThreads} {tid : Nat}
    {uid reason : String} {answer : Answer}
    (yields : old.programs.get tid = some ((HomeCall.yield uid reason).body cfg))
    (revokes : (homeKernel cfg).machine.step old (.act tid answer) = some next) :
    EntriesSince old.shared.ledger.entries.size uid next.shared ∧
      Outlined (homeKernel cfg) yieldRely tid
        (fun _ => RevokedSince old.shared.ledger.entries.size uid []) next := by
  change old.programs.get tid = some (.call (.revokeGrant uid) _) at yields
  obtain ⟨out, shared, ran, rfl⟩ := Kernel.step_act_call yields revokes
  have marked := EntriesSince.start tid answer ran
  refine ⟨marked, _, EntriesSince _ uid, get_put_same _ _ _, entriesSince_kept.stable, marked, ?_⟩
  exact Outline.bind (outline_past entriesSince_kept _ fun _ =>
    yieldRevoked_outline cfg tid reason) fun _ _ since => since

/-- What is left of the entries from before a revocation, once the yield that made it has gone
on to the state. -/
structure Yielded (mark : Nat) (uid : String) (thread : Nat) (threads : HomeThreads) : Prop where
  refused : ∀ clone resolution, threads.shared.system.resolved.get clone = some resolution →
    resolution.grantUID = uid → resolution.entry < mark → ∀ endpoint pooled refuse,
      (threads.shared.system.commit clone resolution endpoint pooled refuse).1 = false
  gone : answerOf threads thread = some .done → ∀ id ref,
    threads.shared.ledger.fibers.get id = some ref → ref.grantUID = uid →
      ∃ origin, threads.shared.system.origins.get id = some origin ∧ mark ≤ origin

theorem yield_leaves_no_fiber {config : HomeConfig} {before next final : HomeThreads}
    {thread : Nat} {uid reason : String} {answer : Answer} {events : List HomeEvent}
    (yields : before.programs.get thread = some ((HomeCall.yield uid reason).body config))
    (revokes : (homeKernel config).machine.step before (.act thread answer) = some next)
    (run : (homeKernel config).machine.exec next events = some final) :
    Yielded before.shared.ledger.entries.size uid thread final := by
  obtain ⟨marked, outlined⟩ := yield_outlined yields revokes
  have relies : (homeKernel config).machine.Meets (Relies (homeKernel config) yieldRely) next
      events := meets_of_forall (relies_of_perform fun _ _ _ _ _ _ => Home.perform_grows) _ _
  refine ⟨?_, ?_⟩
  · intro clone resolution _ mine older endpoint pooled refuse
    have since := relies_keep entriesSince_kept relies run marked
    exact since.refused mine older endpoint pooled refuse
  · intro done id ref found mine
    have since := (outlined.run relies run).post (answerOf_eq_some.mp done)
    rcases since.fibers id ref found mine with newer | listed
    · exact newer
    · simp at listed

/-- The grant is let in again before its first fiber is released, and another call brings a
fiber up under the new entry. -/
def readmittedRun : List HomeEvent :=
  answered 2 [.flag true, .flag true] ++ .start 3 (.coreAdmit 1 plainGrant) ::
    answered 3 [.time 0, .flag true, .time 0, .flag true, .flag true, .flag true, .flag true,
      .flag true, .flag true, .flag true, .flag true, .flag true] ++
    .start 4 (.clone 1 { grantJWT := "t" }) ::
      answered 4 [.verified (.ok plainGrant), .flag true, .flag true, .flag true, .flag true,
        .flag false, .time 0, .flag true, .named (.ok ("e", false)), .flag true, .flag true,
        .flag true] ++
    answered 2 [.flag true, .flag true, .flag true, .flag true, .flag true, .flag true, .flag true]

theorem yield_of_readmittedRun : ∃ before next final : HomeThreads,
    (homeKernel {}).machine.step before (.act 2 (.flag true)) = some next ∧
      (homeKernel {}).machine.exec next readmittedRun = some final ∧
      answerOf final 2 = some .done ∧
      final.shared.ledger.fibers.get "g/1/2" =
        some { grantUID := "g", fence := ⟨"g", 1, 2⟩ } ∧
      Yielded before.shared.ledger.entries.size "g" 2 final := by
  obtain ⟨final, run, done, born⟩ : ∃ final, (homeKernel {}).machine.exec emptyThreads (clonedRun ++
        .start 2 (.yield "g" "idle") :: .act 2 (.flag true) :: readmittedRun) = some final ∧
      answerOf final 2 = some .done ∧ final.shared.ledger.fibers.get "g/1/2" =
        some { grantUID := "g", fence := ⟨"g", 1, 2⟩ } := by decide +kernel
  obtain ⟨middle, _, afterClone⟩ := exec_append_eq_some.mp run
  obtain ⟨before, started, afterStart⟩ := exec_cons_eq_some.mp afterClone
  obtain ⟨next, revokes, afterRevoke⟩ := exec_cons_eq_some.mp afterStart
  have yields : before.programs.get 2 = some ((HomeCall.yield "g" "idle").body {}) := by
    obtain ⟨_, rfl⟩ := Kernel.step_start started
    exact get_put_same _ _ _
  exact ⟨before, next, final, revokes, afterRevoke, done, born,
    yield_leaves_no_fiber yields revokes afterRevoke⟩

end Fiberd
