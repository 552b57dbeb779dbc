import Fiberd.Ledger.LedgerSound

/-!
The fences a home hands out over its whole life.  A home is a sequence of
processes: each starts a new ledger, at an epoch above those of the processes
before it, and runs ledger operations until it ends.
-/

namespace Fiberd

open Heaps Tables Machines

namespace Ledger

structure Issues (before after : Ledger) (fresh : Option Fence) : Prop where
  epoch : before.epoch ≤ after.epoch
  lastSeq : ∀ uid, after.lastSeq uid =
    before.lastSeq uid + if fresh.map Fence.grantUID = some uid then 1 else 0
  fence : ∀ fence, fresh = some fence → fence.epoch = before.epoch ∧
    fence.seq = before.lastSeq fence.grantUID + 1 ∧ after.epoch = before.epoch

variable {before after : Ledger}

theorem issues_nothing (epoch : before.epoch ≤ after.epoch)
    (lastSeq : ∀ uid, after.lastSeq uid = before.lastSeq uid) : Issues before after none :=
  ⟨epoch, fun uid => by simp [lastSeq], by simp⟩

theorem Quiet.issues (quiet : Quiet before after) : Issues before after none :=
  issues_nothing (Nat.le_of_eq quiet.epoch.symm) quiet.lastSeq

variable {fence : Fence}

theorem Issues.keeps {fresh : Option Fence}
    (issues : Issues before after fresh) (minted : before.Minted fence) : after.Minted fence := by
  have epoch := issues.epoch
  have grown := issues.lastSeq fence.grantUID
  unfold Minted at minted ⊢
  split at grown <;> omega

theorem Issues.handed (issues : Issues before after (some fence)) : after.Minted fence := by
  obtain ⟨epoch, seq, same⟩ := issues.fence fence rfl
  have grown := issues.lastSeq fence.grantUID
  simp only [Option.map_some, if_true] at grown
  exact .inr ⟨epoch.trans same.symm, by omega⟩

theorem Issues.newer {old : Fence}
    (issues : Issues before after (some fence)) (minted : before.Minted old)
    (sameGrant : old.grantUID = fence.grantUID) : fence.newer old = true := by
  obtain ⟨epoch, seq, _⟩ := issues.fence fence rfl
  rw [Fence.newer_iff]
  refine ⟨sameGrant.symm, ?_⟩
  unfold Minted at minted
  rw [sameGrant] at minted
  omega

end Ledger

namespace LedgerSystem

def mintedBy (system : LedgerSystem) : LedgerOp → Option Fence
  | .resolve _ grantUID session tier now =>
    match system.ledger.resolveHeld grantUID session tier now with
    | .ok (resolution, _) => if resolution.act = .attach then none else some resolution.fence
    | .error _ => none
  | _ => none

variable {grantUID session : String}

theorem resolveHeld_of_minted {system : LedgerSystem} {clone : Nat}
    {tier : Tier} {now : Time} {next : LedgerSystem}
    (took : system.apply (.resolve clone grantUID session tier now) = some next) : (∃ res ledger,
        system.ledger.resolveHeld grantUID session tier now = .ok (res, ledger) ∧
          next = system.opened clone res ledger) ∨
      (mintedBy system (.resolve clone grantUID session tier now) = none ∧ next = system) := by
  simp only [LedgerSystem.apply] at took
  split at took
  · simp at took
  · split at took
    · rename_i res ledger resolved
      simp only [Option.some.injEq] at took
      exact .inl ⟨res, ledger, resolved, took.symm⟩
    · rename_i refused
      simp only [Option.some.injEq] at took
      exact .inr ⟨by simp [mintedBy, refused], took.symm⟩

variable {system next : LedgerSystem}

theorem issues_resolve (sound : Sound system) {clone : Nat} {tier : Tier} {now : Time}
    (took : system.apply (.resolve clone grantUID session tier now) = some next) :
    Ledger.Issues system.ledger next.ledger
      (mintedBy system (.resolve clone grantUID session tier now)) := by
  rcases resolveHeld_of_minted took with ⟨res, ledger, resolved, rfl⟩ | ⟨nothing, rfl⟩
  · simp only [mintedBy, resolved]
    obtain ⟨ptr, admitted, ⟨minted, _⟩ | ⟨same, _, got, _, _, attach⟩⟩ :=
      Ledger.resolveHeld_ok resolved
    · have epochs : ledger.epoch = system.ledger.epoch := by rw [minted.nextEq]
      have current : system.ledger.lastSeq grantUID =
          (system.ledger.entries.read ptr).nextSeq := by
        simp [Ledger.lastSeq, admitted]
      simp only [minted.notAttach, if_false, minted.fenceEq, opened]
      refine ⟨Nat.le_of_eq epochs.symm, ?_, ?_⟩
      · intro uid
        rw [lastSeq_minted sound admitted minted]
        by_cases same : uid = grantUID
        · simp [same, Ledger.nextFence]
        · simp [same, Ne.symm same, Ledger.nextFence]
      · intro fence handed
        cases handed
        exact ⟨rfl, by simp [Ledger.nextFence, current], epochs⟩
    · simp only [attach, if_true, opened, same]
      exact (Ledger.Quiet.refl system.ledger).issues
  · rw [nothing]
    exact (Ledger.Quiet.refl _).issues

theorem issues_apply {op : LedgerOp} (sound : Sound system) (took : system.apply op = some next) :
    Ledger.Issues system.ledger next.ledger (mintedBy system op) := by
  cases apply_effect took with
  | refused =>
    cases op with
    | resolve clone grantUID session tier now => exact issues_resolve sound took
    | _ => exact (Ledger.Quiet.refl _).issues
  | admitGrant grant =>
    refine Ledger.issues_nothing ?_ (lastSeq_admitGrant sound grant)
    exact Nat.le_of_eq (admitGrant_fields system.ledger grant).1.symm
  | revokeGrant uid =>
    refine Ledger.issues_nothing ?_ (lastSeq_revokeGrant system.ledger uid)
    exact Nat.le_of_eq (revokeGrant_fields system.ledger uid).1.symm
  | bumpEpoch epoch =>
    simp only [withLedger, Ledger.bumpEpoch]
    split
    · exact Ledger.issues_nothing (by dsimp only; omega) fun _ => rfl
    · exact Ledger.issues_nothing (Nat.le_refl _) fun _ => rfl
  | minted _ _ _ _ _ _ | attached _ _ _ _ _ _ _ => exact issues_resolve sound took
  | committed _ _ _ _ _ _ _ | restored _ => exact Ledger.issues_nothing (Nat.le_refl _) fun _ => rfl
  | unlocked _ => exact (Ledger.quiet_unlock _ _).issues
  | parked _ _ => exact (Ledger.quiet_onPark _ _ _).issues
  | gone ends _ =>
    rcases ends with rfl | rfl <;> exact (Ledger.quiet_onGone _ _).issues
  | forgot _ _ => exact (Ledger.quiet_forgetSession _ _ _).issues
  | setFiberW _ _ => exact (Ledger.quiet_setFiberW _ _ _).issues
  | setPooled _ _ => exact (Ledger.quiet_setPooled _ _ _).issues

end LedgerSystem

inductive LifeEvent where
  | op (op : LedgerOp)
  | restart (epoch : Nat)

/-- A home over its restarts, with the fences it minted in the order it minted them. -/
structure HomeLife where
  system : LedgerSystem
  minted : List Fence

namespace HomeLife

open LedgerSystem

def step (life : HomeLife) : LifeEvent → Option HomeLife
  | .op op => (life.system.apply op).map fun next =>
    ⟨next, life.minted ++ (mintedBy life.system op).toList⟩
  | .restart epoch =>
    if life.system.ledger.epoch < epoch then some ⟨newSystem epoch, life.minted⟩ else none

def machine : Machine HomeLife LifeEvent where
  start life := ∃ epoch, life = ⟨newSystem epoch, []⟩
  step := step

/-- Different fences, and within one grant the later one is newer. -/
def Fresher (earlier later : Fence) : Prop :=
  earlier ≠ later ∧ (earlier.grantUID = later.grantUID → later.newer earlier = true)

structure Fenced (life : HomeLife) : Prop where
  sound : Sound life.system
  minted : ∀ fence ∈ life.minted, life.system.ledger.Minted fence
  ordered : life.minted.Pairwise Fresher

theorem fenced_new (epoch : Nat) : Fenced ⟨newSystem epoch, []⟩ :=
  ⟨sound_new epoch, by simp, List.Pairwise.nil⟩

variable {life : HomeLife}

theorem Fenced.op {op : LedgerOp} {next : LedgerSystem}
    (fenced : Fenced life) (took : life.system.apply op = some next) :
    Fenced ⟨next, life.minted ++ (mintedBy life.system op).toList⟩ := by
  have issues := issues_apply fenced.sound took
  cases handed : mintedBy life.system op with
  | none =>
    rw [handed] at issues
    simp only [Option.toList_none, List.append_nil]
    exact ⟨fenced.sound.apply took, fun fence mem => issues.keeps (fenced.minted fence mem),
      fenced.ordered⟩
  | some fence =>
    rw [handed] at issues
    simp only [Option.toList_some]
    refine ⟨fenced.sound.apply took, ?_, ?_⟩
    · intro other mem
      rcases List.mem_append.mp mem with old | new
      · exact issues.keeps (fenced.minted other old)
      · rw [List.mem_singleton.mp new]
        exact issues.handed
    · rw [List.pairwise_append]
      refine ⟨fenced.ordered, List.pairwise_singleton _ _, ?_⟩
      intro old mem new single
      rw [List.mem_singleton.mp single]
      have newer := issues.newer (fenced.minted old mem)
      refine ⟨?_, newer⟩
      rintro rfl
      exact Fence.newer_ne (newer rfl) rfl

theorem Fenced.restart {epoch : Nat} (fenced : Fenced life)
    (above : life.system.ledger.epoch < epoch) : Fenced ⟨newSystem epoch, life.minted⟩ := by
  refine ⟨sound_new epoch, ?_, fenced.ordered⟩
  intro fence mem
  left
  rcases fenced.minted fence mem with before | ⟨same, _⟩
  · exact Nat.lt_trans before above
  · exact same ▸ above

theorem Fenced.step {next : HomeLife} {event : LifeEvent} (fenced : Fenced life)
    (took : life.step event = some next) : Fenced next := by
  cases event with
  | op op =>
    obtain ⟨system, done, rfl⟩ := Option.map_eq_some_iff.mp took
    exact fenced.op done
  | restart epoch =>
    simp only [HomeLife.step] at took
    split at took <;> cases took
    rename_i above
    exact fenced.restart above

theorem fenced_of_reachable (reached : machine.Reachable life) : Fenced life := by
  refine reached.keeps ?_ ?_
  · rintro _ ⟨epoch, rfl⟩
    exact fenced_new epoch
  · exact fun _ _ _ fenced took => fenced.step took

theorem fences_never_reused {life : HomeLife} (reached : machine.Reachable life) :
    life.minted.Pairwise Fresher :=
  (fenced_of_reachable reached).ordered

def twoLives : List LifeEvent :=
  [.op (.admitGrant { uid := "g" }), .op (.resolve 0 "g" "s" .warm 0),
   .op (.revokeGrant "g"), .op (.commit 0 "" false false), .op (.unlock 0),
   .op (.admitGrant { uid := "g" }), .op (.resolve 1 "g" "s" .warm 0), .restart 2,
   .op (.admitGrant { uid := "g" }), .op (.resolve 0 "g" "" .warm 0)]

theorem fences_of_twoLives : ∃ life, machine.Reachable life ∧
    life.minted = [⟨"g", 1, 1⟩, ⟨"g", 1, 2⟩, ⟨"g", 2, 1⟩] ∧ life.minted.Pairwise Fresher := by
  obtain ⟨life, run, fences⟩ : ∃ life, machine.exec ⟨newSystem 1, []⟩ twoLives = some life ∧
    life.minted = [⟨"g", 1, 1⟩, ⟨"g", 1, 2⟩, ⟨"g", 2, 1⟩] := by decide
  have reached : machine.Reachable life := ⟨_, twoLives, ⟨1, rfl⟩, run⟩
  exact ⟨life, reached, fences, fences_never_reused reached⟩

end HomeLife

end Fiberd
