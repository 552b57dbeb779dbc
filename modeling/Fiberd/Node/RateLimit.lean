import Fiberd.Lib.Machines
import Mathlib.Algebra.Order.Field.Basic
import Mathlib.Tactic.Linarith
import Mathlib.Tactic.Ring

/-!
The clone rate limit of `pkg/core/ratelimit.go` over exact rationals.  A Take refills
for the time since the last one at the rate of its own moment, whatever was observed
in between.
-/

namespace Fiberd

open Machines

structure RateLimit where
  base : ℚ
  refW : ℚ
  w : ℚ
  tokens : ℚ
  burst : ℚ
  last : ℚ
  deriving DecidableEq, Repr

def newRateLimit (baseClonesPerSec refWBytes now : ℚ) : RateLimit :=
  { base := baseClonesPerSec, refW := refWBytes, w := 0, burst := baseClonesPerSec
    tokens := baseClonesPerSec, last := now }

namespace RateLimit

variable (limit : RateLimit)

def observeWorkingSet (bytes : ℚ) : RateLimit := { limit with w := bytes }

def rateLocked : ℚ :=
  if limit.refW ≤ 0 then limit.base else limit.base / (1 + limit.w / limit.refW)

def refill (now : ℚ) : ℚ :=
  let tokens := limit.tokens + (now - limit.last) * limit.rateLocked
  if limit.burst < tokens then limit.burst else tokens

/-- Whether the clone may go on, and the bucket after. -/
def take (now : ℚ) : Bool × RateLimit :=
  let tokens := limit.refill now
  if tokens < 1 then (false, { limit with tokens := tokens, last := now })
  else (true, { limit with tokens := tokens - 1, last := now })

end RateLimit

/-- `area` is the integral of `base / (1 + W / refW)` up to now, `filled` what it was at the last
Take, and `taken` counts the Takes that succeeded. -/
structure RateRun where
  limit : RateLimit
  now : ℚ
  area : ℚ := 0
  filled : ℚ := 0
  taken : ℕ := 0
  deriving DecidableEq, Repr

inductive RateLabel where
  | wait (seconds : ℚ)
  | observe (bytes : ℚ)
  | take
  deriving DecidableEq, Repr

namespace RateRun

variable (run : RateRun)

def step : RateLabel → Option RateRun
  | .wait seconds =>
    if seconds < 0 then none
    else some { run with
      now := run.now + seconds
      area := run.area + seconds * (run.limit.base / (1 + run.limit.w / run.limit.refW)) }
  | .observe bytes =>
    if bytes < 0 then none else some { run with limit := run.limit.observeWorkingSet bytes }
  | .take =>
    let (taken, limit) := run.limit.take run.now
    some { run with
      limit := limit, filled := run.area, taken := run.taken + if taken then 1 else 0 }

/-- A working set that shrinks is observed at the moment of a Take. -/
def refilled : RateLabel → Prop
  | .observe bytes => bytes < run.limit.w → run.limit.last = run.now
  | _ => True

instance (label : RateLabel) : Decidable (run.refilled label) := by
  cases label <;> unfold refilled <;> infer_instance

end RateRun

def rateMachine : Machine RateRun RateLabel where
  start run := ∃ base refW now, 0 < refW ∧ run = { limit := newRateLimit base refW now, now := now }
  step := RateRun.step

namespace RateRun

structure Kept (base : ℚ) (run : RateRun) : Prop where
  priced : 0 ≤ base
  same : run.limit.base = base
  burst : run.limit.burst = base
  scale : 0 < run.limit.refW
  observed : 0 ≤ run.limit.w
  tokens : 0 ≤ run.limit.tokens
  order : run.limit.last ≤ run.now

variable {base : ℚ} {run next early : RateRun} {label : RateLabel}

theorem Kept.rate_eq (kept : Kept base run) :
    run.limit.rateLocked = base / (1 + run.limit.w / run.limit.refW) := by
  rw [RateLimit.rateLocked, if_neg (not_le.mpr kept.scale), kept.same]

theorem Kept.share (kept : Kept base run) : 1 ≤ 1 + run.limit.w / run.limit.refW := by
  linarith [div_nonneg kept.observed kept.scale.le]

theorem Kept.rate_nonneg (kept : Kept base run) : 0 ≤ run.limit.rateLocked := by
  rw [kept.rate_eq]
  exact div_nonneg kept.priced (by linarith [kept.share])

theorem Kept.refill_eq (kept : Kept base run) : run.limit.refill run.now =
      min base (run.limit.tokens + (run.now - run.limit.last) * run.limit.rateLocked) := by
  rw [RateLimit.refill, kept.burst, min_def]
  grind

/-- The steps.  The tokens left and the Takes are those before and what was refilled. -/
theorem Kept.step_cases (kept : Kept base run) (took : run.step label = some next) :
    (∃ (tokens : ℚ) (taken : ℕ), label = .take ∧ 0 ≤ tokens ∧
      (taken + tokens : ℚ) = run.taken + run.limit.refill run.now ∧
      next = { run with
        limit := { run.limit with tokens := tokens, last := run.now }
        filled := run.area, taken := taken }) ∨
    (∃ seconds, label = .wait seconds ∧ 0 ≤ seconds ∧
      next = { run with
        now := run.now + seconds, area := run.area + seconds * run.limit.rateLocked }) ∨
    ∃ bytes, label = .observe bytes ∧ 0 ≤ bytes ∧
      next = { run with limit := { run.limit with w := bytes } } := by
  cases label with
  | take =>
    have fresh := mul_nonneg (sub_nonneg.mpr kept.order) kept.rate_nonneg
    have level : 0 ≤ run.limit.refill run.now := by
      rw [kept.refill_eq]
      exact le_min kept.priced (add_nonneg kept.tokens fresh)
    simp only [step, RateLimit.take] at took
    split at took <;> cases took
    · exact .inl ⟨_, run.taken, rfl, level, rfl, rfl⟩
    · exact .inl ⟨_, run.taken + 1, rfl, by linarith, by push_cast; ring, rfl⟩
  | wait seconds =>
    simp only [step] at took
    split at took <;> cases took
    rw [kept.same, ← kept.rate_eq]
    exact .inr (.inl ⟨seconds, rfl, not_lt.mp ‹_›, rfl⟩)
  | observe bytes =>
    simp only [step] at took
    split at took <;> cases took
    exact .inr (.inr ⟨bytes, rfl, not_lt.mp ‹_›, rfl⟩)

theorem Kept.stepped (kept : Kept base run) (took : run.step label = some next) :
    Kept base next := by
  obtain ⟨tokens, _, _, left, _, rfl⟩ | ⟨seconds, _, later, rfl⟩ | ⟨bytes, _, seen, rfl⟩ :=
    kept.step_cases took
  · exact { kept with tokens := left, order := le_rfl }
  · exact { kept with order := by simp only; linarith [kept.order] }
  · exact { kept with observed := seen }

/-- The Takes since `early` are paid by what came in, up to `total`, of which the bucket has what
came in up to `filled`. -/
structure Account (base : ℚ) (total filled : RateRun → ℚ) (early run : RateRun) : Prop where
  kept : Kept base run
  covered : (run.now - run.limit.last) * run.limit.rateLocked ≤ total run - filled run
  paid : run.taken + min base (run.limit.tokens + (total run - filled run)) ≤
    early.taken + base + (total run - total early)

variable {total filled : RateRun → ℚ}

theorem Kept.opens (kept : Kept base run)
    (covered : (run.now - run.limit.last) * run.limit.rateLocked ≤ total run - filled run) :
    Account base total filled run run := by
  refine ⟨kept, covered, ?_⟩
  have most := min_le_left base (run.limit.tokens + (total run - filled run))
  linarith

theorem Account.closes (account : Account base total filled early run) :
    (run.taken - early.taken : ℚ) ≤ base + (total run - total early) := by
  obtain ⟨kept, covered, paid⟩ := account
  have fresh := mul_nonneg (sub_nonneg.mpr kept.order) kept.rate_nonneg
  have rest := le_min kept.priced (add_nonneg kept.tokens (fresh.trans covered))
  linarith

theorem Account.stepped (account : Account base total filled early run)
    (took : run.step label = some next) (grows : total run ≤ total next)
    (fills : filled next = if label = .take then total next else filled run)
    (covered : (next.now - next.limit.last) * next.limit.rateLocked ≤ total next - filled next) :
    Account base total filled early next := by
  obtain ⟨kept, due, paid⟩ := account
  refine ⟨kept.stepped took, covered, ?_⟩
  -- Between Takes the bucket is due no more than what came in.
  have grown : min base (run.limit.tokens + (total next - filled run)) ≤
      min base (run.limit.tokens + (total run - filled run)) + (total next - total run) := by
    rw [min_add]
    exact min_le_min (by linarith) (by linarith)
  rw [fills]
  obtain ⟨tokens, taken, rfl, _, spent, rfl⟩ | ⟨_, rfl, _, rfl⟩ | ⟨_, rfl, _, rfl⟩ :=
    kept.step_cases took
  · have level : run.limit.refill run.now ≤
        min base (run.limit.tokens + (total run - filled run)) := by
      rw [kept.refill_eq]
      exact min_le_min le_rfl (by linarith)
    rw [if_pos rfl, sub_self, add_zero]
    simp only at *
    linarith [min_le_right base tokens]
  all_goals
    rw [if_neg nofun]
    linarith

theorem Kept.flat (kept : Kept base run) : (run.now - run.limit.last) * run.limit.rateLocked ≤
      base * run.now - base * run.limit.last := by
  have rate : run.limit.rateLocked ≤ base := by
    rw [kept.rate_eq]
    exact div_le_self kept.priced kept.share
  linarith [mul_le_mul_of_nonneg_left rate (sub_nonneg.mpr kept.order)]

theorem Account.stepped_flat (account : Account base (base * ·.now) (base * ·.limit.last) early run)
    (took : run.step label = some next) :
    Account base (base * ·.now) (base * ·.limit.last) early next := by
  have kept := account.kept
  refine account.stepped took ?_ ?_ (kept.stepped took).flat
  all_goals
    obtain ⟨_, _, rfl, _, _, rfl⟩ | ⟨_, rfl, later, rfl⟩ | ⟨_, rfl, _, rfl⟩ :=
      kept.step_cases took
  · rfl
  · exact mul_le_mul_of_nonneg_left (by simpa using later) kept.priced
  all_goals rfl

theorem Account.stepped_area (account : Account base area RateRun.filled early run)
    (refilled : run.refilled label) (took : run.step label = some next) :
    Account base area RateRun.filled early next := by
  have kept := account.kept
  have covered := account.covered
  have later := kept.stepped took
  obtain ⟨_, _, rfl, _, _, rfl⟩ | ⟨seconds, rfl, waited, rfl⟩ | ⟨bytes, rfl, seen, rfl⟩ :=
    kept.step_cases took
  · exact account.stepped took le_rfl rfl (by simp)
  · refine account.stepped took ?_ rfl ?_
    · simpa using mul_nonneg waited kept.rate_nonneg
    · simp only
      linarith
  · refine account.stepped took le_rfl rfl ?_
    by_cases shrinks : bytes < run.limit.w
    · have last := refilled shrinks
      simp only [last, sub_self, zero_mul] at covered ⊢
      exact covered
    · refine le_trans (mul_le_mul_of_nonneg_left ?_ (sub_nonneg.mpr kept.order)) covered
      rw [later.rate_eq, kept.rate_eq]
      refine div_le_div_of_nonneg_left kept.priced (by linarith [kept.share]) ?_
      linarith [div_le_div_of_nonneg_right (not_lt.mp shrinks) kept.scale.le]

end RateRun

open RateRun

theorem takes_follow_rate {first early late : RateRun} {front back : List RateLabel}
    (started : rateMachine.start first) (priced : 0 ≤ first.limit.base)
    (ran : rateMachine.exec first front = some early)
    (on : rateMachine.exec early back = some late) :
    (late.taken - early.taken : ℚ) ≤
        first.limit.burst + (first.limit.base * late.now - first.limit.base * early.now) ∧
      (rateMachine.Meets refilled first (front ++ back) →
        (late.taken - early.taken : ℚ) ≤ first.limit.burst + (late.area - early.area)) := by
  obtain ⟨base, refW, now, scale, rfl⟩ := started
  have fresh : Kept base { limit := newRateLimit base refW now, now := now } :=
    ⟨priced, rfl, rfl, scale, le_rfl, priced, le_rfl⟩
  constructor
  · have kept : Kept base early := exec_keeps (fun _ _ _ => Kept.stepped) fresh ran
    have account : Account base (base * ·.now) (base * ·.limit.last) early late :=
      exec_keeps (fun _ _ _ => Account.stepped_flat) (kept.opens kept.flat) on
    exact account.closes
  · intro meets
    have begun : Account base area RateRun.filled _ early :=
      exec_keeps_of_meets (fun _ _ _ => Account.stepped_area)
        (fresh.opens (by simp [newRateLimit])) meets.front ran
    have account : Account base area RateRun.filled early late :=
      exec_keeps_of_meets (fun _ _ _ => Account.stepped_area)
        (begun.kept.opens begun.covered) (meets.back ran) on
    exact account.closes

theorem slowed_takes_follow_rate :
    ∃ late, rateMachine.exec { limit := newRateLimit 2 1 0, now := 0 }
        [.take, .observe 1, .wait 3, .take, .observe 0] = some late ∧
      (late.taken - (0 : ℕ) : ℚ) ≤ 2 + (late.area - 0) := by
  obtain ⟨late, ran⟩ := Option.isSome_iff_exists.mp (by decide +kernel :
    (rateMachine.exec { limit := newRateLimit 2 1 0, now := 0 }
      [.take, .observe 1, .wait 3, .take, .observe 0]).isSome)
  refine ⟨late, ran, ?_⟩
  exact (takes_follow_rate ⟨2, 1, 0, by decide +kernel, rfl⟩ (by decide +kernel)
    (exec_nil _) ran).2 (by decide +kernel)

/-- The working set is large for a while, and is observed to shrink just before a Take. -/
theorem lazy_refill_overdraws :
    ∃ late, rateMachine.exec { limit := newRateLimit 1 1 0, now := 0 }
        [.take, .observe 9, .wait 5, .observe 0, .take] = some late ∧
      late.limit.burst + late.area < (late.taken : ℚ) := by
  decide +kernel

end Fiberd
