import Fiberd.Grant
import Mathlib.Algebra.BigOperators.Group.List.Basic
import Mathlib.Algebra.GroupWithZero.Nat
import Mathlib.Data.UInt

/-!
The memory limits of a grant: `mulSat`, `addSat`, `DefaultCeiling` and `deltaQuota` of
`pkg/runtime/host/config.go`, `leafMax`, the ceiling set by a prepare and the quota check
of `Park` of `host_linux.go`, and the budgets `Grant.Validate` accepts.
-/

namespace Fiberd

def mulSat (first second : UInt64) : UInt64 :=
  if first.toNat * second.toNat < 2 ^ 64 then first * second else -1

def addSat (first second : UInt64) : UInt64 :=
  if first.toNat + second.toNat < 2 ^ 64 then first + second else -1

namespace Grant

variable (grant : Grant)

def budget : UInt64 := UInt64.ofNat grant.wBudgetBytes

def validBudgets : Bool :=
  0 ≤ grant.fiberMax && grant.fiberMax < 2 ^ 32 && 0 ≤ grant.fiberWarm &&
    grant.fiberWarm < 2 ^ 32 && !(0 < grant.fiberMax && grant.fiberMax < grant.fiberWarm) &&
    !(0 < grant.fiberMax && 0 < grant.wBudgetBytes &&
      (2 ^ 64 - 1) / 4 < grant.fiberMax.toNat * grant.wBudgetBytes)

def deltaQuota : UInt64 :=
  if grant.fiberMax ≤ 0 ∨ grant.budget = 0 then 2 ^ 30
  else mulSat (mulSat 4 (UInt64.ofNat grant.fiberMax.toNat)) grant.budget

def defaultCeiling (templateBytes : UInt64) : UInt64 :=
  if grant.fiberMax ≤ 0 ∨ grant.budget = 0 then 0
  else
    let block := addSat (mulSat (UInt64.ofNat grant.fiberMax.toNat) grant.budget) templateBytes
    addSat block (block / 4)

/-- `total` is the template's whole footprint, where the backend tells one and it is warm.  32 MiB
are slack. -/
def leafMax (total : UInt64) : UInt64 :=
  if grant.budget = 0 then 0
  else if total = 0 then grant.budget
  else grant.budget + total + total / 2 + 33554432

/-- The grant the ceiling is for: each of its fibers has a leaf that large. -/
def leaves (total : UInt64) : Grant := { grant with wBudgetBytes := (grant.leafMax total).toNat }

def setCeiling (ceiling : Grant → UInt64 → UInt64) (total templateBytes : UInt64) :
    Option (UInt64 × UInt64) :=
  let high := ceiling (grant.leaves total) templateBytes
  if 0 < high then some (high, high + grant.leafMax total) else none

end Grant

def treeBytes (files : List UInt64) : UInt64 := files.foldl (· + ·) 0

/-- `rest` is the working set, the workspace and the slice. -/
def parkRefused (quota : UInt64) (files : List UInt64) (rest : UInt64 × UInt64 × UInt64) : Bool :=
  0 < quota && quota < treeBytes files + rest.1 + rest.2.1 + rest.2.2

def parkWeight (files : List UInt64) (rest : UInt64 × UInt64 × UInt64) : Nat :=
  (files.map UInt64.toNat).sum + rest.1.toNat + rest.2.1.toNat + rest.2.2.toNat

theorem le_addSat (first second : UInt64) : first ≤ addSat first second := by
  unfold addSat
  split
  · rename_i room
    rw [UInt64.le_iff_toNat_le, UInt64.toNat_add, Nat.mod_eq_of_lt room]
    omega
  · exact UInt64.le_iff_toNat_le.mpr (Nat.le_pred_of_lt first.toNat_lt)

theorem le_mulSat {first : UInt64} (positive : first ≠ 0) (second : UInt64) :
    second ≤ mulSat first second := by
  have above : 0 < first.toNat := Nat.pos_of_ne_zero fun zero => positive (UInt64.toNat_inj.mp zero)
  unfold mulSat
  split
  · rename_i room
    rw [UInt64.le_iff_toNat_le, UInt64.toNat_mul, Nat.mod_eq_of_lt room]
    exact Nat.le_mul_of_pos_left _ above
  · exact UInt64.le_iff_toNat_le.mpr (Nat.le_pred_of_lt second.toNat_lt)

theorem toNat_foldl_add (files : List UInt64) (start : UInt64) :
    (files.foldl (· + ·) start).toNat =
      (start.toNat + (files.map UInt64.toNat).sum) % 2 ^ 64 := by
  induction files generalizing start with
  | nil => exact (Nat.mod_eq_of_lt start.toNat_lt).symm
  | cons file files ih =>
    rw [List.foldl_cons, ih, UInt64.toNat_add, List.map_cons, List.sum_cons]
    omega

theorem parkRefused_iff {quota : UInt64} {files : List UInt64}
    {rest : UInt64 × UInt64 × UInt64} (set : 0 < quota) :
    parkRefused quota files rest = true ↔ quota.toNat < parkWeight files rest % 2 ^ 64 := by
  have used := toNat_foldl_add files 0
  rw [UInt64.toNat_zero, Nat.zero_add] at used
  simp only [parkRefused, treeBytes, set, decide_true, Bool.true_and, decide_eq_true_eq,
    UInt64.lt_iff_toNat_lt, UInt64.toNat_add, used, parkWeight]
  omega

namespace Grant

variable {grant : Grant} {total : UInt64}

/-- The memory of a leaf, as a number that cannot wrap. -/
def leafSum (grant : Grant) (total : UInt64) : Nat :=
  if grant.budget = 0 ∨ total = 0 then grant.budget.toNat
  else grant.budget.toNat + total.toNat + total.toNat / 2 + 2 ^ 25

theorem toNat_leafMax (grant : Grant) (total : UInt64) :
    (grant.leafMax total).toNat = grant.leafSum total % 2 ^ 64 := by
  have small := grant.budget.toNat_lt
  unfold leafMax leafSum
  by_cases unset : grant.budget = 0
  · simp [unset]
  by_cases unmeasured : total = 0
  · simp only [unset, unmeasured, or_true, if_true, if_false]
    omega
  · simp only [unset, unmeasured, or_false, if_false, UInt64.toNat_add, UInt64.toNat_div,
      UInt64.reduceToNat]
    omega

theorem budget_le_leafMax_iff (measured : total.toNat ≤ 2 ^ 63) :
    grant.budget ≤ grant.leafMax total ↔ grant.leafSum total < 2 ^ 64 := by
  have small := grant.budget.toNat_lt
  have sum := toNat_leafMax grant total
  rw [UInt64.le_iff_toNat_le, sum]
  -- What is added to the budget is less than a turn, so a sum that wraps falls below it.
  have above : grant.budget.toNat ≤ grant.leafSum total := by
    unfold leafSum
    split <;> omega
  have turn : grant.leafSum total < grant.budget.toNat + 2 ^ 64 := by
    unfold leafSum
    split <;> omega
  omega

theorem counted_ne_zero (valid : grant.validBudgets = true) (counted : 0 < grant.fiberMax) :
    UInt64.ofNat grant.fiberMax.toNat ≠ 0 := by
  simp only [validBudgets, Bool.and_eq_true, decide_eq_true_eq] at valid
  have bounded : grant.fiberMax < 2 ^ 32 := valid.1.1.1.1.2
  intro zero
  have fits := congrArg UInt64.toNat zero
  rw [UInt64.toNat_ofNat_of_lt' (by simp only [UInt64.size]; omega), UInt64.toNat_zero] at fits
  omega

theorem leafMax_le_defaultCeiling (valid : grant.validBudgets = true)
    (counted : 0 < grant.fiberMax) (templateBytes : UInt64) :
    grant.leafMax total ≤ (grant.leaves total).defaultCeiling templateBytes := by
  have same : (grant.leaves total).budget = grant.leafMax total := UInt64.ofNat_toNat
  unfold defaultCeiling
  rw [same]
  split
  · rename_i unset
    exact UInt64.le_of_eq (unset.resolve_left (Int.not_le.mpr counted))
  · calc grant.leafMax total
      _ ≤ mulSat _ (grant.leafMax total) := le_mulSat (counted_ne_zero valid counted) _
      _ ≤ addSat _ templateBytes := le_addSat _ _
      _ ≤ addSat _ _ := le_addSat _ _

theorem deltaQuota_pos (valid : grant.validBudgets = true) : 0 < grant.deltaQuota := by
  unfold deltaQuota
  split
  · decide
  · rename_i set
    simp only [not_or, Int.not_le] at set
    have counted := counted_ne_zero valid set.1
    have fourfold : mulSat 4 (UInt64.ofNat grant.fiberMax.toNat) ≠ 0 := fun zero =>
      counted (UInt64.le_zero_iff.mp (zero ▸ le_mulSat (by decide) _))
    exact UInt64.lt_of_lt_of_le (UInt64.pos_iff_ne_zero.mpr set.2) (le_mulSat fourfold _)

/-- The sums that do not saturate fit in 64 bits: that of a leaf, and that of the ceiling for
leaves that large with one leaf more.  What a park adds up may go past 64 bits, but not so that
it comes out within the quota. -/
structure LimitsFit (grant : Grant) (ceiling : Grant → UInt64 → UInt64)
    (total templateBytes : UInt64) (files : List UInt64) (rest : UInt64 × UInt64 × UInt64) :
    Prop where
  leaf : grant.leafSum total < 2 ^ 64
  stop : 0 < ceiling { grant with wBudgetBytes := grant.leafSum total } templateBytes →
    (ceiling { grant with wBudgetBytes := grant.leafSum total } templateBytes).toNat +
      grant.leafSum total < 2 ^ 64
  quota : ∀ turns, 0 < turns → turns * 2 ^ 64 ≤ parkWeight files rest →
    turns * 2 ^ 64 + grant.deltaQuota.toNat < parkWeight files rest

structure LimitsHold (grant : Grant) (ceiling : Grant → UInt64 → UInt64)
    (total templateBytes : UInt64) (files : List UInt64) (rest : UInt64 × UInt64 × UInt64) :
    Prop where
  leaf : grant.budget ≤ grant.leafMax total
  stop : ∀ high max, grant.setCeiling ceiling total templateBytes = some (high, max) → high ≤ max
  ceiling : 0 < grant.fiberMax →
    grant.budget ≤ (grant.leaves total).defaultCeiling templateBytes
  quota : grant.deltaQuota.toNat < parkWeight files rest →
    parkRefused grant.deltaQuota files rest = true

end Grant

theorem Grant.quota_iff {quota : UInt64} {files : List UInt64} {rest : UInt64 × UInt64 × UInt64}
    (set : 0 < quota) :
    (quota.toNat < parkWeight files rest → parkRefused quota files rest = true) ↔
      ∀ turns, 0 < turns → turns * 2 ^ 64 ≤ parkWeight files rest →
        turns * 2 ^ 64 + quota.toNat < parkWeight files rest := by
  rw [parkRefused_iff set]
  constructor
  · intro refuses turns some_ reached
    have small := quota.toNat_lt
    have beyond := refuses (by omega)
    omega
  · intro clear more
    have now := clear (parkWeight files rest / 2 ^ 64)
    omega

theorem limits_hold {grant : Grant} {ceiling : Grant → UInt64 → UInt64}
    {total templateBytes : UInt64} {files : List UInt64} {rest : UInt64 × UInt64 × UInt64}
    (valid : grant.validBudgets = true) (measured : total.toNat ≤ 2 ^ 63) :
    grant.LimitsHold ceiling total templateBytes files rest ↔
      grant.LimitsFit ceiling total templateBytes files rest := by
  have quota := @Grant.quota_iff _ files rest (Grant.deltaQuota_pos valid)
  have leaf := @Grant.budget_le_leafMax_iff grant total measured
  -- Where the leaf's sum fits, the leaf is the sum, and the ceiling is asked for such leaves.
  have same (fits : grant.leafSum total < 2 ^ 64) :
      (grant.leafMax total).toNat = grant.leafSum total :=
    (grant.toNat_leafMax total).trans (Nat.mod_eq_of_lt fits)
  have leaves (fits : grant.leafSum total < 2 ^ 64) :
      { grant with wBudgetBytes := grant.leafSum total } = grant.leaves total := by
    rw [Grant.leaves, same fits]
  constructor
  · intro hold
    have fits := leaf.mp hold.leaf
    refine ⟨fits, ?_, quota.mp hold.quota⟩
    rw [leaves fits, ← same fits]
    intro set
    have stop := hold.stop _ _ (if_pos set)
    rw [UInt64.le_iff_toNat_le, UInt64.toNat_add] at stop
    have small := (grant.leafMax total).toNat_lt
    have high := (ceiling (grant.leaves total) templateBytes).toNat_lt
    omega
  · intro fit
    have large := leaf.mpr fit.leaf
    have stop := fit.stop
    rw [leaves fit.leaf, ← same fit.leaf] at stop
    refine ⟨large, ?_, fun counted => UInt64.le_trans large
      (Grant.leafMax_le_defaultCeiling valid counted _), quota.mpr fit.quota⟩
    intro high max written
    simp only [Grant.setCeiling, Option.ite_none_right_eq_some, Option.some.injEq,
      Prod.mk.injEq] at written
    obtain ⟨set, rfl, rfl⟩ := written
    rw [UInt64.le_iff_toNat_le, UInt64.toNat_add, Nat.mod_eq_of_lt (stop set)]
    exact Nat.le_add_right _ _

theorem small_limits_hold : Grant.LimitsHold { uid := "g", fiberMax := 4, wBudgetBytes := 2 ^ 28 }
    Grant.defaultCeiling (2 ^ 20) (2 ^ 21) [2 ^ 33] (7, 0, 0) := by
  refine (limits_hold (by decide) (by decide)).mpr ⟨by decide, by decide, ?_⟩
  intro turns some_ reached
  have small : parkWeight [2 ^ 33] (7, 0, 0) < 2 ^ 64 := by decide
  omega

/-- The leaf of a grant without a `fibers.max` gets less than its budget. -/
theorem wide_leaf_wraps : ∃ grant : Grant, grant.validBudgets = true ∧
    ∀ ceiling templateBytes files rest,
      ¬grant.LimitsHold ceiling (2 ^ 20) templateBytes files rest :=
  ⟨{ uid := "g", wBudgetBytes := 2 ^ 64 - 1 }, by decide, fun _ _ _ _ hold =>
    absurd hold.leaf (by decide)⟩

end Fiberd
