import Mathlib.Algebra.Group.Nat.Defs
import Mathlib.Data.Rat.Init
import Mathlib.Order.Basic

/-!
Grants, from `pkg/core/grant.go`, and what a re-delivery may change of one, from
`pkg/core/core.go`.  A time is its distance from the zero time, so `0` is the
zero time of the source.
-/

namespace Fiberd

abbrev Time := Nat

inductive Tier where
  | unspecified
  | basic
  | warm
  | checkpoint
  | snapshot
  deriving DecidableEq, Repr

/-- The value of the tier on the wire, which is what tiers are compared by. -/
def Tier.rank : Tier → Nat
  | .unspecified => 0
  | .basic => 1
  | .warm => 2
  | .checkpoint => 3
  | .snapshot => 4

inductive Durability where
  | unspecified
  | bestEffort
  | sync
  deriving DecidableEq, Repr

inductive Isolation where
  | unspecified
  | untrusted
  | trusted
  deriving DecidableEq, Repr

def Isolation.isUntrusted (isolation : Isolation) : Bool :=
  decide (isolation ≠ .trusted)

inductive EndpointMode where
  | direct
  | handoff
  deriving DecidableEq, Repr

structure Policy where
  durability : Durability := .unspecified
  sessionClass : String := ""
  auditClass : String := ""
  psiSomeAvg10Shed : Rat := 0
  psiSomeAvg10Park : Rat := 0
  isolation : Isolation := .unspecified
  endpointMode : EndpointMode := .direct
  deriving DecidableEq, Repr

structure DeviceBudget where
  bytes : Nat := 0
  deviceClass : String := ""
  deriving DecidableEq, Repr

structure Grant where
  uid : String
  issuer : String := ""
  audience : String := ""
  templateDigest : String := ""
  tenant : String := ""
  fiberMax : Int := 0
  fiberWarm : Int := 0
  wBudgetBytes : Nat := 0
  minTier : Tier := .unspecified
  leaseExpiry : Time := 0
  policy : Policy := {}
  deviceBudget : DeviceBudget := {}
  diskBudgetBytes : Nat := 0
  callerThumbprint : String := ""
  token : String := ""
  deriving DecidableEq, Repr

instance : Inhabited Grant := ⟨{ uid := "" }⟩

def Grant.expired (grant : Grant) (now : Time) : Bool :=
  decide (grant.leaseExpiry ≠ 0) && !decide (now < grant.leaseExpiry)

def renewsLease (held grant : Grant) : Bool :=
  if held.leaseExpiry = 0 then false
  else decide (grant.leaseExpiry = 0) || decide (held.leaseExpiry < grant.leaseExpiry)

def changesFixedFields (held grant : Grant) : Bool :=
  decide ({ grant with
    leaseExpiry := held.leaseExpiry
    callerThumbprint := held.callerThumbprint
    token := held.token } ≠ held)

end Fiberd
