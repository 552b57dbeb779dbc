import Fiberd.Grant
import Fiberd.Lib.Tables

/-!
The deny-list of `pkg/core/revoked.go`, as it is in memory.  The file it is saved
to is left out: a save that fails is logged and changes nothing here.
-/

namespace Fiberd

open Tables

structure Revoked where
  ttl : Nat
  until_ : Table String Time

/-- Whether a denial until `first` runs past one until `second`.  The zero time means never. -/
def outlasts (first second : Time) : Bool :=
  decide (second ≠ 0) && (decide (first = 0) || decide (second < first))

namespace Revoked

/-- The later of the lease and the ttl from now, or for good when there is no lease. -/
def deadline (revoked : Revoked) (lease now : Time) : Time :=
  if lease ≠ 0 ∧ lease < now + revoked.ttl then now + revoked.ttl else lease

def deny (revoked : Revoked) (uid : String) (deadline : Time) : Revoked :=
  match revoked.until_.get uid with
  | some old =>
    if outlasts deadline old then { revoked with until_ := revoked.until_.put uid deadline }
    else revoked
  | none => { revoked with until_ := revoked.until_.put uid deadline }

def add (revoked : Revoked) (uid : String) (lease now : Time) : Revoked :=
  revoked.deny uid (revoked.deadline lease now)

def denied (revoked : Revoked) (uid : String) (lease now : Time) : Bool × Revoked :=
  match revoked.until_.get uid with
  | none => (false, revoked)
  | some deadline =>
    if deadline ≠ 0 ∧ ¬now < deadline then
      (false, { revoked with until_ := revoked.until_.drop uid })
    else if outlasts lease deadline then
      (true, { revoked with until_ := revoked.until_.put uid lease })
    else (true, revoked)

def clear (revoked : Revoked) (uid : String) : Bool × Revoked :=
  match revoked.until_.get uid with
  | none => (false, revoked)
  | some _ => (true, { revoked with until_ := revoked.until_.drop uid })

variable {revoked : Revoked} {uid other : String} {deadline : Time}

section

variable (apart : uid ≠ other)
include apart

theorem deny_other (deadline : Time) :
    (revoked.deny other deadline).until_.get uid = revoked.until_.get uid := by
  unfold deny
  split
  · split
    · exact get_put_other _ _ apart
    · rfl
  · exact get_put_other _ _ apart

theorem denied_other (lease now : Time) :
    (revoked.denied other lease now).2.until_.get uid = revoked.until_.get uid := by
  unfold denied
  split
  · rfl
  · split
    · exact get_drop_other _ apart
    · split
      · exact get_put_other _ _ apart
      · rfl

theorem clear_other : (revoked.clear other).2.until_.get uid = revoked.until_.get uid := by
  unfold clear
  split
  · rfl
  · exact get_drop_other _ apart

end

def Until (revoked : Revoked) (uid : String) (deadline : Time) : Prop :=
  ∃ later, revoked.until_.get uid = some later ∧ outlasts deadline later = false

theorem until_of_get (got : revoked.until_.get uid = some deadline) : revoked.Until uid deadline :=
  ⟨deadline, got, by simp [outlasts]⟩

theorem until_put (revoked : Revoked) (uid : String) (deadline : Time) :
    Until { revoked with until_ := revoked.until_.put uid deadline } uid deadline :=
  until_of_get (get_put_same _ _ _)

theorem Until.weaken {sooner : Time} (known : revoked.Until uid deadline)
    (shorter : outlasts sooner deadline = false) : revoked.Until uid sooner := by
  obtain ⟨later, got, longer⟩ := known
  refine ⟨later, got, ?_⟩
  simp only [outlasts] at *
  grind

theorem outlasts_asymm {first second : Time} (longer : outlasts first second = true) :
    outlasts second first = false := by
  simp only [outlasts] at *
  grind

theorem until_deny : (revoked.deny uid deadline).Until uid deadline := by
  unfold deny
  split
  · rename_i old got
    split
    · exact until_put revoked uid deadline
    · rename_i shorter
      exact ⟨old, got, by simpa using shorter⟩
  · exact until_put revoked uid deadline

theorem deny_until {lease : Time} (got : revoked.until_.get uid = some lease) :
    (revoked.deny other deadline).Until uid lease := by
  by_cases same : uid = other
  · subst other
    simp only [deny, got]
    split
    · rename_i longer
      exact (until_put revoked uid deadline).weaken (outlasts_asymm longer)
    · exact until_of_get got
  · exact until_of_get ((deny_other same deadline).trans got)

theorem Until.listed (known : revoked.Until uid deadline) : revoked.until_.get uid ≠ none := by
  obtain ⟨_, got, _⟩ := known
  simp [got]

end Revoked

end Fiberd
