import Fiberd.Lib.Machines
import Fiberd.Revoked

/-!
The deny-list of `pkg/core/revoked.go` with the file it is saved to: `OpenRevoked`,
`Add`, `Denied` and `Clear` at times that never go back, where every save succeeds.
-/

namespace Fiberd

open Tables Machines

def defaultRevokeTTL : Nat := 24 * 60 * 60 * 10 ^ 9

def openRevoked (file : Option (Table String Time)) (ttl : Int) (now : Time) : Revoked where
  ttl := if ttl ≤ 0 then defaultRevokeTTL else ttl.toNat
  until_ := (file.getD ∅).keep fun deadline => deadline = 0 || now < deadline

structure DenyList where
  revoked : Revoked
  file : Option (Table String Time)
  now : Time

inductive RevokedCall where
  | openRevoked (ttl : Int)
  | add (uid : String) (lease : Time)
  | denied (uid : String) (lease : Time)
  | clear (uid : String)
  deriving DecidableEq, Repr

namespace DenyList

variable (list : DenyList)

def save (next : Revoked) : DenyList := { list with revoked := next, file := some next.until_ }

/-- `Denied` and `Clear` save where they changed the entry. -/
def change (uid : String) (next : Revoked) : DenyList :=
  if next.until_.get uid = list.revoked.until_.get uid then list else list.save next

def apply (now : Time) : RevokedCall → DenyList
  | .openRevoked ttl => { list with revoked := Fiberd.openRevoked list.file ttl now }
  | .add uid lease => list.save (list.revoked.add uid lease now)
  | .denied uid lease => list.change uid (list.revoked.denied uid lease now).2
  | .clear uid => list.change uid (list.revoked.clear uid).2

def step (label : Time × RevokedCall) : Option DenyList :=
  if label.1 < list.now then none else some { list.apply label.1 label.2 with now := label.1 }

end DenyList

def denyMachine : Machine DenyList (Time × RevokedCall) where
  start list := ∃ ttl, list.revoked = openRevoked list.file ttl list.now
  step := DenyList.step

def Lapsed (deadline now : Time) : Prop := deadline ≠ 0 ∧ deadline ≤ now

namespace Revoked

variable {revoked : Revoked} {uid other : String} {deadline lease now : Time}

theorem denied_until (got : revoked.until_.get uid = some deadline) :
    Lapsed deadline now ∨ (revoked.denied other lease now).2.Until uid deadline := by
  by_cases same : uid = other
  · subst other
    simp only [denied, got]
    split
    · rename_i lapsed
      exact .inl ⟨lapsed.1, Nat.le_of_not_lt lapsed.2⟩
    · split
      · rename_i longer
        exact .inr ((until_put revoked uid lease).weaken (outlasts_asymm longer))
      · exact .inr (until_of_get got)
  · exact .inr (until_of_get ((denied_other same lease now).trans got))

theorem Until.presented (known : revoked.Until uid deadline) (live : ¬Lapsed deadline now)
    (lease : Time) : (revoked.denied uid lease now).1 = true ∧
      (revoked.denied uid lease now).2.Until uid lease := by
  obtain ⟨later, got, longer⟩ := known
  have stands : ¬(later ≠ 0 ∧ ¬now < later) := by
    simp only [outlasts, Lapsed] at *
    grind
  simp only [denied, got, if_neg stands]
  split
  · exact ⟨rfl, until_put revoked uid lease⟩
  · rename_i shorter
    exact ⟨rfl, later, got, by simpa using shorter⟩

end Revoked

namespace DenyList

variable {list next : DenyList} {uid : String} {deadline now : Time} {call : RevokedCall}

def Filed (list : DenyList) : Prop := ∀ uid deadline,
  list.revoked.until_.get uid = some deadline → (list.file.getD ∅).get uid = some deadline

theorem Filed.change (filed : list.Filed) (uid : String) (next : Revoked) :
    (list.change uid next).Filed := by
  unfold DenyList.change
  split
  · exact filed
  · exact fun _ _ => id

theorem Filed.step (filed : list.Filed) {label : Time × RevokedCall}
    (took : denyMachine.step list label = some next) : next.Filed := by
  obtain ⟨_, rfl⟩ := by simpa [denyMachine, DenyList.step] using took
  obtain ⟨now, call⟩ := label
  cases call with
  | openRevoked ttl => exact fun _ _ got => ((get_keep _ _ _ _).mp got).1
  | add uid lease => exact fun _ _ => id
  | denied uid lease | clear uid => exact filed.change uid _

theorem change_until {next : Revoked} {other : String}
    (got : list.revoked.until_.get other = some deadline) (stays : next.Until other deadline) :
    (list.change uid next).revoked.Until other deadline := by
  unfold change
  split
  · exact Revoked.until_of_get got
  · exact stays

/-- No call but its own `Clear` moves an entry to an earlier time. -/
theorem Filed.entry (filed : list.Filed)
    (took : denyMachine.step list (now, call) = some next) (spared : call ≠ .clear uid)
    (got : list.revoked.until_.get uid = some deadline) :
    Lapsed deadline next.now ∨ next.revoked.Until uid deadline := by
  obtain ⟨_, rfl⟩ := by simpa [denyMachine, DenyList.step] using took
  cases call with
  | openRevoked ttl =>
    by_cases lapsed : Lapsed deadline now
    · exact .inl lapsed
    · refine .inr (Revoked.until_of_get ((get_keep _ _ _ _).mpr ⟨filed uid deadline got, ?_⟩))
      simp only [Lapsed] at lapsed
      grind
  | add other lease => exact .inr (Revoked.deny_until got)
  | denied other lease =>
    exact (Revoked.denied_until got).imp_right fun stays => change_until got stays
  | clear other =>
    have apart : uid ≠ other := fun same => spared (same ▸ rfl)
    exact .inr (change_until got
      (Revoked.until_of_get ((Revoked.clear_other apart).trans got)))

def Denies (uid : String) (token : Time) (list : DenyList) : Prop :=
  list.Filed ∧ (Lapsed token list.now ∨ list.revoked.Until uid token)

theorem Denies.step {token : Time} {label : Time × RevokedCall} (denies : list.Denies uid token)
    (spared : label.2 ≠ .clear uid) (took : denyMachine.step list label = some next) :
    next.Denies uid token := by
  obtain ⟨filed, lapsed | ⟨deadline, got, longer⟩⟩ := denies
  · refine ⟨filed.step took, .inl ?_⟩
    obtain ⟨later, rfl⟩ := by simpa [denyMachine, DenyList.step] using took
    exact ⟨lapsed.1, Nat.le_trans lapsed.2 later⟩
  · refine ⟨filed.step took, ?_⟩
    obtain past | stays := filed.entry took spared got
    · refine .inl ?_
      simp only [Lapsed, outlasts] at *
      grind
    · exact .inr (stays.weaken longer)

theorem start_filed (started : denyMachine.start list) : list.Filed := by
  obtain ⟨ttl, opened⟩ := started
  intro uid deadline got
  rw [opened] at got
  exact ((get_keep _ _ _ _).mp got).1

variable {calls : List (Time × RevokedCall)} {token : Time}

theorem Denies.exec (denies : list.Denies uid token)
    (spared : denyMachine.Meets (fun _ label => label.2 ≠ .clear uid) list calls)
    (ran : denyMachine.exec list calls = some next) : next.Denies uid token := by
  refine exec_keeps_of_meets ?_ denies spared ran
  exact fun _ _ _ kept apart taken => Denies.step kept apart taken

/-- A query of the run carries the token while the entry has not lapsed. -/
def Presented (list : DenyList) (calls : List (Time × RevokedCall)) (uid : String)
    (token : Time) : Prop :=
  ∃ front now back middle deadline, calls = front ++ (now, .denied uid token) :: back ∧
    denyMachine.exec list front = some middle ∧
    middle.revoked.until_.get uid = some deadline ∧ ¬Lapsed deadline now

theorem Presented.denies (presented : list.Presented calls uid token) (filed : list.Filed)
    (spared : denyMachine.Meets (fun _ label => label.2 ≠ .clear uid) list calls)
    (ran : denyMachine.exec list calls = some next) : next.Denies uid token := by
  obtain ⟨front, now, back, mid, deadline, rfl, first, got, live⟩ := presented
  obtain ⟨_, again, rest⟩ := exec_append_eq_some.mp ran
  cases first.symm.trans again
  obtain ⟨after, took, rest⟩ := exec_cons_eq_some.mp rest
  have filed := exec_keeps (fun _ _ _ kept took => Filed.step kept took) filed first
  refine Denies.exec ⟨filed.step took, .inr ?_⟩ ((spared.back first).2 after took) rest
  obtain ⟨_, rfl⟩ := by simpa [denyMachine, DenyList.step] using took
  have asked := ((Revoked.until_of_get got).presented live token).2
  simp only [DenyList.apply, DenyList.change]
  split
  · rename_i same
    obtain ⟨later, kept, longer⟩ := asked
    exact ⟨later, same ▸ kept, longer⟩
  · exact asked

end DenyList

theorem removed_stays_denied {first second third list : DenyList} {uid : String}
    {lease now token : Time} {early later : List (Time × RevokedCall)}
    (started : denyMachine.start first) (opened : denyMachine.exec first early = some second)
    (removed : denyMachine.step second (now, .add uid lease) = some third)
    (ran : denyMachine.exec third later = some list)
    (spared : denyMachine.Meets (fun _ label => label.2 ≠ .clear uid) third later)
    (known : (token ≠ 0 ∧ token ≤ now + second.revoked.ttl) ∨ outlasts token lease = false ∨
      third.Presented later uid token) :
    (∀ now, list.now ≤ now → token = 0 ∨ now < token →
      (list.revoked.denied uid token now).1 = true) ∧
    ∀ label next name deadline, denyMachine.step list label = some next →
      label.2 ≠ .clear name → list.revoked.until_.get name = some deadline →
      Lapsed deadline next.now ∨ next.revoked.Until name deadline := by
  have filed := (exec_keeps (fun _ _ _ kept took => DenyList.Filed.step kept took)
    (DenyList.start_filed started) opened)
  have denies : list.Denies uid token := by
    have reached : outlasts token (second.revoked.deadline lease now) = false →
        list.Denies uid token := by
      intro long
      refine DenyList.Denies.exec ⟨filed.step removed, .inr ?_⟩ spared ran
      obtain ⟨_, rfl⟩ := by simpa [denyMachine, DenyList.step] using removed
      exact Revoked.until_deny.weaken long
    obtain soon | covered | presented := known
    · exact reached (by simp only [Revoked.deadline, outlasts]; grind)
    · exact reached (by simp only [Revoked.deadline, outlasts] at *; grind)
    · exact presented.denies (filed.step removed) spared ran
  refine ⟨fun now onward live => ?_, fun label next name deadline took apart got =>
    denies.1.entry took apart got⟩
  obtain past | kept := denies.2
  · exact absurd live (by simp only [Lapsed] at past; grind)
  · exact (kept.presented (by simp only [Lapsed]; grind) token).1

def removedList : DenyList :=
  { DenyList.apply ⟨openRevoked none 0 0, none, 0⟩ 1 (.add "g" 5) with now := 1 }

/-- A token without a lease, presented before the removal lapses, is denied for good. -/
theorem leaseless_stays_denied : ∃ list,
    denyMachine.exec removedList [(2, .denied "g" 0), (2, .openRevoked 0)] = some list ∧
      ∀ now, 2 ≤ now → (list.revoked.denied "g" 0 now).1 = true := by
  have ran : denyMachine.exec removedList [(2, .denied "g" 0), (2, .openRevoked 0)] = some _ := rfl
  refine ⟨_, ran, fun now later => ?_⟩
  refine (removed_stays_denied (⟨0, rfl⟩ : denyMachine.start ⟨openRevoked none 0 0, none, 0⟩)
    (exec_nil _) rfl ran (by decide) (.inr (.inr ?_))).1 now later (.inl rfl)
  exact ⟨[], 2, _, _, 1 + defaultRevokeTTL, rfl, rfl, rfl, by unfold Lapsed; decide⟩

end Fiberd
