import Fiberd.Home.ReadyGate
import Fiberd.Ledger.LedgerCore

/-!
`Drive` of `pkg/home/home.go` with the home's readiness gate and the ways the core ends a
grant beside it: the lease reaper's `Sweep`, a `Yield` under pressure, and the `Clone` that
admits a grant again.  Each changes the ledger's grants in one section.
-/

namespace Fiberd

open Machines Tables

/-- Where `Drive` stands between its calls. -/
inductive DriveStage where
  | waiting
  | admitted (uid : String)
  | removed (uid : String)
  deriving DecidableEq, Repr

structure DrivenHome where
  ledger : Ledger
  gate : ReadyGate := {}
  drive : DriveStage := .waiting

inductive DriveLabel where
  /-- A delivered grant: what its token verifies as, and whether `Admit` takes it. -/
  | added (verified : Option Grant) (admits : Bool)
  | removed (uid : String)
  | publish
  | sweep (now : Time) (uid : String)
  | yield (uid : String)
  | selfAdmit (grant : Grant)
  /-- A step of the gate's own: only `Drive` calls `PublishReady`. -/
  | gate (label : GateLabel)
  deriving Repr

namespace DrivenHome

variable (home : DrivenHome)

def onGate (label : GateLabel) : Option DrivenHome :=
  (home.gate.step label).map fun gate => { home with gate := gate }

def step : DriveLabel → Option DrivenHome
  | .added verified admits =>
    match home.drive, verified with
    | .waiting, some grant =>
      if admits then some { home with
        ledger := home.ledger.admitGrant grant
        drive := .admitted grant.uid }
      else some home
    | .waiting, none => some home
    | _, _ => none
  | .removed uid =>
    match home.drive with
    | .waiting => some { home with ledger := home.ledger.revokeGrant uid, drive := .removed uid }
    | _ => none
  | .publish =>
    match home.drive with
    | .waiting => none
    | .admitted uid => { home with drive := .waiting }.onGate (.publishReady uid true)
    | .removed uid => { home with drive := .waiting }.onGate (.publishReady uid false)
  | .sweep now uid =>
    match home.ledger.grant? uid with
    | some grant =>
      if grant.expired now then some { home with ledger := home.ledger.revokeGrant uid }
      else some home
    | none => some home
  | .yield uid => some { home with ledger := home.ledger.revokeGrant uid }
  | .selfAdmit grant => some { home with ledger := home.ledger.admitGrant grant }
  | .gate (.publishReady ..) => none
  | .gate label => home.onGate label

def idle : Bool :=
  decide (home.drive = .waiting ∧ home.gate.flushing = [] ∧ home.gate.inFlight = none)

/-- `Ready` is true only over an admitted grant. -/
def Follows : Prop :=
  home.idle = true → home.gate.ready = true → ∃ uid, home.ledger.grants.get uid ≠ none

/-- The gate shows the grant as warm, or `Drive` is about to. -/
def shows (uid : String) : Bool :=
  decide (uid ∈ home.gate.warm ∧ home.drive ≠ .removed uid ∨ home.drive = .admitted uid)

/-- No sweep or yield ends a grant the gate shows. -/
def Spares : DriveLabel → Prop
  | .sweep now uid => home.shows uid = true → ∀ grant ∈ home.ledger.grant? uid, ¬grant.expired now
  | .yield uid => home.shows uid = false
  | _ => True

instance (label : DriveLabel) : Decidable (home.Spares label) :=
  match label with
  | .sweep .. => inferInstanceAs (Decidable (_ → ∀ grant ∈ _, _))
  | .yield .. => inferInstanceAs (Decidable (_ = _))
  | .added .. | .removed _ | .publish | .selfAdmit _ | .gate _ => isTrue trivial

end DrivenHome

def driveMachine : Machine DrivenHome DriveLabel where
  start home := ∃ epoch, home = { ledger := newLedger epoch }
  step := DrivenHome.step

theorem ReadyGate.step_warm {gate next : ReadyGate} {label : GateLabel}
    (own : ∀ uid ready, label ≠ .publishReady uid ready) (taken : gate.step label = some next) :
    next.warm = gate.warm := by
  cases label with
  | publishReady uid ready => exact absurd rfl (own uid ready)
  | republish | flush index | take => grind [step, leave]
  | answer err => cases err <;> grind [step, leave, Option.map_eq_some_iff]

theorem Ledger.get_admitGrant (ledger : Ledger) (grant : Grant) (uid : String) :
    (ledger.admitGrant grant).grants.get uid ≠ none ↔
      uid = grant.uid ∨ ledger.grants.get uid ≠ none := by
  unfold admitGrant
  split <;> grind [get_put]

theorem Ledger.get_revokeGrant (ledger : Ledger) (gone uid : String) :
    (ledger.revokeGrant gone).grants.get uid ≠ none ↔
      uid ≠ gone ∧ ledger.grants.get uid ≠ none := by
  unfold revokeGrant
  split <;> grind [get_drop]

namespace DrivenHome

variable {home next : DrivenHome}

def Kept (home : DrivenHome) : Prop :=
  ∀ uid, home.shows uid = true → home.ledger.grants.get uid ≠ none

theorem Kept.step {label : DriveLabel} (kept : home.Kept) (spares : home.Spares label)
    (taken : driveMachine.step home label = some next) : next.Kept := by
  simp only [Kept, shows, decide_eq_true_eq] at kept ⊢
  cases label with
  | added verified admits =>
    simp only [driveMachine, DrivenHome.step] at taken
    grind [Ledger.get_admitGrant]
  | removed uid =>
    simp only [driveMachine, DrivenHome.step] at taken
    grind [Ledger.get_revokeGrant]
  | publish =>
    simp only [driveMachine, DrivenHome.step, onGate, ReadyGate.step, Option.map_some] at taken
    grind
  | sweep now uid =>
    simp only [driveMachine, DrivenHome.step] at taken
    simp only [Spares, shows, decide_eq_true_eq] at spares
    grind [Ledger.get_revokeGrant]
  | yield uid =>
    cases taken
    simp only [Spares, shows, decide_eq_false_iff_not] at spares
    grind [Ledger.get_revokeGrant]
  | selfAdmit grant =>
    cases taken
    grind [Ledger.get_admitGrant]
  | gate label =>
    have own : ∀ uid ready, label ≠ .publishReady uid ready := by
      rintro uid ready rfl
      cases taken
    have moved : home.onGate label = some next := by
      cases label <;> first | exact taken | cases taken
    obtain ⟨gate, stepped, rfl⟩ := Option.map_eq_some_iff.mp moved
    simpa only [ReadyGate.step_warm own stepped] using kept

end DrivenHome

theorem ready_follows_grants {home : DrivenHome} {epoch : Nat} {labels : List DriveLabel}
    (spares : driveMachine.Meets DrivenHome.Spares { ledger := newLedger epoch } labels)
    (run : driveMachine.exec { ledger := newLedger epoch } labels = some home) :
    home.Follows := by
  have kept : home.Kept := exec_keeps_of_meets
    (fun _ _ _ kept spares taken => kept.step spares taken) (by simp [DrivenHome.Kept, DrivenHome.shows]) spares run
  intro idle ready
  simp only [DrivenHome.idle, ReadyGate.ready, decide_eq_true_eq, gt_iff_lt, Finset.card_pos]
    at idle ready
  obtain ⟨uid, warm⟩ := ready
  exact ⟨uid, kept uid (by simp [DrivenHome.shows, warm, idle.1])⟩

/-- A grant whose lease ends at 5. -/
def leasedGrant : Grant := { uid := "g", leaseExpiry := 5 }

/-- The grant is delivered and published, and its sweep comes before the lease has ended. -/
def drivenRun : List DriveLabel :=
  [.added (some leasedGrant) true, .publish, .gate (.flush 0), .gate .take, .gate (.answer none),
    .gate (.flush 0), .sweep 4 "g"]

theorem driven_ready_follows : ∃ home,
    driveMachine.exec { ledger := newLedger 1 } drivenRun = some home ∧ home.idle = true ∧
    home.gate.ready = true ∧ home.Follows := by
  obtain ⟨home, run, idle, ready⟩ : ∃ home,
      driveMachine.exec { ledger := newLedger 1 } drivenRun = some home ∧ home.idle = true ∧
      home.gate.ready = true := by decide +kernel
  exact ⟨home, run, idle, ready, ready_follows_grants (by decide +kernel) run⟩

/-- The lease lapses: nothing tells the gate. -/
theorem sweep_leaves_ready : ∃ home,
    driveMachine.exec { ledger := newLedger 1 } (drivenRun ++ [.sweep 5 "g"]) = some home ∧
    ¬home.Follows := by
  obtain ⟨home, run, idle, ready, empty⟩ : ∃ home,
      driveMachine.exec { ledger := newLedger 1 } (drivenRun ++ [.sweep 5 "g"]) = some home ∧
      home.idle = true ∧ home.gate.ready = true ∧ home.ledger.grants.rows = [] := by decide +kernel
  refine ⟨home, run, fun follows => ?_⟩
  obtain ⟨uid, got⟩ := follows idle ready
  obtain ⟨pointer, held⟩ := Option.ne_none_iff_exists'.mp got
  simpa [empty] using (mem_rows_iff _ _ _).mpr held

end Fiberd
