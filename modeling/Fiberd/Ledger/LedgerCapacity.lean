import Fiberd.Ledger.LedgerSound

/-!
Capacity accounting.  The `live` counter of an admitted entry is the number of
fibers recorded under its UID plus the reservations open against it, as long as
no entry is made for a UID that fibers are still recorded under.
-/

namespace Fiberd

open Heaps Tables Machines

namespace LedgerSystem

def fibersUnder (system : LedgerSystem) (uid : String) : Nat :=
  system.ledger.fibers.count fun _ ref => decide (ref.grantUID = uid)

def reservations (system : LedgerSystem) (pointer : Nat) : Nat :=
  system.resolved.count fun _ resolution =>
    decide (resolution.entry = pointer) && resolution.reserved && !resolution.committed

structure Capacity (system : LedgerSystem) : Prop where
  accounted : ∀ uid pointer, system.ledger.grants.get uid = some pointer →
    (system.ledger.entries.read pointer).live =
      system.fibersUnder uid + system.reservations pointer
  nonnegative : ∀ uid pointer, system.ledger.grants.get uid = some pointer →
    0 ≤ (system.ledger.entries.read pointer).live
  bounded : ∀ uid pointer, system.ledger.grants.get uid = some pointer →
    0 < (system.ledger.entries.read pointer).grant.fiberMax →
      (system.fibersUnder uid : Int) + system.reservations pointer ≤
        (system.ledger.entries.read pointer).grant.fiberMax

def keepsFiberMax (system : LedgerSystem) : LedgerOp → Bool
  | .admitGrant grant =>
    match system.ledger.grant? grant.uid with
    | some held => decide (grant.fiberMax = held.fiberMax)
    | none => true
  | _ => true

def capacityMachine : Machine LedgerSystem LedgerOp where
  start system := ∃ epoch, system = newSystem epoch
  step system op := if keepsFiberMax system op then system.apply op else none

/-- An admission that makes a new entry finds no fiber recorded under its UID. -/
def AdmitsClean (system : LedgerSystem) : LedgerOp → Prop
  | .admitGrant grant => system.ledger.grants.get grant.uid = none →
      ∀ id ref, system.ledger.fibers.get id = some ref → ref.grantUID ≠ grant.uid
  | _ => True

structure Balanced (system : LedgerSystem) : Prop where
  accounted : ∀ uid pointer, system.ledger.grants.get uid = some pointer →
    (system.ledger.entries.read pointer).live =
      system.fibersUnder uid + system.reservations pointer
  limited : ∀ uid pointer, system.ledger.grants.get uid = some pointer →
    0 < (system.ledger.entries.read pointer).grant.fiberMax →
      (system.ledger.entries.read pointer).live ≤
        (system.ledger.entries.read pointer).grant.fiberMax

theorem Balanced.capacity {system : LedgerSystem} (balanced : Balanced system) :
    Capacity system := by
  refine ⟨balanced.accounted, ?_, ?_⟩
  · intro uid pointer got
    rw [balanced.accounted uid pointer got]
    omega
  · intro uid pointer got limit
    rw [← balanced.accounted uid pointer got]
    exact balanced.limited uid pointer got limit

theorem balanced_new (epoch : Nat) : Balanced (newSystem epoch) := by
  constructor <;> intros <;> simp_all [newSystem, newLedger]

variable {system : LedgerSystem}

variable {pointer clone : Nat}

theorem reservations_eq_zero (sound : Sound system)
    (unused : system.ledger.entries.size ≤ pointer) : system.reservations pointer = 0 := by
  apply (count_eq_zero_iff _ _).mpr
  intro clone resolution got
  have bound := (sound.held clone resolution got).1
  have apart : resolution.entry ≠ pointer := by omega
  simp [apart]

theorem admitGrant_fresh {ledger : Ledger} {grant : Grant}
    (unadmitted : ledger.grants.get grant.uid = none) :
    ledger.admitGrant grant = { ledger with
      grants := ledger.grants.put grant.uid ledger.entries.size
      entries := ledger.entries.alloc
        { grant := grant, nextSeq := (ledger.seqHigh.get grant.uid).getD 0 } } := by
  simp [Ledger.admitGrant, unadmitted]

theorem Balanced.admitGrant (balanced : Balanced system) (sound : Sound system) (grant : Grant)
    (keeps : keepsFiberMax system (.admitGrant grant) = true)
    (clean : AdmitsClean system (.admitGrant grant)) :
    Balanced (system.withLedger (system.ledger.admitGrant grant)) := by
  cases admitted : system.ledger.grants.get grant.uid with
  | some current =>
    have same : system.ledger.admitGrant grant = { system.ledger with
        entries := system.ledger.entries.write current
          { system.ledger.entries.read current with grant := grant } } := by
      simp [Ledger.admitGrant, admitted]
    have fiberMax : grant.fiberMax =
        (system.ledger.entries.read current).grant.fiberMax := by
      simpa [keepsFiberMax, Ledger.grant?, admitted] using keeps
    rw [same]
    constructor
    · intro uid pointer got
      have old := balanced.accounted uid pointer got
      simp only [withLedger, read_write]
      split
      · rename_i written
        simpa [fibersUnder, reservations, written] using old
      · exact old
    · intro uid pointer got
      have old := balanced.limited uid pointer got
      simp only [withLedger, read_write]
      split
      · rename_i written
        simpa [fiberMax, written] using old
      · exact old
  | none =>
    have noFibers : system.fibersUnder grant.uid = 0 := by
      apply (count_eq_zero_iff _ _).mpr
      intro id ref got
      simpa using clean admitted id ref got
    have noReservations := reservations_eq_zero sound (Nat.le_refl _)
    rw [admitGrant_fresh admitted]
    constructor
    · intro uid pointer got
      obtain ⟨same, got⟩ | ⟨_, got⟩ := get_put_eq_some got
      · subst uid
        subst pointer
        have zero : (0 : Int) = system.fibersUnder grant.uid +
            system.reservations system.ledger.entries.size := by
          rw [noFibers, noReservations]
          rfl
        simp only [withLedger, read_alloc_same]
        exact zero
      · have old := balanced.accounted uid pointer got
        simp only [withLedger]
        rw [read_alloc_old _ _ (sound.admitted uid pointer got).1]
        exact old
    · intro uid pointer got
      obtain ⟨same, rfl⟩ | ⟨_, got⟩ := get_put_eq_some got
      · simp only [withLedger, read_alloc_same]
        omega
      · have old := balanced.limited uid pointer got
        simp only [withLedger]
        rw [read_alloc_old _ _ (sound.admitted uid pointer got).1]
        exact old

theorem Balanced.revokeGrant (balanced : Balanced system) (revoked : String) :
    Balanced (system.withLedger (system.ledger.revokeGrant revoked)) := by
  obtain ⟨_, grants, entries, _, fibers⟩ := revokeGrant_fields system.ledger revoked
  have older : ∀ uid pointer, (system.ledger.revokeGrant revoked).grants.get uid = some pointer →
      system.ledger.grants.get uid = some pointer := by
    intro uid pointer got
    simp only [grants] at got
    obtain ⟨_, got⟩ := get_drop_eq_some got
    exact got
  constructor
  · intro uid pointer got
    simpa [withLedger, fibersUnder, reservations, entries, fibers] using
      balanced.accounted uid pointer (older uid pointer got)
  · intro uid pointer got
    simpa [withLedger, entries] using balanced.limited uid pointer (older uid pointer got)

theorem Balanced.same (balanced : Balanced system) {ledger : Ledger}
    (grants : ledger.grants = system.ledger.grants)
    (live : ∀ pointer, (ledger.entries.read pointer).live =
      (system.ledger.entries.read pointer).live)
    (grant : ∀ pointer, (ledger.entries.read pointer).grant =
      (system.ledger.entries.read pointer).grant)
    (counts : ∀ uid, (system.withLedger ledger).fibersUnder uid = system.fibersUnder uid) :
    Balanced (system.withLedger ledger) := by
  constructor
  · intro uid pointer got
    simp only [withLedger, grants] at got
    rw [counts]
    simp only [withLedger, live]
    exact balanced.accounted uid pointer got
  · intro uid pointer got
    simp only [withLedger, grants] at got
    simpa [withLedger, live, grant] using balanced.limited uid pointer got

variable {resolution : Resolution}

section

variable (balanced : Balanced system) (free : system.resolved.get clone = none)
include balanced free

theorem Balanced.mint {grantUID session : String} {ledger : Ledger}
    (minted : system.ledger.MintedBy grantUID session pointer resolution ledger) :
    Balanced (system.opened clone resolution ledger) := by
  have grants : ledger.grants = system.ledger.grants := by rw [minted.nextEq]
  have fibers : ledger.fibers = system.ledger.fibers := by rw [minted.nextEq]
  have counted : ∀ query, (system.opened clone resolution ledger).reservations query =
      system.reservations query + if pointer = query then 1 else 0 := by
    intro query
    simp only [reservations, opened]
    rw [count_put_fresh _ _ _ free]
    simp [minted.sameEntry, minted.isReserved, minted.notCommitted]
  have entry : ∀ query, ledger.entries.read query =
      if query = pointer then Ledger.reservedEntry (system.ledger.entries.read pointer)
      else system.ledger.entries.read query := by
    intro query
    rw [minted.nextEq]
    simp only [read_write]
  constructor
  · intro uid query got
    simp only [opened, grants] at got
    have old := balanced.accounted uid query got
    have noted : (system.opened clone resolution ledger).fibersUnder uid =
        system.fibersUnder uid := by
      simp only [fibersUnder, opened, fibers]
    rw [counted, noted]
    simp only [opened, entry]
    by_cases same : query = pointer
    · subst query
      simp only [if_true, Ledger.reservedEntry]
      push_cast
      omega
    · simp only [same, Ne.symm same, if_false]
      push_cast
      omega
  · intro uid query got limit
    simp only [opened, grants] at got
    simp only [opened, entry] at limit ⊢
    by_cases same : query = pointer
    · subst query
      simp only [if_true, Ledger.reservedEntry] at limit ⊢
      have room := minted.room
      omega
    · simp only [same, if_false] at limit ⊢
      exact balanced.limited uid query got limit

theorem Balanced.attach (unreserved : resolution.reserved = false) :
    Balanced (system.opened clone resolution system.ledger) := by
  have counted : ∀ query, (system.opened clone resolution system.ledger).reservations query =
      system.reservations query := by
    intro query
    simp only [reservations, opened]
    rw [count_put_fresh _ _ _ free]
    simp [unreserved]
  constructor
  · intro uid query got
    rw [counted]
    exact balanced.accounted uid query got
  · exact balanced.limited

end

theorem Balanced.commit (balanced : Balanced system) (sound : Sound system)
    (endpoint : String) (pooled : Bool)
    (got : system.resolved.get clone = some resolution) (act : resolution.act ≠ .attach)
    (uncommitted : resolution.committed = false)
    (current : system.ledger.grants.get resolution.grantUID = some resolution.entry) :
    Balanced (system.committed clone resolution endpoint pooled) := by
  have reserved := (sound.minted clone resolution got act).2.2
  have unrecorded := sound.unrecorded clone resolution got act uncommitted
  constructor
  · intro uid pointer admitted
    have old := balanced.accounted uid pointer admitted
    have fibers : (system.committed clone resolution endpoint pooled).fibersUnder uid =
        system.fibersUnder uid + if resolution.grantUID = uid then 1 else 0 := by
      simp only [fibersUnder, committed]
      rw [count_put_fresh _ _ _ unrecorded]
      simp
    have open_ : (system.committed clone resolution endpoint pooled).reservations pointer +
        (if resolution.entry = pointer then 1 else 0) = system.reservations pointer := by
      simp only [reservations, committed]
      have moved := count_put_add (fun _ resolution => decide (resolution.entry = pointer) &&
        resolution.reserved && !resolution.committed) system.resolved
        { resolution with committed := true } got
      simpa [reserved, uncommitted] using moved
    have together : resolution.grantUID = uid ↔ resolution.entry = pointer := by
      constructor
      · rintro rfl
        exact Option.some.inj (current.symm.trans admitted)
      · rintro rfl
        exact sound.entry_inj current admitted
    simp only [committed] at admitted ⊢
    change (system.ledger.entries.read pointer).live =
      ((system.committed clone resolution endpoint pooled).fibersUnder uid : Int) +
        (system.committed clone resolution endpoint pooled).reservations pointer
    by_cases mine : resolution.grantUID = uid
    · simp only [mine, together.mp mine, if_true] at fibers open_
      omega
    · have other : resolution.entry ≠ pointer := fun same => mine (together.mpr same)
      simp only [mine, other, if_false] at fibers open_
      omega
  · exact balanced.limited

theorem live_unlock (ledger : Ledger) (resolution : Resolution) (pointer : Nat) :
    ((ledger.unlock resolution).entries.read pointer).live =
      (ledger.entries.read pointer).live -
        if decide (resolution.entry = pointer) && resolution.reserved && !resolution.committed
        then 1 else 0 := by
  unfold Ledger.unlock
  cases returned : resolution.reserved && !resolution.committed with
  | false => simp [Bool.and_assoc, returned]
  | true =>
    simp only [if_true, read_write, Bool.and_assoc, returned, Bool.and_true,
      decide_eq_true_eq]
    by_cases same : pointer = resolution.entry
    · simp [same]
    · simp [same, Ne.symm same]

theorem Balanced.unlock (balanced : Balanced system)
    (got : system.resolved.get clone = some resolution) :
    Balanced (system.unlock clone resolution) := by
  have quiet := Ledger.quiet_unlock system.ledger resolution
  have fibers : ∀ uid, (system.unlock clone resolution).fibersUnder uid =
      system.fibersUnder uid := by
    intro uid
    simp only [fibersUnder, LedgerSystem.unlock, Ledger.unlock]
    split <;> rfl
  constructor
  · intro uid pointer admitted
    simp only [LedgerSystem.unlock, quiet.grants] at admitted
    have old := balanced.accounted uid pointer admitted
    have dropped : (system.unlock clone resolution).reservations pointer + _ =
        system.reservations pointer := count_drop_add _ system.resolved got
    have live := live_unlock system.ledger resolution pointer
    rw [fibers]
    change ((system.ledger.unlock resolution).entries.read pointer).live = _
    rw [live]
    split <;> simp_all
    omega
  · intro uid pointer admitted limit
    simp only [LedgerSystem.unlock, quiet.grants] at admitted
    simp only [LedgerSystem.unlock, quiet.grant] at limit ⊢
    have old := balanced.limited uid pointer admitted limit
    rw [live_unlock]
    split <;> omega

variable {fiberID : String} {ref : FiberRef}

section

variable (balanced : Balanced system)
include balanced

theorem Balanced.remove (sound : Sound system) (known : system.ledger.fibers.get fiberID = some ref)
    (sessions : Table String Session) :
    Balanced (system.withLedger
      { system.ledger.removeFiber fiberID ref.grantUID with sessions := sessions }) := by
  have live : ∀ pointer,
      ((system.ledger.removeFiber fiberID ref.grantUID).entries.read pointer).live =
        (system.ledger.entries.read pointer).live -
          if system.ledger.grants.get ref.grantUID = some pointer then 1 else 0 := by
    intro pointer
    simp only [Ledger.removeFiber, Ledger.read_freeSlot]
    split <;> simp
  have quiet := Ledger.quiet_removeFiber system.ledger fiberID ref.grantUID
  constructor
  · intro uid pointer admitted
    simp only [withLedger, Ledger.removeFiber_grants] at admitted
    have old := balanced.accounted uid pointer admitted
    have dropped := count_drop_add (fun _ ref => decide (ref.grantUID = uid))
      system.ledger.fibers known
    have mine : ref.grantUID = uid ↔ system.ledger.grants.get ref.grantUID = some pointer := by
      constructor
      · rintro rfl
        exact admitted
      · intro current
        exact sound.entry_inj current admitted
    simp only [withLedger, live, fibersUnder, Ledger.removeFiber_fibers]
    simp only [fibersUnder, ← dropped, decide_eq_true_eq, mine] at old
    change _ = _ + (system.reservations pointer : Int)
    rw [old]
    split <;> push_cast <;> omega
  · intro uid pointer admitted limit
    simp only [withLedger, Ledger.removeFiber_grants] at admitted
    simp only [withLedger, quiet.grant] at limit ⊢
    have old := balanced.limited uid pointer admitted limit
    rw [live]
    split <;> omega

theorem Balanced.onPark (sound : Sound system) (deltaRef : String)
    (known : system.ledger.fibers.get fiberID = some ref) :
    Balanced (system.withLedger (system.ledger.onPark fiberID deltaRef).1) := by
  rw [Ledger.onPark_known deltaRef known]
  exact balanced.remove sound known _

theorem Balanced.onGone (sound : Sound system)
    (known : system.ledger.fibers.get fiberID = some ref) :
    Balanced (system.withLedger (system.ledger.onGone fiberID).1) := by
  rw [Ledger.onGone_known known]
  exact balanced.remove sound known _

theorem Balanced.setFiberW (fiberID : String) (bytes : Nat) :
    Balanced (system.withLedger (system.ledger.setFiberW fiberID bytes)) := by
  unfold Ledger.setFiberW
  cases known : system.ledger.fibers.get fiberID with
  | none => exact balanced
  | some ref =>
    refine balanced.same rfl (fun _ => rfl) (fun _ => rfl) ?_
    intro uid
    have moved := count_put_add (fun _ ref => decide (ref.grantUID = uid))
      system.ledger.fibers { ref with wUsed := bytes } known
    simp only [fibersUnder, withLedger]
    exact Nat.add_right_cancel moved

theorem Balanced.setPooled (grantUID : String) (count : Int) :
    Balanced (system.withLedger (system.ledger.setPooled grantUID count).1) := by
  have quiet := Ledger.quiet_setPooled system.ledger grantUID count
  refine balanced.same quiet.grants ?_ quiet.grant ?_
  · intro pointer
    unfold Ledger.setPooled
    split
    · split
      · rfl
      · simp only [read_write]
        split <;> simp_all
    · rfl
  · intro uid
    unfold Ledger.setPooled
    split
    · split <;> rfl
    · rfl

theorem Balanced.apply {next : LedgerSystem} {op : LedgerOp} (sound : Sound system)
    (keeps : keepsFiberMax system op = true) (clean : AdmitsClean system op)
    (took : system.apply op = some next) : Balanced next := by
  cases apply_effect took with
  | refused => exact balanced
  | admitGrant grant => exact balanced.admitGrant sound grant keeps clean
  | revokeGrant uid => exact balanced.revokeGrant uid
  | bumpEpoch epoch =>
    unfold Ledger.bumpEpoch
    split
    · exact balanced.same rfl (fun _ => rfl) (fun _ => rfl) (fun _ => rfl)
    · exact balanced
  | minted _ _ free _ minted _ => exact balanced.mint free minted
  | attached _ _ free _ _ _ _ => exact balanced.attach free rfl
  | committed endpoint pooled got act uncommitted current _ =>
    exact balanced.commit sound endpoint pooled got act uncommitted current
  | unlocked got => exact balanced.unlock got
  | parked deltaRef known => exact balanced.onPark sound deltaRef known
  | gone _ known => exact balanced.onGone sound known
  | restored _ => exact balanced.same rfl (fun _ => rfl) (fun _ => rfl) (fun _ => rfl)
  | forgot grantUID session =>
    rcases Ledger.forgetSession_eq system.ledger grantUID session with same | ⟨_, _, _, dropped⟩
    · rw [same]
      exact balanced
    · rw [dropped]
      exact balanced.same rfl (fun _ => rfl) (fun _ => rfl) (fun _ => rfl)
  | setFiberW fiberID bytes => exact balanced.setFiberW fiberID bytes
  | setPooled grantUID count => exact balanced.setPooled grantUID count

end

theorem admitsClean_of_capacity {op : LedgerOp}
    (after : ∀ next, capacityMachine.step system op = some next → Capacity next) :
    AdmitsClean system op := by
  cases op with
  | admitGrant grant =>
    intro unadmitted id ref noted same
    have fresh := admitGrant_fresh unadmitted
    have took : capacityMachine.step system (.admitGrant grant) =
        some (system.withLedger (system.ledger.admitGrant grant)) := by
      simp [capacityMachine, keepsFiberMax, Ledger.grant?, unadmitted, LedgerSystem.apply]
    have counted := (after _ took).accounted grant.uid system.ledger.entries.size
      (by simp [withLedger, fresh])
    have here : 0 < system.fibersUnder grant.uid :=
      (count_pos_iff _ _).mpr ⟨id, ref, noted, by simpa using same⟩
    have kept : (system.withLedger (system.ledger.admitGrant grant)).fibersUnder grant.uid =
        system.fibersUnder grant.uid := by
      rw [fresh]
      rfl
    rw [kept] at counted
    simp only [withLedger, fresh, read_alloc_same] at counted
    omega
  | _ => trivial

/-- Capacity is accounted for in every state of a run exactly when every entry the run makes
is made while no fiber is recorded under its UID. -/
theorem capacity_along_iff (epoch : Nat) (ops : List LedgerOp) :
    capacityMachine.Along Capacity (newSystem epoch) ops ↔
      capacityMachine.Meets AdmitsClean (newSystem epoch) ops := by
  constructor
  · intro along
    exact meets_of_along (fun _ _ _ after => admitsClean_of_capacity after) along
  · intro meets
    have kept : capacityMachine.Along (fun state => Sound state ∧ Balanced state)
        (newSystem epoch) ops := by
      refine along_of_meets ?_ ⟨sound_new epoch, balanced_new epoch⟩ meets
      rintro state op next ⟨sound, balanced⟩ clean taken
      simp only [capacityMachine] at taken
      split at taken
      · rename_i keeps
        exact ⟨sound.apply taken, balanced.apply sound keeps clean taken⟩
      · simp at taken
    intro front back middle split run
    exact (kept front back middle split run).2.capacity

def readmittedEarly : List LedgerOp :=
  [.admitGrant { uid := "g", fiberMax := 1 }, .resolve 0 "g" "" .warm 0,
   .commit 0 "" false false, .unlock 0, .revokeGrant "g",
   .admitGrant { uid := "g", fiberMax := 1 }]

def overfull : List LedgerOp :=
  readmittedEarly ++ [.resolve 1 "g" "" .warm 0, .commit 1 "" false false, .unlock 1]

def underflown : List LedgerOp := readmittedEarly ++ [.onRelease "g/1/1"]

theorem capacity_fails : ¬capacityMachine.Along Capacity (newSystem 1) overfull ∧
    ¬capacityMachine.Along Capacity (newSystem 1) underflown := by
  constructor
  · intro along
    obtain ⟨final, run, admitted, fibers, fiberMax⟩ : ∃ final,
      capacityMachine.exec (newSystem 1) overfull = some final ∧
        final.ledger.grants.get "g" = some 1 ∧ final.fibersUnder "g" = 2 ∧
        (final.ledger.entries.read 1).grant.fiberMax = 1 := by decide +kernel
    have bound := (along overfull [] final (by simp) run).bounded "g" 1 admitted
    rw [fibers, fiberMax] at bound
    omega
  · intro along
    obtain ⟨final, run, admitted, live⟩ : ∃ final,
      capacityMachine.exec (newSystem 1) underflown = some final ∧
        final.ledger.grants.get "g" = some 1 ∧ (final.ledger.entries.read 1).live = -1 := by
      decide +kernel
    have sign := (along underflown [] final (by simp) run).nonnegative "g" 1 admitted
    rw [live] at sign
    omega

end LedgerSystem

end Fiberd
