import Fiberd.Ledger.LedgerEffects

/-!
The shape every reachable ledger has: pointers are allocated and name the grant
they are filed under, fiber IDs are the texts of minted fences, and an open
resolution holds a fence that nothing else holds.
-/

namespace Fiberd

open Heaps Tables Machines

namespace LedgerSystem

structure Sound (system : LedgerSystem) : Prop where
  admitted : ∀ uid pointer, system.ledger.grants.get uid = some pointer →
    pointer < system.ledger.entries.size ∧
      (system.ledger.entries.read pointer).grant.uid = uid
  held : ∀ clone resolution, system.resolved.get clone = some resolution →
    resolution.entry < system.ledger.entries.size ∧
      (system.ledger.entries.read resolution.entry).grant.uid = resolution.grantUID
  recorded : ∀ id ref, system.ledger.fibers.get id = some ref →
    id = ref.fence.string ∧ ref.fence.grantUID = ref.grantUID ∧
      system.ledger.Minted ref.fence
  minted : ∀ clone resolution, system.resolved.get clone = some resolution →
    resolution.act ≠ .attach →
      resolution.fence.grantUID = resolution.grantUID ∧
        system.ledger.Minted resolution.fence ∧ resolution.reserved = true
  attached : ∀ clone resolution, system.resolved.get clone = some resolution →
    resolution.act = .attach → resolution.reserved = false
  unrecorded : ∀ clone resolution, system.resolved.get clone = some resolution →
    resolution.act ≠ .attach → resolution.committed = false →
      system.ledger.fibers.get resolution.fence.string = none
  distinct : ∀ first second one other, first ≠ second →
    system.resolved.get first = some one → system.resolved.get second = some other →
      one.act ≠ .attach → other.act ≠ .attach → one.fence ≠ other.fence

theorem sound_new (epoch : Nat) : Sound (newSystem epoch) := by
  constructor <;> intros <;> simp_all [newSystem, newLedger]

variable {system : LedgerSystem}

theorem admitGrant_fields (ledger : Ledger) (grant : Grant) :
    (ledger.admitGrant grant).epoch = ledger.epoch ∧
      (ledger.admitGrant grant).sessions = ledger.sessions ∧
      (ledger.admitGrant grant).fibers = ledger.fibers := by
  unfold Ledger.admitGrant
  split <;> exact ⟨rfl, rfl, rfl⟩

section

variable (sound : Sound system)
include sound

theorem Sound.entry_inj {first second : String} {pointer : Nat}
    (one : system.ledger.grants.get first = some pointer)
    (other : system.ledger.grants.get second = some pointer) : first = second :=
  (sound.admitted first pointer one).2.symm.trans (sound.admitted second pointer other).2

theorem Sound.carry {ledger : Ledger}
    (admitted : ∀ uid pointer, ledger.grants.get uid = some pointer →
      pointer < ledger.entries.size ∧ (ledger.entries.read pointer).grant.uid = uid)
    (held : ∀ pointer, pointer < system.ledger.entries.size → pointer < ledger.entries.size ∧
      (ledger.entries.read pointer).grant.uid = (system.ledger.entries.read pointer).grant.uid)
    (minted : ∀ fence, system.ledger.Minted fence → ledger.Minted fence)
    (fibers : ∀ id ref, ledger.fibers.get id = some ref → ∃ old,
      system.ledger.fibers.get id = some old ∧ old.grantUID = ref.grantUID ∧
      old.sessionKey = ref.sessionKey ∧ old.fence = ref.fence) :
    Sound (system.withLedger ledger) := by
  refine ⟨admitted, ?_, ?_, ?_, sound.attached, ?_, sound.distinct⟩
  · intro clone resolution got
    have old := sound.held clone resolution got
    have kept := held resolution.entry old.1
    exact ⟨kept.1, kept.2.trans old.2⟩
  · intro id ref got
    obtain ⟨old, before, grant, _, fence⟩ := fibers id ref got
    have facts := sound.recorded id old before
    rw [grant, fence] at facts
    exact ⟨facts.1, facts.2.1, minted _ facts.2.2⟩
  · intro clone resolution got fresh
    have facts := sound.minted clone resolution got fresh
    exact ⟨facts.1, minted _ facts.2.1, facts.2.2⟩
  · intro clone resolution got fresh uncommitted
    by_contra noted
    obtain ⟨ref, here⟩ := Option.ne_none_iff_exists'.mp noted
    obtain ⟨old, before, _⟩ := fibers _ ref here
    rw [sound.unrecorded clone resolution got fresh uncommitted] at before
    simp at before

theorem Sound.quiet {ledger : Ledger} (quiet : Ledger.Quiet system.ledger ledger) :
    Sound (system.withLedger ledger) := by
  apply sound.carry
  · intro uid pointer got
    rw [quiet.grants] at got
    have old := sound.admitted uid pointer got
    exact ⟨quiet.size ▸ old.1, by rw [quiet.grant]; exact old.2⟩
  · intro pointer bound
    exact ⟨quiet.size ▸ bound, by rw [quiet.grant]⟩
  · intro fence minted
    exact (quiet.minted fence).mpr minted
  · exact quiet.fibers

theorem lastSeq_admitGrant (grant : Grant) (uid : String) :
    (system.ledger.admitGrant grant).lastSeq uid = system.ledger.lastSeq uid := by
  unfold Ledger.admitGrant Ledger.lastSeq
  cases admitted : system.ledger.grants.get grant.uid with
  | some pointer =>
    dsimp only
    cases got : system.ledger.grants.get uid with
    | none => rfl
    | some other =>
      simp only [read_write]
      split <;> simp_all
  | none =>
    dsimp only
    rw [get_put]
    by_cases same : uid = grant.uid
    · simp [same, admitted]
    · simp only [same, if_false]
      cases got : system.ledger.grants.get uid with
      | none => rfl
      | some other =>
        dsimp only
        rw [read_alloc_old _ _ (sound.admitted uid other got).1]

theorem Sound.admitGrant (grant : Grant) :
    Sound (system.withLedger (system.ledger.admitGrant grant)) := by
  have seqs := lastSeq_admitGrant sound grant
  obtain ⟨epochs, _, fibers⟩ := admitGrant_fields system.ledger grant
  apply sound.carry
  · intro uid pointer got
    unfold Ledger.admitGrant at got ⊢
    cases admitted : system.ledger.grants.get grant.uid with
    | some current =>
      simp only [admitted] at got ⊢
      have old := sound.admitted uid pointer got
      refine ⟨old.1, ?_⟩
      rw [read_write]
      by_cases same : pointer = current
      · subst pointer
        simpa using sound.entry_inj admitted got
      · simpa [same] using old.2
    | none =>
      simp only [admitted] at got ⊢
      rw [get_put] at got
      by_cases same : uid = grant.uid
      · simp only [same, if_true] at got
        cases got
        simp [same]
      · simp only [same, if_false] at got
        have old := sound.admitted uid pointer got
        refine ⟨by simp only [size_alloc]; omega, ?_⟩
        rw [read_alloc_old _ _ old.1]
        exact old.2
  · intro pointer bound
    unfold Ledger.admitGrant
    cases admitted : system.ledger.grants.get grant.uid with
    | some current =>
      refine ⟨bound, ?_⟩
      simp only [read_write]
      split
      · rename_i same
        rw [same]
        exact (sound.admitted grant.uid current admitted).2.symm
      · rfl
    | none =>
      refine ⟨by simp only [size_alloc]; omega, ?_⟩
      simp only [read_alloc_old _ _ bound]
  · intro fence minted
    simpa only [Ledger.Minted, epochs, seqs] using minted
  · intro id ref got
    rw [fibers] at got
    exact ⟨ref, got, rfl, rfl, rfl⟩

end

theorem lastSeq_revokeGrant (ledger : Ledger) (revoked uid : String) :
    (ledger.revokeGrant revoked).lastSeq uid = ledger.lastSeq uid := by
  unfold Ledger.revokeGrant Ledger.lastSeq
  by_cases same : uid = revoked
  · subst uid
    cases admitted : ledger.grants.get revoked with
    | some pointer => simp
    | none => simp
  · cases admitted : ledger.grants.get revoked with
    | some pointer => simp [get_drop, get_put, same]
    | none => simp [get_drop, same]

theorem revokeGrant_fields (ledger : Ledger) (uid : String) :
    (ledger.revokeGrant uid).epoch = ledger.epoch ∧
      (ledger.revokeGrant uid).grants = ledger.grants.drop uid ∧
      (ledger.revokeGrant uid).entries = ledger.entries ∧
      (ledger.revokeGrant uid).sessions = ledger.sessions ∧
      (ledger.revokeGrant uid).fibers = ledger.fibers := by
  unfold Ledger.revokeGrant
  split <;> exact ⟨rfl, rfl, rfl, rfl, rfl⟩

theorem Sound.revokeGrant (sound : Sound system) (uid : String) :
    Sound (system.withLedger (system.ledger.revokeGrant uid)) := by
  obtain ⟨epochs, grants, entries, _, fibers⟩ := revokeGrant_fields system.ledger uid
  apply sound.carry
  · intro other pointer got
    rw [grants, get_drop] at got
    rw [entries]
    split at got
    · simp at got
    · exact sound.admitted other pointer got
  · intro pointer bound
    rw [entries]
    exact ⟨bound, rfl⟩
  · intro fence minted
    simpa only [Ledger.Minted, epochs, lastSeq_revokeGrant] using minted
  · intro id ref got
    rw [fibers] at got
    exact ⟨ref, got, rfl, rfl, rfl⟩

theorem Sound.bumpEpoch (sound : Sound system) (epoch : Nat) :
    Sound (system.withLedger (system.ledger.bumpEpoch epoch)) := by
  unfold Ledger.bumpEpoch
  split
  · rename_i later
    apply sound.carry
    · exact sound.admitted
    · exact fun pointer bound => ⟨bound, rfl⟩
    · intro fence minted
      left
      dsimp only
      rcases minted with old | ⟨same, _⟩ <;> omega
    · exact fun id ref got => ⟨ref, got, rfl, rfl, rfl⟩
  · exact sound

variable {resolution : Resolution}

theorem Sound.attach (sound : Sound system) (clone : Nat) {pointer : Nat}
    (admitted : system.ledger.grants.get resolution.grantUID = some pointer)
    (entry : resolution.entry = pointer) (attach : resolution.act = .attach)
    (unreserved : resolution.reserved = false) :
    Sound (system.opened clone resolution system.ledger) := by
  refine ⟨sound.admitted, ?_, sound.recorded, ?_, ?_, ?_, ?_⟩
  · intro query other got
    obtain ⟨_, rfl⟩ | ⟨_, got⟩ := get_put_eq_some got
    · exact entry ▸ sound.admitted _ pointer admitted
    · exact sound.held query other got
  · intro query other got fresh
    obtain ⟨_, got⟩ | ⟨_, got⟩ := get_put_eq_some got
    · exact (fresh (got ▸ attach)).elim
    · exact sound.minted query other got fresh
  · intro query other got same
    obtain ⟨_, got⟩ | ⟨_, got⟩ := get_put_eq_some got
    · exact got ▸ unreserved
    · exact sound.attached query other got same
  · intro query other got fresh
    obtain ⟨_, got⟩ | ⟨_, got⟩ := get_put_eq_some got
    · exact (fresh (got ▸ attach)).elim
    · exact sound.unrecorded query other got fresh
  · intro first second one other apart firstFound secondFound oneFresh otherFresh
    simp only [opened, get_put] at firstFound secondFound
    split at firstFound
    · simp only [Option.some.injEq] at firstFound
      exact (oneFresh (firstFound ▸ attach)).elim
    · split at secondFound
      · simp only [Option.some.injEq] at secondFound
        exact (otherFresh (secondFound ▸ attach)).elim
      · exact sound.distinct first second one other apart firstFound secondFound
          oneFresh otherFresh

section Minting

variable {pointer : Nat} {grantUID session : String} {resolution : Resolution}
  {ledger : Ledger}

theorem lastSeq_minted (sound : Sound system)
    (admitted : system.ledger.grants.get grantUID = some pointer)
    (minted : system.ledger.MintedBy grantUID session pointer resolution ledger)
    (uid : String) :
    ledger.lastSeq uid =
      if uid = grantUID then system.ledger.lastSeq uid + 1 else system.ledger.lastSeq uid := by
  rw [minted.nextEq]
  simp only [Ledger.lastSeq]
  cases got : system.ledger.grants.get uid with
  | none =>
    have apart : uid ≠ grantUID := by
      rintro rfl
      simp [admitted] at got
    simp [apart]
  | some other =>
    simp only [read_write]
    by_cases same : uid = grantUID
    · subst uid
      have pointers : other = pointer := Option.some.inj (got.symm.trans admitted)
      simp [pointers, Ledger.reservedEntry]
    · have apart : other ≠ pointer := by
        rintro rfl
        exact same (sound.entry_inj got admitted)
      simp [same, apart]

theorem not_minted_nextFence (admitted : system.ledger.grants.get grantUID = some pointer) :
    ¬system.ledger.Minted (system.ledger.nextFence grantUID pointer) := by
  simp only [Ledger.Minted, Ledger.nextFence, Ledger.lastSeq, admitted]
  omega

theorem Sound.carryMinted (sound : Sound system)
    (admitted : system.ledger.grants.get grantUID = some pointer)
    (minted : system.ledger.MintedBy grantUID session pointer resolution ledger) :
    Sound (system.withLedger ledger) := by
  have seqs := lastSeq_minted sound admitted minted
  apply sound.carry
  · intro uid other got
    rw [minted.nextEq] at got ⊢
    have old := sound.admitted uid other got
    refine ⟨old.1, ?_⟩
    simp only [read_write]
    split
    · rename_i same
      simpa [Ledger.reservedEntry, same] using old.2
    · exact old.2
  · intro other bound
    rw [minted.nextEq]
    refine ⟨bound, ?_⟩
    simp only [read_write]
    split
    · rename_i same
      simp [Ledger.reservedEntry, same]
    · rfl
  · intro fence before
    have epochs : ledger.epoch = system.ledger.epoch := by rw [minted.nextEq]
    simp only [Ledger.Minted, epochs, seqs] at before ⊢
    split <;> omega
  · intro id ref got
    rw [minted.nextEq] at got
    exact ⟨ref, got, rfl, rfl, rfl⟩

theorem Sound.mint (sound : Sound system) (clone : Nat)
    (admitted : system.ledger.grants.get grantUID = some pointer)
    (minted : system.ledger.MintedBy grantUID session pointer resolution ledger) :
    Sound (system.opened clone resolution ledger) := by
  have carried := sound.carryMinted admitted minted
  have fresh : ∀ fence, system.ledger.Minted fence → fence ≠ resolution.fence := by
    rintro fence old rfl
    rw [minted.fenceEq] at old
    exact not_minted_nextFence admitted old
  have grants : ledger.grants = system.ledger.grants := by rw [minted.nextEq]
  have fibers : ledger.fibers = system.ledger.fibers := by rw [minted.nextEq]
  have unopened : ∀ query other, query ≠ clone →
      (system.opened clone resolution ledger).resolved.get query = some other →
        system.resolved.get query = some other := by
    intro query other apart got
    simpa [opened, get_put, apart] using got
  have mine : ∀ other, (system.opened clone resolution ledger).resolved.get clone = some other →
      other = resolution := by
    intro other got
    simpa [opened, eq_comm] using got
  have newFence : ledger.Minted resolution.fence := by
    right
    rw [minted.fenceEq, minted.nextEq]
    simp [Ledger.nextFence, Ledger.lastSeq, admitted, Ledger.reservedEntry]
  refine ⟨carried.admitted, ?_, carried.recorded, ?_, ?_, ?_, ?_⟩
  · intro query other got
    by_cases same : query = clone
    · subst query
      rw [mine other got, minted.sameEntry, minted.sameGrant]
      exact carried.admitted grantUID pointer (by rw [withLedger, grants]; exact admitted)
    · exact carried.held query other (unopened query other same got)
  · intro query other got act
    by_cases same : query = clone
    · subst query
      rw [mine other got]
      refine ⟨?_, newFence, minted.isReserved⟩
      rw [minted.fenceEq, minted.sameGrant]
      rfl
    · exact carried.minted query other (unopened query other same got) act
  · intro query other got act
    by_cases same : query = clone
    · subst query
      exact (minted.notAttach (mine other got ▸ act)).elim
    · exact carried.attached query other (unopened query other same got) act
  · intro query other got act uncommitted
    by_cases same : query = clone
    · subst query
      rw [mine other got]
      by_contra noted
      obtain ⟨ref, here⟩ := Option.ne_none_iff_exists'.mp noted
      have facts := sound.recorded _ ref (by simpa only [opened, fibers] using here)
      exact fresh _ facts.2.2 (Fence.string_inj facts.1).symm
    · exact carried.unrecorded query other (unopened query other same got) act uncommitted
  · intro first second one other apart firstFound secondFound oneAct otherAct
    by_cases firstMine : first = clone
    · subst first
      have older := unopened second other (Ne.symm apart) secondFound
      rw [mine one firstFound]
      exact (fresh _ (sound.minted second other older otherAct).2.1).symm
    · have older := unopened first one firstMine firstFound
      by_cases secondMine : second = clone
      · subst second
        rw [mine other secondFound]
        exact fresh _ (sound.minted first one older oneAct).2.1
      · exact sound.distinct first second one other apart older
          (unopened second other secondMine secondFound) oneAct otherAct

end Minting

theorem Sound.commit (sound : Sound system) {clone : Nat} (endpoint : String) (pooled : Bool)
    (got : system.resolved.get clone = some resolution) (act : resolution.act ≠ .attach) :
    Sound (system.committed clone resolution endpoint pooled) := by
  have mine := sound.minted clone resolution got act
  have marked : ∀ query other,
      (system.committed clone resolution endpoint pooled).resolved.get query = some other →
        ∃ old, system.resolved.get query = some old ∧ other.entry = old.entry ∧
          other.grantUID = old.grantUID ∧ other.act = old.act ∧ other.fence = old.fence ∧
          other.reserved = old.reserved ∧
          (other.committed = false → query ≠ clone ∧ other = old) := by
    intro query other here
    obtain ⟨same, rfl⟩ | ⟨apart, here⟩ := get_put_eq_some here
    · exact ⟨resolution, same ▸ got, rfl, rfl, rfl, rfl, rfl, by simp⟩
    · exact ⟨other, here, rfl, rfl, rfl, rfl, rfl, fun _ => ⟨apart, rfl⟩⟩
  refine ⟨sound.admitted, ?_, ?_, ?_, ?_, ?_, ?_⟩
  · intro query other here
    obtain ⟨old, before, entry, grant, _⟩ := marked query other here
    rw [entry, grant]
    exact sound.held query old before
  · intro id ref here
    obtain ⟨same, rfl⟩ | ⟨_, here⟩ := get_put_eq_some here
    · exact ⟨same, mine.1, mine.2.1⟩
    · exact sound.recorded id ref here
  · intro query other here fresh
    obtain ⟨old, before, _, grant, acts, fence, reserved, _⟩ := marked query other here
    rw [fence, grant, reserved]
    exact sound.minted query old before (acts ▸ fresh)
  · intro query other here attach
    obtain ⟨old, before, _, _, acts, _, reserved, _⟩ := marked query other here
    rw [reserved]
    exact sound.attached query old before (acts ▸ attach)
  · intro query other here fresh open_
    obtain ⟨old, before, _, _, _, _, _, untouched⟩ := marked query other here
    obtain ⟨apart, rfl⟩ := untouched open_
    have fences := sound.distinct query clone other resolution apart before got fresh act
    simp only [committed]
    rw [get_put_other]
    · exact sound.unrecorded query other before fresh open_
    · exact fun same => fences (Fence.string_inj same)
  · intro first second one other apart firstFound secondFound oneAct otherAct
    obtain ⟨oldOne, beforeOne, _, _, actsOne, fenceOne, _⟩ := marked first one firstFound
    obtain ⟨oldOther, beforeOther, _, _, actsOther, fenceOther, _⟩ :=
      marked second other secondFound
    rw [fenceOne, fenceOther]
    exact sound.distinct first second oldOne oldOther apart beforeOne beforeOther
      (actsOne ▸ oneAct) (actsOther ▸ otherAct)

theorem Sound.unlock (sound : Sound system) (clone : Nat) (resolution : Resolution) :
    Sound (system.unlock clone resolution) := by
  have quiet := sound.quiet (Ledger.quiet_unlock system.ledger resolution)
  have older : ∀ query other,
      (system.unlock clone resolution).resolved.get query = some other →
        system.resolved.get query = some other := by
    intro query other here
    obtain ⟨_, here⟩ := get_drop_eq_some here
    exact here
  exact ⟨quiet.admitted,
    fun query other here => quiet.held query other (older query other here),
    quiet.recorded,
    fun query other here => quiet.minted query other (older query other here),
    fun query other here => quiet.attached query other (older query other here),
    fun query other here => quiet.unrecorded query other (older query other here),
    fun first second one other apart firstFound secondFound =>
      quiet.distinct first second one other apart (older first one firstFound)
        (older second other secondFound)⟩

variable {op : LedgerOp} {next : LedgerSystem}

theorem Sound.apply (sound : Sound system) (took : system.apply op = some next) : Sound next := by
  cases apply_effect took with
  | refused => exact sound
  | admitGrant grant => exact sound.admitGrant grant
  | revokeGrant uid => exact sound.revokeGrant uid
  | bumpEpoch epoch => exact sound.bumpEpoch epoch
  | minted _ _ _ admitted minted _ => exact sound.mint _ admitted minted
  | attached _ _ _ admitted _ _ _ => exact sound.attach _ admitted rfl rfl rfl
  | committed _ _ got act _ _ _ => exact sound.commit _ _ got act
  | unlocked _ => exact sound.unlock _ _
  | parked deltaRef _ => exact sound.quiet (Ledger.quiet_onPark _ _ deltaRef)
  | gone _ _ => exact sound.quiet (Ledger.quiet_onGone _ _)
  | restored _ => exact sound.quiet ((Ledger.Quiet.refl system.ledger).withSessions _)
  | forgot grantUID session => exact sound.quiet (Ledger.quiet_forgetSession _ grantUID session)
  | setFiberW fiberID bytes => exact sound.quiet (Ledger.quiet_setFiberW _ fiberID bytes)
  | setPooled grantUID count => exact sound.quiet (Ledger.quiet_setPooled _ grantUID count)

theorem Sound.grant?_apply (sound : Sound system)
    (took : system.apply op = some next) (uid : String) :
    next.ledger.grant? uid = system.ledger.grant? uid ∨
      (∃ grant, op = .admitGrant grant ∧ grant.uid = uid) ∨ op = .revokeGrant uid := by
  cases apply_effect took with
  | refused | attached _ _ _ _ _ _ _ | committed _ _ _ _ _ _ _ | restored _ => exact .inl rfl
  | admitGrant grant =>
    by_cases mine : grant.uid = uid
    · exact .inr (.inl ⟨grant, rfl, mine⟩)
    · left
      simp only [Ledger.grant?, withLedger, Ledger.admitGrant]
      cases known : system.ledger.grants.get grant.uid with
      | some pointer =>
        refine Option.map_congr ?_
        intro other got
        have apart : other ≠ pointer := by
          rintro rfl
          exact mine (sound.entry_inj known got)
        simp [read_write, apart]
      | none =>
        simp only [get_put_other _ _ (Ne.symm mine)]
        refine Option.map_congr ?_
        intro other got
        have bound := (sound.admitted uid other got).1
        rw [read_alloc_old _ _ bound]
  | revokeGrant revoked =>
    by_cases mine : revoked = uid
    · exact .inr (.inr (by rw [mine]))
    · left
      simp only [Ledger.grant?, withLedger, Ledger.revokeGrant]
      split <;> simp [get_drop_other _ (Ne.symm mine)]
  | bumpEpoch epoch =>
    simp only [withLedger, Ledger.bumpEpoch]
    split <;> exact .inl rfl
  | minted _ _ _ _ minted _ =>
    left
    simp only [opened, minted.nextEq, Ledger.grant?]
    refine Option.map_congr ?_
    intro other got
    rw [read_write]
    split
    · rename_i same
      rw [same]
      rfl
    · rfl
  | unlocked _ => exact .inl ((Ledger.quiet_unlock system.ledger _).grant? uid)
  | parked deltaRef _ => exact .inl ((Ledger.quiet_onPark system.ledger _ deltaRef).grant? uid)
  | gone _ _ => exact .inl ((Ledger.quiet_onGone system.ledger _).grant? uid)
  | forgot grantUID session =>
    exact .inl ((Ledger.quiet_forgetSession system.ledger _ _).grant? uid)
  | setFiberW fiberID bytes =>
    exact .inl ((Ledger.quiet_setFiberW system.ledger _ _).grant? uid)
  | setPooled grantUID count =>
    exact .inl ((Ledger.quiet_setPooled system.ledger _ _).grant? uid)

theorem fibers_apply (took : system.apply op = some next) {id : String} {ref : FiberRef}
    (got : next.ledger.fibers.get id = some ref) :
    (∃ old, system.ledger.fibers.get id = some old ∧ old.grantUID = ref.grantUID) ∨
      ∃ clone endpoint pooled, op = .commit clone endpoint pooled false := by
  have quiet : ∀ {ledger : Ledger}, system.ledger.Quiet ledger →
      ledger.fibers.get id = some ref →
        ∃ old, system.ledger.fibers.get id = some old ∧ old.grantUID = ref.grantUID := by
    intro ledger quiet got
    obtain ⟨old, before, grant, _⟩ := quiet.fibers id ref got
    exact ⟨old, before, grant⟩
  cases apply_effect took with
  | refused | attached _ _ _ _ _ _ _ | restored _ => exact .inl ⟨ref, got, rfl⟩
  | admitGrant grant =>
    refine .inl ⟨ref, ?_, rfl⟩
    rwa [withLedger, (admitGrant_fields system.ledger grant).2.2] at got
  | revokeGrant uid =>
    refine .inl ⟨ref, ?_, rfl⟩
    rwa [withLedger, (revokeGrant_fields system.ledger uid).2.2.2.2] at got
  | bumpEpoch epoch =>
    refine .inl ⟨ref, ?_, rfl⟩
    simp only [withLedger, Ledger.bumpEpoch] at got
    split at got <;> exact got
  | minted _ _ _ _ minted _ =>
    rw [opened, minted.nextEq] at got
    exact .inl ⟨ref, got, rfl⟩
  | committed endpoint pooled _ _ _ _ _ => exact .inr ⟨_, endpoint, pooled, rfl⟩
  | unlocked _ => exact .inl (quiet (Ledger.quiet_unlock system.ledger _) got)
  | parked deltaRef _ =>
    exact .inl (quiet (Ledger.quiet_onPark system.ledger _ deltaRef) got)
  | gone _ _ => exact .inl (quiet (Ledger.quiet_onGone system.ledger _) got)
  | forgot grantUID session =>
    exact .inl (quiet (Ledger.quiet_forgetSession system.ledger _ _) got)
  | setFiberW fiberID bytes =>
    exact .inl (quiet (Ledger.quiet_setFiberW system.ledger _ _) got)
  | setPooled grantUID count =>
    exact .inl (quiet (Ledger.quiet_setPooled system.ledger _ _) got)

end LedgerSystem

end Fiberd
