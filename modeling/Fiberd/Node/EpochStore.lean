import Fiberd.Lib.Machines
import Mathlib.Algebra.GroupWithZero.Nat

/-!
The epoch file of `pkg/core/fence.go`: `OpenEpochStore` and `Bump` on one state
directory, with the writes of `writeFileAtomic`.
-/

namespace Fiberd

open Machines

/-- How a write ends: in place and durable, failed before the rename, or failed after it. -/
inductive AtomicWrite where
  | done
  | unchanged
  | replaced
  deriving DecidableEq, Repr

/-- How an open finds the file, and what `ParseUint` makes of a damaged one. -/
inductive EpochFound where
  | intact
  | unreadable
  | damaged (reads : Option UInt64)
  deriving DecidableEq, Repr

structure EpochDir where
  /-- The file, as the number it reads as. -/
  file : Option (Option UInt64) := none
  clock : Nat := 0
  /-- The epoch in each store opened. -/
  stores : List UInt64 := []
  /-- The epochs put in force, the last one first. -/
  forced : List UInt64 := []
  /-- The second of the last jump that reached the file, and the writes that did since. -/
  jumped : Nat := 0
  writes : Nat := 0
  deriving DecidableEq, Repr

inductive EpochLabel where
  | openEpochStore (found : EpochFound) (now : Nat) (ends : AtomicWrite)
  | bump (store : Nat) (ends : AtomicWrite)
  deriving DecidableEq, Repr

namespace EpochDir

variable (dir : EpochDir)

def find : EpochFound → EpochDir
  | .damaged reads => { dir with file := some reads }
  | _ => dir

def read (found : EpochFound) : Option UInt64 :=
  if found = .unreadable then none else (dir.find found).file.getD (some 0)

def write (next : UInt64) (ends : AtomicWrite) : EpochDir :=
  if ends = .unchanged then dir else { dir with file := some (some next) }

def count (jump : Option Nat) (ends : AtomicWrite) : EpochDir :=
  if ends = .unchanged then dir
  else
    match jump with
    | some now => { dir with jumped := now, writes := 0 }
    | none => { dir with writes := dir.writes + 1 }

/-- The epoch is in force once it is durable. -/
def force (next : UInt64) (ends : AtomicWrite) (stores : List UInt64) : EpochDir :=
  if ends = .done then
    { dir.write next ends with stores := stores, forced := next :: dir.forced }
  else dir.write next ends

def opens (found : EpochFound) (now : Nat) : UInt64 :=
  match dir.read found with
  | some prev => prev + 1
  | none => UInt64.ofNat now

def step : EpochLabel → Option EpochDir
  | .openEpochStore found now ends =>
    if now < dir.clock then none
    else
      let next := dir.opens found now
      let jump := if (dir.read found).isSome then none else some now
      some (({ dir.find found with clock := now }.count jump ends).force next ends
        (dir.stores ++ [next]))
  | .bump store ends => dir.stores[store]?.map fun epoch =>
      (dir.count none ends).force (epoch + 1) ends (dir.stores.set store (epoch + 1))

def reach : Nat := dir.jumped + dir.writes

/-- A file that is damaged does not read.  Where one does not, the clock has gone on by more
seconds since the last jump than there were writes since.  Only the store opened last is bumped,
and no counter comes to its end. -/
def ahead : EpochLabel → Bool
  | .openEpochStore found now _ => found matches .intact | .unreadable | .damaged none &&
    if (dir.read found).isSome then dir.reach + 1 < 2 ^ 64 else dir.reach < now && now < 2 ^ 64
  | .bump store _ => store + 1 == dir.stores.length && dir.reach + 1 < 2 ^ 64

def Increasing : Prop := dir.forced.Pairwise (· > ·)

/-- A number no epoch in force is past, and that the writes so far can have come to. -/
structure Tops (forced : List UInt64) (reach : Nat) (number : UInt64) : Prop where
  newest : ∀ epoch ∈ forced, epoch ≤ number
  within : number.toNat ≤ reach

structure Kept : Prop where
  increasing : dir.Increasing
  file : ∀ number, dir.file = some (some number) → Tops dir.forced dir.reach number
  absent : dir.file = none → dir.forced = []
  last : ∀ epoch, dir.stores.getLast? = some epoch → Tops dir.forced dir.reach epoch
  within : ∀ epoch ∈ dir.forced, epoch.toNat ≤ dir.reach

variable {dir} {next : EpochDir} {number : UInt64} {ends : AtomicWrite} {forced : List UInt64}
  {limit : Nat}

theorem Tops.toNat_succ (tops : Tops forced limit number) (room : limit + 1 < 2 ^ 64) :
    (number + 1).toNat = number.toNat + 1 := by
  have bound := tops.within
  rw [UInt64.toNat_add, UInt64.toNat_one]
  omega

theorem Tops.lt_succ (tops : Tops forced limit number) (room : limit + 1 < 2 ^ 64) :
    ∀ epoch ∈ forced, epoch < number + 1 := by
  intro epoch mem
  have le := UInt64.le_iff_toNat_le.mp (tops.newest epoch mem)
  rw [UInt64.lt_iff_toNat_lt, tops.toNat_succ room]
  omega

theorem Kept.count (kept : dir.Kept) {jump : Option Nat}
    (later : ∀ now, jump = some now → dir.reach ≤ now) : (dir.count jump ends).Kept := by
  have grows (jumped writes : Nat) (far : dir.reach ≤ jumped + writes) :
      Kept { dir with jumped := jumped, writes := writes } := by
    have tops (number : UInt64) (old : Tops dir.forced dir.reach number) :
        Tops dir.forced (jumped + writes) number :=
      ⟨old.newest, Nat.le_trans old.within far⟩
    refine ⟨kept.increasing, ?_, kept.absent, ?_, ?_⟩
    · exact fun number got => tops number (kept.file number got)
    · exact fun epoch got => tops epoch (kept.last epoch got)
    · exact fun epoch mem => Nat.le_trans (kept.within epoch mem) far
  unfold EpochDir.count
  split
  · exact kept
  · cases jump with
    | some now => exact grows now 0 (later now rfl)
    | none => exact grows dir.jumped (dir.writes + 1) (Nat.le_succ _)

theorem Kept.force (kept : dir.Kept) (above : ∀ epoch ∈ dir.forced, epoch < number)
    (within : ends ≠ .unchanged → number.toNat ≤ dir.reach) {stores : List UInt64}
    (mine : stores.getLast? = some number) : (dir.force number ends stores).Kept := by
  have newest : ∀ epoch ∈ number :: dir.forced, epoch ≤ number := by
    intro epoch mem
    obtain rfl | mem := List.mem_cons.mp mem
    · exact UInt64.le_refl _
    · exact UInt64.le_of_lt (above epoch mem)
  cases ends with
  | done =>
    have top := within nofun
    refine ⟨List.pairwise_cons.mpr ⟨above, kept.increasing⟩, ?_, nofun, ?_, ?_⟩
    · rintro _ ⟨⟩
      exact ⟨newest, top⟩
    · intro epoch last
      cases mine.symm.trans last
      exact ⟨newest, top⟩
    · intro epoch mem
      exact Nat.le_trans (UInt64.le_iff_toNat_le.mp (newest epoch mem)) top
  | unchanged => exact kept
  | replaced =>
    refine ⟨kept.increasing, ?_, nofun, kept.last, kept.within⟩
    rintro _ ⟨⟩
    exact ⟨fun epoch mem => newest epoch (List.mem_cons_of_mem _ mem), within nofun⟩

theorem Kept.find (kept : dir.Kept) {got : EpochFound} (now : Nat)
    (fits : (got matches .intact | .unreadable | .damaged none) = true) :
    Kept { dir.find got with clock := now } := by
  cases got with
  | intact | unreadable => exact { kept with }
  | damaged reads =>
    cases reads with
    | none => exact { kept with file := nofun, absent := nofun }
    | some number => cases fits

@[simp] theorem count_forced (jump : Option Nat) : (dir.count jump ends).forced = dir.forced := by
  unfold EpochDir.count
  split
  · rfl
  · cases jump <;> rfl

/-- A write that reaches the file makes room for the number it writes. -/
theorem reach_count (jump : Option Nat) (written : ends ≠ .unchanged) :
    (dir.count jump ends).reach = jump.getD (dir.reach + 1) := by
  cases jump <;> simp [EpochDir.count, written, reach, Nat.add_assoc]

theorem Kept.opens (kept : dir.Kept) {got : EpochFound} {now : Nat}
    (ahead : dir.ahead (.openEpochStore got now ends) = true) :
    (∀ epoch ∈ dir.forced, epoch < dir.opens got now) ∧
      (dir.opens got now).toNat ≤
        (if (dir.read got).isSome then none else some now).getD (dir.reach + 1) := by
  simp only [EpochDir.ahead, Bool.and_eq_true] at ahead
  obtain ⟨fits, room⟩ := ahead
  have found := kept.find now fits
  have same : (dir.find got).forced = dir.forced := by cases got <;> rfl
  have far : EpochDir.reach { dir.find got with clock := now } = dir.reach := by
    cases got <;> rfl
  unfold EpochDir.opens
  cases reads : dir.read got with
  | none =>
    simp only [reads, Option.isSome_none, Bool.false_eq_true, if_false, Bool.and_eq_true,
      decide_eq_true_eq] at room ⊢
    have number : (UInt64.ofNat now).toNat = now := UInt64.toNat_ofNat_of_lt' room.2
    refine ⟨?_, Nat.le_of_eq number⟩
    intro epoch mem
    rw [UInt64.lt_iff_toNat_lt, number]
    exact Nat.lt_of_le_of_lt (kept.within epoch mem) room.1
  | some prev =>
    simp only [reads, Option.isSome_some, if_true, decide_eq_true_eq] at room ⊢
    simp only [read, Option.ite_none_left_eq_some] at reads
    cases file : (dir.find got).file with
    | none =>
      have empty : (dir.find got).forced = [] := found.absent file
      simp only [file, Option.getD_none, Option.some.injEq] at reads
      simp [← same, empty, ← reads.2]
    | some text =>
      simp only [file, Option.getD_some] at reads
      have tops := found.file prev (file.trans (congrArg some reads.2))
      have above := tops.lt_succ (far ▸ room)
      have number := tops.toNat_succ (far ▸ room)
      have bound := far ▸ tops.within
      exact ⟨same ▸ above, by rw [number, Option.getD_none]; omega⟩

theorem Kept.step (kept : dir.Kept) {label : EpochLabel} (ahead : dir.ahead label = true)
    (took : dir.step label = some next) : next.Kept := by
  cases label with
  | openEpochStore got now ends =>
    simp only [EpochDir.step] at took
    split at took <;> cases took
    obtain ⟨above, within⟩ := kept.opens ahead
    simp only [EpochDir.ahead, Bool.and_eq_true] at ahead
    obtain ⟨fits, room⟩ := ahead
    have same : (dir.find got).forced = dir.forced := by cases got <;> rfl
    have far : EpochDir.reach { dir.find got with clock := now } = dir.reach := by
      cases got <;> rfl
    refine ((kept.find now fits).count ?_).force ?_ ?_ (by simp)
    · intro later jump
      simp only [Option.ite_none_left_eq_some, Option.some.injEq] at jump
      obtain ⟨unread, rfl⟩ := jump
      rw [if_neg unread, Bool.and_eq_true, decide_eq_true_eq] at room
      rw [far]
      exact Nat.le_of_lt room.1
    · simpa [same] using above
    · intro written
      rw [reach_count _ written, far]
      exact within
  | bump store ends =>
    obtain ⟨epoch, opened, rfl⟩ := Option.map_eq_some_iff.mp took
    simp only [EpochDir.ahead, Bool.and_eq_true, beq_iff_eq, decide_eq_true_eq] at ahead
    obtain ⟨last, room⟩ := ahead
    have tops : Tops dir.forced dir.reach epoch := by
      refine kept.last epoch ?_
      rw [List.getLast?_eq_getElem?, ← last]
      exact opened
    refine (kept.count (by simp)).force ?_ ?_ ?_
    · simpa using tops.lt_succ room
    · intro written
      have bound := tops.within
      rw [reach_count none written, tops.toNat_succ room, Option.getD_none]
      omega
    · rw [List.getLast?_eq_getElem?, List.length_set, ← last]
      simp [← last]

end EpochDir

def epochMachine : Machine EpochDir EpochLabel where
  start dir := dir = {}
  step := EpochDir.step

theorem epochs_increase {final : EpochDir} {labels : List EpochLabel}
    (meets : epochMachine.Meets (fun dir label => dir.ahead label = true) {} labels)
    (run : epochMachine.exec {} labels = some final) : final.Increasing := by
  have born : EpochDir.Kept {} := ⟨List.Pairwise.nil, nofun, fun _ => rfl, nofun, nofun⟩
  exact (exec_keeps_of_meets (fun _ _ _ kept ahead taken => kept.step ahead taken) born meets
    run).increasing

/-- A boot, a bump that fails after its rename, a boot, and one that cannot read the file. -/
def jumpedEpochs : List EpochLabel :=
  [.openEpochStore .intact 90 .done, .bump 0 .replaced, .openEpochStore .intact 95 .done,
    .openEpochStore .unreadable 100 .done]

theorem jumped_epochs_increase : ∃ final,
    epochMachine.exec {} jumpedEpochs = some final ∧ final.forced = [100, 3, 1] ∧
      final.Increasing := by
  obtain ⟨final, run, forced⟩ : ∃ final, epochMachine.exec {} jumpedEpochs = some final ∧
    final.forced = [100, 3, 1] := by decide +kernel
  exact ⟨final, run, forced, epochs_increase (by decide +kernel) run⟩

/-- Two boots of one second cannot read the file. -/
theorem epoch_forced_twice : ∃ final,
    epochMachine.exec {} (jumpedEpochs ++ [.openEpochStore (.damaged none) 100 .done]) =
      some final ∧ ¬final.Increasing := by
  unfold EpochDir.Increasing
  decide +kernel

end Fiberd
