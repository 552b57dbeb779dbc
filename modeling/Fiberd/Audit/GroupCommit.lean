import Fiberd.Audit.SpoolKit
import Fiberd.Audit.SpoolProcess
import Fiberd.Lib.Parties

/-!
Group commit: what the fsyncs a spool's calls lead and wait for make durable.
An invariant of the process says who has `mu` and `syncMu`, who leads, and what
each call's point rests on; a weight that every step lowers says that the calls
return.
-/

namespace Fiberd

open Machines Parties

/-- An fsync that ended well began when this many records were written. -/
def Durable (syncs : List (Nat × Option String)) (count : Nat) : Prop :=
  ∃ began, count ≤ began ∧ (began, none) ∈ syncs

def FsyncFailed (syncs : List (Nat × Option String)) : Prop :=
  ∃ began error, (began, some error) ∈ syncs

def SpoolPoint.hasMu : SpoolPoint → Bool
  | .gapping | .recording | .signing _ => true
  | _ => false

def SpoolPoint.hasSyncMu : SpoolPoint → Bool
  | .capturing .. | .releasing .. => true
  | _ => false

def SpoolPoint.leads : SpoolPoint → Bool
  | .capturing .. | .releasing .. | .flushing .. | .fsyncing .. | .flushed .. => true
  | _ => false

def SpoolPoint.waits : SpoolPoint → Bool
  | .waiting .. => true
  | _ => false

def SpoolPoint.hasFailed : SpoolPoint → Bool
  | .flushed _ _ _ error => error.isSome
  | _ => false

def SpoolPoint.Fits (call : SpoolCall) (written : Nat) (syncs : List (Nat × Option String)) :
    SpoolPoint → Prop
  | .start | .gapping | .recording => True
  | .closing .. => call = .close
  | .signing own => own ≤ written ∧ (call ≠ .close → 0 < own)
  | .syncing own n | .waiting own n | .capturing own n =>
    own ≤ n ∧ n ≤ written ∧ (call ≠ .close → 0 < own)
  | .releasing own n upto | .flushing own n upto =>
    own ≤ n ∧ n ≤ upto ∧ upto ≤ written ∧ (call ≠ .close → 0 < own)
  | .fsyncing own n upto began =>
    own ≤ n ∧ n ≤ upto ∧ upto ≤ began ∧ began ≤ written ∧ (call ≠ .close → 0 < own)
  | .flushed own n upto error =>
    own ≤ n ∧ n ≤ upto ∧ upto ≤ written ∧ (∃ began, upto ≤ began ∧ (began, error) ∈ syncs) ∧
      (call ≠ .close → 0 < own)
  | .returned own error => ∀ record, call = .append .sync record → error = none →
      Durable syncs own

def SpoolPoint.phase : SpoolPoint → Nat
  | .start => 11
  | .gapping => 10
  | .recording => 9
  | .signing _ => 8
  | .syncing .. | .waiting .. => 7
  | .capturing .. => 6
  | .releasing .. => 5
  | .flushing .. => 4
  | .fsyncing .. => 3
  | .flushed .. => 2
  | .closing .. => 1
  | .returned .. => 0

def SpoolPoint.weight (count : Nat) (point : SpoolPoint) : Nat :=
  point.phase * (count + 1) +
    match point with
    | .syncing .. => 1
    | _ => 0

variable {syncs later : List (Nat × Option String)}

theorem Durable.mono {count : Nat}
    (durable : Durable syncs count) (grows : syncs ⊆ later) : Durable later count := by
  obtain ⟨began, above, mem⟩ := durable
  exact ⟨began, above, grows mem⟩

theorem SpoolPoint.Fits.mono {call : SpoolCall} {point : SpoolPoint} {written more : Nat}
    (fits : point.Fits call written syncs)
    (rises : written ≤ more) (grows : syncs ⊆ later) : point.Fits call more later := by
  cases point with
  | start | gapping | recording => trivial
  | closing => exact fits
  | signing => exact ⟨fits.1.trans rises, fits.2⟩
  | syncing | waiting | capturing => exact ⟨fits.1, fits.2.1.trans rises, fits.2.2⟩
  | releasing | flushing => exact ⟨fits.1, fits.2.1, fits.2.2.1.trans rises, fits.2.2.2⟩
  | fsyncing =>
    obtain ⟨own, upto, began, below, counted⟩ := fits
    exact ⟨own, upto, began, below.trans rises, counted⟩
  | flushed =>
    obtain ⟨own, upto, below, ⟨began, above, mem⟩, counted⟩ := fits
    exact ⟨own, upto, below.trans rises, ⟨began, above, grows mem⟩, counted⟩
  | returned =>
    intro record same none_
    exact (fits record same none_).mono grows

section Writes

variable {κ π : Type} {kit : AuditKit κ π}

theorem Spool.write_written (spool : Spool κ) (file : Bytes) (record : AuditRecord) (now : Time)
    (ends : WriteEnd) : spool.written ≤ (spool.write kit file record now ends).2.1.written ∧
      ((spool.write kit file record now ends).1 = none →
        0 < (spool.write kit file record now ends).2.1.written) := by
  unfold write
  cases spool.text kit record now with
  | error error => simp [failed]
  | ok pair =>
    cases ends with
    | landed => simp [landed]
    | failed count error => simp [failed]

theorem Spool.perform_written (spool : Spool κ) (file : Bytes) (op : SpoolOp) (now : Time)
    (ends : WriteEnd) : spool.written ≤ (spool.perform kit file op now ends).2.1.written := by
  cases op with
  | shut => exact le_refl _
  | gap =>
    simp only [perform, writeGap]
    cases spool.lost with
    | none => exact le_refl _
    | some lost =>
      have rises := (@write_written _ _ kit { spool with lost := none } file
        (spool.gapRecord lost) now ends).1
      dsimp only at rises ⊢
      split
      · rename_i ran
        rwa [ran] at rises
      · rename_i ran
        rwa [ran] at rises
  | record record => exact (write_written spool file record now ends).1
  | signDue | signRest =>
    simp only [perform]
    split
    · rename_i cp _
      have rises := (@write_written _ _ kit spool file (spool.checkpointRecord kit cp) now
        ends).1
      simp only [checkpoint]
      split
      · rename_i ran
        rwa [ran] at rises
      · rename_i ran
        rwa [ran] at rises
    · exact le_refl _

end Writes

section Points

variable {κ π : Type} {kit : AuditKit κ π} {process next : SpoolProcess κ} {leader : Option Nat}
  {thread : Nat} {call : SpoolCall} {old new : SpoolPoint}

structure Grouped (process : SpoolProcess κ) (leader : Option Nat) : Prop where
  fits : ∀ thread call point, process.At thread call point →
    point.Fits call process.spool.written process.syncs
  mu : Owned (fun call => call.2.hasMu) process.mu process.calls
  syncMu : Owned (fun call => call.2.hasSyncMu) process.syncMu process.calls
  leads : Owned (fun call => call.2.leads) leader process.calls
  syncing : process.syncing = leader.isSome
  waits : ∀ thread call point, process.At thread call point → point.waits = true →
    leader.isSome = true
  synced : process.synced = 0 ∨ Durable process.syncs process.synced
  poison : process.poison.isSome = true → leader = none
  failed : FsyncFailed process.syncs → process.poison.isSome = true ∨
    ∃ thread call point, process.At thread call point ∧ point.hasFailed = true

variable {other own written n upto : Nat} {otherCall : SpoolCall} {point : SpoolPoint}

theorem at_set (calls : next.calls = process.calls.set thread (call, new))
    (there : next.At other otherCall point) : (other = thread ∧ otherCall = call ∧ point = new) ∨
      (other ≠ thread ∧ process.At other otherCall point) := by
  rw [SpoolProcess.At, calls, List.getElem?_set] at there
  by_cases same : thread = other
  · rw [if_pos same] at there
    split at there
    · simp only [Option.some.injEq, Prod.mk.injEq] at there
      exact .inl ⟨same.symm, there.1.symm, there.2.symm⟩
    · simp at there
  · rw [if_neg same] at there
    exact .inr ⟨Ne.symm same, there⟩

theorem at_set_other
    (calls : next.calls = process.calls.set thread (call, new)) (apart : other ≠ thread)
    (there : process.At other otherCall point) : next.At other otherCall point := by
  rw [SpoolProcess.At, calls, List.getElem?_set, if_neg (Ne.symm apart)]
  exact there

theorem at_unique (here : process.At thread call old)
    (there : process.At thread otherCall point) : old = point := by
  rw [SpoolProcess.At] at here there
  rw [here, Option.some.injEq, Prod.mk.injEq] at there
  exact there.2

theorem SpoolPoint.leads_of_hasFailed (isFailed : point.hasFailed = true) : point.leads = true := by
  cases point with
  | flushed => rfl
  | _ => simp [hasFailed] at isFailed

def SpoolPoint.below : SpoolPoint → SpoolPoint → Bool
  | .waiting .., .syncing .. => true
  | new, old => new.phase < old.phase

theorem SpoolPoint.weight_lt (below : new.below old = true) (count : Nat) (some_ : 1 ≤ count) :
    new.weight count < old.weight count := by
  unfold SpoolPoint.below at below
  split at below
  · simp [weight, phase]
  · have step : (new.phase + 1) * (count + 1) ≤ old.phase * (count + 1) :=
      Nat.mul_le_mul_right _ (of_decide_eq_true below)
    rw [Nat.succ_mul] at step
    unfold weight
    cases new <;> dsimp only <;> omega

/-- A step of one call that neither begins to lead an fsync nor ends one. -/
structure Shift (process next : SpoolProcess κ) (thread : Nat) (call : SpoolCall)
    (old new : SpoolPoint) : Prop where
  calls : next.calls = process.calls.set thread (call, new)
  fits : process.synced = 0 ∨ Durable process.syncs process.synced →
    old.Fits call process.spool.written process.syncs →
      new.Fits call next.spool.written process.syncs
  rises : process.spool.written ≤ next.spool.written
  mu : Turns thread process.mu next.mu old.hasMu new.hasMu
  syncMu : Turns thread process.syncMu next.syncMu old.hasSyncMu new.hasSyncMu
  waits : new.waits = true → process.syncing = true
  points : (new.below old, new.leads, old.hasFailed) = (true, old.leads, false)
  kept : (next.syncing, next.synced, next.poison) =
    (process.syncing, process.synced, process.poison)
  syncs : next.syncs = process.syncs

theorem Grouped.shift (grouped : Grouped process leader) (here : process.At thread call old)
    (shift : Shift process next thread call old new) : Grouped next leader := by
  obtain ⟨calls, fits, rises, mu, syncMu, waits, points, kept, syncs⟩ := shift
  simp only [Prod.mk.injEq] at points kept
  obtain ⟨_, leads, failed⟩ := points
  obtain ⟨syncing, synced, poison⟩ := kept
  refine ⟨?_, ?_, ?_, ?_, ?_, ?_, ?_, ?_, ?_⟩
  · intro other otherCall point there
    rw [syncs]
    rcases at_set calls there with ⟨_, rfl, rfl⟩ | ⟨_, before⟩
    · exact fits grouped.synced (grouped.fits thread _ old here)
    · exact (grouped.fits other otherCall point before).mono rises (List.Subset.refl _)
  · rw [calls]
    exact grouped.mu.turns here mu
  · rw [calls]
    exact grouped.syncMu.turns here syncMu
  · rw [calls]
    exact grouped.leads.set_same here leads
  · rw [syncing, grouped.syncing]
  · intro other otherCall point there isWaiting
    rcases at_set calls there with ⟨_, _, rfl⟩ | ⟨_, before⟩
    · rw [← grouped.syncing]
      exact waits isWaiting
    · exact grouped.waits other otherCall point before isWaiting
  · rw [synced, syncs]
    exact grouped.synced
  · rw [poison]
    exact grouped.poison
  · rw [syncs, poison]
    intro fsyncFailed
    rcases grouped.failed fsyncFailed with poisoned | ⟨other, otherCall, point, there, hasFailed⟩
    · exact .inl poisoned
    · refine .inr ⟨other, otherCall, point, at_set_other calls ?_ there, hasFailed⟩
      rintro rfl
      rw [← at_unique here there, failed] at hasFailed
      simp at hasFailed

theorem perform_keeps (process : SpoolProcess κ) (op : Option SpoolOp) (env : SpoolEnv) :
    ∃ spool file, (process.perform kit op env).2 =
        { process with spool := spool, file := file } ∧
      process.spool.written ≤ spool.written := by
  cases op with
  | none => exact ⟨process.spool, process.file, rfl, le_refl _⟩
  | some op =>
    exact ⟨_, _, rfl, process.spool.perform_written process.file op env.now env.ends⟩

variable {env : SpoolEnv}

theorem enter_shift (free : process.mu = none) :
    ∃ new, Shift process (process.enter kit thread call env) thread call .start new := by
  unfold SpoolProcess.enter
  split
  · exact ⟨_, rfl, fun _ _ _ _ none_ => by simp at none_, le_refl _, .same, .same, nofun, rfl, rfl, rfl⟩
  · obtain ⟨spool, file, same, rises⟩ := perform_keeps process (call.op .start) env
    rw [same]
    refine ⟨_, rfl, fun _ _ => trivial, rises, ?_, .same, nofun, rfl, rfl, rfl⟩
    rw [free]
    exact .take

theorem gap_shift :
    ∃ new, Shift process (process.gap kit thread call env) thread call .gapping new := by
  obtain ⟨spool, file, same, rises⟩ := perform_keeps process (call.op .gapping) env
  unfold SpoolProcess.gap
  rw [same]
  cases call with
  | append _ _ => exact ⟨_, rfl, fun _ _ => trivial, rises, .same, .same, nofun, rfl, rfl, rfl⟩
  | close => exact ⟨_, rfl, fun _ _ => ⟨le_refl _, by simp⟩, rises, .same, .same, nofun, rfl, rfl, rfl⟩

theorem record_shift :
    ∃ new, Shift process (process.record kit thread call env) thread call .recording new := by
  obtain ⟨spool, file, same, rises⟩ := perform_keeps process (call.op .recording) env
  unfold SpoolProcess.record
  split
  · rename_i later ran
    rw [ran] at same
    dsimp only at same
    subst later
    refine ⟨_, rfl, fun _ _ => ⟨le_refl _, ?_⟩, rises, .same, .same, nofun, rfl, rfl, rfl⟩
    intro appends
    cases call with
    | close => simp at appends
    | append durability record =>
      have counted := (@Spool.write_written _ _ kit process.spool process.file record env.now
        env.ends).2
      have none_ := congrArg Prod.fst ran
      have written := congrArg (fun out => out.2.spool.written) ran
      simp only [SpoolProcess.perform, SpoolCall.op, Spool.perform] at none_ written
      rw [← written]
      exact counted none_
  · rename_i error later ran
    rw [ran] at same
    dsimp only at same
    subst later
    refine ⟨_, rfl, fun _ _ _ _ none_ => ?_, rises, .release, .same, nofun, rfl, rfl, rfl⟩
    simp at none_

theorem sign_shift :
    ∃ new, Shift process (process.sign kit thread call own env) thread call (.signing own) new := by
  obtain ⟨spool, file, same, rises⟩ := perform_keeps process (call.op (.signing own)) env
  unfold SpoolProcess.sign
  rw [same]
  split
  case h_1 | h_2 =>
    refine ⟨_, rfl, fun _ _ => ?_, rises, .release, .same, nofun, rfl, rfl, rfl⟩
    simp [SpoolPoint.Fits]
  all_goals
    refine ⟨_, rfl, fun _ fits => ?_, rises, .release, .same, nofun, rfl, rfl, rfl⟩
    exact ⟨fits.1.trans rises, le_refl _, fits.2⟩

variable {error : Option String} {syncs : List (Nat × Option String)}

theorem synced_shift
    (durable : process.synced = 0 ∨ Durable process.syncs process.synced → own ≤ n →
      (call ≠ .close → 0 < own) → error = none → call ≠ .close → Durable process.syncs own) :
    Shift process (process.moveTo thread call (call.synced own error)) thread call
      (.syncing own n) (call.synced own error) := by
  cases call with
  | close => exact ⟨rfl, fun _ _ => rfl, le_refl _, .same, .same, nofun, rfl, rfl, rfl⟩
  | append durability record =>
    refine ⟨rfl, fun synced fits _ _ none_ => ?_, le_refl _, .same, .same, nofun, rfl, rfl, rfl⟩
    exact durable synced fits.1 fits.2.2 (by simpa using none_) (by simp)

theorem check_cases (process : SpoolProcess κ) (thread : Nat) (call : SpoolCall) (own n : Nat) :
    (∃ new, Shift process (process.check thread call own n) thread call (.syncing own n) new) ∨
      process.poison = none ∧ process.syncing = false ∧
        process.check thread call own n = { process.moveTo thread call (.capturing own n) with
          syncing := true
          syncMu := some thread } := by
  unfold SpoolProcess.check
  split
  · rename_i covered
    refine .inl ⟨_, synced_shift ?_⟩
    rintro (zero | ⟨began, above, mem⟩) below counted _ appends
    · have positive := counted appends
      omega
    · exact ⟨began, by omega, mem⟩
  · split
    · exact .inl ⟨_, synced_shift (by simp)⟩
    · rename_i healthy
      split
      · rename_i inFlight
        exact .inl ⟨_, rfl, fun _ => id, le_refl _, .same, .same, fun _ => inFlight, rfl, rfl, rfl⟩
      · rename_i idle
        exact .inr ⟨healthy, by simpa using idle, rfl⟩

theorem Grouped.check (grouped : Grouped process leader)
    (here : process.At thread call (.syncing own n)) (free : process.syncMu = none) :
    ∃ leader, Grouped (process.check thread call own n) leader := by
  obtain ⟨new, shift⟩ | ⟨healthy, idle, same⟩ := check_cases process thread call own n
  · exact ⟨leader, grouped.shift here shift⟩
  · obtain ⟨bound, _⟩ := List.getElem?_eq_some_iff.mp here
    have open_ := grouped.syncMu
    rw [free] at open_
    have none_ : leader = none := by simpa [grouped.syncing] using idle
    subst none_
    rw [same]
    refine ⟨some thread, ?_, grouped.mu.set_same here rfl, open_.take bound rfl,
      grouped.leads.take bound rfl, rfl, by simp, grouped.synced, ?_, ?_⟩
    · intro other otherCall point there
      rcases at_set rfl there with ⟨_, rfl, rfl⟩ | ⟨_, old⟩
      · have fits := grouped.fits thread _ _ here
        exact fits
      · exact grouped.fits other otherCall point old
    · intro poisoned
      change process.poison.isSome = true at poisoned
      simp [healthy] at poisoned
    · intro fsyncFailed
      rcases grouped.failed fsyncFailed with poisoned | ⟨other, otherCall, point, there, isFailed⟩
      · simp [healthy] at poisoned
      · have nobody := grouped.leads.fails there
        simp [SpoolPoint.leads_of_hasFailed isFailed] at nobody

theorem Grouped.ended {began : Nat} (grouped : Grouped process leader)
    (here : process.At thread call (.fsyncing own n upto began)) (error : Option String) :
    Grouped { process.moveTo thread call (.flushed own n upto error) with
      syncs := process.syncs ++ [(began, error)] } leader := by
  obtain ⟨below, covers, above, written, counted⟩ := grouped.fits thread call _ here
  have grows : process.syncs ⊆ process.syncs ++ [(began, error)] := List.subset_append_left _ _
  have led := grouped.leads.owns here rfl
  refine ⟨?_, grouped.mu.set_same here rfl, grouped.syncMu.set_same here rfl,
    grouped.leads.set_same here rfl, grouped.syncing, ?_, ?_, grouped.poison, ?_⟩
  · intro other otherCall point there
    rcases at_set rfl there with ⟨_, rfl, rfl⟩ | ⟨_, old⟩
    · exact ⟨below, covers, above.trans written, ⟨began, above, by simp⟩, counted⟩
    · exact (grouped.fits other otherCall point old).mono (le_refl _) grows
  · intro _ _ _ _ _
    rw [led]
    rfl
  · rcases grouped.synced with zero | durable
    · exact .inl zero
    · exact .inr (durable.mono grows)
  · rintro ⟨early, failure, mem⟩
    rcases List.mem_append.mp mem with old | now
    · rcases grouped.failed ⟨early, failure, old⟩ with poisoned | ⟨other, otherCall, point,
        there, isFailed⟩
      · exact .inl poisoned
      · refine .inr ⟨other, otherCall, point, at_set_other rfl ?_ there, isFailed⟩
        rintro rfl
        rw [← at_unique here there] at isFailed
        simp [SpoolPoint.hasFailed] at isFailed
    · simp only [List.mem_singleton, Prod.mk.injEq] at now
      obtain ⟨bound, _⟩ := List.getElem?_eq_some_iff.mp here
      refine .inr ⟨thread, call, .flushed own n upto error, ?_, ?_⟩
      · simp [SpoolProcess.At, SpoolProcess.moveTo, bound]
      · simp [SpoolPoint.hasFailed, ← now.2]

theorem at_wake (there : (process.settle upto error).At thread call point) :
    ∃ old, process.At thread call old ∧ point = old.wake := by
  simp only [SpoolProcess.At, SpoolProcess.settle, List.getElem?_map, Option.map_eq_some_iff,
    Prod.exists, Prod.mk.injEq] at there
  obtain ⟨_, old, known, rfl, rfl⟩ := there
  exact ⟨old, known, rfl⟩

theorem SpoolPoint.wake_eq (point : SpoolPoint) :
    point.wake.hasMu = point.hasMu ∧ point.wake.hasSyncMu = point.hasSyncMu ∧
      point.wake.leads = point.leads ∧ point.wake.waits = false := by
  cases point <;> exact ⟨rfl, rfl, rfl, rfl⟩

theorem SpoolPoint.Fits.wake (fits : point.Fits call written syncs) :
    point.wake.Fits call written syncs := by
  cases point <;> exact fits

theorem Grouped.settle
    (grouped : Grouped process leader) (here : process.At thread call (.flushed own n upto error)) :
    Grouped ((process.settle upto error).moveTo thread call (.syncing own n)) none := by
  obtain ⟨below, covers, written, ⟨began, above, mem⟩, counted⟩ := grouped.fits thread call _ here
  have led := grouped.leads.owns here rfl
  have there : (process.settle upto error).At thread call (.flushed own n upto error) := by
    simp only [SpoolProcess.At] at here
    simp [SpoolProcess.At, SpoolProcess.settle, here, SpoolPoint.wake]
  refine ⟨?_, ?_, ?_, ?_, rfl, ?_, ?_, by simp, ?_⟩
  · intro other otherCall point now
    rcases at_set rfl now with ⟨_, rfl, rfl⟩ | ⟨_, old⟩
    · exact ⟨below, covers.trans written, counted⟩
    · obtain ⟨earlier, known, rfl⟩ := at_wake old
      exact (grouped.fits other otherCall earlier known).wake
  · exact (grouped.mu.map fun party => party.2.wake_eq.1).set_same there rfl
  · exact (grouped.syncMu.map fun party => party.2.wake_eq.2.1).set_same there rfl
  · exact (grouped.leads.map fun party => party.2.wake_eq.2.2.1).release there rfl rfl
  · intro other otherCall point now isWaiting
    rcases at_set rfl now with ⟨_, _, rfl⟩ | ⟨_, old⟩
    · simp [SpoolPoint.waits] at isWaiting
    · obtain ⟨earlier, _, rfl⟩ := at_wake old
      rw [earlier.wake_eq.2.2.2] at isWaiting
      simp at isWaiting
  · change (if error.isNone then max process.synced upto else process.synced) = 0 ∨
      Durable process.syncs (if error.isNone then max process.synced upto else process.synced)
    cases error with
    | some error => exact grouped.synced
    | none =>
      right
      simp only [Option.isNone_none, if_true]
      rcases grouped.synced with zero | ⟨early, bound, known⟩
      · exact ⟨began, by omega, mem⟩
      · by_cases order : began ≤ early
        · exact ⟨early, by omega, known⟩
        · exact ⟨began, by omega, mem⟩
  · intro fsyncFailed
    left
    change (error.or process.poison).isSome = true
    cases error with
    | some error => rfl
    | none =>
      rcases grouped.failed fsyncFailed with poisoned | ⟨other, otherCall, point, known, isFailed⟩
      · exact poisoned
      · have theirs := grouped.leads.owns known (SpoolPoint.leads_of_hasFailed isFailed)
        cases led.symm.trans theirs
        rw [← at_unique here known] at isFailed
        simp [SpoolPoint.hasFailed] at isFailed

theorem check_moveTo (process : SpoolProcess κ) (thread : Nat) (call : SpoolCall) (own n : Nat)
    (point : SpoolPoint) : (process.moveTo thread call point).check thread call own n =
      process.check thread call own n := by
  simp [SpoolProcess.check, SpoolProcess.moveTo, List.set_set]

def SpoolPoint.shifts : SpoolPoint → Bool
  | .syncing .. | .fsyncing .. | .flushed .. => false
  | _ => true

theorem step_shift (step : process.CallStep kit thread env call old next)
    (plain : old.shifts = true) : ∃ new, Shift process next thread call old new := by
  cases step with
  | enter free => exact enter_shift free
  | gap => exact gap_shift
  | record => exact record_shift
  | sign own => exact sign_shift
  | capture own n free =>
    refine ⟨_, rfl, fun _ fits => ?_, le_refl _, .same, .same, nofun, rfl, rfl, rfl⟩
    exact ⟨fits.1, fits.2.1, le_refl _, fits.2.2⟩
  | release => exact ⟨_, rfl, fun _ => id, le_refl _, .same, .release, nofun, rfl, rfl, rfl⟩
  | begin_ own n upto =>
    refine ⟨_, rfl, fun _ fits => ?_, le_refl _, .same, .same, nofun, rfl, rfl, rfl⟩
    exact ⟨fits.1, fits.2.1, fits.2.2.1, le_refl _, fits.2.2.2⟩
  | close own error free =>
    refine ⟨_, rfl, fun _ closes => ?_, le_refl _, .same, .same, nofun, rfl, rfl, rfl⟩
    change call = .close at closes
    simp [SpoolPoint.Fits, closes]
  | _ => simp [SpoolPoint.shifts] at plain

theorem Grouped.act (grouped : Grouped process leader)
    (took : process.act kit thread env = some next) : ∃ leader, Grouped next leader := by
  obtain ⟨call, point, here, step⟩ := SpoolProcess.act_cases took
  by_cases plain : point.shifts = true
  · obtain ⟨new, shift⟩ := step_shift step plain
    exact ⟨leader, grouped.shift here shift⟩
  cases step with
  | check own n free => exact grouped.check here free
  | end_ own n upto began => exact ⟨leader, grouped.ended here env.error⟩
  | settle own n upto error free =>
    obtain ⟨bound, _⟩ := List.getElem?_eq_some_iff.mp here
    rw [← check_moveTo _ thread call own n (.syncing own n)]
    refine (grouped.settle here).check ?_ free
    simp [SpoolProcess.At, SpoolProcess.moveTo, SpoolProcess.settle, bound]
  | _ => simp [SpoolPoint.shifts] at plain

theorem Grouped.start (grouped : Grouped process leader) (call : SpoolCall) :
    Grouped { process with calls := process.calls ++ [(call, .start)] } leader := by
  have old : ∀ other otherCall point,
      SpoolProcess.At { process with calls := process.calls ++ [(call, .start)] } other otherCall
        point → process.At other otherCall point ∨ point = .start := by
    intro other otherCall point there
    rw [SpoolProcess.At, List.getElem?_append] at there
    split at there
    · exact .inl there
    · have mem := List.mem_of_getElem? there
      simp only [List.mem_singleton, Prod.mk.injEq] at mem
      exact .inr mem.2
  refine ⟨?_, grouped.mu.snoc rfl, grouped.syncMu.snoc rfl, grouped.leads.snoc rfl,
    grouped.syncing, ?_, grouped.synced, grouped.poison, ?_⟩
  · intro other otherCall point there
    rcases old other otherCall point there with before | rfl
    · exact grouped.fits other otherCall point before
    · trivial
  · intro other otherCall point there isWaiting
    rcases old other otherCall point there with before | rfl
    · exact grouped.waits other otherCall point before isWaiting
    · simp [SpoolPoint.waits] at isWaiting
  · intro fsyncFailed
    rcases grouped.failed fsyncFailed with poisoned | ⟨other, otherCall, point, there, isFailed⟩
    · exact .inl poisoned
    · refine .inr ⟨other, otherCall, point, ?_, isFailed⟩
      obtain ⟨bound, _⟩ := List.getElem?_eq_some_iff.mp there
      rw [SpoolProcess.At, List.getElem?_append_left bound]
      exact there

theorem grouped_of_reachable (reached : (processMachine kit).Reachable process) :
    ∃ leader, Grouped process leader := by
  have initial : ∀ process, (processMachine kit).start process →
      ∃ leader, Grouped process leader := by
    rintro _ ⟨spool, file, rfl⟩
    refine ⟨none, ?_, ?_, ?_, ?_, rfl, ?_, .inl rfl, by simp, ?_⟩
    · simp [SpoolProcess.At]
    · simp [Owned]
    · simp [Owned]
    · simp [Owned]
    · simp [SpoolProcess.At]
    · simp [FsyncFailed]
  have kept : ∀ process label next, (∃ leader, Grouped process leader) →
      (processMachine kit).step process label = some next → ∃ leader, Grouped next leader := by
    rintro process label next ⟨leader, grouped⟩ took
    cases label with
    | start call =>
      cases took
      exact ⟨leader, grouped.start call⟩
    | act thread env => exact grouped.act took
  exact reached.keeps initial kept

end Points

section Returns

variable {κ π : Type} {kit : AuditKit κ π} {process next : SpoolProcess κ} {leader : Option Nat}
  {thread : Nat} {call : SpoolCall} {old new : SpoolPoint} {env : SpoolEnv}

def SpoolProcess.work (process : SpoolProcess κ) : Nat :=
  total (fun call => call.2.weight process.calls.length) process.calls

theorem SpoolPoint.weight_wake (count : Nat) (point : SpoolPoint) :
    point.wake.weight count ≤ point.weight count + 1 := by
  cases point with
  | waiting => simp [wake, weight, phase]
  | _ => simp [wake]

theorem work_move (here : process.At thread call old)
    (calls : next.calls = process.calls.set thread (call, new)) (lower : 1 ≤ process.calls.length →
      new.weight process.calls.length < old.weight process.calls.length) :
    next.work < process.work := by
  obtain ⟨bound, _⟩ := List.getElem?_eq_some_iff.mp here
  have moved := @total_set _ _ _ _ (call, new)
    (fun call => call.2.weight process.calls.length) here
  have less := lower (by omega)
  simp only [SpoolProcess.work, calls, List.length_set]
  dsimp only at moved
  omega

variable {own n upto : Nat}

theorem work_shift (here : process.At thread call old)
    (shift : Shift process next thread call old new) : next.work < process.work :=
  work_move here shift.calls (SpoolPoint.weight_lt (Prod.mk.inj shift.points).1 _)

theorem work_check (here : process.At thread call (.syncing own n)) :
    (process.check thread call own n).work < process.work := by
  obtain ⟨new, shift⟩ | ⟨_, _, same⟩ := check_cases process thread call own n
  · exact work_shift here shift
  · rw [same]
    exact work_move here rfl (SpoolPoint.weight_lt rfl _)

theorem settle_check {error : Option String} (covers : n ≤ upto) :
    ∃ out, (process.settle upto error).check thread call own n =
      (process.settle upto error).moveTo thread call (call.synced own out) := by
  unfold SpoolProcess.check
  cases error with
  | none =>
    have covered : n ≤ (process.settle upto none).synced := by
      simp [SpoolProcess.settle, covers]
    exact ⟨none, if_pos covered⟩
  | some error =>
    split
    · exact ⟨none, rfl⟩
    · exact ⟨some error, rfl⟩

theorem work_settle {error : Option String} (covers : n ≤ upto)
    (here : process.At thread call (.flushed own n upto error)) :
    ((process.settle upto error).check thread call own n).work < process.work := by
  obtain ⟨out, same⟩ := @settle_check _ process thread call own n upto error covers
  obtain ⟨bound, _⟩ := List.getElem?_eq_some_iff.mp here
  have there : (process.settle upto error).At thread call (.flushed own n upto error) := by
    simp only [SpoolProcess.At] at here
    simp [SpoolProcess.At, SpoolProcess.settle, here, SpoolPoint.wake]
  have woken := @total_map_le _ (fun call => call.2.weight process.calls.length)
    (fun call : SpoolCall × SpoolPoint => (call.1, call.2.wake)) 1
    (fun call => call.2.weight_wake process.calls.length) process.calls
  have moved := @total_set _ _ _ _ (call, call.synced own out)
    (fun call => call.2.weight process.calls.length) there
  have low : (call.synced own out).weight process.calls.length ≤ process.calls.length + 1 := by
    cases call <;> simp [SpoolCall.synced, SpoolPoint.weight, SpoolPoint.phase]
  rw [same]
  simp only [SpoolProcess.work, SpoolProcess.moveTo, SpoolProcess.settle, List.length_set,
    List.length_map] at moved ⊢
  simp only [SpoolPoint.weight, SpoolPoint.phase] at woken moved low ⊢
  omega

theorem Grouped.lowers (grouped : Grouped process leader)
    (took : process.act kit thread env = some next) : next.work < process.work := by
  obtain ⟨call, point, here, step⟩ := SpoolProcess.act_cases took
  by_cases plain : point.shifts = true
  · obtain ⟨new, shift⟩ := step_shift step plain
    exact work_shift here shift
  cases step with
  | check own n free => exact work_check here
  | end_ own n upto began =>
    exact work_move here rfl (SpoolPoint.weight_lt rfl _)
  | settle own n upto error free => exact work_settle (grouped.fits thread call _ here).2.1 here
  | _ => simp [SpoolPoint.shifts] at plain

def ProcessLabel.acts : ProcessLabel → Bool
  | .start _ => false
  | .act .. => true

theorem Grouped.bounds {labels : List ProcessLabel} {later : SpoolProcess κ}
    (grouped : Grouped process leader) (run : (processMachine kit).exec process labels = some later)
    (acts : ∀ label ∈ labels, label.acts = true) : later.work + labels.length ≤ process.work := by
  induction labels generalizing process leader with
  | nil =>
    simp only [exec_nil, Option.some.injEq] at run
    simp [run]
  | cons label labels ih =>
    obtain ⟨next, took, rest⟩ := exec_cons_eq_some.mp run
    cases label with
    | start call =>
      have act := acts _ List.mem_cons_self
      simp [ProcessLabel.acts] at act
    | act thread env =>
      obtain ⟨_, kept⟩ := grouped.act took
      have less := grouped.lowers took
      have bound := ih kept rest fun label mem => acts label (List.mem_cons_of_mem _ mem)
      simp only [List.length_cons]
      omega

def SpoolPoint.isReturned : SpoolPoint → Bool
  | .returned .. => true
  | _ => false

theorem act_isSome (here : process.At thread call old) (mu : process.mu = none)
    (syncMu : process.syncMu = none) (moves : old.waits = false) (runs : old.isReturned = false)
    (env : SpoolEnv) : (process.act kit thread env).isSome = true := by
  rw [SpoolProcess.At] at here
  cases old with
  | waiting => simp [SpoolPoint.waits] at moves
  | returned => simp [SpoolPoint.isReturned] at runs
  | _ => simp [SpoolProcess.act, here, mu, syncMu]

theorem Grouped.progress (grouped : Grouped process leader) (here : process.At thread call old)
    (runs : old.isReturned = false) :
    ∃ mover, ∀ env, (process.act kit mover env).isSome = true := by
  cases mu : process.mu with
  | some holder =>
    obtain ⟨⟨holding, point⟩, there, has⟩ := (grouped.mu holder).mp mu
    refine ⟨holder, ?_⟩
    intro env
    cases point with
    | gapping | recording | signing => simp [SpoolProcess.act, there]
    | _ => simp [SpoolPoint.hasMu] at has
  | none =>
    cases syncMu : process.syncMu with
    | some holder =>
      obtain ⟨⟨holding, point⟩, there, has⟩ := (grouped.syncMu holder).mp syncMu
      refine ⟨holder, ?_⟩
      intro env
      cases point with
      | capturing | releasing => simp [SpoolProcess.act, there, mu]
      | _ => simp [SpoolPoint.hasSyncMu] at has
    | none =>
      cases waits : old.waits with
      | false => exact ⟨thread, act_isSome here mu syncMu waits runs⟩
      | true =>
        obtain ⟨lead, led⟩ := Option.isSome_iff_exists.mp
          (grouped.waits thread call old here waits)
        obtain ⟨⟨leading, point⟩, there, leads⟩ := (grouped.leads lead).mp led
        refine ⟨lead, act_isSome there mu syncMu ?_ ?_⟩
        · cases point <;> simp_all [SpoolPoint.leads, SpoolPoint.waits]
        · cases point <;> simp_all [SpoolPoint.leads, SpoolPoint.isReturned]

end Returns

section Commits

variable {κ π : Type} {kit : AuditKit κ π} {process next : SpoolProcess κ} {leader : Option Nat}
  {thread : Nat} {env : SpoolEnv}

def SpoolProcess.InFlight (process : SpoolProcess κ) (thread : Nat) : Prop :=
  ∃ call own n upto began, process.At thread call (.fsyncing own n upto began)

theorem Grouped.quiet (grouped : Grouped process leader) (failed : FsyncFailed process.syncs)
    (thread : Nat) : ¬process.InFlight thread := by
  rintro ⟨call, own, n, upto, began, here⟩
  have led := grouped.leads.owns here rfl
  rcases grouped.failed failed with poisoned | ⟨other, otherCall, point, there, isFailed⟩
  · rw [grouped.poison poisoned] at led
    simp at led
  · have theirs := grouped.leads.owns there (SpoolPoint.leads_of_hasFailed isFailed)
    cases led.symm.trans theirs
    rw [← at_unique here there] at isFailed
    simp [SpoolPoint.hasFailed] at isFailed

theorem check_syncs (process : SpoolProcess κ) (thread : Nat) (call : SpoolCall) (own n : Nat) :
    (process.check thread call own n).syncs = process.syncs := by
  obtain ⟨new, shift⟩ | ⟨_, _, same⟩ := check_cases process thread call own n
  · exact shift.syncs
  · rw [same]
    rfl

theorem act_syncs (idle : ¬process.InFlight thread)
    (took : process.act kit thread env = some next) : next.syncs = process.syncs := by
  obtain ⟨call, point, here, step⟩ := SpoolProcess.act_cases took
  by_cases plain : point.shifts = true
  · obtain ⟨new, shift⟩ := step_shift step plain
    exact shift.syncs
  cases step with
  | check own n free => exact check_syncs process thread call own n
  | end_ own n upto began => exact (idle ⟨call, own, n, upto, began, here⟩).elim
  | settle own n upto error free => exact check_syncs _ thread call own n
  | _ => simp [SpoolPoint.shifts] at plain

theorem Grouped.frozen {labels : List ProcessLabel} {later : SpoolProcess κ}
    (grouped : Grouped process leader) (failed : FsyncFailed process.syncs)
    (run : (processMachine kit).exec process labels = some later) :
    later.syncs = process.syncs := by
  induction labels generalizing process leader with
  | nil =>
    simp only [exec_nil, Option.some.injEq] at run
    rw [run]
  | cons label labels ih =>
    obtain ⟨next, took, rest⟩ := exec_cons_eq_some.mp run
    cases label with
    | start call =>
      cases took
      have same := ih (grouped.start call) failed rest
      exact same
    | act thread env =>
      obtain ⟨_, kept⟩ := grouped.act took
      have same := act_syncs (grouped.quiet failed thread) took
      rw [← same] at failed ⊢
      exact ih kept failed rest

theorem group_commit (reached : (processMachine kit).Reachable process) :
    (∀ thread record own, process.At thread (.append .sync record) (.returned own none) →
      Durable process.syncs own) ∧
    (FsyncFailed process.syncs → ∀ labels later,
      (processMachine kit).exec process labels = some later →
        later.syncs = process.syncs ∧ (∀ thread, ¬later.InFlight thread) ∧
          ∀ thread record own error,
            later.At thread (.append .sync record) (.returned own error) →
            ¬Durable process.syncs own → error ≠ none) ∧
    (∀ labels later, (processMachine kit).exec process labels = some later →
      (∀ label ∈ labels, label.acts = true) → labels.length ≤ process.work) ∧
    ∀ thread call point, process.At thread call point → point.isReturned = false →
      ∃ mover, ∀ env, (process.act kit mover env).isSome = true := by
  obtain ⟨leader, grouped⟩ := grouped_of_reachable reached
  refine ⟨?_, ?_, ?_, ?_⟩
  · intro thread record own returned
    exact grouped.fits thread _ _ returned record rfl rfl
  · intro failed labels later run
    obtain ⟨lead, kept⟩ := grouped_of_reachable (reached.trans run)
    have same := grouped.frozen failed run
    refine ⟨same, kept.quiet (same ▸ failed), ?_⟩
    rintro thread record own error returned uncovered rfl
    have durable : Durable later.syncs own := kept.fits thread _ _ returned record rfl rfl
    exact uncovered (same ▸ durable)
  · intro labels later run acts
    have bound := grouped.bounds run acts
    omega
  · intro thread call point here running
    exact grouped.progress here running

def appendRun (thread : Nat) (error : Option String) : List ProcessLabel :=
  .start (.append .sync {}) :: List.replicate 10 (.act thread ⟨1, .landed, error⟩)

theorem failing_run : ∃ process, (processMachine unaryKit).exec newSpool
        (appendRun 0 none ++ appendRun 1 (some "input/output error")) = some process ∧
      process.At 0 (.append .sync {}) (.returned 1 none) ∧
      process.syncs = [(1, none), (2, some "input/output error")] :=
  ⟨_, rfl, rfl, rfl⟩

theorem commits_until_failure :
    ∃ process, (processMachine unaryKit).Reachable process ∧
      process.At 0 (.append .sync {}) (.returned 1 none) ∧ Durable process.syncs 1 ∧
      FsyncFailed process.syncs ∧ ¬Durable process.syncs 2 ∧
      ∀ labels later, (processMachine unaryKit).exec process labels = some later →
        ∀ thread record error, later.At thread (.append .sync record) (.returned 2 error) →
          error ≠ none := by
  obtain ⟨process, run, returned, syncs⟩ := failing_run
  have reached : (processMachine unaryKit).Reachable process :=
    ⟨newSpool, _, ⟨_, _, rfl⟩, run⟩
  have failed : FsyncFailed process.syncs := by
    rw [syncs]
    exact ⟨2, "input/output error", by simp⟩
  have uncovered : ¬Durable process.syncs 2 := by
    rw [syncs]
    rintro ⟨began, above, mem⟩
    simp only [List.mem_cons, Prod.mk.injEq, List.not_mem_nil, reduceCtorEq, and_false,
      and_true, or_false] at mem
    omega
  obtain ⟨durable, refused, _, _⟩ := group_commit reached
  refine ⟨process, reached, returned, durable 0 {} 1 returned, failed, uncovered, ?_⟩
  intro labels later run thread record error there
  exact (refused failed labels later run).2.2 thread record 2 error there uncovered

end Commits

end Fiberd
