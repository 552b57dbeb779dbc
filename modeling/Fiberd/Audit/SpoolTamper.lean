import Fiberd.Audit.SpoolChain
import Fiberd.Audit.SpoolKit
import Fiberd.Lib.Chains
import Mathlib.Data.List.Chain

/-!
What an accepted spool says.  Its last hash determines the records of its chain.
Every number from the first to the last is accounted for once just if the first gap,
which the verifier cannot check, names none of them and no number wrapped.
-/

namespace Fiberd

open Tables Chains List Chain

/-- Records with one hash differ in nothing else. -/
def AuditKit.HashInjective {κ π : Type} (kit : AuditKit κ π) : Prop :=
  ∀ record twin hash, kit.recordHash record = .ok hash → kit.recordHash twin = .ok hash →
    { record with hash := "" } = { twin with hash := "" }

def seqCount (records : List AuditRecord) (number : UInt64) : Nat :=
  records.countP fun record => decide (record.seq = number)

def lostCount (records : List AuditRecord) (number : UInt64) : Nat :=
  records.countP fun record => record.missing.any fun lost => lost.has number

/-- Every number from the first record to the last is the number of one record and lost to no
gap, or the number of none and lost to one gap. -/
def Numbered (records : List AuditRecord) : Prop :=
  ∀ first last number, records.head? = some first → records.getLast? = some last →
    first.seq ≤ number → number ≤ last.seq →
      seqCount records number = 1 ∧ lostCount records number = 0 ∨
        seqCount records number = 0 ∧ lostCount records number = 1

def maxSeq : UInt64 := 18446744073709551615

def Rising (records : List AuditRecord) : Prop :=
  records.IsChain fun before record => before.seq < record.seq

/-- What the verifier does not check.  It matters where the last number is not below the first:
the numbers are to rise along the chain, as they do until one wraps, and a gap the chain starts
with is to name none of the numbers from the first to the last. -/
def Checked (records : List AuditRecord) : Prop :=
  ∀ first last, records.head? = some first → records.getLast? = some last →
    first.seq ≤ last.seq →
      Rising records ∧ ∀ lost number, first.missing = some lost → first.seq ≤ number →
        number ≤ last.seq → lost.has number = false

theorem toNat_succ {number : UInt64} (unwrapped : number ≠ maxSeq) :
    (number + 1).toNat = number.toNat + 1 := by
  have bound := number.toNat_lt
  have apart : number.toNat ≠ 18446744073709551615 := by
    intro same
    exact unwrapped (UInt64.toNat_inj.mp same)
  rw [UInt64.toNat_add, UInt64.toNat_one]
  omega

theorem SeqRange.has_iff (range : SeqRange) (number : UInt64) : range.has number = true ↔
      range.from_.toNat ≤ number.toNat ∧ number.toNat ≤ range.to_.toNat := by
  simp [has, UInt64.le_iff_toNat_le]

section Chains

variable {κ π : Type} {kit : AuditKit κ π} {trust : Table String π}

structure Sealed (kit : AuditKit κ π) (records : List AuditRecord) : Prop where
  linked : Linked AuditRecord.hash AuditRecord.prevHash "" records
  hashes : ∀ record ∈ records, kit.recordHash record = .ok record.hash
  chained : ∀ record ∈ records, record.hash ≠ ""

variable {records : List AuditRecord} {record : AuditRecord}

theorem Sealed.snoc {torn : Bool} (sealed_ : Sealed kit records) (hashed : record.hash ≠ "")
    (follows : Follows kit trust records.getLast? torn record) :
    Sealed kit (records ++ [record]) := by
  refine ⟨linked_snoc.mpr ⟨sealed_.linked, ?_⟩, ?_, ?_⟩
  · rw [lastLink_eq]
    exact follows.link
  · intro item mem
    rcases mem_append.mp mem with old | now
    · exact sealed_.hashes item old
    · rw [mem_singleton.mp now]
      exact follows.hash
  · intro item mem
    rcases mem_append.mp mem with old | now
    · exact sealed_.chained item old
    · rw [mem_singleton.mp now]
      exact hashed

theorem sealed_of_run {file : Bytes} {chain : Chain}
    (run : Chain.run kit trust {} (kit.read file) = some chain) : Sealed kit chain.records := by
  have start : Sealed kit (records {}) := ⟨trivial, by simp, by simp⟩
  refine run_keeps ?_ start run
  intro records torn record sealed_ hashed follows
  exact sealed_.snoc hashed follows

theorem Sealed.unique {first second : List AuditRecord} (injective : kit.HashInjective)
    (one : Sealed kit first) (two : Sealed kit second)
    (last : first.getLast?.map AuditRecord.hash = second.getLast?.map AuditRecord.hash) :
    first = second := by
  refine linked_unique one.linked two.linked ?_ ?_ (by rw [lastLink_eq, lastLink_eq, last])
  · intro item isItem twin isTwin same
    have content := injective item twin item.hash (one.hashes item isItem)
      (same ▸ two.hashes twin isTwin)
    obtain ⟨_, _, _, _, _, _, _, _, _, _, _, _, _⟩ := item
    obtain ⟨_, _, _, _, _, _, _, _, _, _, _, _, _⟩ := twin
    simp only [AuditRecord.mk.injEq] at content same ⊢
    simp [content, same]
  · intro item either
    rcases either with isFirst | isSecond
    · exact one.chained item isFirst
    · exact two.chained item isSecond

def AuditRecord.accounts (record : AuditRecord) (number : UInt64) : Nat :=
  (if record.seq = number then 1 else 0) +
    if record.missing.any (·.has number) = true then 1 else 0

def accounted (records : List AuditRecord) (number : UInt64) : Nat :=
  (records.map (·.accounts number)).sum

theorem seqCount_add_lostCount (records : List AuditRecord) (number : UInt64) :
    seqCount records number + lostCount records number = accounted records number := by
  induction records with
  | nil => rfl
  | cons record rest ih =>
    simp only [seqCount, lostCount, accounted, AuditRecord.accounts, countP_cons, map_cons,
      sum_cons, decide_eq_true_eq] at ih ⊢
    omega

theorem numbered_iff : Numbered records ↔ ∀ first last number, records.head? = some first →
    records.getLast? = some last → first.seq ≤ number → number ≤ last.seq →
      accounted records number = 1 := by
  unfold Numbered
  refine forall_congr' fun first => forall_congr' fun last => forall_congr' fun number => ?_
  rw [← seqCount_add_lostCount]
  have once (seqs losses : Nat) :
      seqs = 1 ∧ losses = 0 ∨ seqs = 0 ∧ losses = 1 ↔ seqs + losses = 1 := by omega
  simp only [once]

theorem AuditRecord.Continues.advances {last : UInt64} (continues : record.Continues last)
    (number : last ≠ maxSeq) (named : ∀ lost, record.missing = some lost → lost.to_ ≠ maxSeq) :
    last.toNat < record.seq.toNat ∧ (∀ lost, record.missing = some lost →
        lost.from_.toNat = last.toNat + 1 ∧ lost.to_.toNat + 1 = record.seq.toNat) ∧
      (record.missing = none → record.seq.toNat = last.toNat + 1) := by
  unfold Continues at continues
  cases missing : record.missing with
  | none =>
    rw [missing] at continues
    have next := toNat_succ number
    rw [← continues] at next
    exact ⟨by omega, by simp, fun _ => next⟩
  | some lost =>
    rw [missing] at continues
    obtain ⟨start, order, seq⟩ := continues
    have fromNext := toNat_succ number
    rw [← start] at fromNext
    have toNext := toNat_succ (named lost missing)
    rw [← seq] at toNext
    rw [UInt64.le_iff_toNat_le] at order
    refine ⟨by omega, ?_, by simp⟩
    rintro other isOther
    cases isOther
    exact ⟨fromNext, by omega⟩

/-- A record that goes on from a number accounts once for each number from there to its own.
One that wraps accounts for each number up to its own. -/
theorem AuditRecord.Continues.accounts {last : UInt64} (continues : record.Continues last)
    (number : UInt64) :
    (last < record.seq → record.accounts number =
      if last < number ∧ number ≤ record.seq then 1 else 0) ∧
    (¬last < record.seq → number ≤ record.seq → 1 ≤ record.accounts number) := by
  unfold Continues at continues
  have inRange := number.toNat_lt
  have inLast := last.toNat_lt
  simp only [AuditRecord.accounts, UInt64.lt_iff_toNat_lt, UInt64.le_iff_toNat_le,
    ← UInt64.toNat_inj]
  cases missing : record.missing with
  | none =>
    rw [missing] at continues
    have next := congrArg UInt64.toNat continues
    rw [UInt64.toNat_add, UInt64.toNat_one] at next
    simp only [Option.any_none, Bool.false_eq_true, if_false]
    exact ⟨fun rises => by split <;> split <;> omega, fun wraps upTo => by split <;> omega⟩
  | some lost =>
    rw [missing] at continues
    obtain ⟨start, order, seq⟩ := continues
    have fromNext := congrArg UInt64.toNat start
    have toNext := congrArg UInt64.toNat seq
    rw [UInt64.toNat_add, UInt64.toNat_one] at fromNext toNext
    rw [UInt64.le_iff_toNat_le] at order
    have inTo := lost.to_.toNat_lt
    simp only [Option.any_some, SeqRange.has_iff]
    exact ⟨fun rises => by split <;> split <;> split <;> omega,
      fun wraps upTo => by split <;> split <;> omega⟩

/-- What the records after the first account for. -/
structure Counted (first last : AuditRecord) (rest : List AuditRecord) : Prop where
  order : Rising (first :: rest) → first.seq ≤ last.seq
  rises : Rising (first :: rest) → ∀ number, accounted rest number =
    if first.seq < number ∧ number ≤ last.seq then 1 else 0
  wraps : ¬Rising (first :: rest) → ∀ number, number ≤ last.seq → 1 ≤ accounted rest number

theorem accounted_snoc (records : List AuditRecord) (record : AuditRecord) (number : UInt64) :
    accounted (records ++ [record]) number =
      accounted records number + record.accounts number := by
  simp [accounted]

theorem Counted.snoc {first last : AuditRecord} {rest : List AuditRecord}
    (counted : Counted first last rest) (isLast : (first :: rest).getLast? = some last)
    (continues : record.Continues last.seq) : Counted first record (rest ++ [record]) := by
  have chain : Rising (first :: (rest ++ [record])) ↔
      Rising (first :: rest) ∧ last.seq < record.seq := by
    unfold Rising
    rw [← cons_append, isChain_append]
    simp [isLast]
  refine ⟨?_, ?_, ?_⟩
  · intro all
    obtain ⟨old, now⟩ := chain.mp all
    exact UInt64.le_trans (counted.order old) (UInt64.le_of_lt now)
  · intro all number
    obtain ⟨old, now⟩ := chain.mp all
    have start := counted.order old
    rw [accounted_snoc, counted.rises old, (continues.accounts number).1 now]
    simp only [UInt64.lt_iff_toNat_lt, UInt64.le_iff_toNat_le] at now start ⊢
    split <;> split <;> split <;> omega
  · intro broken number upTo
    rw [accounted_snoc]
    by_cases now : last.seq < record.seq
    · have old := fun old => broken (chain.mpr ⟨old, now⟩)
      by_cases before : number ≤ last.seq
      · exact Nat.le_add_right_of_le (counted.wraps old number before)
      · rw [(continues.accounts number).1 now, if_pos ⟨UInt64.not_le.mp before, upTo⟩]
        exact Nat.le_add_left _ _
    · exact Nat.le_add_left_of_le ((continues.accounts number).2 now upTo)

theorem counted_of_run {file : Bytes} {chain : Chain}
    (run : Chain.run kit trust {} (kit.read file) = some chain) :
    ∀ first rest last, chain.records = first :: rest → chain.records.getLast? = some last →
      Counted first last rest := by
  refine @run_keeps _ _ kit trust (fun records => ∀ first rest last, records = first :: rest →
    records.getLast? = some last → Counted first last rest) ?_ _ _ _ (by simp) run
  intro records torn record ih _ follows first rest last isRecords isLast
  simp only [getLast?_concat, Option.some.injEq] at isLast
  subst last
  cases records with
  | nil =>
    simp only [nil_append, cons.injEq] at isRecords
    obtain ⟨rfl, rfl⟩ := isRecords
    refine ⟨fun _ => UInt64.le_refl _, ?_, by simp [Rising]⟩
    intro _ number
    rw [if_neg]
    · rfl
    · rintro ⟨above, upTo⟩
      exact UInt64.not_le.mpr above upTo
  | cons head tail =>
    simp only [cons_append, cons.injEq] at isRecords
    obtain ⟨rfl, rfl⟩ := isRecords
    have isLast := getLast?_eq_some_getLast (cons_ne_nil head tail)
    exact (ih head tail _ rfl isLast).snoc isLast (follows.number _ isLast)

theorem numbered_iff_checked {file : Bytes} {chain : Chain}
    (run : Chain.run kit trust {} (kit.read file) = some chain) :
    Numbered chain.records ↔ Checked chain.records := by
  rw [numbered_iff]
  cases isRecords : chain.records with
  | nil => simp [Checked]
  | cons first rest =>
    obtain ⟨last, isLast⟩ : ∃ last, (first :: rest).getLast? = some last :=
      ⟨_, getLast?_eq_some_getLast (cons_ne_nil _ _)⟩
    have counted := counted_of_run run first rest last isRecords (isRecords ▸ isLast)
    have total (number : UInt64) : accounted (first :: rest) number =
        first.accounts number + accounted rest number := by
      simp [accounted]
    have once : 1 ≤ first.accounts first.seq := by simp [AuditRecord.accounts]
    constructor
    · rintro single _ other ⟨⟩ isOther order
      cases isLast.symm.trans isOther
      by_cases all : Rising (first :: rest)
      · refine ⟨all, ?_⟩
        intro lost number missing from_ upTo
        have one := single first last number rfl isLast from_ upTo
        rw [total, counted.rises all] at one
        simp only [AuditRecord.accounts, missing, Option.any_some] at one
        rw [UInt64.le_iff_toNat_le] at from_ upTo
        simp only [UInt64.lt_iff_toNat_lt, UInt64.le_iff_toNat_le, ← UInt64.toNat_inj] at one
        by_contra named
        rw [Bool.not_eq_false] at named
        rw [if_pos named] at one
        split at one <;> split at one <;> omega
      · -- The first number has come round again.
        have one := single first last first.seq rfl isLast (UInt64.le_refl _) order
        rw [total] at one
        have again := counted.wraps all first.seq order
        omega
    · rintro checked _ other number ⟨⟩ isOther from_ upTo
      cases isLast.symm.trans isOther
      obtain ⟨all, apart⟩ := checked first last rfl isLast (UInt64.le_trans from_ upTo)
      rw [total, counted.rises all]
      have unnamed : first.missing.any (·.has number) = false := by
        cases missing : first.missing with
        | none => rfl
        | some lost => exact apart lost number missing from_ upTo
      simp only [AuditRecord.accounts, unnamed, Bool.false_eq_true, if_false]
      rw [UInt64.le_iff_toNat_le] at from_ upTo
      simp only [UInt64.lt_iff_toNat_lt, UInt64.le_iff_toNat_le, ← UInt64.toNat_inj]
      split <;> split <;> omega

def Accepted (kit : AuditKit κ π) (trust : Table String π) (file : Bytes) : Prop :=
  ∃ report, verifySpool kit trust file = .ok report

theorem spool_tamper_evident (injective : kit.HashInjective) :
    (∀ (trust other : Table String π) (first second : Bytes), Accepted kit trust first →
      Accepted kit other second →
      (kit.chained first).getLast?.map AuditRecord.hash =
        (kit.chained second).getLast?.map AuditRecord.hash →
      kit.chained first = kit.chained second) ∧
    ∀ (trust : Table String π) (file : Bytes), Accepted kit trust file →
      (Numbered (kit.chained file) ↔ Checked (kit.chained file)) := by
  refine ⟨?_, ?_⟩
  · intro trust other first second one two last
    obtain ⟨chain, run⟩ := (verifySpool_ok_iff first).mp one
    obtain ⟨twin, twinRun⟩ := (verifySpool_ok_iff second).mp two
    rw [← chained_of_run run, ← chained_of_run twinRun] at last ⊢
    exact (sealed_of_run run).unique injective (sealed_of_run twinRun) last
  · intro trust file accepted
    obtain ⟨chain, run⟩ := (verifySpool_ok_iff file).mp accepted
    rw [← chained_of_run run]
    exact numbered_iff_checked run

end Chains

section Files

variable {trust : Table String Unit} {first second : AuditRecord}

def twoLines (first second : AuditRecord) : Bytes := unaryLine first ++ (unaryLine second ++ [])

theorem accepted_pair (isHashed : first.hash ≠ "")
    (starts : Follows unaryKit trust none false first) (nextHashed : second.hash ≠ "")
    (next : Follows unaryKit trust (some first) false second) :
    Accepted unaryKit trust (twoLines first second) ∧
      unaryKit.chained (twoLines first second) = [first, second] := by
  have run : run unaryKit trust {} [.record first, .record second, .blank] =
      some { records := [first, second], torn := false } := by
    rw [run_cons, step_record isHashed starts, Option.bind_some, run_cons,
      step_record nextHashed next]
    rfl
  rw [← AuditKit.read_nil unaryKit, ← read_unaryLine, ← read_unaryLine] at run
  exact ⟨(verifySpool_ok_iff _).mpr ⟨_, run⟩, (chained_of_run run).symm⟩

def cloneRecord : AuditRecord := hashed { seq := 1, event := "clone" }

def parkRecord : AuditRecord := hashed { seq := 2, event := "park", prevHash := cloneRecord.hash }

theorem cloneRecord_follows : Follows unaryKit trust none false cloneRecord := by
  refine ⟨recordHash_hashed _, rfl, by simp, by simp, ?_⟩
  simp [cloneRecord, hashed, eventCheckpoint]

theorem parkRecord_follows : Follows unaryKit trust (some cloneRecord) false parkRecord := by
  refine ⟨recordHash_hashed _, rfl, ?_, by simp, ?_⟩
  · intro old same
    cases same
    simp [AuditRecord.Continues, AuditRecord.missing, parkRecord, cloneRecord, hashed, eventGap]
  · simp [parkRecord, hashed, eventCheckpoint]

theorem tamper_evident_of_pair :
    Accepted unaryKit ∅ (twoLines cloneRecord parkRecord) ∧
      Numbered (unaryKit.chained (twoLines cloneRecord parkRecord)) ∧
      ∀ file, Accepted unaryKit ∅ file →
        (unaryKit.chained file).getLast?.map AuditRecord.hash = some parkRecord.hash →
        unaryKit.chained file = [cloneRecord, parkRecord] := by
  obtain ⟨accepted, chained⟩ := @accepted_pair ∅ cloneRecord parkRecord (hashed_ne _)
    cloneRecord_follows (hashed_ne _) parkRecord_follows
  have injective : unaryKit.HashInjective := fun _ _ _ => unaryKit_injective
  have checked : Checked [cloneRecord, parkRecord] := by
    rintro first last ⟨⟩ ⟨⟩ _
    simp [Rising, cloneRecord, parkRecord, AuditRecord.missing, hashed, eventGap]
  refine ⟨accepted, ?_, ?_⟩
  · exact ((spool_tamper_evident injective).2 ∅ _ accepted).mpr (chained ▸ checked)
  · intro file other last
    have same := (spool_tamper_evident injective).1 ∅ ∅ file _ other accepted
      (by rw [last, chained]; rfl)
    rw [same, chained]

/-- The first gap of the chain names a number that the second one names too. -/
def firstGap : AuditRecord := hashed { seq := 1, event := eventGap, lost := some ⟨2, 2⟩ }

def secondGap : AuditRecord :=
  hashed { seq := 3, event := eventGap, lost := some ⟨2, 2⟩, prevHash := firstGap.hash }

theorem firstGap_follows : Follows unaryKit trust none false firstGap := by
  refine ⟨recordHash_hashed _, rfl, by simp, by simp, ?_⟩
  simp [firstGap, hashed, eventGap, eventCheckpoint]

theorem secondGap_follows : Follows unaryKit trust (some firstGap) false secondGap := by
  refine ⟨recordHash_hashed _, rfl, ?_, by simp, ?_⟩
  · intro old same
    cases same
    simp [AuditRecord.Continues, AuditRecord.missing, firstGap, secondGap, hashed]
  · simp [secondGap, hashed, eventGap, eventCheckpoint]

theorem number_lost_twice :
    unaryKit.HashInjective ∧
      Accepted unaryKit ∅ (twoLines firstGap secondGap) ∧
      seqCount (unaryKit.chained (twoLines firstGap secondGap)) 2 = 0 ∧
      lostCount (unaryKit.chained (twoLines firstGap secondGap)) 2 = 2 ∧
      ¬Numbered (unaryKit.chained (twoLines firstGap secondGap)) := by
  obtain ⟨accepted, chained⟩ := @accepted_pair ∅ firstGap secondGap (hashed_ne _) firstGap_follows
    (hashed_ne _) secondGap_follows
  have seqs : seqCount [firstGap, secondGap] 2 = 0 := by
    simp [seqCount, firstGap, secondGap, hashed]
  have losses : lostCount [firstGap, secondGap] 2 = 2 := by
    simp [lostCount, AuditRecord.missing, SeqRange.has, firstGap, secondGap, hashed]
  rw [chained]
  refine ⟨fun _ _ _ => unaryKit_injective, accepted, seqs, losses, ?_⟩
  intro numbered
  rcases numbered firstGap secondGap 2 rfl rfl (by simp [firstGap, hashed])
    (by simp [secondGap, hashed]) with once | once
  · simp [seqs] at once
  · simp [losses] at once

end Files

end Fiberd
