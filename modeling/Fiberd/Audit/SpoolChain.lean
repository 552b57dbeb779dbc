import Fiberd.Audit.VerifySpool

/-!
The chain a spool is to hold, without line numbers and reports: each record
follows the one before it, and an unreadable line is followed by a gap.
`VerifySpool` accepts a file if its lines make such a chain.
-/

namespace Fiberd

open Tables VerifyState

def AuditRecord.Continues (record : AuditRecord) (seq : UInt64) : Prop :=
  match record.missing with
  | some lost => lost.from_ = seq + 1 ∧ lost.from_ ≤ lost.to_ ∧ record.seq = lost.to_ + 1
  | none => record.seq = seq + 1

structure Chain where
  records : List AuditRecord := []
  /-- An unreadable line that no gap follows yet. -/
  torn : Bool := false

section Chains

variable {κ π : Type} (kit : AuditKit κ π) (trust : Table String π)

structure Follows (prev : Option AuditRecord) (torn : Bool) (record : AuditRecord) : Prop where
  hash : kit.recordHash record = .ok record.hash
  link : record.prevHash = (prev.map AuditRecord.hash).getD ""
  number : ∀ before, prev = some before → record.Continues before.seq
  gap : torn = true → record.event = eventGap
  signed : record.event = eventCheckpoint → ∃ before key, prev = some before ∧
    trust.get record.signer = some key ∧
    kit.verifies key (checkpointPayload before.seq before.hash) record.signature = true

def Chain.step (chain : Chain) (line : Line) : Option Chain :=
  match line with
  | .blank => some chain
  | .unreadable => some { chain with torn := chain.torn || !chain.records.isEmpty }
  | .record record =>
    if record.hash = "" then if chain.records.isEmpty then some chain else none
    else if (recordFault kit trust chain.records.getLast? chain.torn record).isNone then
      some { records := chain.records ++ [record], torn := false }
    else none

def Chain.run (chain : Chain) (lines : List Line) : Option Chain :=
  lines.foldlM (Chain.step kit trust) chain

variable {kit trust} {prev : Option AuditRecord} {torn : Bool} {record : AuditRecord}

theorem hashFault_eq_none : hashFault kit record = none ↔
    kit.recordHash record = .ok record.hash := by
  unfold hashFault
  split
  · rename_i hash known
    simp [known]
  · rename_i error known
    simp [known]

theorem linkFault_eq_none : linkFault prev record = none ↔
    record.prevHash = (prev.map AuditRecord.hash).getD "" ∧
      ∀ old, prev = some old → record.Continues old.seq := by
  cases prev with
  | none => simp [linkFault]
  | some old =>
    simp only [linkFault, Option.map_some, Option.getD_some, Option.some.injEq,
      forall_eq', AuditRecord.Continues]
    by_cases link : record.prevHash = old.hash
    · cases record.missing with
      | none => simp [link]
      | some lost =>
        simp only [link, ne_eq, not_true_eq_false, if_false, true_and]
        by_cases named : lost.from_ = old.seq + 1 ∧ lost.from_ ≤ lost.to_
        · have order : ¬(¬lost.from_ = old.seq + 1 ∨ lost.to_ < lost.from_) := by
            rintro (other | below)
            · exact other named.1
            · exact UInt64.not_lt.mpr named.2 below
          rw [if_neg order]
          by_cases seq : record.seq = lost.to_ + 1
          · simp only [seq, not_true_eq_false, if_false, true_iff]
            exact ⟨named.1, named.2, trivial⟩
          · simp [seq]
        · have order : ¬lost.from_ = old.seq + 1 ∨ lost.to_ < lost.from_ := by
            by_cases start : lost.from_ = old.seq + 1
            · exact .inr (UInt64.not_le.mp fun above => named ⟨start, above⟩)
            · exact .inl start
          rw [if_pos order]
          simp only [reduceCtorEq, false_iff]
          rintro ⟨start, above, _⟩
          exact named ⟨start, above⟩
    · simp [link]

theorem tornFault_eq_none : tornFault torn record = none ↔
    (torn = true → record.event = eventGap) := by
  simp only [tornFault, ite_eq_right_iff, reduceCtorEq, imp_false, not_and, not_not]

theorem sealFault_eq_none : sealFault kit trust prev record = none ↔
    (record.event = eventCheckpoint → ∃ old key, prev = some old ∧
      trust.get record.signer = some key ∧
      kit.verifies key (checkpointPayload old.seq old.hash) record.signature = true) := by
  unfold sealFault
  by_cases checkpoint : record.event = eventCheckpoint
  · cases prev with
    | none => simp [checkpoint]
    | some old =>
      cases known : trust.get record.signer with
      | none | some key => simp [checkpoint]
  · simp [checkpoint]

theorem recordFault_eq_none : recordFault kit trust prev torn record = none ↔
    Follows kit trust prev torn record := by
  simp only [recordFault, Option.or_eq_none_iff, hashFault_eq_none, linkFault_eq_none,
    tornFault_eq_none, sealFault_eq_none]
  constructor
  · rintro ⟨hash, ⟨link, number⟩, gap, signed⟩
    exact ⟨hash, link, number, gap, signed⟩
  · intro follows
    exact ⟨follows.hash, ⟨follows.link, follows.number⟩, follows.gap, follows.signed⟩

variable {chain : Chain}

theorem Chain.step_cases {next : Chain} {line : Line}
    (took : chain.step kit trust line = some next) :
    (line = .blank ∧ next = chain) ∨
      (line = .unreadable ∧ next = { chain with torn := chain.torn || !chain.records.isEmpty }) ∨
      (∃ record, line = .record record ∧ record.hash = "" ∧ chain.records = [] ∧ next = chain) ∨
      ∃ record, line = .record record ∧ record.hash ≠ "" ∧
        Follows kit trust chain.records.getLast? chain.torn record ∧
        next = { records := chain.records ++ [record], torn := false } := by
  cases line with
  | blank => exact .inl ⟨rfl, (Option.some.inj took).symm⟩
  | unreadable => exact .inr (.inl ⟨rfl, (Option.some.inj took).symm⟩)
  | record record =>
    refine .inr (.inr ?_)
    simp only [step] at took
    split at took
    · rename_i unchained
      split at took
      · rename_i empty
        exact .inl ⟨record, rfl, unchained, List.isEmpty_iff.mp empty,
          (Option.some.inj took).symm⟩
      · simp at took
    · rename_i hashed
      split at took
      · rename_i sound
        rw [Option.isNone_iff_eq_none, recordFault_eq_none] at sound
        exact .inr ⟨record, rfl, hashed, sound, (Option.some.inj took).symm⟩
      · simp at took

theorem Chain.step_record (hashed : record.hash ≠ "")
    (follows : Follows kit trust chain.records.getLast? chain.torn record) :
    chain.step kit trust (.record record) =
      some { records := chain.records ++ [record], torn := false } := by
  have sound := recordFault_eq_none.mpr follows
  simp [step, hashed, sound]

theorem Chain.run_append (chain : Chain) (front back : List Line) :
    chain.run kit trust (front ++ back) =
      (chain.run kit trust front).bind fun mid => mid.run kit trust back := by
  simp [run]

theorem Chain.run_cons (chain : Chain) (line : Line) (rest : List Line) :
    chain.run kit trust (line :: rest) =
      (chain.step kit trust line).bind fun next => next.run kit trust rest := by
  simp [run]

theorem Chain.run_keeps {property : List AuditRecord → Prop}
    (kept : ∀ records torn record, property records → record.hash ≠ "" →
      Follows kit trust records.getLast? torn record → property (records ++ [record]))
    {chain final : Chain} {lines : List Line} (has : property chain.records)
    (run : chain.run kit trust lines = some final) : property final.records := by
  induction lines generalizing chain with
  | nil =>
    simp only [Chain.run, List.foldlM_nil, Option.pure_def, Option.some.injEq] at run
    exact run ▸ has
  | cons line rest ih =>
    rw [run_cons] at run
    obtain ⟨next, took, onward⟩ := Option.bind_eq_some_iff.mp run
    refine ih ?_ onward
    rcases step_cases took with ⟨_, rfl⟩ | ⟨_, rfl⟩ | ⟨_, _, _, _, rfl⟩ | ⟨record, _, hashed,
      follows, rfl⟩
    · exact has
    · exact has
    · exact has
    · exact kept chain.records chain.torn record has hashed follows

theorem Chain.run_records {final : Chain} {lines : List Line}
    (run : chain.run kit trust lines = some final) : final.records = chain.records ++
      (lines.filterMap Line.record?).filter fun record => decide (record.hash ≠ "") := by
  induction lines generalizing chain with
  | nil =>
    simp only [Chain.run, List.foldlM_nil, Option.pure_def, Option.some.injEq] at run
    simp [run]
  | cons line rest ih =>
    rw [run_cons] at run
    obtain ⟨next, took, onward⟩ := Option.bind_eq_some_iff.mp run
    rw [ih onward]
    rcases step_cases took with ⟨rfl, rfl⟩ | ⟨rfl, rfl⟩ | ⟨record, rfl, unchained, _, rfl⟩ |
      ⟨record, rfl, hashed, _, rfl⟩
    · simp [List.filterMap_cons, Line.record?]
    · simp [List.filterMap_cons, Line.record?]
    · simp [Line.record?, unchained]
    · simp [Line.record?, hashed]

structure VerifyState.Shows (state : VerifyState) (chain : Chain) : Prop where
  prev : state.prev = chain.records.getLast?
  torn : decide (state.torn ≠ 0) = chain.torn
  line : state.line ≠ 0

variable (kit trust) in
theorem verifyLine_shows {state : VerifyState} (shows_ : state.Shows chain) (line : Line) :
    match chain.step kit trust line with
    | some later => ∃ next, verifyLine kit trust state line = .ok next ∧ next.next.Shows later
    | none => ∃ error, verifyLine kit trust state line = .error error := by
  have empty : state.prev.isNone = chain.records.isEmpty := by
    rw [shows_.prev]
    cases chain.records with
    | nil => rfl
    | cons head tail => simp [List.getLast?_cons]
  cases line with
  | blank => exact ⟨state, rfl, shows_.prev, shows_.torn, by simp [next]⟩
  | unreadable =>
    simp only [Chain.step, verifyLine, empty]
    by_cases none : chain.records.isEmpty = true
    · rw [if_pos none]
      refine ⟨_, rfl, shows_.prev, ?_, by simp [next]⟩
      simp only [none, Bool.not_true, Bool.or_false]
      exact shows_.torn
    · rw [if_neg none]
      refine ⟨_, rfl, shows_.prev, ?_, by simp [next]⟩
      have some_ : (!chain.records.isEmpty) = true := by simpa using none
      simp only [some_, Bool.or_true, next]
      split
      · simp [shows_.line]
      · rename_i torn
        simp [torn]
  | record record =>
    have occupied : state.prev.isSome = !chain.records.isEmpty := by
      rw [← empty]
      cases state.prev <;> rfl
    simp only [Chain.step, verifyLine, verifyRecord]
    by_cases unchained : record.hash = ""
    · simp only [unchained, if_true, occupied]
      cases chain.records.isEmpty with
      | true => exact ⟨_, rfl, shows_.prev, shows_.torn, by simp [next]⟩
      | false => exact ⟨_, rfl⟩
    · simp only [unchained, if_false, shows_.prev, shows_.torn]
      cases recordFault kit trust chain.records.getLast? chain.torn record with
      | none => exact ⟨_, rfl, by simp [next], by simp [next],
          by simp [next]⟩
      | some fault => exact ⟨_, rfl⟩

variable (kit trust) in
theorem verifyLines_shows {state : VerifyState} (shows_ : state.Shows chain) (lines : List Line) :
    match chain.run kit trust lines with
    | some later => ∃ next, verifyLines kit trust state lines = .ok next ∧ next.Shows later
    | none => ∃ error, verifyLines kit trust state lines = .error error := by
  induction lines generalizing state chain with
  | nil => exact ⟨state, rfl, shows_⟩
  | cons line rest ih =>
    have first := verifyLine_shows kit trust shows_ line
    rw [Chain.run_cons]
    cases took : chain.step kit trust line with
    | none =>
      rw [took] at first
      obtain ⟨error, fails⟩ := first
      exact ⟨error, by simp [verifyLines, fails, bind, Except.bind]⟩
    | some later =>
      rw [took] at first
      obtain ⟨next, passes, shown⟩ := first
      have rest_ := ih shown
      simp only [Option.bind_some, verifyLines, passes, bind, Except.bind]
      exact rest_

theorem verifySpool_ok_iff (file : Bytes) : (∃ report, verifySpool kit trust file = .ok report) ↔
      ∃ chain, Chain.run kit trust {} (kit.read file) = some chain := by
  have start : VerifyState.Shows {} {} := ⟨rfl, rfl, by simp⟩
  have shown := verifyLines_shows kit trust start (kit.read file)
  cases run : Chain.run kit trust {} (kit.read file) with
  | none =>
    rw [run] at shown
    obtain ⟨error, fails⟩ := shown
    simp [verifySpool, fails, bind, Except.bind]
  | some chain =>
    rw [run] at shown
    obtain ⟨state, passes, _⟩ := shown
    simp [verifySpool, passes, bind, Except.bind, pure, Except.pure]

theorem chained_of_run {file : Bytes} (run : Chain.run kit trust {} (kit.read file) = some chain) :
    chain.records = kit.chained file := by
  rw [Chain.run_records run]
  rfl

end Chains

end Fiberd
