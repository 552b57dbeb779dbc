import Fiberd.Audit.SpoolProcess
import Fiberd.Audit.SpoolWrites

/-!
A spool and its file stay in step: what `seq`, `prev`, `newline`, `lost` and
`since` say of the bytes on disk, over every run of processes that open the file,
write to it and crash.
-/

namespace Fiberd

open Tables Machines

def LostSince (last : UInt64) (seq : UInt64) : Option SeqRange → Prop
  | none => seq = last
  | some lost => lost.from_ = last + 1 ∧ lost.from_ ≤ lost.to_ ∧ lost.to_ = seq ∧ last ≠ maxSeq

section Agreement

variable {κ π : Type} (kit : AuditKit κ π) (trust : Table String π)

structure Agrees (spool : Spool κ) (chain : Chain) : Prop where
  prev : spool.prev = lastHash chain.records
  lost : LostSince (lastSeq chain.records) spool.seq spool.lost
  torn : chain.torn = true → spool.lost ≠ none
  since : 0 < spool.since → chain.records ≠ []

structure Stands (spool : Spool κ) (file : Bytes) : Prop where
  trusted : ∀ cp, spool.cp = some cp → 0 < cp.every ∧
    trust.get cp.keyID = some (kit.publicKey cp.key)
  clean : spool.newline = false → Clean file
  holds : ∃ chain, Holds kit trust file chain ∧ (spool.stray = false → Agrees spool chain)

variable {kit trust} {spool : Spool κ} {file text : Bytes} {chain : Chain}
  {record full : AuditRecord} {now : Time} {ends : WriteEnd}

theorem LostSince.failed {last seq : UInt64} {lost : Option SeqRange}
    (since : LostSince last seq lost) (unwrapped : seq ≠ maxSeq) : LostSince last (seq + 1)
      (some ⟨(lost.map SeqRange.from_).getD (seq + 1), seq + 1⟩) := by
  cases lost with
  | none =>
    have same : seq = last := since
    subst last
    exact ⟨rfl, UInt64.le_refl _, rfl, unwrapped⟩
  | some lost =>
    obtain ⟨starts, order, ends, last_⟩ := since
    refine ⟨starts, ?_, rfl, last_⟩
    rw [UInt64.le_iff_toNat_le] at order ⊢
    rw [ends] at order
    simp only [Option.map_some, Option.getD_some]
    rw [toNat_succ unwrapped]
    omega

theorem Agrees.failed {torn : Bool} (agrees : Agrees spool chain) (unwrapped : spool.seq ≠ maxSeq)
    (error : String) (stray : Bool) :
    Agrees (spool.failed error stray) { chain with torn := torn } :=
  ⟨agrees.prev, agrees.lost.failed unwrapped, by simp [Spool.failed], agrees.since⟩

theorem agrees_landed (completes : Completes kit spool record full text) (lost : spool.lost = none) :
    Agrees (spool.landed full) { records := chain.records ++ [full], torn := false } := by
  refine ⟨?_, ?_, by simp, by simp⟩
  · simp [Spool.landed, lastHash_snoc]
  · simp only [Spool.landed, lost, LostSince, lastSeq_snoc]
    exact completes.fields.1.symm

theorem follows_number {records : List AuditRecord} (continues : full.Continues (lastSeq records)) :
    ∀ old, records.getLast? = some old → full.Continues old.seq := by
  intro old isLast
  simpa [lastSeq, isLast] using continues

theorem Completes.extends (completes : Completes kit spool record full text)
    (has : Holds kit trust file chain) (prev : spool.prev = lastHash chain.records)
    (last : spool.seq = lastSeq chain.records) (survives : kit.Survives record)
    (unwrapped : spool.seq ≠ maxSeq) (plain : record.missing = none)
    (gap : chain.torn = true → record.event = eventGap)
    (signed : record.event = eventCheckpoint → chain.records ≠ [] ∧ ∃ cp : Checkpoints κ,
      record = spool.checkpointRecord kit cp ∧
      trust.get cp.keyID = some (kit.publicKey cp.key)) : Extends kit trust chain full := by
  obtain ⟨seq, prevHash, event, missing, signer, signature⟩ := completes.fields
  have continues : full.Continues (lastSeq chain.records) := by
    simp only [AuditRecord.Continues, missing, plain, seq, last]
  refine ⟨completes.reread survives, completes.hashed,
    ⟨completes.hash, ?_, follows_number continues, fun torn => event.trans (gap torn), ?_⟩,
    has.covers.snoc continues (last ▸ unwrapped) (by simp [missing, plain])⟩
  · rw [prevHash, prev]
    rfl
  · rw [event]
    intro checkpoint
    obtain ⟨some_, cp, rfl, trusted⟩ := signed checkpoint
    obtain ⟨old, isLast⟩ := Option.ne_none_iff_exists'.mp fun none_ =>
      some_ (List.getLast?_eq_none_iff.mp none_)
    refine ⟨old, kit.publicKey cp.key, isLast, ?_, ?_⟩
    · rw [signer]
      exact trusted
    · have sameSeq : old.seq = spool.seq := by simp [last, lastSeq, isLast]
      have sameHash : old.hash = spool.prev := by simp [prev, lastHash, isLast]
      rw [signature, sameSeq, sameHash]
      exact kit.verifies_sign cp.key _

theorem Agrees.extends_gap {lost : SeqRange} (agrees : Agrees spool chain)
    (has : Holds kit trust file chain) (known : spool.lost = some lost)
    (completes : Completes kit { spool with lost := none } (spool.gapRecord lost) full text)
    (survives : kit.Survives (spool.gapRecord lost)) (unwrapped : spool.seq ≠ maxSeq) :
    Extends kit trust chain full := by
  obtain ⟨seq, prev, event, missing, _, _⟩ := completes.fields
  have since := agrees.lost
  rw [known] at since
  obtain ⟨starts, order, ends, last⟩ := since
  have names : full.missing = some lost := missing.trans rfl
  have continues : full.Continues (lastSeq chain.records) := by
    simp only [AuditRecord.Continues, names]
    exact ⟨starts, order, by rw [seq, ends]⟩
  refine ⟨completes.reread survives, completes.hashed,
    ⟨completes.hash, ?_, follows_number continues, fun _ => event, ?_⟩,
    has.covers.snoc continues last ?_⟩
  · rw [prev]
    exact agrees.prev
  · rw [event]
    simp [Spool.gapRecord, eventGap, eventCheckpoint]
  · intro other same
    cases names.symm.trans same
    rw [ends]
    exact unwrapped

section

variable (stands : Stands kit trust spool file)
include stands

theorem Stands.write (survives : kit.Survives record) (unwrapped : spool.seq ≠ maxSeq)
    (plain : record.missing = none)
    (signed : record.event = eventCheckpoint → 0 < spool.since ∧ ∃ cp, spool.cp = some cp ∧
      record = spool.checkpointRecord kit cp)
    (whole : spool.Reaches kit record now ends → spool.stray = false ∧ spool.lost = none) :
    Stands kit trust (spool.write kit file record now ends).2.1
      (spool.write kit file record now ends).2.2 := by
  obtain ⟨chain, has, agreed⟩ := stands.holds
  have wrote := has.write stands.clean (fun full text completes reaches => by
    obtain ⟨sound, nothing⟩ := whole reaches
    have agrees := agreed sound
    have last := agrees.lost
    rw [nothing] at last
    refine completes.extends has agrees.prev last survives unwrapped plain ?_ ?_
    · intro torn
      exact (agrees.torn torn nothing).elim
    · intro checkpoint
      obtain ⟨counted, cp, isCp, same⟩ := signed checkpoint
      exact ⟨agrees.since counted, cp, same, (stands.trusted cp isCp).2⟩)
  generalize spool.write kit file record now ends = out at wrote ⊢
  cases wrote with
  | landed full text later reaches completes has clean =>
    obtain ⟨_, nothing⟩ := whole reaches
    exact ⟨stands.trusted, fun _ => clean, _, has, fun _ => agrees_landed completes nothing⟩
  | cut error torn later has =>
    refine ⟨stands.trusted, by simp [Spool.failed], _, has, ?_⟩
    intro sound
    refine (agreed ?_).failed unwrapped error false
    simpa [Spool.failed] using sound
  | stray error later after has =>
    exact ⟨stands.trusted, by simp [Spool.failed], _, has, by simp [Spool.failed]⟩

theorem Stands.writeGap
    (ok : ∀ lost, spool.lost = some lost → kit.Survives (spool.gapRecord lost) ∧
      spool.seq ≠ maxSeq ∧ ({ spool with lost := none }.Reaches kit (spool.gapRecord lost) now ends →
        spool.stray = false)) :
    Stands kit trust (spool.writeGap kit file now ends).1 (spool.writeGap kit file now ends).2 := by
  obtain ⟨chain, has, agreed⟩ := stands.holds
  unfold Spool.writeGap
  cases known : spool.lost with
  | none => exact stands
  | some lost =>
    obtain ⟨survives, unwrapped, whole⟩ := ok lost known
    have wrote := @Holds.write _ _ kit trust { spool with lost := none } (spool.gapRecord lost)
      now file chain has stands.clean ends (fun full text completes reaches =>
        (agreed (whole reaches)).extends_gap has known completes survives unwrapped)
    dsimp only
    generalize { spool with lost := none }.write kit file (spool.gapRecord lost) now ends =
      out at wrote ⊢
    cases wrote with
    | landed full text later reaches completes has clean =>
      exact ⟨stands.trusted, fun _ => clean, _, has, fun _ => agrees_landed completes rfl⟩
    | cut error torn later has =>
      refine ⟨stands.trusted, by simp [Spool.failed], _, has, ?_⟩
      intro sound
      have agrees := agreed (by simpa [Spool.failed] using sound)
      have since := agrees.lost.failed unwrapped
      rw [known] at since
      exact ⟨agrees.prev, since, by simp [Spool.failed], agrees.since⟩
    | stray error later after has =>
      exact ⟨stands.trusted, by simp [Spool.failed], _, has, by simp [Spool.failed]⟩

theorem Stands.sinceZero :
    Stands kit trust { spool with since := 0 } file := by
  obtain ⟨chain, has, agreed⟩ := stands.holds
  refine ⟨stands.trusted, stands.clean, chain, has, ?_⟩
  intro sound
  have agrees := agreed sound
  exact ⟨agrees.prev, agrees.lost, agrees.torn, by simp⟩

end

def Spool.writes (kit : AuditKit κ π) (spool : Spool κ) (op : SpoolOp) :
    Option (Spool κ × AuditRecord) :=
  match op with
  | .shut => none
  | .gap => spool.lost.map fun lost => ({ spool with lost := none }, spool.gapRecord lost)
  | .record record => some (spool, record)
  | .signDue | .signRest =>
    (spool.dueCheckpoint op).map fun cp => (spool, spool.checkpointRecord kit cp)

structure WritesWell (kit : AuditKit κ π) (spool : Spool κ) (op : SpoolOp) (now : Time)
    (ends : WriteEnd) : Prop where
  unwrapped : spool.writes kit op ≠ none → spool.seq ≠ maxSeq
  plain : ∀ record, op = .record record →
    record.event ≠ eventCheckpoint ∧ record.missing = none
  survives : ∀ writer record, spool.writes kit op = some (writer, record) → kit.Survives record
  whole : ∀ writer record, spool.writes kit op = some (writer, record) →
    writer.Reaches kit record now ends → writer.stray = false ∧ writer.lost = none

theorem Stands.sign {op : SpoolOp} {cp : Checkpoints κ} (stands : Stands kit trust spool file)
    (due : spool.dueCheckpoint op = some cp)
    (known : spool.writes kit op = some (spool, spool.checkpointRecord kit cp))
    (well : WritesWell kit spool op now ends) :
    Stands kit trust (spool.checkpoint kit cp file now ends).1
      (spool.checkpoint kit cp file now ends).2 := by
  have signs : spool.cp = some cp ∧ 0 < spool.since := by
    cases op with
    | shut | gap | record => simp [Spool.dueCheckpoint] at due
    | signDue =>
      simp only [Spool.dueCheckpoint, Option.filter_eq_some_iff, decide_eq_true_eq] at due
      have positive := (stands.trusted cp due.1).1
      exact ⟨due.1, by omega⟩
    | signRest =>
      simp only [Spool.dueCheckpoint, Option.filter_eq_some_iff, decide_eq_true_eq] at due
      exact due
  have wrote := @Stands.write _ _ kit trust spool file (spool.checkpointRecord kit cp) now ends
    stands (well.survives _ _ known) (well.unwrapped (by simp [known])) rfl
    (fun _ => ⟨signs.2, cp, signs.1, rfl⟩) (well.whole _ _ known)
  unfold Spool.checkpoint
  split
  · rename_i ran
    rw [ran] at wrote
    exact wrote.sinceZero
  · rename_i ran
    rw [ran] at wrote
    exact wrote

theorem Stands.perform {op : SpoolOp} (stands : Stands kit trust spool file)
    (well : WritesWell kit spool op now ends) :
    Stands kit trust (spool.perform kit file op now ends).2.1
      (spool.perform kit file op now ends).2.2 := by
  cases op with
  | shut =>
    obtain ⟨chain, has, agreed⟩ := stands.holds
    refine ⟨stands.trusted, stands.clean, chain, has, ?_⟩
    intro sound
    have agrees := agreed sound
    exact ⟨agrees.prev, agrees.lost, agrees.torn, agrees.since⟩
  | gap =>
    refine stands.writeGap ?_
    intro lost known
    have writes : spool.writes kit .gap =
        some ({ spool with lost := none }, spool.gapRecord lost) := by
      simp [Spool.writes, known]
    exact ⟨well.survives _ _ writes, well.unwrapped (by simp [writes]),
      fun reaches => (well.whole _ _ writes reaches).1⟩
  | record record =>
    obtain ⟨noCheckpoint, plain⟩ := well.plain record rfl
    exact stands.write (well.survives _ _ rfl) (well.unwrapped (by simp [Spool.writes])) plain
      (fun checkpoint => (noCheckpoint checkpoint).elim) (well.whole _ _ rfl)
  | signDue =>
    simp only [Spool.perform]
    cases due : spool.dueCheckpoint .signDue with
    | none => exact stands
    | some cp => exact stands.sign due (by simp [Spool.writes, due]) well
  | signRest =>
    simp only [Spool.perform]
    cases due : spool.dueCheckpoint .signRest with
    | none => exact stands
    | some cp => exact stands.sign due (by simp [Spool.writes, due]) well

end Agreement

section Opening

variable {κ π : Type} {kit : AuditKit κ π} {trust : Table String π} {file : Bytes} {chain : Chain}
  {now : Time} {ends : WriteEnd} {cp : Option (Checkpoints κ)}

structure Scanned (ending : SpoolEnd) (chain : Chain) : Prop where
  hash : ending.hash = lastHash chain.records
  torn : chain.torn = true → ending.torn ≠ none
  above : ∀ record ∈ chain.records, record.seq ≤ ending.seq
  seq : ending.seq = 0 ∨ ∃ record ∈ chain.records, record.seq = ending.seq

variable {ending : SpoolEnd}

theorem Scanned.step {next : Chain} {line : Line} {offset : Nat} (scanned : Scanned ending chain)
    (took : chain.step kit trust line = some next)
    (chained : ∀ record, line = .record record → record.hash ≠ "") :
    Scanned (ending.scan offset line) next := by
  rcases Chain.step_cases took with ⟨rfl, rfl⟩ | ⟨rfl, rfl⟩ | ⟨record, rfl, unchained, _, _⟩ |
    ⟨record, rfl, _, _, rfl⟩
  · exact scanned
  · exact ⟨scanned.hash, by simp [SpoolEnd.scan], scanned.above, scanned.seq⟩
  · exact (chained record rfl unchained).elim
  · refine ⟨(lastHash_snoc _ _).symm, by simp, ?_, ?_⟩
    · intro item mem
      simp only [SpoolEnd.scan]
      rcases List.mem_append.mp mem with old | now
      · have bound := scanned.above item old
        split
        · rename_i less
          exact UInt64.le_trans bound (UInt64.le_of_lt less)
        · exact bound
      · rw [List.mem_singleton.mp now]
        split
        · exact UInt64.le_refl _
        · rename_i more
          exact UInt64.not_lt.mp more
    · simp only [SpoolEnd.scan]
      split
      · exact .inr ⟨record, by simp, rfl⟩
      · rcases scanned.seq with zero | ⟨item, mem, same⟩
        · exact .inl zero
        · exact .inr ⟨item, List.mem_append_left _ mem, same⟩

theorem Scanned.lines {final : Chain} {texts : List Bytes} {offset : Nat}
    (scanned : Scanned ending chain)
    (run : chain.run kit trust (texts.map kit.readLine) = some final)
    (chained : ∀ text ∈ texts, ∀ record, kit.readLine text = .record record → record.hash ≠ "") :
    Scanned (scanLines kit ending offset texts) final := by
  induction texts generalizing ending chain offset with
  | nil =>
    cases run
    exact scanned
  | cons text texts ih =>
    rw [List.map_cons, Chain.run_cons] at run
    obtain ⟨next, took, rest⟩ := Option.bind_eq_some_iff.mp run
    refine ih (scanned.step took ?_) rest ?_
    · exact fun record => chained text List.mem_cons_self record
    · exact fun other mem => chained other (List.mem_cons_of_mem _ mem)

theorem Holds.scanned (has : Holds kit trust file chain) :
    Scanned (scanLines kit {} 0 (lines file)) chain := by
  have start : Scanned {} {} := ⟨rfl, by simp, by simp, .inl rfl⟩
  refine start.lines has.run ?_
  intro text mem record known
  refine has.chained record ?_
  simp only [AuditKit.records, AuditKit.read, List.mem_filterMap, List.mem_map]
  exact ⟨_, ⟨text, mem, rfl⟩, by rw [known]; rfl⟩

theorem Scanned.last (scanned : Scanned ending chain) (covers : Covers chain.records) :
    ending.seq = lastSeq chain.records := by
  cases isLast : chain.records.getLast? with
  | none =>
    have empty := List.getLast?_eq_none_iff.mp isLast
    rcases scanned.seq with zero | ⟨record, mem, _⟩
    · rw [zero, lastSeq, isLast]
      rfl
    · simp [empty] at mem
  | some last =>
    have same : lastSeq chain.records = last.seq := by simp [lastSeq, isLast]
    have upper := scanned.above last (List.mem_of_getLast? isLast)
    rw [same]
    refine UInt64.le_antisymm ?_ upper
    rcases scanned.seq with zero | ⟨record, mem, known⟩
    · rw [zero]
      exact UInt64.zero_le
    · have lower := covers.below record mem
      rw [same, known] at lower
      exact UInt64.le_iff_toNat_le.mpr lower

theorem withDefault_every (cp : Checkpoints κ) : 0 < cp.withDefault.every := by
  unfold Checkpoints.withDefault
  split
  · simp [defaultCheckpointEvery]
  · rename_i positive
    omega

theorem withDefault_key (cp : Checkpoints κ) :
    cp.withDefault.keyID = cp.keyID ∧ cp.withDefault.key = cp.key := by
  unfold Checkpoints.withDefault
  split <;> exact ⟨rfl, rfl⟩

theorem Holds.opens (has : Holds kit trust file chain)
    (trusted : ∀ keys, cp = some keys → trust.get keys.keyID = some (kit.publicKey keys.key))
    (gap : ∀ offset, (scanSpool kit file).torn = some offset →
      (scanSpool kit file).seq ≠ maxSeq ∧ kit.Survives (unreadableGap offset)) :
    match openSpool kit cp file now ends with
    | (some spool, file) => Stands kit trust spool file
    | (none, file) => ∃ chain, Holds kit trust file chain := by
  have scanned := has.scanned
  have last := scanned.last has.covers
  have keyed : ∀ keys, ((scanSpool kit file).spool cp).cp = some keys → 0 < keys.every ∧
      trust.get keys.keyID = some (kit.publicKey keys.key) := by
    intro keys known
    obtain ⟨given, isGiven, rfl⟩ := Option.map_eq_some_iff.mp known
    obtain ⟨keyID, key⟩ := withDefault_key given
    rw [keyID, key]
    exact ⟨withDefault_every given, trusted given isGiven⟩
  have clean : ((scanSpool kit file).spool cp).newline = false → Clean file := by
    intro ended
    simp only [SpoolEnd.spool, scanSpool, Bool.not_eq_false'] at ended
    cases isLast : file.getLast? with
    | none => exact .inl (List.getLast?_eq_none_iff.mp isLast)
    | some byte =>
      refine .inr ?_
      simp only [isLast, Option.all_some, decide_eq_true_eq] at ended
      rw [isLast, ended]
  unfold openSpool
  cases torn : (scanSpool kit file).torn with
  | none =>
    refine ⟨keyed, clean, chain, has, fun _ => ⟨scanned.hash, last, ?_, by simp [SpoolEnd.spool]⟩⟩
    intro isTorn
    exact (scanned.torn isTorn torn).elim
  | some offset =>
    obtain ⟨unwrapped, survives⟩ := gap offset torn
    have wrote := @Holds.write _ _ kit trust ((scanSpool kit file).spool cp)
      (unreadableGap offset) now file chain has clean ends (fun full text completes _ =>
        completes.extends has scanned.hash last survives unwrapped rfl (fun _ => rfl)
          (by simp [unreadableGap, eventGap, eventCheckpoint]))
    dsimp only
    generalize ((scanSpool kit file).spool cp).write kit file (unreadableGap offset) now ends =
      out at wrote ⊢
    cases wrote with
    | landed full text later reaches completes has clean =>
      exact ⟨keyed, fun _ => clean, _, has, fun _ => agrees_landed completes rfl⟩
    | cut error torn later has | stray error later after has => exact ⟨_, has⟩

end Opening

section Worlds

variable {κ π : Type} (kit : AuditKit κ π) (trust : Table String π)

def SpoolProcess.op (process : SpoolProcess κ) (thread : Nat) : Option SpoolOp :=
  process.calls[thread]?.bind fun call => call.1.op call.2

def KeepsChain : SpoolWorld κ → WorldLabel κ → Prop
  | .down file, .openSpool cp _ _ =>
    (∀ keys, cp = some keys → trust.get keys.keyID = some (kit.publicKey keys.key)) ∧
      ∀ offset, (scanSpool kit file).torn = some offset →
        (scanSpool kit file).seq ≠ maxSeq ∧ kit.Survives (unreadableGap offset)
  | .up process, .process (.act thread env) => ∀ op, process.op thread = some op →
      WritesWell kit process.spool op env.now env.ends
  | _, _ => True

/-- The file verifies, and every number is a record's, is lost to a gap, or comes after the last
record.  Zero is the number of none. -/
structure Verifies (file : Bytes) : Prop where
  accepted : Accepted kit trust file
  accounted : ∀ number, number ≠ 0 → Accounted (kit.chained file) number ∨
    ∀ last, (kit.chained file).getLast? = some last → last.seq < number

variable {kit trust} {process next : SpoolProcess κ} {thread : Nat} {env : SpoolEnv}

theorem Holds.verifies {file : Bytes} {chain : Chain} (has : Holds kit trust file chain) :
    Verifies kit trust file := by
  refine ⟨(verifySpool_ok_iff file).mpr ⟨chain, has.run⟩, ?_⟩
  rw [← chained_of_run has.run]
  intro number positive
  by_cases within : number.toNat ≤ (lastSeq chain.records).toNat
  · refine .inl (has.covers.all number ?_ within)
    refine Nat.pos_of_ne_zero fun zero => positive (UInt64.toNat_inj.mp zero)
  · refine .inr ?_
    intro last isLast
    rw [UInt64.lt_iff_toNat_lt]
    simp only [lastSeq, isLast, Option.map_some, Option.getD_some] at within
    omega

theorem check_spool (process : SpoolProcess κ) (thread : Nat) (call : SpoolCall) (own n : Nat) :
    (process.check thread call own n).spool = process.spool ∧
      (process.check thread call own n).file = process.file := by
  unfold SpoolProcess.check
  split
  · exact ⟨rfl, rfl⟩
  · split
    · exact ⟨rfl, rfl⟩
    · split <;> exact ⟨rfl, rfl⟩

theorem act_spool (took : process.act kit thread env = some next) :
    (next.spool = process.spool ∧ next.file = process.file) ∨ ∃ op, process.op thread = some op ∧
        next.spool = (process.spool.perform kit process.file op env.now env.ends).2.1 ∧
        next.file = (process.spool.perform kit process.file op env.now env.ends).2.2 := by
  obtain ⟨call, point, here, step⟩ := SpoolProcess.act_cases took
  have op : process.op thread = call.op point := by
    rw [SpoolProcess.At] at here
    simp [SpoolProcess.op, here]
  have performs : ∀ later : SpoolProcess κ,
      later.spool = (process.perform kit (call.op point) env).2.spool →
      later.file = (process.perform kit (call.op point) env).2.file →
      (later.spool = process.spool ∧ later.file = process.file) ∨
        ∃ op, process.op thread = some op ∧
          later.spool = (process.spool.perform kit process.file op env.now env.ends).2.1 ∧
          later.file = (process.spool.perform kit process.file op env.now env.ends).2.2 := by
    intro later spool file
    rw [op]
    cases known : call.op point with
    | none =>
      rw [known] at spool file
      exact .inl ⟨spool, file⟩
    | some op =>
      rw [known] at spool file
      exact .inr ⟨op, rfl, spool, file⟩
  cases step with
  | enter free =>
    unfold SpoolProcess.enter
    split
    · exact .inl ⟨rfl, rfl⟩
    · exact performs _ rfl rfl
  | gap =>
    unfold SpoolProcess.gap
    cases call <;> exact performs _ rfl rfl
  | record =>
    unfold SpoolProcess.record
    split
    · rename_i later ran
      exact performs _ (by rw [ran]; rfl) (by rw [ran]; rfl)
    · rename_i error later ran
      exact performs _ (by rw [ran]; rfl) (by rw [ran]; rfl)
  | sign own =>
    unfold SpoolProcess.sign
    cases call with
    | append durability record => cases durability <;> exact performs _ rfl rfl
    | close => exact performs _ rfl rfl
  | check own n free => exact .inl (check_spool process thread call own n)
  | capture own n free | release own n upto | begin_ own n upto | end_ own n upto began
  | close own error free => exact .inl ⟨rfl, rfl⟩
  | settle own n upto error free => exact .inl (check_spool _ thread call own n)

def SpoolSound (kit : AuditKit κ π) (trust : Table String π) : SpoolWorld κ → Prop
  | .down file => ∃ chain, Holds kit trust file chain
  | .up process => Stands kit trust process.spool process.file

theorem SpoolSound.step {world later : SpoolWorld κ} {label : WorldLabel κ}
    (sound : SpoolSound kit trust world) (keeps : KeepsChain kit trust world label)
    (took : (worldMachine kit).step world label = some later) : SpoolSound kit trust later := by
  cases world with
  | down file =>
    obtain ⟨chain, has⟩ := sound
    cases label with
    | openSpool cp now ends =>
      have opened := @Holds.opens _ _ kit trust file chain now ends cp has keeps.1 keeps.2
      simp only [worldMachine, SpoolWorld.step] at took
      generalize openSpool kit cp file now ends = out at opened took
      obtain ⟨spool, after⟩ := out
      cases spool with
      | none | some spool =>
        cases took
        exact opened
    | process label | stop => simp [worldMachine, SpoolWorld.step] at took
  | up process =>
    cases label with
    | openSpool cp now ends => simp [worldMachine, SpoolWorld.step] at took
    | stop =>
      cases took
      obtain ⟨chain, has, _⟩ := sound.holds
      exact ⟨chain, has⟩
    | process label =>
      obtain ⟨next, moved, rfl⟩ := Option.map_eq_some_iff.mp took
      cases label with
      | start call =>
        cases moved
        exact sound
      | act thread env =>
        rcases act_spool moved with ⟨spool, file⟩ | ⟨op, known, spool, file⟩
        · simpa [SpoolSound, spool, file] using sound
        · have ran := sound.perform (keeps op known)
          rw [← spool, ← file] at ran
          exact ran

theorem SpoolSound.verifies {world : SpoolWorld κ} (sound : SpoolSound kit trust world) :
    Verifies kit trust world.file := by
  cases world with
  | down file =>
    obtain ⟨chain, has⟩ := sound
    exact has.verifies
  | up process =>
    obtain ⟨chain, has, _⟩ := sound.holds
    exact has.verifies

theorem spoolSound_empty : SpoolSound kit trust (.down []) := by
  refine ⟨{}, ?_, ?_, ?_, ?_⟩
  · rw [kit.read_nil]
    rfl
  · simp [AuditKit.records, Line.record?]
  · simp
  · intro number positive upTo
    simp only [lastSeq, List.getLast?_nil, Option.map_none, Option.getD_none,
      UInt64.toNat_zero] at upTo
    omega

theorem spool_verifies {labels : List (WorldLabel κ)}
    (keeps : (worldMachine kit).Meets (KeepsChain kit trust) (.down []) labels) :
    (worldMachine kit).Along (fun world => Verifies kit trust world.file) (.down []) labels := by
  have sound := along_of_meets (fun _ _ _ => SpoolSound.step) spoolSound_empty keeps
  intro front back world split run
  exact (sound front back world split run).verifies

end Worlds

section Runs

def noSpace : WriteEnd := .failed 0 "no space left on device"

section

variable (spool : Spool Unit) (file : Bytes) (record : AuditRecord) (now : Time)
include spool file record now

theorem write_landed : spool.write unaryKit file record now .landed =
      (none, spool.landed (hashed (spool.numbered record now)),
        file ++ (spool.body (unaryText (hashed (spool.numbered record now)).number) ++
          [lineEnd])) :=
  rfl

theorem write_refused : spool.write unaryKit file record now noSpace =
      (some "no space left on device", spool.failed "no space left on device" false, file) := by
  have some_ : ∀ number, ¬(spool.body (unaryText number)).length ≤ 0 := by
    intro number
    unfold Spool.body
    split <;> simp [unaryText]
  have text : spool.text unaryKit record now = .ok (hashed (spool.numbered record now),
      unaryText (hashed (spool.numbered record now)).number) := rfl
  simp only [Spool.write, text, noSpace, decide_eq_false (some_ _), List.take_zero,
    List.append_nil]

end

def appendAlone (event : String) (gap ends : WriteEnd) (thread : Nat) : List (WorldLabel Unit) :=
  [.process (.start (.append .bestEffort { event := event })),
    .process (.act thread ⟨1, .landed, none⟩), .process (.act thread ⟨1, gap, none⟩),
    .process (.act thread ⟨1, ends, none⟩)]

variable {process : SpoolProcess Unit} {event : String} {gap ends : WriteEnd}

theorem exec_appendAlone (idle : process.mu = none) (open_ : process.spool.closed = false) :
    (worldMachine unaryKit).exec (.up process)
        (appendAlone event gap ends process.calls.length) =
      some (.up ({ process with
        mu := some process.calls.length
        spool := (process.spool.writeGap unaryKit process.file 1 gap).1
        file := (process.spool.writeGap unaryKit process.file 1 gap).2
        calls := process.calls ++
          [(SpoolCall.append .bestEffort { event := event }, SpoolPoint.recording)]
        }.record unaryKit process.calls.length (.append .bestEffort { event := event })
          ⟨1, ends, none⟩)) := by
  simp [appendAlone, Machine.exec, worldMachine, SpoolWorld.step, SpoolProcess.step,
    SpoolProcess.act, SpoolProcess.enter, idle, open_, SpoolCall.op, SpoolProcess.perform,
    SpoolProcess.moveTo, SpoolProcess.gap, Spool.perform]

theorem meets_appendAlone (idle : process.mu = none) (open_ : process.spool.closed = false)
    (gapWell : WritesWell unaryKit process.spool .gap 1 gap)
    (recordWell : WritesWell unaryKit (process.spool.writeGap unaryKit process.file 1 gap).1
      (.record { event := event }) 1 ends) :
    (worldMachine unaryKit).Meets (KeepsChain unaryKit ∅) (.up process)
      (appendAlone event gap ends process.calls.length) := by
  simp [Machine.Meets, appendAlone, KeepsChain, worldMachine, SpoolWorld.step, SpoolProcess.step,
    SpoolProcess.act, SpoolProcess.enter, idle, open_, SpoolCall.op, SpoolProcess.perform,
    SpoolProcess.moveTo, SpoolProcess.gap, Spool.perform, SpoolProcess.op, gapWell, recordWell]

theorem writesWell_gap {spool : Spool Unit} {now : Time} (seq : spool.seq ≠ maxSeq)
    (sound : spool.stray = false) : WritesWell unaryKit spool .gap now ends := by
  refine ⟨fun _ => seq, by simp, fun _ _ _ _ _ _ _ _ _ => rfl, ?_⟩
  intro writer record writes _
  obtain ⟨lost, _, same⟩ := Option.map_eq_some_iff.mp writes
  simp only [Prod.mk.injEq] at same
  rw [← same.1]
  exact ⟨sound, rfl⟩

theorem writesWell_record {spool : Spool Unit} {now : Time} (seq : spool.seq ≠ maxSeq)
    (sound : spool.stray = false) (lost : spool.lost = none) (plain : event ≠ eventCheckpoint) :
    WritesWell unaryKit spool (.record { event := event }) now ends := by
  refine ⟨fun _ => seq, ?_, fun _ _ _ _ _ _ _ _ _ => rfl, ?_⟩
  · intro record same
    simp only [SpoolOp.record.injEq] at same
    rw [← same]
    exact ⟨plain, by simp [AuditRecord.missing]⟩
  · intro writer record writes _
    simp only [Spool.writes, Option.some.injEq, Prod.mk.injEq] at writes
    rw [← writes.1]
    exact ⟨sound, lost⟩

def lostFirst : SpoolProcess Unit where
  spool := newSpool.spool.failed "no space left on device" false
  file := []
  calls := [(.append .bestEffort { event := "clone" },
    .returned 0 (some (errAudit "no space left on device")))]

theorem lostFirst_run : (worldMachine unaryKit).exec (.up newSpool)
    (appendAlone "clone" .landed noSpace 0) = some (.up lostFirst) := by
  have run := @exec_appendAlone newSpool "clone" .landed noSpace rfl rfl
  refine run.trans ?_
  simp [SpoolProcess.record, SpoolProcess.perform, SpoolCall.op, Spool.perform, write_refused,
    SpoolProcess.moveTo, lostFirst, Spool.writeGap, newSpool]

/-- A record is lost, and the gap for it lands before the next one. -/
def mendedRun : List (WorldLabel Unit) :=
  .openSpool none 1 .landed ::
    (appendAlone "clone" .landed noSpace 0 ++ appendAlone "release" .landed .landed 1)

theorem mendedRun_meets :
    (worldMachine unaryKit).Meets (KeepsChain unaryKit ∅) (.down []) mendedRun := by
  have start : (worldMachine unaryKit).step (.down []) (.openSpool none 1 .landed) =
      some (.up newSpool) := rfl
  refine .cons ⟨by simp, ?_⟩ start (.append ?_ lostFirst_run ?_)
  · intro offset torn
    simp [scanSpool, scanLines, SpoolEnd.scan, unaryKit.readLine_nil] at torn
  · exact @meets_appendAlone newSpool "clone" .landed noSpace rfl rfl
      (writesWell_gap (by decide) rfl) (writesWell_record (by decide) rfl rfl (by decide))
  · exact @meets_appendAlone lostFirst "release" .landed .landed rfl rfl
      (writesWell_gap (by decide) rfl) (writesWell_record (by decide) rfl rfl (by decide))

theorem verifies_mendedRun :
    ∃ world, (worldMachine unaryKit).exec (.down []) mendedRun = some world ∧
      Verifies unaryKit ∅ world.file := by
  have last := @exec_appendAlone lostFirst "release" .landed .landed rfl rfl
  have run : (worldMachine unaryKit).exec (.down []) mendedRun = some _ :=
    exec_cons_eq_some.mpr ⟨.up newSpool, rfl, exec_append_eq_some.mpr ⟨_, lostFirst_run, last⟩⟩
  exact ⟨_, run, spool_verifies mendedRun_meets mendedRun [] _ (by simp) run⟩

def firstRecord : AuditRecord := hashed { seq := 1, time := 1, event := "clone" }

def lateRecord : AuditRecord :=
  hashed { seq := 4, time := 1, event := "release", prevHash := firstRecord.hash }

def cloned : SpoolProcess Unit where
  spool := newSpool.spool.landed firstRecord
  file := unaryLine firstRecord
  calls := [(.append .bestEffort { event := "clone" }, .returned 1 none)]

def refused : SpoolProcess Unit where
  spool := cloned.spool.failed "no space left on device" false
  file := cloned.file
  calls := cloned.calls ++ [(.append .bestEffort { event := "park" },
    .returned 0 (some (errAudit "no space left on device")))]

def gapless : Spool Unit :=
  { Spool.failed { refused.spool with lost := none } "no space left on device" false with
    lost := some ⟨2, 3⟩ }

def signDue (thread : Nat) : WorldLabel Unit := .process (.act thread ⟨1, .landed, none⟩)

theorem cloned_run : (worldMachine unaryKit).exec (.up newSpool)
    (appendAlone "clone" .landed .landed 0 ++ [signDue 0]) = some (.up cloned) := by
  have run := @exec_appendAlone newSpool "clone" .landed .landed rfl rfl
  exact exec_append_eq_some.mpr ⟨_, run, rfl⟩

theorem refused_run : (worldMachine unaryKit).exec (.up cloned)
    (appendAlone "park" .landed noSpace 1) = some (.up refused) := by
  have run := @exec_appendAlone cloned "park" .landed noSpace rfl rfl
  refine run.trans ?_
  simp [SpoolProcess.record, SpoolProcess.perform, SpoolCall.op, Spool.perform, write_refused,
    refused, SpoolProcess.moveTo, cloned, Spool.writeGap, newSpool, Spool.landed]

theorem refused_gap : refused.spool.writeGap unaryKit refused.file 1 noSpace =
    (gapless, unaryLine firstRecord) := by
  simp [Spool.writeGap, refused, Spool.failed, write_refused, cloned, gapless, newSpool,
    Spool.landed]

theorem late_run : ∃ process, (worldMachine unaryKit).exec (.up refused)
      (appendAlone "release" noSpace .landed 2) = some (.up process) ∧
    process.file = unaryLine firstRecord ++ lineEnd :: unaryLine lateRecord := by
  have run := @exec_appendAlone refused "release" noSpace .landed rfl rfl
  rw [refused_gap] at run
  have late : hashed (gapless.numbered { event := "release" } 1) = lateRecord := rfl
  have open_ : gapless.newline = true := rfl
  refine ⟨_, run, ?_⟩
  simp [SpoolProcess.record, SpoolProcess.perform, SpoolCall.op, Spool.perform, write_landed,
    SpoolProcess.moveTo, late, Spool.body, open_, unaryLine]

theorem late_rejected :
    ¬Accepted unaryKit ∅ (unaryLine firstRecord ++ lineEnd :: unaryLine lateRecord) := by
  have follows : Follows unaryKit ∅ none false firstRecord := by
    refine ⟨recordHash_hashed _, rfl, by simp, by simp, ?_⟩
    simp [firstRecord, hashed, eventCheckpoint]
  have first : Chain.step unaryKit ∅ {} (.record firstRecord) = some ⟨[firstRecord], false⟩ :=
    Chain.step_record (hashed_ne _) follows
  have lines : unaryKit.read (unaryLine firstRecord ++ lineEnd :: unaryLine lateRecord) =
      [.record firstRecord, .blank, .record lateRecord, .blank] := by
    have line := unaryKit.read_append [] (unaryLine lateRecord)
    have last := read_unaryLine lateRecord []
    simp only [List.append_nil, List.nil_append] at last line
    rw [read_unaryLine, line, last, AuditKit.read_nil]
    rfl
  rw [Accepted, verifySpool_ok_iff, lines, Chain.run_cons, first, Option.bind_some, Chain.run_cons]
  rintro ⟨chain, run⟩
  obtain ⟨next, blank, rest⟩ := Option.bind_eq_some_iff.mp run
  cases blank
  rw [Chain.run_cons] at rest
  obtain ⟨next, late, _⟩ := Option.bind_eq_some_iff.mp rest
  rcases Chain.step_cases late with ⟨same, _⟩ | ⟨same, _⟩ | ⟨record, same, unchained, _⟩ |
    ⟨record, same, _, follows, _⟩
  · simp at same
  · simp at same
  · cases same
    exact hashed_ne _ unchained
  · cases same
    have number := follows.number firstRecord rfl
    simp [AuditRecord.Continues, AuditRecord.missing, lateRecord, firstRecord, hashed,
      eventGap] at number

/-- The write of a record fails, then that of the gap for it, and the next record lands. -/
theorem refused_gap_breaks_chain :
    ∃ world, (worldMachine unaryKit).exec (.down [])
        (.openSpool none 1 .landed :: ((appendAlone "clone" .landed .landed 0 ++ [signDue 0]) ++
          (appendAlone "park" .landed noSpace 1 ++ appendAlone "release" noSpace .landed 2))) =
        some world ∧
      ¬Accepted unaryKit ∅ world.file := by
  obtain ⟨process, run, file⟩ := late_run
  refine ⟨.up process, ?_, ?_⟩
  · refine exec_cons_eq_some.mpr ⟨.up newSpool, rfl, ?_⟩
    exact exec_append_eq_some.mpr ⟨_, cloned_run, exec_append_eq_some.mpr ⟨_, refused_run, run⟩⟩
  · rw [SpoolWorld.file, file]
    exact late_rejected

end Runs

end Fiberd
