import Fiberd.Audit.SpoolCore
import Fiberd.Audit.SpoolTamper

/-!
What a write leaves in the file.  A line that lands is the next record of the
chain; a line cut short is blank or unreadable; a line that failed after its last
byte is a record all the same.
-/

namespace Fiberd

open Tables

def Clean (file : Bytes) : Prop := file = [] ∨ file.getLast? = some lineEnd

section Lines

variable {κ π : Type} {kit : AuditKit κ π} {trust : Table String π} {spool : Spool κ}
  {file : Bytes} {chain : Chain}

theorem body_append (spool : Spool κ) (text rest : Bytes) :
    spool.body text ++ rest = spool.body (text ++ rest) := by
  unfold Spool.body
  split <;> rfl

theorem read_body (clean : spool.newline = false → Clean file) (text : Bytes) :
    ∃ front, kit.read (file ++ spool.body text) = front ++ kit.read text ∧
      (kit.read file = front ∨ kit.read file = front ++ [.blank]) := by
  unfold Spool.body
  split
  · exact ⟨kit.read file, kit.read_append file text, .inl rfl⟩
  · rename_i open_
    rcases clean (by simpa using open_) with rfl | ends
    · exact ⟨[], by simp, .inr (by simp)⟩
    · obtain ⟨front, rfl⟩ := List.getLast?_eq_some_iff.mp ends
      refine ⟨kit.read front, ?_, .inr ?_⟩
      · rw [List.append_assoc, List.singleton_append, kit.read_append]
      · rw [kit.read_append, kit.read_nil]

theorem Chain.run_blank (chain : Chain) : chain.run kit trust [.blank] = some chain := rfl

theorem run_body (clean : spool.newline = false → Clean file)
    (run : Chain.run kit trust {} (kit.read file) = some chain) (text : Bytes) :
    Chain.run kit trust {} (kit.read (file ++ spool.body text)) =
      chain.run kit trust (kit.read text) := by
  obtain ⟨front, whole, same | same⟩ := @read_body _ _ kit spool file clean text
  · rw [whole, Chain.run_append, ← same, run, Option.bind_some]
  · have old : Chain.run kit trust {} front = some chain := by
      rw [same, Chain.run_append] at run
      obtain ⟨mid, first, last⟩ := Option.bind_eq_some_iff.mp run
      rw [Chain.run_blank, Option.some.injEq] at last
      rw [first, last]
    rw [whole, Chain.run_append, old, Option.bind_some]

theorem records_body (clean : spool.newline = false → Clean file) (text : Bytes) :
    kit.records (file ++ spool.body text) = kit.records file ++ kit.records text := by
  obtain ⟨front, whole, same | same⟩ := @read_body _ _ kit spool file clean text
  · simp [AuditKit.records, whole, same]
  · simp [AuditKit.records, whole, same, Line.record?]

theorem take_body (spool : Spool κ) (text : Bytes) (count : Nat) :
    (spool.body text ++ [lineEnd]).take count = [] ∧ ¬(spool.body text).length ≤ count ∨
      ∃ cut, (spool.body text ++ [lineEnd]).take count = spool.body cut ∧
        cut <+: text ++ [lineEnd] ∧
        ((spool.body text).length ≤ count ↔ text.length ≤ cut.length) := by
  have prefix_ : ∀ short, (text ++ [lineEnd]).take short <+: text ++ [lineEnd] :=
    fun short => List.take_prefix short _
  cases open_ : spool.newline with
  | true =>
    cases count with
    | zero => exact .inl (by simp [Spool.body, open_])
    | succ count =>
      refine .inr ⟨(text ++ [lineEnd]).take count, ?_, prefix_ count, ?_⟩
      · simp [Spool.body, open_]
      · simp only [Spool.body, open_, if_true, List.length_cons, List.length_take,
          List.length_append, List.length_nil]
        omega
  | false =>
    refine .inr ⟨(text ++ [lineEnd]).take count, ?_, prefix_ count, ?_⟩
    · simp [Spool.body, open_]
    · simp only [Spool.body, open_, Bool.false_eq_true, if_false, List.length_cons,
        List.length_take, List.length_append, List.length_nil]
      omega

variable {record : AuditRecord} {text cut : Bytes}

variable (marshals : kit.marshal record = .ok text) (front : cut <+: text ++ [lineEnd])
include marshals front

theorem read_cut (short : ¬text.length ≤ cut.length) :
    kit.read cut = [.blank] ∨ kit.read cut = [.unreadable] := by
  have within : cut <+: text :=
    List.prefix_of_prefix_length_le front (List.prefix_append text [lineEnd]) (by omega)
  have plain : lineEnd ∉ cut := fun mem =>
    kit.one_line record text marshals (within.subset mem)
  rw [kit.read_of_not_mem plain]
  by_cases empty : cut = []
  · subst cut
    exact .inl (by rw [kit.readLine_nil])
  · refine .inr ?_
    rw [kit.readLine_cut record text cut marshals within empty]
    rintro rfl
    exact short (le_refl _)

theorem read_whole (whole : text.length ≤ cut.length) :
    kit.read cut = [.record (kit.reread record)] ∨
      kit.read cut = [.record (kit.reread record), .blank] := by
  have plain := kit.one_line record text marshals
  have bound := front.length_le
  simp only [List.length_append, List.length_singleton] at bound
  by_cases same : cut.length = text.length
  · have equal : cut = text :=
      (List.prefix_of_prefix_length_le front (List.prefix_append text [lineEnd])
        (by omega)).eq_of_length same
    subst cut
    left
    rw [kit.read_of_not_mem plain, kit.readLine_marshal record text marshals]
  · have equal : cut = text ++ [lineEnd] := front.eq_of_length (by simp; omega)
    subst cut
    right
    rw [kit.read_line marshals [], kit.read_nil]

end Lines

def lastSeq (records : List AuditRecord) : UInt64 :=
  (records.getLast?.map AuditRecord.seq).getD 0

def lastHash (records : List AuditRecord) : String :=
  (records.getLast?.map AuditRecord.hash).getD ""

def Accounted (records : List AuditRecord) (number : UInt64) : Prop :=
  ∃ record ∈ records, record.seq = number ∨
    ∃ lost, record.missing = some lost ∧ lost.has number = true

structure Covers (records : List AuditRecord) : Prop where
  below : ∀ record ∈ records, record.seq.toNat ≤ (lastSeq records).toNat
  all : ∀ number : UInt64, 0 < number.toNat → number.toNat ≤ (lastSeq records).toNat →
    Accounted records number

theorem lastSeq_snoc (records : List AuditRecord) (record : AuditRecord) :
    lastSeq (records ++ [record]) = record.seq := by
  simp [lastSeq]

theorem lastHash_snoc (records : List AuditRecord) (record : AuditRecord) :
    lastHash (records ++ [record]) = record.hash := by
  simp [lastHash]

theorem Covers.snoc {records : List AuditRecord} {record : AuditRecord} (covers : Covers records)
    (continues : record.Continues (lastSeq records)) (last : lastSeq records ≠ maxSeq)
    (named : ∀ lost, record.missing = some lost → lost.to_ ≠ maxSeq) :
    Covers (records ++ [record]) := by
  obtain ⟨grows, gap, plain⟩ := continues.advances last named
  refine ⟨?_, ?_⟩
  · intro item mem
    rw [lastSeq_snoc]
    rcases List.mem_append.mp mem with before | now
    · have bound := covers.below item before
      omega
    · rw [List.mem_singleton.mp now]
  · intro number positive upTo
    rw [lastSeq_snoc] at upTo
    by_cases old : number.toNat ≤ (lastSeq records).toNat
    · obtain ⟨item, mem, accounts⟩ := covers.all number positive old
      exact ⟨item, List.mem_append_left _ mem, accounts⟩
    · refine ⟨record, by simp, ?_⟩
      by_cases mine : number.toNat = record.seq.toNat
      · exact .inl (UInt64.toNat_inj.mp mine.symm)
      · right
        cases missing : record.missing with
        | none =>
          have next := plain missing
          omega
        | some lost =>
          obtain ⟨starts, ends⟩ := gap lost missing
          refine ⟨lost, rfl, (SeqRange.has_iff lost number).mpr ?_⟩
          omega

section Files

variable {κ π : Type} (kit : AuditKit κ π) (trust : Table String π)

structure Holds (file : Bytes) (chain : Chain) : Prop where
  run : Chain.run kit trust {} (kit.read file) = some chain
  chained : ∀ record ∈ kit.records file, record.hash ≠ ""
  covers : Covers chain.records

def AuditKit.Survives (record : AuditRecord) : Prop :=
  ∀ (seq : UInt64) (time : Time) (prev hash : String) (text : Bytes),
    kit.marshal { record with seq := seq, time := time, prevHash := prev, hash := hash } =
        .ok text →
      kit.reread { record with seq := seq, time := time, prevHash := prev, hash := hash } =
        { record with seq := seq, time := time, prevHash := prev, hash := hash }

def WriteEnd.whole (ends : WriteEnd) (length : Nat) : Bool :=
  match ends with
  | .landed => true
  | .failed count _ => decide (length ≤ count)

def Spool.Reaches (spool : Spool κ) (record : AuditRecord) (now : Time) (ends : WriteEnd) : Prop :=
  ∃ full text, spool.text kit record now = .ok (full, text) ∧
    ends.whole (spool.body text).length = true

variable {kit trust} {spool : Spool κ} {record full : AuditRecord} {text : Bytes} {now : Time}

structure Completes (kit : AuditKit κ π) (spool : Spool κ) (record full : AuditRecord)
    (text : Bytes) : Prop where
  same : ∃ time, full = { record with
    seq := spool.seq + 1, time := time, prevHash := spool.prev, hash := full.hash }
  hash : kit.recordHash full = .ok full.hash
  hashed : full.hash ≠ ""
  marshals : kit.marshal full = .ok text

theorem completes (known : spool.text kit record now = .ok (full, text)) :
    Completes kit spool record full text := by
  unfold Spool.text at known
  cases digest : kit.recordHash (spool.numbered record now) with
  | error error => simp [digest, bind, Except.bind] at known
  | ok hash =>
    simp only [digest, bind, Except.bind] at known
    cases marshals : kit.marshal { spool.numbered record now with hash := hash } with
    | error error => simp [marshals] at known
    | ok line =>
      simp only [marshals, pure, Except.pure] at known
      cases known
      refine ⟨⟨_, rfl⟩, digest, ?_, marshals⟩
      simp only [AuditKit.recordHash] at digest
      cases inner : kit.marshal { spool.numbered record now with hash := "" } with
      | error error => simp [inner, Except.map] at digest
      | ok line =>
        simp only [inner, Except.map, Except.ok.injEq] at digest
        rw [← digest]
        exact kit.digest_ne line

theorem Completes.fields (completes : Completes kit spool record full text) :
    full.seq = spool.seq + 1 ∧ full.prevHash = spool.prev ∧ full.event = record.event ∧
      full.missing = record.missing ∧ full.signer = record.signer ∧
      full.signature = record.signature := by
  obtain ⟨time, same⟩ := completes.same
  rw [same]
  exact ⟨rfl, rfl, rfl, rfl, rfl, rfl⟩

theorem Completes.reread (completes : Completes kit spool record full text)
    (survives : kit.Survives record) : kit.reread full = full := by
  obtain ⟨time, same⟩ := completes.same
  have marshals := completes.marshals
  rw [same] at marshals ⊢
  exact survives _ _ _ _ text marshals

structure Extends (kit : AuditKit κ π) (trust : Table String π) (chain : Chain)
    (full : AuditRecord) : Prop where
  reread : kit.reread full = full
  hashed : full.hash ≠ ""
  follows : Follows kit trust chain.records.getLast? chain.torn full
  covers : Covers (chain.records ++ [full])

theorem Holds.snoc {file cut : Bytes} {chain : Chain} (has : Holds kit trust file chain)
    (clean : spool.newline = false → Clean file) (marshals : kit.marshal full = .ok text)
    (front : cut <+: text ++ [lineEnd]) (whole : text.length ≤ cut.length)
    (extends_ : Extends kit trust chain full) :
    Holds kit trust (file ++ spool.body cut)
      { records := chain.records ++ [full], torn := false } := by
  have step := Chain.step_record extends_.hashed extends_.follows
  have lines := read_whole marshals front whole
  rw [extends_.reread] at lines
  refine ⟨?_, ?_, extends_.covers⟩
  · rw [run_body clean has.run]
    rcases lines with one | two
    · rw [one, Chain.run_cons, step]
      rfl
    · rw [two, Chain.run_cons, step]
      rfl
  · intro item mem
    rw [records_body clean] at mem
    rcases List.mem_append.mp mem with old | now
    · exact has.chained item old
    · have mine : item = full := by
        rcases lines with one | two
        · simpa [AuditKit.records, one, Line.record?] using now
        · simpa [AuditKit.records, two, Line.record?] using now
      rw [mine]
      exact extends_.hashed

theorem Holds.torn {file cut : Bytes} {chain : Chain} (has : Holds kit trust file chain)
    (clean : spool.newline = false → Clean file) (marshals : kit.marshal full = .ok text)
    (front : cut <+: text ++ [lineEnd]) (short : ¬text.length ≤ cut.length) :
    ∃ torn, Holds kit trust (file ++ spool.body cut) { chain with torn := torn } := by
  rcases read_cut marshals front short with line | line
  · refine ⟨chain.torn, ?_, ?_, has.covers⟩
    · rw [run_body clean has.run, line]
      rfl
    · have none_ : kit.records cut = [] := by simp [AuditKit.records, line, Line.record?]
      rw [records_body clean, none_, List.append_nil]
      exact has.chained
  · refine ⟨chain.torn || !chain.records.isEmpty, ?_, ?_, has.covers⟩
    · rw [run_body clean has.run, line]
      rfl
    · have none_ : kit.records cut = [] := by simp [AuditKit.records, line, Line.record?]
      rw [records_body clean, none_, List.append_nil]
      exact has.chained

inductive Wrote (kit : AuditKit κ π) (trust : Table String π) (spool : Spool κ)
    (record : AuditRecord) (now : Time) (ends : WriteEnd) (chain : Chain) :
    Option String × Spool κ × Bytes → Prop
  | landed (full : AuditRecord) (text file : Bytes)
      (reaches : spool.Reaches kit record now ends)
      (completes : Completes kit spool record full text)
      (holds : Holds kit trust file { records := chain.records ++ [full], torn := false })
      (clean : Clean file) :
      Wrote kit trust spool record now ends chain (none, spool.landed full, file)
  | cut (error : String) (torn : Bool) (file : Bytes)
      (holds : Holds kit trust file { chain with torn := torn }) :
      Wrote kit trust spool record now ends chain (some error, spool.failed error false, file)
  | stray (error : String) (file : Bytes) (later : Chain) (holds : Holds kit trust file later) :
      Wrote kit trust spool record now ends chain (some error, spool.failed error true, file)

theorem Holds.write {file : Bytes} {chain : Chain} (has : Holds kit trust file chain)
    (clean : spool.newline = false → Clean file) {ends : WriteEnd}
    (extends_ : ∀ full text, Completes kit spool record full text →
      spool.Reaches kit record now ends → Extends kit trust chain full) :
    Wrote kit trust spool record now ends chain (spool.write kit file record now ends) := by
  unfold Spool.write
  cases known : spool.text kit record now with
  | error error => exact .cut error chain.torn file has
  | ok pair =>
    obtain ⟨full, text⟩ := pair
    have done := completes known
    cases ends with
    | landed =>
      have reaches : spool.Reaches kit record now .landed := ⟨full, text, known, rfl⟩
      have next := extends_ full text done reaches
      dsimp only
      rw [body_append]
      refine .landed full text _ reaches done
        (has.snoc clean done.marshals (List.prefix_refl _) (by simp) next) ?_
      refine .inr ?_
      rw [← body_append, ← List.append_assoc]
      exact List.getLast?_concat
    | failed count error =>
      dsimp only
      rcases take_body spool text count with ⟨nothing, short⟩ | ⟨cut, same, front, whole⟩
      · rw [nothing, List.append_nil, decide_eq_false short]
        exact .cut error chain.torn file has
      · rw [same]
        by_cases reaches : (spool.body text).length ≤ count
        · have next := extends_ full text done
            ⟨full, text, known, by simpa [WriteEnd.whole] using reaches⟩
          rw [decide_eq_true reaches]
          exact .stray error _ _
            (has.snoc clean done.marshals front (whole.mp reaches) next)
        · obtain ⟨torn, cutHolds⟩ := has.torn clean done.marshals front
            (fun long => reaches (whole.mpr long))
          rw [decide_eq_false reaches]
          exact .cut error torn _ cutHolds

end Files

end Fiberd
