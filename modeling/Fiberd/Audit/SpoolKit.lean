import Fiberd.Audit.VerifySpool
import Mathlib.Logic.Encodable.Basic
import Mathlib.Logic.Equiv.List

/-!
A kit that meets the laws: a record is numbered, and its line is the number in
unary between two braces.  Every record comes back from its line as it was, and
no two records have one digest.
-/

namespace Fiberd

def stringCode (text : String) : List Nat := text.toList.map Char.toNat

def codeString (code : List Nat) : String := String.ofList (code.map Char.ofNat)

theorem codeString_stringCode (text : String) : codeString (stringCode text) = text := by
  have same : Char.ofNat ∘ Char.toNat = id := funext Char.ofNat_toNat
  simp [codeString, stringCode, same]

abbrev RecordCode :=
  (Nat × Nat × List Nat) × (List Nat × Nat × Nat) × (List Nat × List Nat × List Nat) ×
    List (List Nat × List Nat) × Option (Nat × Nat) × (List Nat × List Nat) × List Nat × List Nat

def AuditRecord.code (record : AuditRecord) : RecordCode :=
  ((record.seq.toNat, record.time, stringCode record.event),
    (stringCode record.fence.grantUID, record.fence.epoch, record.fence.seq),
    (stringCode record.session, stringCode record.fiberID, stringCode record.detail),
    record.scope.val.map (fun fact => (stringCode fact.1, stringCode fact.2)),
    record.lost.map (fun lost => (lost.from_.toNat, lost.to_.toNat)),
    (stringCode record.signer, stringCode record.signature),
    stringCode record.prevHash, stringCode record.hash)

def RecordCode.record : RecordCode → AuditRecord
  | ((seq, time, event), (grantUID, epoch, fenceSeq), (session, fiberID, detail), scope, lost,
      (signer, signature), prevHash, hash) =>
    { seq := UInt64.ofNat seq
      time := time
      event := codeString event
      fence := ⟨codeString grantUID, epoch, fenceSeq⟩
      session := codeString session
      fiberID := codeString fiberID
      detail := codeString detail
      scope := .of (scope.map fun fact => (codeString fact.1, codeString fact.2))
      lost := lost.map fun lost => ⟨UInt64.ofNat lost.1, UInt64.ofNat lost.2⟩
      signer := codeString signer
      signature := codeString signature
      prevHash := codeString prevHash
      hash := codeString hash }

theorem AuditRecord.record_code (record : AuditRecord) : record.code.record = record := by
  have sorted (scope : Scope) : Scope.of scope.val = scope := dif_pos scope.property
  simp [code, RecordCode.record, codeString_stringCode, Function.comp_def, sorted]

def AuditRecord.number (record : AuditRecord) : Nat := Encodable.encode record.code

def numberedRecord (number : Nat) : Option AuditRecord :=
  (Encodable.decode number : Option RecordCode).map RecordCode.record

theorem numberedRecord_number (record : AuditRecord) :
    numberedRecord record.number = some record := by
  rw [numberedRecord, AuditRecord.number, Encodable.encodek, Option.map_some,
    AuditRecord.record_code]

attribute [irreducible] AuditRecord.number

def unaryText (number : Nat) : Bytes := 123 :: (List.replicate number 49 ++ [125])

theorem length_unaryText (number : Nat) : (unaryText number).length = number + 2 := by
  simp [unaryText]

def readUnary (text : Bytes) : Line :=
  if text = [] then .blank
  else if text = unaryText (text.length - 2) then
    match numberedRecord (text.length - 2) with
    | some record => .record record
    | none => .unreadable
  else .unreadable

theorem readUnary_number (record : AuditRecord) :
    readUnary (unaryText record.number) = .record record := by
  have some_ : unaryText record.number ≠ [] := by simp [unaryText]
  simp [readUnary, some_, length_unaryText, numberedRecord_number]

theorem readUnary_cut {number : Nat} {cut : Bytes} (front : cut <+: unaryText number)
    (some_ : cut ≠ []) (short : cut ≠ unaryText number) : readUnary cut = .unreadable := by
  have shorter : cut.length < number + 2 := by
    have bound := front.length_le
    rw [length_unaryText] at bound
    refine Nat.lt_of_le_of_ne bound ?_
    intro same
    exact short (front.eq_of_length (by rw [same, length_unaryText]))
  have open_ : cut ≠ unaryText (cut.length - 2) := by
    intro same
    have length : cut.length = cut.length - 2 + 2 := by
      rw [← length_unaryText, ← same]
    have index : cut.length - 1 = (cut.length - 2) + 1 := by omega
    have last : cut[cut.length - 1]? = some 125 := by
      rw [index]
      nth_rewrite 1 [same]
      simp [unaryText]
    have inside : (unaryText number)[cut.length - 1]? = some 49 := by
      have bound : cut.length - 2 < number := by omega
      rw [index, unaryText, List.getElem?_cons_succ,
        List.getElem?_append_left (by simp [bound]), List.getElem?_replicate, if_pos bound]
    obtain ⟨rest, whole⟩ := front
    have within : cut.length - 1 < cut.length := by omega
    rw [← whole, List.getElem?_append_left within, last] at inside
    simp at inside
  simp [readUnary, some_, open_]

def unaryKit : AuditKit Unit Unit where
  marshal record := .ok (unaryText record.number)
  readLine := readUnary
  reread := id
  digest text := String.ofList (List.replicate (text.length + 1) '#')
  publicKey := id
  sign _ payload := payload
  verifies _ payload signature := decide (payload = signature)
  readLine_nil := rfl
  one_line := by
    intro record text marshals mem
    cases marshals
    simp [unaryText, lineEnd, List.mem_replicate] at mem
  readLine_marshal := by
    intro record text marshals
    cases marshals
    exact readUnary_number record
  readLine_cut := by
    intro record text cut marshals front some_ short
    cases marshals
    exact readUnary_cut front some_ short
  digest_ne := by
    intro text same
    have lists := congrArg String.toList same
    simp [List.replicate_succ] at lists
  verifies_sign := by simp

@[simp] theorem unaryKit_marshal (record : AuditRecord) :
    unaryKit.marshal record = .ok (unaryText record.number) := rfl

@[simp] theorem unaryKit_reread (record : AuditRecord) : unaryKit.reread record = record := rfl

def hashed (record : AuditRecord) : AuditRecord :=
  { record with hash := unaryKit.digest (unaryText { record with hash := "" }.number) }

theorem hashed_ne (record : AuditRecord) : (hashed record).hash ≠ "" := unaryKit.digest_ne _

theorem recordHash_hashed (record : AuditRecord) :
    unaryKit.recordHash (hashed record) = .ok (hashed record).hash := by
  simp only [AuditKit.recordHash, unaryKit_marshal, Except.map, hashed]

def unaryLine (record : AuditRecord) : Bytes := unaryText record.number ++ [lineEnd]

theorem read_unaryLine (record : AuditRecord) (rest : Bytes) :
    unaryKit.read (unaryLine record ++ rest) = .record record :: unaryKit.read rest := by
  have line := @AuditKit.read_line _ _ unaryKit record _ rfl rest
  simpa [unaryLine] using line

theorem unaryKit_injective {record twin : AuditRecord} {hash : String}
    (one : unaryKit.recordHash record = .ok hash) (two : unaryKit.recordHash twin = .ok hash) :
    { record with hash := "" } = { twin with hash := "" } := by
  have digests : unaryKit.digest (unaryText { record with hash := "" }.number) =
      unaryKit.digest (unaryText { twin with hash := "" }.number) := by
    rw [← two] at one
    exact Except.ok.inj one
  have lists := congrArg (List.length ∘ String.toList) digests
  simp only [unaryKit, Function.comp_apply, String.toList_ofList, List.length_replicate,
    length_unaryText, Nat.add_right_cancel_iff] at lists
  have same := congrArg numberedRecord lists
  rw [numberedRecord_number, numberedRecord_number] at same
  exact Option.some.inj same

end Fiberd
