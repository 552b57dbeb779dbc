import Fiberd.Audit.AuditRecord

/-!
`VerifySpool`, from `pkg/core/audit.go`: one pass over the lines of a spool.
-/

namespace Fiberd

open Tables

inductive ChainFault where
  | notChained (seq : UInt64)
  | wrongHash (seq : UInt64)
  | startsLate (seq : UInt64)
  | notAfter (seq prev : UInt64)
  | gapNames (seq : UInt64) (lost : SeqRange) (prev : UInt64)
  | seqAfter (seq prev : UInt64)
  | noGapFollows
  | signsNothing (seq : UInt64)
  | untrusted (seq : UInt64) (signer : String)
  | wrongSignature (seq : UInt64)
  deriving DecidableEq, Repr

def ChainFault.message : ChainFault → String
  | .notChained seq => "seq " ++ toString seq ++ " is not chained"
  | .wrongHash seq => "seq " ++ toString seq ++ ": the hash does not match the record"
  | .startsLate seq => "the chain starts at seq " ++ toString seq ++
      ", which follows a record that is not here"
  | .notAfter seq prev => "seq " ++ toString seq ++ " does not follow seq " ++ toString prev
  | .gapNames seq lost prev => "gap seq " ++ toString seq ++ " names " ++ toString lost.from_ ++
      "-" ++ toString lost.to_ ++ ", after seq " ++ toString prev
  | .seqAfter seq prev => "seq " ++ toString seq ++ " follows seq " ++ toString prev
  | .noGapFollows => "unreadable, and no gap follows it"
  | .signsNothing seq => "checkpoint seq " ++ toString seq ++ " signs nothing"
  | .untrusted seq signer => "checkpoint seq " ++ toString seq ++ ": signer " ++ signer.quote ++
      " is not trusted"
  | .wrongSignature seq => "checkpoint seq " ++ toString seq ++ ": the signature does not hold"

structure ChainError where
  line : Nat
  fault : ChainFault
  deriving DecidableEq, Repr

def ChainError.message (error : ChainError) : String :=
  "audit: spool does not verify: line " ++ toString error.line ++ ": " ++ error.fault.message

structure SpoolReport where
  records : Nat := 0
  unchained : Nat := 0
  gaps : List AuditRecord := []
  checkpoints : Nat := 0
  signedSeq : UInt64 := 0
  unsigned : Nat := 0
  tornTail : Bool := false
  deriving DecidableEq, Repr

section Checks

variable {κ π : Type} (kit : AuditKit κ π) (trust : Table String π)

def hashFault (record : AuditRecord) : Option ChainFault :=
  match kit.recordHash record with
  | .ok hash => if hash = record.hash then none else some (.wrongHash record.seq)
  | .error _ => some (.wrongHash record.seq)

def linkFault (prev : Option AuditRecord) (record : AuditRecord) : Option ChainFault :=
  match prev with
  | none => if record.prevHash = "" then none else some (.startsLate record.seq)
  | some prev =>
    if record.prevHash ≠ prev.hash then some (.notAfter record.seq prev.seq)
    else
      match record.missing with
      | some lost =>
        if lost.from_ ≠ prev.seq + 1 ∨ lost.to_ < lost.from_ then
          some (.gapNames record.seq lost prev.seq)
        else if record.seq ≠ lost.to_ + 1 then some (.seqAfter record.seq prev.seq)
        else none
      | none =>
        if record.seq ≠ prev.seq + 1 then some (.seqAfter record.seq prev.seq) else none

def tornFault (torn : Bool) (record : AuditRecord) : Option ChainFault :=
  if torn = true ∧ record.event ≠ eventGap then some .noGapFollows else none

def sealFault (prev : Option AuditRecord) (record : AuditRecord) : Option ChainFault :=
  if record.event = eventCheckpoint then
    match prev with
    | none => some (.signsNothing record.seq)
    | some prev =>
      match trust.get record.signer with
      | none => some (.untrusted record.seq record.signer)
      | some key =>
        if kit.verifies key (checkpointPayload prev.seq prev.hash) record.signature then none
        else some (.wrongSignature record.seq)
  else none

def recordFault (prev : Option AuditRecord) (torn : Bool) (record : AuditRecord) :
    Option ChainFault :=
  (hashFault kit record).or <| (linkFault prev record).or <|
    (tornFault torn record).or <| sealFault kit trust prev record

def SpoolReport.count (report : SpoolReport) (record : AuditRecord) : SpoolReport :=
  if record.event = eventGap then { report with
    gaps := report.gaps ++ [record]
    unsigned := report.unsigned + 1
    records := report.records + 1 }
  else if record.event = eventCheckpoint then { report with
    checkpoints := report.checkpoints + 1
    signedSeq := record.seq
    unsigned := 0
    records := report.records + 1 }
  else { report with
    unsigned := report.unsigned + 1
    records := report.records + 1 }

structure VerifyState where
  line : Nat := 1
  prev : Option AuditRecord := none
  /-- The number of an unreadable line that no gap follows yet, or zero. -/
  torn : Nat := 0
  report : SpoolReport := {}

def VerifyState.fail (state : VerifyState) (fault : ChainFault) : ChainError :=
  match fault with
  | .noGapFollows => ⟨state.torn, fault⟩
  | _ => ⟨state.line, fault⟩

def VerifyState.skip (state : VerifyState) : VerifyState :=
  { state with report := { state.report with unchained := state.report.unchained + 1 } }

def verifyRecord (state : VerifyState) (record : AuditRecord) : Except ChainError VerifyState :=
  if record.hash = "" then
    if state.prev.isSome then .error (state.fail (.notChained record.seq)) else .ok state.skip
  else
    match recordFault kit trust state.prev (decide (state.torn ≠ 0)) record with
    | some fault => .error (state.fail fault)
    | none => .ok { state with
        torn := 0
        report := state.report.count record
        prev := some record }

def verifyLine (state : VerifyState) (line : Line) : Except ChainError VerifyState :=
  match line with
  | .blank => .ok state
  | .unreadable =>
    if state.prev.isNone then .ok state.skip
    else .ok { state with torn := if state.torn = 0 then state.line else state.torn }
  | .record record => verifyRecord kit trust state record

def VerifyState.next (state : VerifyState) : VerifyState := { state with line := state.line + 1 }

def verifyLines (state : VerifyState) : List Line → Except ChainError VerifyState
  | [] => .ok state
  | line :: rest => do verifyLines (← verifyLine kit trust state line).next rest

def verifySpool (file : Bytes) : Except ChainError SpoolReport := do
  let state ← verifyLines kit trust {} (kit.read file)
  return { state.report with tornTail := decide (state.torn ≠ 0) }

end Checks

end Fiberd
