import Fiberd.Audit.AuditRecord

/-!
The spool, from `pkg/core/audit.go`.  What `mu` guards are the operations of a
`Spool` on its file, each of them one write at most.
-/

namespace Fiberd

structure Checkpoints (κ : Type) where
  keyID : String
  key : κ
  every : Int

def defaultCheckpointEvery : Int := 256

structure Spool (κ : Type) where
  seq : UInt64
  prev : String
  newline : Bool
  lost : Option SeqRange := none
  lostErr : String := ""
  cp : Option (Checkpoints κ)
  since : Nat := 0
  written : Nat := 0
  closed : Bool := false
  /-- A write that failed had left its whole text in the file.  The source keeps no such flag. -/
  stray : Bool := false

/-- How a write to the file ends: whole, or with an error after some of its bytes. -/
inductive WriteEnd where
  | landed
  | failed (count : Nat) (error : String)
  deriving DecidableEq, Repr

def errSpoolClosed : String := "audit: spool closed"

def errAudit (error : String) : String := "audit: record not durable: " ++ error

namespace Spool

variable {κ π : Type} (kit : AuditKit κ π) (spool : Spool κ)

/-- The record as `write` numbers and chains it. -/
def numbered (record : AuditRecord) (now : Time) : AuditRecord :=
  { record with
    seq := spool.seq + 1
    time := if record.time = 0 then now else record.time
    prevHash := spool.prev
    hash := "" }

def text (record : AuditRecord) (now : Time) : Except String (AuditRecord × Bytes) := do
  let hash ← kit.recordHash (spool.numbered record now)
  let full := { spool.numbered record now with hash := hash }
  let text ← kit.marshal full
  return (full, text)

def body (text : Bytes) : Bytes := if spool.newline then lineEnd :: text else text

def failed (error : String) (stray : Bool) : Spool κ :=
  { spool with
    seq := spool.seq + 1
    newline := true
    lost := some ⟨(spool.lost.map SeqRange.from_).getD (spool.seq + 1), spool.seq + 1⟩
    lostErr := if spool.lost.isNone then error else spool.lostErr
    stray := spool.stray || stray }

def landed (full : AuditRecord) : Spool κ :=
  { spool with
    seq := spool.seq + 1
    newline := false
    prev := full.hash
    since := spool.since + 1
    written := spool.written + 1 }

def write (file : Bytes) (record : AuditRecord) (now : Time) (ends : WriteEnd) :
    Option String × Spool κ × Bytes :=
  match spool.text kit record now with
  | .error error => (some error, spool.failed error false, file)
  | .ok (full, text) =>
    match ends with
    | .landed => (none, spool.landed full, file ++ (spool.body text ++ [lineEnd]))
    | .failed count error =>
      (some error, spool.failed error (decide ((spool.body text).length ≤ count)),
        file ++ (spool.body text ++ [lineEnd]).take count)

def gapRecord (lost : SeqRange) : AuditRecord :=
  { event := eventGap, lost := some lost, detail := spool.lostErr }

def writeGap (file : Bytes) (now : Time) (ends : WriteEnd) : Spool κ × Bytes :=
  match spool.lost with
  | none => (spool, file)
  | some lost =>
    match { spool with lost := none }.write kit file (spool.gapRecord lost) now ends with
    | (none, next, file) => (next, file)
    | (some _, next, file) =>
      ({ next with lost := next.lost.map fun range => { range with from_ := lost.from_ } },
        file)

def checkpointRecord (cp : Checkpoints κ) : AuditRecord :=
  { event := eventCheckpoint
    signer := cp.keyID
    signature := kit.sign cp.key (checkpointPayload spool.seq spool.prev) }

def checkpoint (cp : Checkpoints κ) (file : Bytes) (now : Time) (ends : WriteEnd) :
    Spool κ × Bytes :=
  match spool.write kit file (spool.checkpointRecord kit cp) now ends with
  | (none, next, file) => ({ next with since := 0 }, file)
  | (some _, next, file) => (next, file)

end Spool

structure SpoolEnd where
  seq : UInt64 := 0
  hash : String := ""
  /-- The offset of an unreadable last line. -/
  torn : Option Nat := none
  newline : Bool := true
  deriving DecidableEq, Repr

def SpoolEnd.scan (ending : SpoolEnd) (offset : Nat) (line : Line) : SpoolEnd :=
  match line with
  | .blank => ending
  | .unreadable => { ending with torn := some offset }
  | .record record => { ending with
      torn := none
      seq := if ending.seq < record.seq then record.seq else ending.seq
      hash := record.hash }

section Opening

variable {κ π : Type} (kit : AuditKit κ π)

def scanLines : SpoolEnd → Nat → List Bytes → SpoolEnd
  | ending, _, [] => ending
  | ending, offset, line :: rest =>
    scanLines (ending.scan offset (kit.readLine line)) (offset + line.length + 1) rest

def scanSpool (file : Bytes) : SpoolEnd :=
  { scanLines kit {} 0 (lines file) with
    newline := file.getLast?.all fun byte => decide (byte = lineEnd) }

def unreadableGap (offset : Nat) : AuditRecord :=
  { event := eventGap, detail := "unreadable line at offset " ++ toString offset }

def Checkpoints.withDefault (cp : Checkpoints κ) : Checkpoints κ :=
  if cp.every ≤ 0 then { cp with every := defaultCheckpointEvery } else cp

def SpoolEnd.spool (ending : SpoolEnd) (cp : Option (Checkpoints κ)) : Spool κ :=
  { seq := ending.seq
    prev := ending.hash
    newline := !ending.newline
    cp := cp.map Checkpoints.withDefault }

/-- `OpenSpool`: there is no spool where the gap for a torn line was not written. -/
def openSpool (cp : Option (Checkpoints κ)) (file : Bytes) (now : Time) (ends : WriteEnd) :
    Option (Spool κ) × Bytes :=
  match (scanSpool kit file).torn with
  | none => (some ((scanSpool kit file).spool cp), file)
  | some offset =>
    match ((scanSpool kit file).spool cp).write kit file (unreadableGap offset) now ends with
    | (none, next, file) => (some next, file)
    | (some _, _, file) => (none, file)

end Opening

inductive SpoolOp where
  | shut
  | gap
  | record (record : AuditRecord)
  | signDue
  | signRest

namespace Spool

variable {κ π : Type} (kit : AuditKit κ π) (spool : Spool κ)

def dueCheckpoint (op : SpoolOp) : Option (Checkpoints κ) :=
  match op with
  | .signDue => spool.cp.filter fun cp => decide (cp.every ≤ spool.since)
  | .signRest => spool.cp.filter fun _ => decide (0 < spool.since)
  | _ => none

def perform (file : Bytes) (op : SpoolOp) (now : Time) (ends : WriteEnd) :
    Option String × Spool κ × Bytes :=
  match op with
  | .shut => (none, { spool with closed := true }, file)
  | .gap => (none, spool.writeGap kit file now ends)
  | .record record => spool.write kit file record now ends
  | .signDue | .signRest =>
    match spool.dueCheckpoint op with
    | some cp => (none, spool.checkpoint kit cp file now ends)
    | none => (none, spool, file)

end Spool

end Fiberd
