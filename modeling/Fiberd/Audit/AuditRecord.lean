import Fiberd.Fence
import Fiberd.Grant
import Fiberd.Lib.Messages
import Fiberd.Lib.Tables

/-!
Audit records, from `pkg/core/audit.go`, and what the spool takes from the
libraries under it: the encoding of a record as a line, the digest, the
signatures.  A kit has them with the laws the spool counts on.
-/

namespace Fiberd

structure SeqRange where
  from_ : UInt64
  to_ : UInt64
  deriving DecidableEq, Repr

def SeqRange.has (range : SeqRange) (number : UInt64) : Bool :=
  decide (range.from_ ≤ number) && decide (number ≤ range.to_)

/-- A map of strings, as its encoding lists it: in the order of the keys. -/
def Scope := { facts : List (String × String) // (facts.map Prod.fst).Pairwise (· < ·) }

instance : DecidableEq Scope := inferInstanceAs (DecidableEq (Subtype _))

instance : Repr Scope := ⟨fun scope => reprPrec scope.val⟩

def Scope.of (facts : List (String × String)) : Scope :=
  if sorted : (facts.map Prod.fst).Pairwise (· < ·) then ⟨facts, sorted⟩ else ⟨[], .nil⟩

structure AuditRecord where
  seq : UInt64 := 0
  time : Time := 0
  event : String := ""
  fence : Fence := ⟨"", 0, 0⟩
  session : String := ""
  fiberID : String := ""
  detail : String := ""
  scope : Scope := .of []
  lost : Option SeqRange := none
  signer : String := ""
  signature : String := ""
  prevHash : String := ""
  hash : String := ""
  deriving DecidableEq, Repr

def eventGap : String := "gap"

def eventCheckpoint : String := "checkpoint"

def AuditRecord.missing (record : AuditRecord) : Option SeqRange :=
  if record.event = eventGap then record.lost else none

def checkpointContext : String := "fiberd-audit-v1\n"

def checkpointPayload (seq : UInt64) (hash : String) : String :=
  checkpointContext ++ toString seq ++ " " ++ hash

def lineEnd : UInt8 := 10

/-- The lines of a file, as repeated reads up to a lineEnd give them.  The last one has no lineEnd
after it, and is empty where the file is empty or ends in one. -/
def lines (file : Bytes) : List Bytes := file.splitOn lineEnd

theorem lines_append (front back : Bytes) :
    lines (front ++ lineEnd :: back) = lines front ++ lines back :=
  List.splitOnP_append_cons front back (by simp)

theorem lines_of_not_mem {text : Bytes} (plain : lineEnd ∉ text) : lines text = [text] := by
  refine List.splitOnP_eq_singleton ?_
  intro byte mem
  simp only [beq_eq_false_iff_ne, ne_eq]
  rintro rfl
  exact plain mem

@[simp] theorem lines_nil : lines [] = [[]] := lines_of_not_mem (by simp)

/-- What a line holds, its spaces trimmed: nothing, a record, or text that is no record. -/
inductive Line where
  | blank
  | unreadable
  | record (record : AuditRecord)
  deriving DecidableEq, Repr

/-- What the spool takes from other packages.  `reread` is what a record comes back as from its
own line: the encoding replaces what is not text in a string. -/
structure AuditKit (κ π : Type) where
  marshal : AuditRecord → Except String Bytes
  readLine : Bytes → Line
  reread : AuditRecord → AuditRecord
  digest : Bytes → String
  publicKey : κ → π
  sign : κ → String → String
  verifies : π → String → String → Bool
  readLine_nil : readLine [] = .blank
  one_line : ∀ record text, marshal record = .ok text → lineEnd ∉ text
  readLine_marshal : ∀ record text, marshal record = .ok text →
    readLine text = .record (reread record)
  readLine_cut : ∀ record text cut, marshal record = .ok text → cut <+: text → cut ≠ [] →
    cut ≠ text → readLine cut = .unreadable
  digest_ne : ∀ text, digest text ≠ ""
  verifies_sign : ∀ key payload, verifies (publicKey key) payload (sign key payload) = true

variable {κ π : Type} (kit : AuditKit κ π)

def AuditKit.recordHash (record : AuditRecord) : Except String String :=
  (kit.marshal { record with hash := "" }).map kit.digest

def AuditKit.read (file : Bytes) : List Line := (lines file).map kit.readLine

def Line.record? : Line → Option AuditRecord
  | .record entry => some entry
  | _ => none

def AuditKit.records (file : Bytes) : List AuditRecord := (kit.read file).filterMap Line.record?

def AuditKit.chained (file : Bytes) : List AuditRecord :=
  (kit.records file).filter fun record => decide (record.hash ≠ "")

theorem AuditKit.read_append (front back : Bytes) :
    kit.read (front ++ lineEnd :: back) = kit.read front ++ kit.read back := by
  simp [read, lines_append]

theorem AuditKit.read_of_not_mem {text : Bytes} (plain : lineEnd ∉ text) :
    kit.read text = [kit.readLine text] := by
  simp [read, lines_of_not_mem plain]

@[simp] theorem AuditKit.read_nil : kit.read [] = [.blank] := by
  simp [read, kit.readLine_nil]

theorem AuditKit.read_line {record : AuditRecord} {text : Bytes}
    (marshals : kit.marshal record = .ok text) (rest : Bytes) :
    kit.read (text ++ lineEnd :: rest) = .record (kit.reread record) :: kit.read rest := by
  rw [read_append, kit.read_of_not_mem (kit.one_line record text marshals),
    kit.readLine_marshal record text marshals, List.singleton_append]

end Fiberd
