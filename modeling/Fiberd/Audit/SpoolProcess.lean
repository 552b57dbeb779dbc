import Fiberd.Audit.SpoolCore
import Fiberd.Lib.Machines

/-!
A process that has a spool open, from `pkg/core/audit.go`.  It runs any number of
`Append` and `Close` calls, each of them at a point of its code: between the
points it has `mu`, `syncMu` or neither, and one fsync at most is in flight.  A
world is a file with the processes that open it one after the other.
-/

namespace Fiberd

open Machines

inductive SpoolCall where
  | append (durability : Durability) (record : AuditRecord)
  | close

/-- Where a call stands.  `own` is the number of records written once its own one was, `n` what it
asks an fsync to cover and `upto` what the fsync it leads covers; `began` is the number of records
written when that fsync began. -/
inductive SpoolPoint where
  | start
  | gapping
  | recording
  | signing (own : Nat)
  | syncing (own n : Nat)
  | waiting (own n : Nat)
  | capturing (own n : Nat)
  | releasing (own n upto : Nat)
  | flushing (own n upto : Nat)
  | fsyncing (own n upto began : Nat)
  | flushed (own n upto : Nat) (error : Option String)
  | closing (own : Nat) (error : Option String)
  | returned (own : Nat) (error : Option String)
  deriving DecidableEq

structure SpoolProcess (κ : Type) where
  spool : Spool κ
  file : Bytes
  mu : Option Nat := none
  syncMu : Option Nat := none
  syncing : Bool := false
  synced : Nat := 0
  poison : Option String := none
  calls : List (SpoolCall × SpoolPoint) := []
  /-- The fsyncs that ended: the records written when each began, and its error.  The source keeps
  no such list. -/
  syncs : List (Nat × Option String) := []

/-- The spool of an empty file, before any call. -/
def newSpool : SpoolProcess Unit where
  spool := { seq := 0, prev := "", newline := false, cp := none }
  file := []

/-- What a step finds outside the process: the clock, how its write ends, and what its fsync or
its close of the file answers. -/
structure SpoolEnv where
  now : Time
  ends : WriteEnd
  error : Option String

def SpoolCall.op : SpoolCall → SpoolPoint → Option SpoolOp
  | .close, .start => some .shut
  | _, .gapping => some .gap
  | .append _ record, .recording => some (.record record)
  | .append .., .signing _ => some .signDue
  | .close, .signing _ => some .signRest
  | _, _ => none

def SpoolCall.refusal : SpoolCall → String
  | .append .. => errAudit errSpoolClosed
  | .close => errSpoolClosed

def SpoolCall.synced (call : SpoolCall) (own : Nat) (error : Option String) : SpoolPoint :=
  match call with
  | .append .. => .returned own (error.map errAudit)
  | .close => .closing own error

def SpoolPoint.wake : SpoolPoint → SpoolPoint
  | .waiting own n => .syncing own n
  | point => point

namespace SpoolProcess

variable {κ π : Type} (kit : AuditKit κ π) (process : SpoolProcess κ)

def moveTo (thread : Nat) (call : SpoolCall) (point : SpoolPoint) : SpoolProcess κ :=
  { process with calls := process.calls.set thread (call, point) }

def perform (op : Option SpoolOp) (env : SpoolEnv) : Option String × SpoolProcess κ :=
  match op with
  | none => (none, process)
  | some op =>
    match process.spool.perform kit process.file op env.now env.ends with
    | (error, spool, file) => (error, { process with spool := spool, file := file })

/-- The call has `mu` and finds the spool open, or returns. -/
def enter (thread : Nat) (call : SpoolCall) (env : SpoolEnv) : SpoolProcess κ :=
  if process.spool.closed then process.moveTo thread call (.returned 0 (some call.refusal))
  else { (process.perform kit (call.op .start) env).2.moveTo thread call .gapping with
    mu := some thread }

def gap (thread : Nat) (call : SpoolCall) (env : SpoolEnv) : SpoolProcess κ :=
  let next := (process.perform kit (call.op .gapping) env).2
  match call with
  | .append .. => next.moveTo thread call .recording
  | .close => next.moveTo thread call (.signing next.spool.written)

def record (thread : Nat) (call : SpoolCall) (env : SpoolEnv) : SpoolProcess κ :=
  match process.perform kit (call.op .recording) env with
  | (none, next) => next.moveTo thread call (.signing next.spool.written)
  | (some error, next) =>
    { next.moveTo thread call (.returned 0 (some (errAudit error))) with mu := none }

/-- The checkpoint, if one is due, and the end of the part that has `mu`. -/
def sign (thread : Nat) (call : SpoolCall) (own : Nat) (env : SpoolEnv) : SpoolProcess κ :=
  let next := { (process.perform kit (call.op (.signing own)) env).2 with mu := none }
  match call with
  | .append .unspecified _ | .append .bestEffort _ => next.moveTo thread call (.returned own none)
  | .append .sync _ | .close => next.moveTo thread call (.syncing own next.spool.written)

/-- The switch of `syncThrough`, under `syncMu`.  The call keeps it only to lead an fsync. -/
def check (thread : Nat) (call : SpoolCall) (own n : Nat) : SpoolProcess κ :=
  if n ≤ process.synced then process.moveTo thread call (call.synced own none)
  else
    match process.poison with
    | some error => process.moveTo thread call (call.synced own (some error))
    | none =>
      if process.syncing then process.moveTo thread call (.waiting own n)
      else { process.moveTo thread call (.capturing own n) with
        syncing := true
        syncMu := some thread }

/-- What the leader notes of its fsync under `syncMu`, and the broadcast. -/
def settle (upto : Nat) (error : Option String) : SpoolProcess κ :=
  { process with
    syncing := false
    poison := error.or process.poison
    synced := if error.isNone then max process.synced upto else process.synced
    calls := process.calls.map fun call => (call.1, call.2.wake) }

def act (thread : Nat) (env : SpoolEnv) : Option (SpoolProcess κ) :=
  match process.calls[thread]? with
  | none => none
  | some (call, point) =>
    match point with
    | .start => if process.mu.isNone then some (process.enter kit thread call env) else none
    | .gapping => some (process.gap kit thread call env)
    | .recording => some (process.record kit thread call env)
    | .signing own => some (process.sign kit thread call own env)
    | .syncing own n =>
      if process.syncMu.isNone then some (process.check thread call own n) else none
    | .waiting .. => none
    | .capturing own n =>
      if process.mu.isNone then
        some (process.moveTo thread call (.releasing own n process.spool.written))
      else none
    | .releasing own n upto =>
      some { process.moveTo thread call (.flushing own n upto) with syncMu := none }
    | .flushing own n upto =>
      some (process.moveTo thread call (.fsyncing own n upto process.spool.written))
    | .fsyncing own n upto began =>
      some { process.moveTo thread call (.flushed own n upto env.error) with
        syncs := process.syncs ++ [(began, env.error)] }
    | .flushed own n upto error =>
      if process.syncMu.isNone then some ((process.settle upto error).check thread call own n)
      else none
    | .closing own error =>
      if process.mu.isNone then
        some (process.moveTo thread call (.returned own (error.or env.error)))
      else none
    | .returned .. => none

def At (thread : Nat) (call : SpoolCall) (point : SpoolPoint) : Prop :=
  process.calls[thread]? = some (call, point)

variable (thread : Nat) (env : SpoolEnv) (call : SpoolCall) in
inductive CallStep : SpoolPoint → SpoolProcess κ → Prop
  | enter (free : process.mu = none) : CallStep .start (process.enter kit thread call env)
  | gap : CallStep .gapping (process.gap kit thread call env)
  | record : CallStep .recording (process.record kit thread call env)
  | sign (own : Nat) : CallStep (.signing own) (process.sign kit thread call own env)
  | check (own n : Nat) (free : process.syncMu = none) :
      CallStep (.syncing own n) (process.check thread call own n)
  | capture (own n : Nat) (free : process.mu = none) :
      CallStep (.capturing own n)
        (process.moveTo thread call (.releasing own n process.spool.written))
  | release (own n upto : Nat) :
      CallStep (.releasing own n upto)
        { process.moveTo thread call (.flushing own n upto) with syncMu := none }
  | begin_ (own n upto : Nat) :
      CallStep (.flushing own n upto)
        (process.moveTo thread call (.fsyncing own n upto process.spool.written))
  | end_ (own n upto began : Nat) :
      CallStep (.fsyncing own n upto began)
        { process.moveTo thread call (.flushed own n upto env.error) with
          syncs := process.syncs ++ [(began, env.error)] }
  | settle (own n upto : Nat) (error : Option String) (free : process.syncMu = none) :
      CallStep (.flushed own n upto error) ((process.settle upto error).check thread call own n)
  | close (own : Nat) (error : Option String) (free : process.mu = none) :
      CallStep (.closing own error)
        (process.moveTo thread call (.returned own (error.or env.error)))

variable {kit process}

theorem act_cases {thread : Nat} {env : SpoolEnv} {next : SpoolProcess κ}
    (took : process.act kit thread env = some next) : ∃ call point, process.At thread call point ∧
      CallStep kit process thread env call point next := by
  unfold act at took
  cases known : process.calls[thread]? with
  | none => simp [known] at took
  | some pair =>
    obtain ⟨call, point⟩ := pair
    refine ⟨call, point, known, ?_⟩
    simp only [known] at took
    cases point with
    | waiting | returned => simp at took
    | gapping | recording | signing | releasing | flushing | fsyncing =>
      cases took
      constructor
    | start | syncing | capturing | flushed | closing =>
      simp only [Option.ite_none_right_eq_some, Option.isNone_iff_eq_none,
        Option.some.injEq] at took
      obtain ⟨free, rfl⟩ := took
      constructor
      exact free

end SpoolProcess

inductive ProcessLabel where
  | start (call : SpoolCall)
  | act (thread : Nat) (env : SpoolEnv)

section Worlds

variable {κ π : Type} (kit : AuditKit κ π)

def SpoolProcess.step (process : SpoolProcess κ) : ProcessLabel → Option (SpoolProcess κ)
  | .start call => some { process with calls := process.calls ++ [(call, .start)] }
  | .act thread env => process.act kit thread env

def processMachine : Machine (SpoolProcess κ) ProcessLabel where
  start process := ∃ spool file, process = { spool := spool, file := file }
  step := SpoolProcess.step kit

inductive SpoolWorld (κ : Type) where
  | down (file : Bytes)
  | up (process : SpoolProcess κ)

inductive WorldLabel (κ : Type) where
  | openSpool (cp : Option (Checkpoints κ)) (now : Time) (ends : WriteEnd)
  | process (label : ProcessLabel)
  | stop

def SpoolWorld.file : SpoolWorld κ → Bytes
  | .down file => file
  | .up process => process.file

/-- A process ends by a crash at any point, or once its calls have returned. -/
def SpoolWorld.step : SpoolWorld κ → WorldLabel κ → Option (SpoolWorld κ)
  | .down file, .openSpool cp now ends =>
    match openSpool kit cp file now ends with
    | (some spool, file) => some (.up { spool := spool, file := file })
    | (none, file) => some (.down file)
  | .up process, .process label => (process.step kit label).map .up
  | .up process, .stop => some (.down process.file)
  | _, _ => none

def worldMachine : Machine (SpoolWorld κ) (WorldLabel κ) where
  start world := world = .down []
  step := SpoolWorld.step kit

end Worlds

end Fiberd
