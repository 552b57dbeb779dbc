import Fiberd.File
import Fiberd.Lib.Programs

/-!
One repository of a file registry (`pkg/artifact/fileregistry.go`) and the calls
of `pkg/runtime/host/mobility_linux.go` and `mobility.go` that publish a session's
delta in it or take one away.  An action is one system call, so calls on any number
of homes interleave between any two of them.
-/

namespace Fiberd

open Tables Programs

/-- A file under `tags/`: a tag, or the temporary file its next push writes. -/
inductive TagFile where
  | tag (name : String)
  | tmp (name : String)
  deriving DecidableEq, Repr

/-- The digest a tag file holds.  A write that was cut short leaves none. -/
abbrev TagText := Option String

structure RemoteRecord where
  tag : String
  digest : String
  deriving DecidableEq, Repr

/-- A tag file's unlink: the call that made it, what that call had read the tag as, and what
the tag held. -/
structure Removal where
  thread : Nat
  tag : String
  checked : Option RemoteRecord
  held : TagText
  deriving DecidableEq, Repr

structure FileRegistry where
  tags : Table TagFile TagText
  blobs : Table String Unit
  /-- The publish record beside each local delta, on whichever home it is. -/
  records : Table String RemoteRecord
  /-- The digests written to a tag file so far.  This field and the next two are marks of the
  model. -/
  pushed : List String
  /-- The takes that have read their tag as holding what they take, until they unlink it. -/
  taking : Table Nat RemoteRecord
  removals : List Removal

def newRegistry : FileRegistry where
  tags := ∅
  blobs := ∅
  records := ∅
  pushed := []
  taking := ∅
  removals := []

def ReadResult.of {α : Type} : Option α → ReadResult α
  | some value => .found value
  | none => .missing

inductive RegistryAct where
  | readTag (file : TagFile)
  /-- The read of a take's own check, of the digest it wants or of any. -/
  | checkTag (tag : String) (wanted : Option String)
  /-- The check failed or the delete is over.  No step of the source. -/
  | letGo
  | statManifest (digest : String)
  | readManifest (digest : String)
  | pull (digest : String)
  | putBlob (digest : String)
  | writeTag (tag digest : String)
  | renameTag (tag : String)
  | removeTag (tag : String)
  | listTags
  | removeBlob (digest : String)
  | readRecord (ref : String)
  | writeRecord (ref : String) (record : RemoteRecord)
  | removeRecord (ref : String)
  | localWork

abbrev RegistryAct.Result : RegistryAct → Type
  | .readTag _ | .checkTag _ _ => ReadResult TagText
  | .removeTag _ => ReadResult Unit
  | .readRecord _ => ReadResult RemoteRecord
  | .listTags => List TagFile
  | .letGo => Unit
  | _ => Bool

/-- How a system call goes: done, failed without effect, or failed half done. -/
inductive DiskAnswer where
  | done
  | failed
  | torn
  deriving DecidableEq, Repr

namespace FileRegistry

def read (registry : FileRegistry) (file : TagFile) : DiskAnswer → ReadResult TagText
  | .done => .of (registry.tags.get file)
  | _ => .failed

def present (registry : FileRegistry) (digest : String) : DiskAnswer → Bool
  | .done => (registry.blobs.get digest).isSome
  | _ => false

/-- A take whose check reads what it wants has the tag in hand. -/
def check (registry : FileRegistry) (thread : Nat) (tag : String) (wanted : Option String)
    (answer : DiskAnswer) : ReadResult TagText × FileRegistry :=
  match registry.read (.tag tag) answer with
  | .found (some digest) =>
    (.found (some digest),
      if wanted = none ∨ wanted = some digest then
        { registry with taking := registry.taking.put thread ⟨tag, digest⟩ }
      else registry)
  | other => (other, registry)

/-- The write of a push's temporary tag file.  The digest of a push is a new one. -/
def write (registry : FileRegistry) (tag digest : String) (answer : DiskAnswer) :
    Option (Bool × FileRegistry) :=
  if digest ∈ registry.pushed then none
  else
    match answer with
    | .done => some (true, { registry with
        tags := registry.tags.put (.tmp tag) (some digest)
        pushed := digest :: registry.pushed })
    | .torn => some (false, { registry with tags := registry.tags.put (.tmp tag) none })
    | .failed => some (false, registry)

def rename (registry : FileRegistry) (tag : String) : DiskAnswer → Bool × FileRegistry
  | .done =>
    match registry.tags.get (.tmp tag) with
    | some text => (true, { registry with
        tags := (registry.tags.drop (.tmp tag)).put (.tag tag) text })
    | none => (false, registry)
  | _ => (false, registry)

def unlink (registry : FileRegistry) (thread : Nat) (tag : String) :
    DiskAnswer → ReadResult Unit × FileRegistry
  | .done =>
    match registry.tags.get (.tag tag) with
    | some text => (.found (), { registry with
        tags := registry.tags.drop (.tag tag)
        taking := registry.taking.drop thread
        removals := ⟨thread, tag, registry.taking.get thread, text⟩ :: registry.removals })
    | none => (.missing, { registry with taking := registry.taking.drop thread })
  | _ => (.failed, { registry with taking := registry.taking.drop thread })

def perform (registry : FileRegistry) (thread : Nat) (action : RegistryAct) (answer : DiskAnswer) :
    Option (action.Result × FileRegistry) :=
  match action with
  | .readTag file => some (registry.read file answer, registry)
  | .checkTag tag wanted => some (registry.check thread tag wanted answer)
  | .letGo => some ((), { registry with taking := registry.taking.drop thread })
  | .statManifest digest => some (registry.present digest answer, registry)
  | .readManifest digest => some (registry.present digest answer, registry)
  | .pull digest => some (registry.present digest answer, registry)
  | .putBlob digest =>
    match answer with
    | .done => some (true, { registry with blobs := registry.blobs.put digest () })
    | _ => some (false, registry)
  | .writeTag tag digest => registry.write tag digest answer
  | .renameTag tag => some (registry.rename tag answer)
  | .removeTag tag => some (registry.unlink thread tag answer)
  | .listTags =>
    match answer with
    | .done => some (registry.tags.rows.map Prod.fst, registry)
    | _ => some ([], registry)
  | .removeBlob digest =>
    match answer with
    | .done => some (true, { registry with blobs := registry.blobs.drop digest })
    | .torn => some (false, { registry with blobs := registry.blobs.drop digest })
    | .failed => some (false, registry)
  | .readRecord ref =>
    match answer with
    | .done => some (.of (registry.records.get ref), registry)
    | _ => some (.failed, registry)
  | .writeRecord ref record =>
    match answer with
    | .done => some (true, { registry with records := registry.records.put ref record })
    | _ => some (false, registry)
  | .removeRecord ref =>
    match answer with
    | .done => some ((registry.records.get ref).isSome, { registry with
        records := registry.records.drop ref })
    | _ => some (false, registry)
  | .localWork => some (answer = .done, registry)

end FileRegistry

abbrev RegistryProg := Prog RegistryAct RegistryAct.Result

inductive TakeOutcome where
  | failed
  | published (digest : String)
  /-- Nothing was taken: the tag is gone or holds another digest. -/
  | left
  | took (digest : String)
  | retired
  | exported (digest : String)
  deriving DecidableEq, Repr

namespace RegistryProg

def act (action : RegistryAct) : RegistryProg action.Result := Prog.act action

def resolveTarget : ReadResult TagText → RegistryProg (Except Unit (Option String))
  | .failed => pure (.error ())
  | .missing => pure (.ok none)
  | .found none => pure (.ok none)
  | .found (some digest) => do
      if ← act (.statManifest digest) then pure (.ok (some digest)) else pure (.ok none)

def fileResolve (read : ReadResult TagText) : RegistryProg (Except Unit (Option String)) := do
  match ← resolveTarget read with
  | .ok (some digest) =>
    if ← act (.readManifest digest) then pure (.ok (some digest)) else pure (.error ())
  | other => pure other

/-- Whether some file of the list still holds the digest. -/
def holdsDigest (digest : String) : List TagFile → RegistryProg Bool
  | [] => pure false
  | file :: files => do
      match ← act (.readTag file) with
      | .found (some held) => if held = digest then pure true else holdsDigest digest files
      | _ => holdsDigest digest files

def fileDelete (tag : String) : RegistryProg (Except Unit Bool) := do
  match ← resolveTarget (← act (.readTag (.tag tag))) with
  | .error error => pure (.error error)
  | .ok none => pure (.ok false)
  | .ok (some digest) =>
    match ← act (.removeTag tag) with
    | .failed => pure (.error ())
    | .missing => pure (.ok false)
    | .found _ =>
      let files ← act .listTags
      if ← holdsDigest digest files then pure (.ok true)
      else if ← act (.removeBlob digest) then pure (.ok true)
      else pure (.error ())

def filePushDir (tag digest : String) : RegistryProg Bool := do
  let there ← act (.statManifest digest)
  let stored ← if there then pure true else act (.putBlob digest)
  if stored then
    if ← act (.writeTag tag digest) then act (.renameTag tag) else pure false
  else pure false

def publishDelta (ref tag digest : String) : RegistryProg TakeOutcome := do
  if ← act .localWork then
    if ← filePushDir tag digest then
      if ← act (.writeRecord ref ⟨tag, digest⟩) then pure (.published digest) else pure .failed
    else pure .failed
  else pure .failed

/-- The delete that follows a take's check, and what the take makes of its answer. -/
def deleteChecked (tag : String) (taken : Bool → TakeOutcome) : RegistryProg TakeOutcome := do
  let removed ← fileDelete tag
  act .letGo
  match removed with
  | .error _ => pure .failed
  | .ok removed => pure (taken removed)

def deleteDelta (tag handle : String) : RegistryProg TakeOutcome := do
  match ← fileResolve (← act (.checkTag tag (some handle))) with
  | .error _ => do act .letGo; pure .failed
  | .ok found =>
    if found = some handle then
      deleteChecked tag fun removed => if removed then .took handle else .left
    else do act .letGo; pure .left

/-- A claim pulls and opens the delta it found before it goes for the tag. -/
def claimDelta (tag handle : String) : RegistryProg TakeOutcome := do
  if ← act (.pull handle) then
    if ← act .localWork then
      match ← fileResolve (← act (.checkTag tag (some handle))) with
      | .error _ => do act .letGo; pure .failed
      | .ok found =>
        if found = some handle then
          deleteChecked tag fun removed => if removed then .took handle else .failed
        else do act .letGo; pure .failed
    else pure .failed
  else pure .failed

def removeRecord (ref : String) : RegistryProg TakeOutcome := do
  if ← act (.removeRecord ref) then pure .retired else pure .failed

/-- The record of the publish goes whether or not the tag was this delta's. -/
def retireDelta (ref : String) : RegistryProg TakeOutcome := do
  match ← act (.readRecord ref) with
  | .missing => pure .retired
  | .failed => pure .failed
  | .found record =>
    match ← fileResolve (← act (.checkTag record.tag (some record.digest))) with
    | .error _ => do act .letGo; pure .failed
    | .ok found =>
      if found = some record.digest then
        match ← deleteChecked record.tag fun _ => .retired with
        | .failed => pure .failed
        | _ => removeRecord ref
      else do act .letGo; removeRecord ref

def exportDelta (tag : String) : RegistryProg TakeOutcome := do
  match ← fileResolve (← act (.checkTag tag none)) with
  | .error _ => do act .letGo; pure .failed
  | .ok none => do act .letGo; pure .failed
  | .ok (some digest) =>
    let pulled ← act (.pull digest)
    let written ← if pulled then act .localWork else pure false
    if written then deleteChecked tag fun _ => .exported digest
    else do act .letGo; pure .failed

end RegistryProg

inductive RegistryCall where
  | publish (ref tag digest : String)
  | claim (tag handle : String)
  | delete (tag handle : String)
  | retire (ref : String)
  | exportTo (tag : String)
  deriving DecidableEq, Repr

def RegistryCall.body : RegistryCall → RegistryProg TakeOutcome
  | .publish ref tag digest => .publishDelta ref tag digest
  | .claim tag handle => .claimDelta tag handle
  | .delete tag handle => .deleteDelta tag handle
  | .retire ref => .retireDelta ref
  | .exportTo tag => .exportDelta tag

def registryKernel :
    Kernel FileRegistry RegistryAct RegistryAct.Result DiskAnswer RegistryCall TakeOutcome where
  start registry := registry = newRegistry
  perform := FileRegistry.perform
  body := RegistryCall.body

abbrev RegistryThreads := Threads FileRegistry RegistryAct RegistryAct.Result TakeOutcome

abbrev RegistryEvent := Event RegistryCall DiskAnswer

end Fiberd
