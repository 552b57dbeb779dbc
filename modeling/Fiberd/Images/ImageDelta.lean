import Fiberd.File
import Fiberd.Images.ImageCodec
import Fiberd.Lib.Scripts
import Fiberd.Ledger.LedgerCore

/-!
`LoadParent`, `ComputeDelta` and `MergeDelta` as scripts over a directory of
files.  Every operation on the directory may fail; a failed write leaves what it
had written by then.  What they write, they write to a temporary file beside the
image it is for, and an operation on that file is named by the image.
-/

namespace Fiberd

open Tables Messages Programs Scripts

/-- The directory of a checkpoint. -/
abbrev Disk := Table String File

def isPagemap (name : String) : Bool :=
  "pagemap-".toList.isPrefixOf name.toList && ".img".toList.isSuffixOf name.toList

/-- `FindPagemaps`, whose names come sorted. -/
def Disk.pagemaps (disk : Disk) : List String :=
  Ledger.sortIDs ((disk.rows.map Prod.fst).filter isPagemap)

namespace ImageScript

def tmp (name : String) : String := name ++ ".tmp"

def deltaFile : String := "delta.json"

end ImageScript

open ImageScript

inductive DiskAct where
  | glob
  | readFile (name : String)
  | openFile (name : String)
  | read (name : String) (offset count : Nat)
  | create (name : String)
  | write (name : String) (bytes : Bytes)
  | flush (name : String)
  | close (name : String)
  | writeFile (name : String) (bytes : Bytes)
  /-- Of the temporary file, over the image. -/
  | rename (name : String)
  /-- Removes the temporary file. -/
  | discard (name : String)
  | removeInfo

abbrev DiskAct.Result : DiskAct → Type
  | .glob => List String
  | .readFile _ => Option Bytes
  | .read _ _ _ => Option Bytes
  | _ => Bool

/-- How an operation goes: a failed one may have landed a part. -/
inductive DiskFate where
  | done
  | failed (landed : Option Nat)
  deriving DecidableEq, Repr

namespace Disk

/-- The bytes at the end of the file; `false` when it does not take them. -/
def append (disk : Disk) (name : String) (bytes : Bytes) : Bool × Disk :=
  match disk.get name with
  | none => (false, disk)
  | some file =>
    match File.of (file.val ++ bytes) with
    | none => (false, disk)
    | some longer => (true, disk.put name longer)

def replace (disk : Disk) (name : String) (bytes : Bytes) : Bool × Disk :=
  match File.of bytes with
  | none => (false, disk)
  | some file => (true, disk.put name file)

def perform (disk : Disk) : (action : DiskAct) → DiskFate → Option (action.Result × Disk)
  | .glob, _ => some (disk.pagemaps, disk)
  | .readFile name, .done => some ((disk.get name).map Subtype.val, disk)
  | .readFile _, .failed _ => some (none, disk)
  | .openFile name, .done => some ((disk.get name).isSome, disk)
  | .read name offset count, .done =>
    some ((disk.get name).bind fun file =>
      if offset + count ≤ file.val.length then some ((file.val.drop offset).take count)
      else none, disk)
  | .read _ _ _, .failed _ => some (none, disk)
  | .create name, .done => some (true, disk.put (tmp name) emptyFile)
  | .write name bytes, .done => some (disk.append (tmp name) bytes)
  | .write name bytes, .failed (some landed) =>
    some (false, (disk.append (tmp name) (bytes.take landed)).2)
  | .flush _, .done => some (true, disk)
  | .close _, .done => some (true, disk)
  | .writeFile name bytes, .done => some (disk.replace (tmp name) bytes)
  | .writeFile name bytes, .failed (some landed) =>
    some (false, (disk.replace (tmp name) (bytes.take landed)).2)
  | .rename name, .done =>
    match disk.get (tmp name) with
    | none => some (false, disk)
    | some file => some (true, (Table.drop disk (tmp name)).put name file)
  | .discard name, .done => some ((disk.get (tmp name)).isSome, Table.drop disk (tmp name))
  | .removeInfo, .done => some ((disk.get deltaFile).isSome, Table.drop disk deltaFile)
  | .openFile _, .failed _ | .create _, .failed _ | .write _ _, .failed none
  | .flush _, .failed _ | .close _, .failed _ | .writeFile _ _, .failed none
  | .rename _, .failed _ | .discard _, .failed _ | .removeInfo, .failed _ => some (false, disk)

end Disk

structure DeltaInfo where
  pageSize : UInt64
  parentSHA256 : String
  totalPages : Nat := 0
  keptPages : Nat := 0
  files : List String := []
  deriving DecidableEq, Repr

/-- What the images rest on: the page size of the host, the hash, and the text of a `DeltaInfo`. -/
structure ImageKit where
  pageSize : UInt64
  sha256 : Bytes → String
  marshal : DeltaInfo → Bytes
  unmarshal : Bytes → Option DeltaInfo
  pageSize_pos : 0 < pageSize.toNat
  unmarshal_marshal : ∀ info, unmarshal (marshal info) = some info

namespace PagemapEntry

variable (entry : PagemapEntry)

def present : Bool := decide (entry.flags &&& 4 ≠ 0)

def parented : Bool := decide (entry.flags &&& 1 ≠ 0)

def address (kit : ImageKit) (index : Nat) : UInt64 :=
  entry.vaddr + UInt64.ofNat index * kit.pageSize

end PagemapEntry

/-- The flags of a page that the parent holds. -/
def droppedFlags (flags : UInt32) : UInt32 := (flags &&& ~~~4) ||| 1

/-- The flags of a page that was taken back from the parent. -/
def restoredFlags (flags : UInt32) : UInt32 := (flags &&& ~~~1) ||| 4

/-- A loaded checkpoint, with each of its pages by address. -/
structure Parent (kit : ImageKit) where
  index : Table UInt64 { page : Bytes // page.length = kit.pageSize.toNat }
  sha : String

def Parent.page {kit : ImageKit} (parent : Parent kit) (address : UInt64) : Option Bytes :=
  (parent.index.get address).map Subtype.val

abbrev ImageProg := Prog DiskAct DiskAct.Result

/-- Why a rewrite stopped, with what it had staged by then. -/
structure Failure where
  error : ImageError
  staged : List String := []
  deriving DecidableEq, Repr

abbrev ImageScript := Script Failure DiskAct DiskAct.Result

namespace ImageScript

variable (kit : ImageKit)

def ask (action : DiskAct) : ImageScript action.Result := Script.act action

def ensure (error : ImageError) (staged : List String) (fine : Bool) : ImageScript Unit :=
  if fine then pure () else throw ⟨error, staged⟩

def readImage (staged : List String) (name : String) : ImageScript Pagemap := do
  match ← ask (.readFile name) with
  | none => throw ⟨.failed name, staged⟩
  | some bytes =>
    match readPagemap name bytes with
    | .error error => throw ⟨error, staged⟩
    | .ok pagemap => pure pagemap

def loadPages (path : String) (entry : PagemapEntry) : (index left : Nat) →
    Table UInt64 { page : Bytes // page.length = kit.pageSize.toNat } → Bytes →
    Except ImageError
      (Table UInt64 { page : Bytes // page.length = kit.pageSize.toNat } × Bytes)
  | _, 0, pages, rest => .ok (pages, rest)
  | index, left + 1, pages, rest =>
    if long : kit.pageSize.toNat ≤ rest.length then
      loadPages path entry (index + 1) left
        (pages.put (entry.address kit index)
          ⟨rest.take kit.pageSize.toNat, by rw [List.length_take, Nat.min_eq_left long]⟩)
        (rest.drop kit.pageSize.toNat)
    else .error (.shortParent path)

def loadEntries (path : String) : List PagemapEntry →
    Table UInt64 { page : Bytes // page.length = kit.pageSize.toNat } → Bytes →
    Except ImageError (Table UInt64 { page : Bytes // page.length = kit.pageSize.toNat })
  | [], pages, _ => .ok pages
  | entry :: entries, pages, rest =>
    if entry.present then
      match loadPages kit path entry 0 entry.nrPages.toNat pages rest with
      | .error error => .error error
      | .ok (pages, rest) => loadEntries path entries pages rest
    else loadEntries path entries pages rest

def loadImages : List String → Table UInt64 { page : Bytes // page.length = kit.pageSize.toNat } →
    Bytes → ImageScript (Parent kit)
  | [], pages, hashed => pure ⟨pages, kit.sha256 hashed⟩
  | name :: names, pages, hashed => do
      let pagemap ← readImage [] name
      match ← ask (.readFile pagemap.pagesFile) with
      | none => throw ⟨.failed pagemap.pagesFile, []⟩
      | some data =>
        match loadEntries kit pagemap.pagesFile pagemap.entries pages data with
        | .error error => throw ⟨error, []⟩
        | .ok pages => loadImages names pages (hashed ++ data)

def loadParent : ImageScript (Parent kit) := do
  let names ← ask .glob
  if names = [] then throw ⟨.noPagemap, []⟩
  loadImages kit names ∅ []

/-- The page goes to the last run when it continues it with the same flags. -/
def addPage (entries : List PagemapEntry) (address : UInt64) (flags : UInt32) :
    List PagemapEntry :=
  match entries.getLast? with
  | some last =>
    if last.flags = flags ∧ last.vaddr + last.nrPages * kit.pageSize = address then
      entries.dropLast ++ [{ last with nrPages := last.nrPages + 1 }]
    else entries ++ [⟨address, 1, flags⟩]
  | none => entries ++ [⟨address, 1, flags⟩]

structure DeltaRun where
  offset : Nat := 0
  entries : List PagemapEntry := []
  total : Nat
  kept : Nat

variable (parent : Parent kit)

def computePage (pages : String) (staged : List String) (entry : PagemapEntry) (index : Nat)
    (run : DeltaRun) : ImageScript DeltaRun := do
  match ← ask (.read pages run.offset kit.pageSize.toNat) with
  | none => throw ⟨.shortPages pages, staged⟩
  | some page =>
    if parent.page (entry.address kit index) = some page then
      pure { run with
        offset := run.offset + kit.pageSize.toNat
        total := run.total + 1
        entries :=
          addPage kit run.entries (entry.address kit index) (droppedFlags entry.flags) }
    else
      let written ← ask (.write pages page)
      ensure (.failed (tmp pages)) staged written
      pure { run with
        offset := run.offset + kit.pageSize.toNat
        total := run.total + 1
        kept := run.kept + 1
        entries := addPage kit run.entries (entry.address kit index) entry.flags }

def computePages (pages : String) (staged : List String) (entry : PagemapEntry) :
    (index left : Nat) → DeltaRun → ImageScript DeltaRun
  | _, 0, run => pure run
  | index, left + 1, run => do
      let run ← computePage kit parent pages staged entry index run
      computePages pages staged entry (index + 1) left run

def computeEntries (pages : String) (staged : List String) :
    List PagemapEntry → DeltaRun → ImageScript DeltaRun
  | [], run => pure run
  | entry :: entries, run => do
      if entry.present then
        let run ← computePages kit parent pages staged entry 0 entry.nrPages.toNat run
        computeEntries pages staged entries run
      else computeEntries pages staged entries { run with entries := run.entries ++ [entry] }

structure DeltaState where
  staged : List String := []
  info : DeltaInfo

def computeImage (name : String) (delta : DeltaState) : ImageScript DeltaState := do
  let pagemap ← readImage delta.staged name
  let pages := pagemap.pagesFile
  ensure (.failed pages) delta.staged (← ask (.openFile pages))
  let staged := delta.staged ++ [pages]
  ensure (.failed (tmp pages)) staged (← ask (.create pages))
  let run ← computeEntries kit parent pages staged pagemap.entries
    { total := delta.info.totalPages, kept := delta.info.keptPages }
  ensure (.failed (tmp pages)) staged (← ask (.flush pages))
  ensure (.failed (tmp pages)) staged (← ask (.close pages))
  let staged := staged ++ [name]
  ensure (.failed (tmp name)) staged
    (← ask (.writeFile name (pagemapBytes { pagemap with entries := run.entries })))
  pure ⟨staged, { delta.info with
    totalPages := run.total, keptPages := run.kept, files := delta.info.files ++ [name] }⟩

def computeImages : List String → DeltaState → ImageScript DeltaState
  | [], delta => pure delta
  | name :: names, delta => do
      let delta ← computeImage kit parent name delta
      computeImages names delta

/-- Renames each staged file over its image, in order. -/
def commitFrom (staged : List String) : List String → ImageScript Unit
  | [] => pure ()
  | name :: names => do
      ensure (.failed (tmp name)) staged (← ask (.rename name))
      commitFrom staged names

def commit (staged : List String) : ImageScript Unit := commitFrom staged staged

def stageDelta : ImageScript DeltaInfo := do
  let names ← ask .glob
  if names = [] then throw ⟨.noPagemap, []⟩
  let delta ← computeImages kit parent names
    { info := { pageSize := kit.pageSize, parentSHA256 := parent.sha } }
  let info := { delta.info with files := Ledger.sortIDs delta.info.files }
  let staged := delta.staged ++ [deltaFile]
  ensure (.failed deltaFile) staged (← ask (.writeFile deltaFile (kit.marshal info)))
  commit staged
  pure info

structure MergeRun where
  offset : Nat := 0
  entries : List PagemapEntry := []

def copyPages (pages : String) (staged : List String) : (left : Nat) → Nat → ImageScript Nat
  | 0, offset => pure offset
  | left + 1, offset => do
      match ← ask (.read pages offset kit.pageSize.toNat) with
      | none => throw ⟨.shortDelta pages, staged⟩
      | some page =>
        ensure (.failed (tmp pages)) staged (← ask (.write pages page))
        copyPages pages staged left (offset + kit.pageSize.toNat)

/-- The dropped pages of one run, taken back from the parent. -/
def fetchPages (pages : String) (staged : List String) (entry : PagemapEntry) :
    (index left : Nat) → ImageScript Unit
  | _, 0 => pure ()
  | index, left + 1 => do
      match parent.page (entry.address kit index) with
      | none => throw ⟨.lacksPage (entry.address kit index), staged⟩
      | some page =>
        ensure (.failed (tmp pages)) staged (← ask (.write pages page))
        fetchPages pages staged entry (index + 1) left

def mergeEntries (pages : String) (staged : List String) :
    List PagemapEntry → MergeRun → ImageScript MergeRun
  | [], run => pure run
  | entry :: entries, run => do
      if entry.present then
        let offset ← copyPages kit pages staged entry.nrPages.toNat run.offset
        mergeEntries pages staged entries ⟨offset, run.entries ++ [entry]⟩
      else if entry.parented then
        fetchPages kit parent pages staged entry 0 entry.nrPages.toNat
        mergeEntries pages staged entries { run with
          entries := run.entries ++ [{ entry with flags := restoredFlags entry.flags }] }
      else mergeEntries pages staged entries { run with entries := run.entries ++ [entry] }

def mergeImage (name : String) (staged : List String) : ImageScript (List String) := do
  let pagemap ← readImage staged name
  let pages := pagemap.pagesFile
  ensure (.failed pages) staged (← ask (.openFile pages))
  let staged := staged ++ [pages]
  ensure (.failed (tmp pages)) staged (← ask (.create pages))
  let run ← mergeEntries kit parent pages staged pagemap.entries {}
  ensure (.failed (tmp pages)) staged (← ask (.flush pages))
  ensure (.failed (tmp pages)) staged (← ask (.close pages))
  let staged := staged ++ [name]
  ensure (.failed (tmp name)) staged
    (← ask (.writeFile name (pagemapBytes { pagemap with entries := run.entries })))
  pure staged

def mergeImages : List String → List String → ImageScript (List String)
  | [], staged => pure staged
  | name :: names, staged => do
      let staged ← mergeImage kit parent name staged
      mergeImages names staged

def readDeltaInfo : ImageScript DeltaInfo := do
  match ← ask (.readFile deltaFile) with
  | none => throw ⟨.failed deltaFile, []⟩
  | some bytes =>
    match kit.unmarshal bytes with
    | none => throw ⟨.badInfo, []⟩
    | some info => pure info

def stageMerge : ImageScript Unit := do
  let info ← readDeltaInfo kit
  if parent.sha ≠ info.parentSHA256 then
    throw ⟨.parentMismatch info.parentSHA256 parent.sha, []⟩
  let staged ← mergeImages kit parent info.files []
  commit staged
  ensure (.failed deltaFile) [] (← ask .removeInfo)

/-- `staged.discard`: what cannot be removed stays. -/
def discard : List String → ImageProg Unit
  | [] => pure ()
  | name :: names => do
      let _ ← Prog.act (.discard name)
      discard names

/-- A rewrite that fails removes the files it staged. -/
def allOrNothing {β : Type} (script : ImageScript β) : ImageProg (Except ImageError β) := do
  match ← script.run with
  | .ok value => pure (.ok value)
  | .error failure =>
    discard failure.staged
    pure (.error failure.error)

end ImageScript

def loadParent (kit : ImageKit) : ImageProg (Except ImageError (Parent kit)) :=
  ImageScript.allOrNothing (ImageScript.loadParent kit)

def computeDelta (kit : ImageKit) (parent : Parent kit) :
    ImageProg (Except ImageError DeltaInfo) :=
  ImageScript.allOrNothing (ImageScript.stageDelta kit parent)

def mergeDelta (kit : ImageKit) (parent : Parent kit) : ImageProg (Except ImageError Unit) :=
  ImageScript.allOrNothing (ImageScript.stageMerge kit parent)

end Fiberd
