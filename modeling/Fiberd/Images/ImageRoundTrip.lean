import Fiberd.Audit.SpoolKit
import Fiberd.Images.ImageRuns
import Fiberd.Lib.Rows

/-!
A delta and back, over a whole directory.  Each image is rewritten beside the
others, so the two loops over the images are one argument: what an image said
before the rewrite, the staged one says after it.
-/

namespace Fiberd

open Tables Messages Programs Scripts ImageScript Rows List
open Option (bind_eq_some_iff bind_some some.injEq)

def Disk.pagemap (disk : Disk) (name : String) : Option Pagemap :=
  (disk.get name).bind fun file => (readPagemap name file.val).toOption

structure Image where
  header : Bytes
  pagesID : UInt32
  items : List Item
  deriving DecidableEq, Repr

def Disk.image (kit : ImageKit) (disk : Disk) (name : String) : Option Image :=
  (disk.pagemap name).bind fun pagemap =>
    (disk.get pagemap.pagesFile).bind fun pages =>
      (expand (view kit) pagemap.entries pages.val).map fun read =>
        ⟨pagemap.header, pagemap.pagesID, read.1⟩

def Disk.Apart (disk : Disk) (names : List String) : Prop :=
  ∀ name ∈ names, ∀ other ∈ names, ∀ first second, disk.pagemap name = some first →
    disk.pagemap other = some second → first.pagesID = second.pagesID → name = other

/-- A full checkpoint: no run is left to a parent. -/
structure Disk.Checkpoint (disk : Disk) : Prop where
  own : ∀ name ∈ disk.pagemaps, ∀ pagemap, disk.pagemap name = some pagemap →
    ∀ entry ∈ pagemap.entries, entry.parented = false
  apart : disk.Apart disk.pagemaps

theorem Disk.pagemap_path {disk : Disk} {name : String} {pagemap : Pagemap}
    (read : disk.pagemap name = some pagemap) :
    pagemap.path = name ∧ pagemap.header.length = 8 := by
  obtain ⟨file, _, parsed⟩ := bind_eq_some_iff.mp read
  cases out : readPagemap name file.val with
  | error error => simp [out, Except.toOption] at parsed
  | ok got =>
    simp only [out, Except.toOption] at parsed
    cases parsed
    exact (readPagemap_header out).symm

structure Rewrite where
  pagemap : Pagemap
  items : List Item
  entries : List PagemapEntry
  pages : File
  map : File

namespace Rewrite

def plan (rewrite : Rewrite) : List (String × File) :=
  [(rewrite.pagemap.pagesFile, rewrite.pages), (rewrite.pagemap.path, rewrite.map)]

def written (rewrite : Rewrite) : Pagemap :=
  { rewrite.pagemap with entries := rewrite.entries }

structure Of (source target : Reading) (images : Disk) (rewrite : Rewrite) : Prop where
  read : images.pagemap rewrite.pagemap.path = some rewrite.pagemap
  said : ∃ pages rest, images.get rewrite.pagemap.pagesFile = some pages ∧
    expand source rewrite.pagemap.entries pages.val = some (rewrite.items, rest)
  told : expand target rewrite.entries rewrite.pages.val = some (rewrite.items, [])
  map : rewrite.map.val = pagemapBytes rewrite.written

end Rewrite

def stagedNames (rewrites : List Rewrite) : List String :=
  (rewrites.flatMap Rewrite.plan).map Prod.fst

theorem stagedNames_snoc (rewrites : List Rewrite) (rewrite : Rewrite) :
    stagedNames (rewrites ++ [rewrite]) = stagedNames rewrites ++
      [rewrite.pagemap.pagesFile] ++ [rewrite.pagemap.path] := by
  simp [stagedNames, Rewrite.plan]

section Fresh

variable {source target : Reading} {images : Disk} {names : List String} {rewrites : List Rewrite}

theorem fresh_files (pagemaps : ∀ name ∈ names, isPagemap name = true) (apart : images.Apart names)
    (each : ∀ rewrite ∈ rewrites, rewrite.Of source target images)
    (done : ∀ rewrite ∈ rewrites, rewrite.pagemap.path ∈ names) {pagemap : Pagemap}
    (mem : pagemap.path ∈ names) (read : images.pagemap pagemap.path = some pagemap)
    (fresh : pagemap.path ∉ rewrites.map fun rewrite => rewrite.pagemap.path) :
    pagemap.pagesFile ∉ (rewrites.flatMap Rewrite.plan).map Prod.fst ∧
      pagemap.path ∉ (rewrites.flatMap Rewrite.plan).map Prod.fst := by
  have targets : ∀ name ∈ (rewrites.flatMap Rewrite.plan).map Prod.fst,
      ∃ rewrite ∈ rewrites, name = rewrite.pagemap.pagesFile ∨ name = rewrite.pagemap.path := by
    intro name planned
    obtain ⟨row, within, rfl⟩ := mem_map.mp planned
    obtain ⟨rewrite, earlier, among⟩ := mem_flatMap.mp within
    refine ⟨rewrite, earlier, ?_⟩
    simp only [Rewrite.plan, mem_cons, not_mem_nil, or_false] at among
    rcases among with rfl | rfl
    · exact .inl rfl
    · exact .inr rfl
  constructor
  · intro planned
    obtain ⟨rewrite, earlier, same | same⟩ := targets _ planned
    · have path := apart _ mem _ (done rewrite earlier) _ _ read (each rewrite earlier).read
        (pagesFile_inj same)
      exact fresh (mem_map.mpr ⟨rewrite, earlier, path.symm⟩)
    · have matches_ := pagemaps _ (done rewrite earlier)
      rw [← same, not_isPagemap_pagesFile] at matches_
      cases matches_
  · intro planned
    obtain ⟨rewrite, earlier, same | same⟩ := targets _ planned
    · have matches_ := pagemaps _ mem
      rw [same, not_isPagemap_pagesFile] at matches_
      cases matches_
    · exact fresh (mem_map.mpr ⟨rewrite, earlier, same.symm⟩)

theorem path_ne_pagesFile {pagemap : Pagemap} (matched : isPagemap pagemap.path = true) :
    pagemap.path ≠ pagemap.pagesFile := by
  intro same
  rw [same, not_isPagemap_pagesFile] at matched
  cases matched

end Fresh

section Images

variable {kit : ImageKit} {parent : Parent kit} {images : Disk} {names : List String}

theorem yields_readImage {old : Disk → Prop} (staged : List String) (name : String) :
    Yields Disk.perform old (readImage staged name) fun pagemap disk =>
      disk.pagemap name = some pagemap ∧ old disk := by
  have reads : Yields Disk.perform old (ask (.readFile name)) fun out disk =>
      (∀ bytes, out = some bytes → ∃ file, disk.get name = some file ∧ file.val = bytes) ∧
        old disk := by
    refine yields_act _ _ ?_
    intro disk fate out next has ran
    obtain ⟨rfl, got⟩ := Disk.perform_readFile ran
    exact ⟨got, has⟩
  refine reads.bind fun out => ?_
  cases out with
  | none => exact yields_throw _
  | some bytes =>
    simp only
    split
    · exact yields_throw _
    · rename_i pagemap parsed
      refine yields_pure ?_
      rintro disk ⟨got, has⟩
      obtain ⟨file, held, rfl⟩ := got bytes rfl
      refine ⟨?_, has⟩
      rw [Disk.pagemap, held, bind_some, parsed]
      rfl

variable {plan : List (String × File)} {name : String}

theorem yields_readStaged (staged : List String) (plain : Plain name) :
    Yields Disk.perform (Staged images plan) (readImage staged name) fun pagemap disk =>
      images.pagemap name = some pagemap ∧ Staged images plan disk := by
  refine (yields_readImage staged name).mono (fun _ has => has) ?_
  rintro pagemap disk ⟨read, stages⟩
  refine ⟨?_, stages⟩
  rw [Disk.pagemap, ← stages.images name plain]
  exact read

variable {pages : String}

theorem yields_create (plain : Plain pages) (fresh : pages ∉ plan.map Prod.fst) :
    Yields Disk.perform (Staged images plan) (ask (.create pages)) fun fine disk =>
      fine = true → Staged images (plan ++ [(pages, emptyFile)]) disk := by
  refine yields_act _ _ ?_
  rintro disk fate fine next stages ran rfl
  rw [Disk.perform_create ran]
  exact stages.stage plain fresh emptyFile

theorem yields_writeFile {bytes : Bytes} (plain : Plain name) (fresh : name ∉ plan.map Prod.fst) :
    Yields Disk.perform (Staged images plan) (ask (.writeFile name bytes)) fun fine disk =>
      fine = true → ∃ file : File, file.val = bytes ∧
        Staged images (plan ++ [(name, file)]) disk := by
  refine yields_act _ _ ?_
  rintro disk fate fine next stages ran rfl
  obtain ⟨file, same, rfl⟩ := Disk.perform_writeFile ran
  exact ⟨file, same, stages.stage plain fresh file⟩

theorem yields_openStaged (plain : Plain pages) :
    Yields Disk.perform (Staged images plan) (ask (.openFile pages)) fun fine disk =>
      fine = true → (∃ data, images.get pages = some data) ∧ Staged images plan disk := by
  refine yields_act _ _ ?_
  intro disk fate fine next stages ran fineOpen
  have same := Disk.perform_openFile ran
  subst same
  refine ⟨?_, stages⟩
  rw [← stages.images pages plain]
  cases fate with
  | done =>
    simp only [Disk.perform, some.injEq, Prod.mk.injEq, and_true] at ran
    exact Option.isSome_iff_exists.mp (ran.trans fineOpen)
  | failed landed =>
    simp only [Disk.perform, some.injEq, Prod.mk.injEq, and_true] at ran
    exact Bool.noConfusion (ran.trans fineOpen)

theorem yields_outs {bytes : Bytes} {β : Type} {script : ImageScript β} {after : β → Disk → Prop}
    (each : ∀ out : File, out.val = bytes →
      Yields Disk.perform (Staged images (plan ++ [(pages, out)])) script after) :
    Yields Disk.perform (Outs images plan pages bytes) script after :=
  yields_exists fun out => yields_of_fact (fun _ has => has.2) fun same =>
    (each out same).mono (fun _ has => has.1) fun _ _ has => has

variable {rewrites : List Rewrite}

theorem next_image {left : List String}
    (whole : (rewrites.map fun rewrite => rewrite.pagemap.path) ++ name :: left = names)
    (nodup : names.Nodup) : name ∈ names ∧ (∀ rewrite ∈ rewrites, rewrite.pagemap.path ∈ names) ∧
      name ∉ rewrites.map fun rewrite => rewrite.pagemap.path := by
  subst whole
  refine ⟨by simp, fun rewrite earlier => ?_, fun earlier => ?_⟩
  · exact mem_append_left _ (mem_map_of_mem (f := fun r => r.pagemap.path) earlier)
  · exact (nodup_append.mp nodup).2.2 name earlier name (by simp) rfl

section

variable (pagemaps : ∀ name ∈ names, isPagemap name = true) (apart : images.Apart names)
include pagemaps apart

/-- One image: what its runs said, the files staged for it say. -/
theorem yields_image {source target : Reading} {β γ : Type} {staged : List String}
    {loop : Pagemap → ImageScript γ} {last : Pagemap → γ → β} (entries : γ → List PagemapEntry)
    (told : Pagemap → γ → List Item → Prop)
    (each : ∀ rewrite ∈ rewrites, rewrite.Of source target images)
    (done : ∀ rewrite ∈ rewrites, rewrite.pagemap.path ∈ names) (mem : name ∈ names)
    (fresh : name ∉ rewrites.map fun rewrite => rewrite.pagemap.path)
    (loops : ∀ pagemap data, images.pagemap name = some pagemap →
      images.get pagemap.pagesFile = some data →
      Yields Disk.perform (Outs images (rewrites.flatMap Rewrite.plan) pagemap.pagesFile [])
        (loop pagemap) fun run disk => ∃ items rest kept,
          (expand source pagemap.entries data.val = some (items, rest) ∧
            expand target (entries run) kept = some (items, []) ∧ told pagemap run items) ∧
          Outs images (rewrites.flatMap Rewrite.plan) pagemap.pagesFile kept disk) :
    Yields Disk.perform (Staged images (rewrites.flatMap Rewrite.plan)) (do
      let pagemap ← readImage staged name
      let pages := pagemap.pagesFile
      ensure (.failed pages) staged (← ask (.openFile pages))
      ensure (.failed (tmp pages)) (staged ++ [pages]) (← ask (.create pages))
      let run ← loop pagemap
      ensure (.failed (tmp pages)) (staged ++ [pages]) (← ask (.flush pages))
      ensure (.failed (tmp pages)) (staged ++ [pages]) (← ask (.close pages))
      ensure (.failed (tmp name)) (staged ++ [pages] ++ [name])
        (← ask (.writeFile name (pagemapBytes { pagemap with entries := entries run })))
      pure (last pagemap run)) fun out disk => ∃ rewrite run,
        (rewrite.pagemap.path = name ∧ rewrite.Of source target images ∧
          rewrite.entries = entries run ∧ told rewrite.pagemap run rewrite.items ∧
          out = last rewrite.pagemap run) ∧
        Staged images ((rewrites ++ [rewrite]).flatMap Rewrite.plan) disk := by
  have plain : Plain name := plain_of_isPagemap (pagemaps name mem)
  refine (yields_readStaged staged plain).bind fun pagemap =>
    yields_of_fact (fun _ has => has.1) fun read => ?_
  obtain ⟨path, header⟩ := Disk.pagemap_path read
  have named : pagemap.path ∈ names := path ▸ mem
  obtain ⟨freshPages, freshName⟩ := fresh_files pagemaps apart each done named (path.symm ▸ read)
    (path.symm ▸ fresh)
  have plainPages := plain_pagesFile pagemap
  refine yields_checked ((yields_openStaged plainPages).mono (fun _ has => has.2)
    fun _ _ has => has) ?_
  refine yields_of_fact (fun _ has => has.1) ?_
  rintro ⟨data, held⟩
  refine yields_checked ((yields_create plainPages freshPages).mono (fun _ has => has.2)
    fun _ _ has => has) ?_
  refine ((loops pagemap data read held).mono
    (fun disk stages => ⟨emptyFile, stages, rfl⟩) fun _ _ has => has).bind fun run => ?_
  refine yields_exists fun items => yields_exists fun rest => yields_exists fun kept =>
    yields_of_fact (fun _ has => has.1) ?_
  rintro ⟨said, written, fact⟩
  refine (yields_outs fun out same => ?_).mono (fun _ has => has.2) fun _ _ has => has
  refine yields_checked (yields_flush _) (yields_checked (yields_close _) ?_)
  have freshLast : pagemap.path ∉
      (rewrites.flatMap Rewrite.plan ++ [(pagemap.pagesFile, out)]).map Prod.fst := by
    rw [map_append, mem_append, not_or]
    refine ⟨freshName, ?_⟩
    rw [map_singleton, mem_singleton]
    exact path_ne_pagesFile (pagemaps _ named)
  refine yields_checked (yields_writeFile plain (path ▸ freshLast)) (yields_pure ?_)
  rintro disk ⟨map, contents, stages⟩
  refine ⟨⟨pagemap, items, entries run, out, map⟩, run, ⟨path, ⟨path.symm ▸ read,
    ⟨data, rest, held, said⟩, same.symm ▸ written, contents⟩, rfl, fact, rfl⟩, ?_⟩
  rw [flatMap_append]
  simpa [Rewrite.plan, path] using stages

omit pagemaps apart in
/-- Image by image: `known` is what the loop knows of the rewrites it has behind it. -/
theorem yields_images {β : Type} (step : String → β → ImageScript β)
    (loop : List String → β → ImageScript β) (ends : ∀ state, loop [] state = pure state)
    (steps : ∀ name left state, loop (name :: left) state = step name state >>= loop left)
    (known : List Rewrite → β → Prop) (nodup : names.Nodup)
    (image : ∀ rewrites state name, known rewrites state → name ∈ names →
      (∀ rewrite ∈ rewrites, rewrite.pagemap.path ∈ names) →
      (name ∉ rewrites.map fun rewrite => rewrite.pagemap.path) →
      Yields Disk.perform (Staged images (rewrites.flatMap Rewrite.plan)) (step name state)
        fun later disk => ∃ rewrite, (rewrite.pagemap.path = name ∧
          known (rewrites ++ [rewrite]) later) ∧
          Staged images ((rewrites ++ [rewrite]).flatMap Rewrite.plan) disk)
    (left : List String) (rewrites : List Rewrite) (state : β)
    (whole : (rewrites.map fun rewrite => rewrite.pagemap.path) ++ left = names)
    (start : known rewrites state) :
    Yields Disk.perform (Staged images (rewrites.flatMap Rewrite.plan)) (loop left state)
      fun later disk => ∃ all : List Rewrite,
        ((all.map fun rewrite => rewrite.pagemap.path) = names ∧ known all later) ∧
          Staged images (all.flatMap Rewrite.plan) disk := by
  induction left generalizing rewrites state with
  | nil =>
    rw [append_nil] at whole
    rw [ends]
    exact yields_pure fun disk stages => ⟨rewrites, ⟨whole, start⟩, stages⟩
  | cons name left ih =>
    obtain ⟨mem, done, fresh⟩ := next_image whole nodup
    rw [steps]
    refine (image rewrites state name start mem done fresh).bind fun next =>
      yields_exists fun rewrite => yields_of_fact (fun _ has => has.1) ?_
    rintro ⟨path, goes⟩
    refine (ih (rewrites ++ [rewrite]) next ?_ goes).mono (fun _ has => has.2) fun _ _ has => has
    rw [← whole, map_append, map_singleton, path, append_assoc]
    rfl

theorem yields_computeImages (own : ∀ name ∈ names, ∀ pagemap, images.pagemap name = some pagemap →
      ∀ entry ∈ pagemap.entries, entry.parented = false) (nodup : names.Nodup) (info : DeltaInfo)
    (none : info.keptPages = 0 ∧ info.files = []) :
    Yields Disk.perform (Staged images []) (computeImages kit parent names ⟨[], info⟩)
      fun later disk => ∃ all : List Rewrite,
        ((all.map fun rewrite => rewrite.pagemap.path) = names ∧
          (∀ rewrite ∈ all, rewrite.Of (view kit) (resolve kit parent) images) ∧
          later.staged = stagedNames all ∧
          later.info.keptPages = (all.map fun rewrite => rewrite.items.countP parent.keeps).sum ∧
          later.info.files = all.map fun rewrite => rewrite.pagemap.path) ∧
          Staged images (all.flatMap Rewrite.plan) disk := by
  refine yields_images (computeImage kit parent) (computeImages kit parent) (fun _ => rfl)
    (fun _ _ _ => rfl) (fun all delta => (∀ rewrite ∈ all, _) ∧ delta.staged = stagedNames all ∧
      delta.info.keptPages = (all.map _).sum ∧ delta.info.files = all.map _) nodup ?_ names []
    ⟨[], info⟩ rfl ⟨by simp, rfl, none⟩
  rintro rewrites delta name ⟨each, staged, counted, files⟩ mem done fresh
  refine (yields_image pagemaps apart DeltaRun.entries (fun _ run items =>
    run.kept = delta.info.keptPages + items.countP parent.keeps) each done mem fresh ?_).mono
    (fun _ has => has) ?_
  · intro pagemap data read held
    have begins : ∀ disk, Outs images (rewrites.flatMap Rewrite.plan) pagemap.pagesFile [] disk →
        Computes parent images (rewrites.flatMap Rewrite.plan) pagemap.pagesFile data
          delta.info.keptPages
          { total := delta.info.totalPages, kept := delta.info.keptPages } [] disk :=
      fun disk outs => ⟨[], outs, rfl, Nat.zero_le _, by simp, by simp⟩
    refine (yields_computeEntries (plain_pagesFile pagemap) held pagemap.entries
      (own name mem pagemap read) _ []).mono begins ?_
    rintro run disk ⟨items, viewed, kept, outs, computing⟩
    exact ⟨items, _, kept, ⟨viewed, computing.resolved, computing.counted⟩, outs⟩
  · rintro later disk ⟨rewrite, run, ⟨rfl, rewritten, _, keeps, rfl⟩, stages⟩
    refine ⟨rewrite, ⟨rfl, ?_, ?_, ?_, ?_⟩, stages⟩
    · exact forall_mem_append.mpr ⟨each, by simpa using rewritten⟩
    · rw [stagedNames_snoc, staged]
    · rw [keeps, counted]
      simp
    · rw [files, map_append, map_singleton]

theorem yields_mergeImages (nodup : names.Nodup) :
    Yields Disk.perform (Staged images []) (mergeImages kit parent names []) fun later disk =>
      ∃ all : List Rewrite, ((all.map fun rewrite => rewrite.pagemap.path) = names ∧
        (∀ rewrite ∈ all, rewrite.Of (resolve kit parent) (view kit) images) ∧
        (∀ rewrite ∈ all, rewrite.entries = rewrite.pagemap.entries.map PagemapEntry.merged) ∧
        later = stagedNames all) ∧ Staged images (all.flatMap Rewrite.plan) disk := by
  refine yields_images (mergeImage kit parent) (mergeImages kit parent) (fun _ => rfl)
    (fun _ _ _ => rfl) (fun all staged => (∀ rewrite ∈ all, _) ∧ (∀ rewrite ∈ all, _) ∧
      staged = stagedNames all) nodup ?_ names [] [] rfl ⟨by simp, by simp, rfl⟩
  rintro rewrites staged name ⟨each, merged, rfl⟩ mem done fresh
  refine (yields_image pagemaps apart MergeRun.entries (fun pagemap run _ =>
    run.entries = pagemap.entries.map PagemapEntry.merged) each done mem fresh ?_).mono
    (fun _ has => has) ?_
  · intro pagemap data read held
    refine (yields_mergeEntries (plain_pagesFile pagemap) held pagemap.entries {} []).mono
      (fun _ has => has) ?_
    rintro run disk ⟨items, written, ⟨entries, joins⟩, outs⟩
    rw [nil_append] at entries outs
    exact ⟨items, _, written, ⟨joins.resolved, entries ▸ joins.viewed, entries⟩, outs⟩
  · rintro later disk ⟨rewrite, run, ⟨rfl, rewritten, entries, changed, rfl⟩, stages⟩
    refine ⟨rewrite, ⟨rfl, ?_, ?_, ?_⟩, stages⟩
    · exact forall_mem_append.mpr ⟨each, by simpa using rewritten⟩
    · exact forall_mem_append.mpr ⟨merged, by simpa using entries.trans changed⟩
    · rw [stagedNames_snoc]

end

theorem yields_commit (plan : List (String × File)) :
    Yields Disk.perform (Staged images plan) (commit (plan.map Prod.fst))
      fun _ => Committed images plan :=
  yields_commitFrom _ plan images

theorem deltaFile_not_planned (done : ∀ rewrite ∈ rewrites, isPagemap rewrite.pagemap.path = true) :
    deltaFile ∉ (rewrites.flatMap Rewrite.plan).map Prod.fst := by
  intro planned
  obtain ⟨row, within, same⟩ := mem_map.mp planned
  obtain ⟨rewrite, earlier, among⟩ := mem_flatMap.mp within
  simp only [Rewrite.plan, mem_cons, not_mem_nil, or_false] at among
  rcases among with rfl | rfl
  · exact pagesFile_ne_deltaFile _ same
  · have matched := done rewrite earlier
    rw [show rewrite.pagemap.path = deltaFile from same, not_isPagemap_deltaFile] at matched
    cases matched

theorem yields_stageDelta (checkpoint : images.Checkpoint) :
    Yields Disk.perform (fun disk => disk = images) (stageDelta kit parent) fun info disk =>
      ∃ (rewrites : List Rewrite) (file : File),
        ((rewrites.map fun rewrite => rewrite.pagemap.path) = images.pagemaps ∧
          (∀ rewrite ∈ rewrites, rewrite.Of (view kit) (resolve kit parent) images) ∧
          info.keptPages = (rewrites.map fun rewrite => rewrite.items.countP parent.keeps).sum ∧
          info.files = Ledger.sortIDs images.pagemaps ∧ file.val = kit.marshal info) ∧
          Committed images (rewrites.flatMap Rewrite.plan ++ [(deltaFile, file)]) disk := by
  have globs : Yields Disk.perform (fun disk => disk = images) (ask .glob) fun names disk =>
      names = images.pagemaps ∧ Staged images [] disk := by
    refine yields_act _ _ ?_
    rintro disk fate names next rfl ran
    replace ran := outcome_eq ran
    rw [← ran.1, ← ran.2]
    exact ⟨rfl, Staged.none disk⟩
  refine globs.bind fun names => yields_of_fact (fun _ has => has.1) ?_
  rintro rfl
  split
  · exact yields_throw_bind _ _
  have pagemaps : ∀ name ∈ images.pagemaps, isPagemap name = true :=
    fun name mem => (mem_pagemaps.mp mem).1
  refine ((yields_computeImages pagemaps checkpoint.apart checkpoint.own
    (pagemaps_distinct images) _ ⟨rfl, rfl⟩).mono (fun _ has => has.2)
      fun _ _ has => has).bind fun delta => ?_
  refine yields_exists fun rewrites => yields_of_fact (fun _ has => has.1) ?_
  rintro ⟨paths, each, staged, counted, files⟩
  have done : ∀ rewrite ∈ rewrites, isPagemap rewrite.pagemap.path = true := by
    intro rewrite mem
    refine pagemaps _ ?_
    rw [← paths]
    exact mem_map_of_mem (f := fun r => r.pagemap.path) mem
  refine yields_checked ((yields_writeFile plain_deltaFile (deltaFile_not_planned done)).mono
    (fun _ has => has.2) fun _ _ has => has) ?_
  refine yields_exists fun file => yields_of_fact (fun _ has => has.1) fun contents => ?_
  have names : delta.staged ++ [deltaFile] =
      (rewrites.flatMap Rewrite.plan ++ [(deltaFile, file)]).map Prod.fst := by
    rw [staged, stagedNames, map_append, map_singleton]
  rw [names]
  refine ((yields_commit _).mono (fun _ has => has.2) fun _ _ has => has).bind fun _ =>
    yields_pure fun disk committed => ?_
  exact ⟨rewrites, file, ⟨paths, each, counted, congrArg Ledger.sortIDs (files.trans paths),
    contents⟩, committed⟩

theorem yields_readDeltaInfo {info : DeltaInfo} {file : File}
    (held : images.get deltaFile = some file) (contents : file.val = kit.marshal info) :
    Yields Disk.perform (fun disk => disk = images) (readDeltaInfo kit) fun read disk =>
      read = info ∧ Staged images [] disk := by
  have files : Yields Disk.perform (fun disk => disk = images) (ask (.readFile deltaFile))
      fun out disk => (∀ bytes, out = some bytes → bytes = kit.marshal info) ∧
        Staged images [] disk := by
    refine yields_act _ _ ?_
    rintro disk fate out next rfl ran
    obtain ⟨rfl, got⟩ := Disk.perform_readFile ran
    refine ⟨fun bytes same => ?_, Staged.none next⟩
    obtain ⟨other, also, rfl⟩ := got bytes same
    rw [held, some.injEq] at also
    rw [← also, contents]
  refine files.bind fun out => ?_
  cases out with
  | none => exact yields_throw _
  | some bytes =>
    refine yields_of_fact (fun _ has => has.1 bytes rfl) ?_
    rintro rfl
    simp only [kit.unmarshal_marshal]
    exact yields_pure fun disk has => ⟨rfl, has.2⟩

theorem yields_stageMerge {info : DeltaInfo} {file : File}
    (held : images.get deltaFile = some file) (contents : file.val = kit.marshal info)
    (pagemaps : ∀ name ∈ info.files, isPagemap name = true) (nodup : info.files.Nodup)
    (apart : images.Apart info.files) :
    Yields Disk.perform (fun disk => disk = images) (stageMerge kit parent) fun _ disk =>
      ∃ rewrites : List Rewrite, ((rewrites.map fun rewrite => rewrite.pagemap.path) = info.files ∧
          (∀ rewrite ∈ rewrites, rewrite.Of (resolve kit parent) (view kit) images) ∧
          (∀ rewrite ∈ rewrites,
            rewrite.entries = rewrite.pagemap.entries.map PagemapEntry.merged)) ∧
          ∃ merged, Committed images (rewrites.flatMap Rewrite.plan) merged ∧
            disk = Table.drop merged deltaFile := by
  refine (yields_readDeltaInfo held contents).bind fun read =>
    yields_of_fact (fun _ has => has.1) ?_
  rintro rfl
  split
  · exact yields_throw_bind _ _
  refine ((yields_mergeImages pagemaps apart nodup).mono (fun _ has => has.2)
    fun _ _ has => has).bind fun staged => ?_
  refine yields_exists fun rewrites => yields_of_fact (fun _ has => has.1) ?_
  rintro ⟨paths, each, merged, rfl⟩
  refine ((yields_commit _).mono (fun _ has => has.2) fun _ _ has => has).bind fun _ => ?_
  have removes : Yields Disk.perform (Committed images (rewrites.flatMap Rewrite.plan))
      (ask .removeInfo) fun fine disk => fine = true →
        ∃ merged, Committed images (rewrites.flatMap Rewrite.plan) merged ∧
          disk = Table.drop merged deltaFile := by
    refine yields_act _ _ ?_
    rintro disk fate fine next committed ran rfl
    exact ⟨disk, committed, Disk.perform_removeInfo ran⟩
  refine removes.bind fun fine => yields_ensure fun disk has done => ?_
  exact ⟨rewrites, ⟨paths, each, merged⟩, has done⟩

end Images

theorem ends_allOrNothing {β : Type} {script : ImageScript β} {old : Disk → Prop}
    {after : β → Disk → Prop} (yields : Yields Disk.perform old script after) :
    Ends Disk.perform old (allOrNothing script) fun outcome disk =>
      ∀ value, outcome = .ok value → after value disk := by
  refine Ends.bind yields fun outcome => ?_
  cases outcome with
  | ok value =>
    refine ends_done fun disk has out same => ?_
    cases same
    exact has value rfl
  | error failure =>
    refine Ends.bind (fun _ _ _ _ _ _ => trivial : Ends Disk.perform _ _ fun _ _ => True)
      fun _ => ends_done ?_
    intro disk _ value same
    cases same

section RoundTrip

variable {kit : ImageKit} {parent : Parent kit} {disk middle final : Disk}

variable {rewrites : List Rewrite} {rewrite : Rewrite}

theorem Committed.files {images : Disk} {more : List (String × File)}
    (committed : Committed images (rewrites.flatMap Rewrite.plan ++ more) disk)
    (mem : rewrite ∈ rewrites) : disk.get rewrite.pagemap.pagesFile = some rewrite.pages ∧
      disk.get rewrite.pagemap.path = some rewrite.map := by
  have planned : ∀ row ∈ rewrite.plan, row ∈ rewrites.flatMap Rewrite.plan ++ more :=
    fun row among => mem_append_left _ (mem_flatMap.mpr ⟨rewrite, mem, among⟩)
  exact ⟨committed.placed (rewrite.pagemap.pagesFile, rewrite.pages)
      (planned _ (by simp [Rewrite.plan])),
    committed.placed (rewrite.pagemap.path, rewrite.map) (planned _ (by simp [Rewrite.plan]))⟩

theorem Disk.pagemap_written {source target : Reading} {images : Disk}
    (rewritten : rewrite.Of source target images)
    (held : disk.get rewrite.pagemap.path = some rewrite.map) :
    disk.pagemap rewrite.pagemap.path =
      if frameable rewrite.written.sizes then some rewrite.written else none := by
  have header : rewrite.written.header.length = 8 := (Disk.pagemap_path rewritten.read).2
  have read := readPagemap_bytes header
  rw [Disk.pagemap, held, bind_some, rewritten.map]
  change (readPagemap rewrite.written.path _).toOption = _
  rw [read]
  split <;> rfl

theorem sizes_merged (merged : rewrite.entries = rewrite.pagemap.entries.map PagemapEntry.merged) :
    rewrite.written.sizes = rewrite.pagemap.sizes := by
  have same : entrySizes rewrite.entries = entrySizes rewrite.pagemap.entries := by
    rw [merged, entrySizes, entrySizes, map_map]
    exact map_congr_left fun entry _ => length_merged entry
  exact congrArg (_ :: ·) same

/-- What a rewrite of a rewritten image starts from. -/
theorem Rewrite.Of.again {source target : Reading} {first second : Rewrite}
    (computed : first.Of source (resolve kit parent) disk)
    (placed : middle.get first.pagemap.pagesFile = some first.pages ∧
      middle.get first.pagemap.path = some first.map)
    (merged : second.Of (resolve kit parent) target middle)
    (path : second.pagemap.path = first.pagemap.path) :
    frameable first.written.sizes = true ∧ second.pagemap = first.written ∧
      second.items = first.items := by
  have read := merged.read
  rw [path, Disk.pagemap_written computed placed.2] at read
  split at read
  · rename_i readable
    rw [some.injEq] at read
    refine ⟨readable, read.symm, ?_⟩
    obtain ⟨kept, behind, heldKept, resolved⟩ := merged.said
    rw [← read] at heldKept resolved
    cases placed.1.symm.trans heldKept
    have both := computed.told.symm.trans resolved
    simp only [some.injEq, Prod.mk.injEq] at both
    exact both.1.symm
  · cases read

theorem Rewrite.Of.imageBefore {target : Reading} (rewritten : rewrite.Of (view kit) target disk) :
    disk.image kit rewrite.pagemap.path =
      some ⟨rewrite.pagemap.header, rewrite.pagemap.pagesID, rewrite.items⟩ := by
  obtain ⟨pages, rest, held, said⟩ := rewritten.said
  rw [Disk.image, rewritten.read, bind_some, held, bind_some, said]
  rfl

theorem Rewrite.Of.image {source : Reading} (rewritten : rewrite.Of source (view kit) disk)
    (placed : final.get rewrite.pagemap.pagesFile = some rewrite.pages ∧
      final.get rewrite.pagemap.path = some rewrite.map)
    (readable : frameable rewrite.written.sizes = true) :
    final.image kit rewrite.pagemap.path =
      some ⟨rewrite.pagemap.header, rewrite.pagemap.pagesID, rewrite.items⟩ := by
  rw [Disk.image, Disk.pagemap_written rewritten placed.2, if_pos readable, bind_some,
    show rewrite.written.pagesFile = rewrite.pagemap.pagesFile from rfl, placed.1, bind_some,
    show rewrite.written.entries = rewrite.entries from rfl, rewritten.told]
  rfl

theorem planned_pagemap {name : String} (matched : isPagemap name = true)
    (planned : name ∈ (rewrites.flatMap Rewrite.plan).map Prod.fst) :
    name ∈ rewrites.map fun rewrite => rewrite.pagemap.path := by
  obtain ⟨row, within, rfl⟩ := mem_map.mp planned
  obtain ⟨rewrite, mem, among⟩ := mem_flatMap.mp within
  simp only [Rewrite.plan, mem_cons, not_mem_nil, or_false] at among
  rcases among with rfl | rfl
  · rw [not_isPagemap_pagesFile] at matched
    cases matched
  · exact mem_map.mpr ⟨rewrite, mem, rfl⟩

theorem Committed.pagemaps {images : Disk} {more : List (String × File)}
    (committed : Committed images (rewrites.flatMap Rewrite.plan ++ more) disk)
    (there : ∀ rewrite ∈ rewrites, rewrite.pagemap.path ∈ images.pagemaps)
    (others : ∀ row ∈ more, isPagemap row.1 = false) (name : String) :
    name ∈ disk.pagemaps ↔ name ∈ images.pagemaps := by
  rw [mem_pagemaps, mem_pagemaps]
  refine and_congr_right fun matched => ?_
  by_cases planned : name ∈ rewrites.map fun rewrite => rewrite.pagemap.path
  · obtain ⟨rewrite, mem, rfl⟩ := mem_map.mp planned
    simp [(committed.files mem).2, (mem_pagemaps.mp (there rewrite mem)).2]
  · have gone : name ∉ (rewrites.flatMap Rewrite.plan ++ more).map Prod.fst := by
      rw [map_append, mem_append, not_or]
      refine ⟨fun among => planned (planned_pagemap matched among), fun among => ?_⟩
      obtain ⟨row, mem, rfl⟩ := mem_map.mp among
      rw [others row mem] at matched
      cases matched
    rw [committed.others name (plain_of_isPagemap matched) gone]

/-- The directory holds the images rewritten from those of another, and `delta.json` names them. -/
structure Delta (kit : ImageKit) (source target : Reading) (images : Disk)
    (rewrites : List Rewrite) (info : DeltaInfo) (disk : Disk) : Prop where
  each : ∀ rewrite ∈ rewrites, rewrite.Of source target images
  placed : ∀ rewrite ∈ rewrites, disk.get rewrite.pagemap.pagesFile = some rewrite.pages ∧
    disk.get rewrite.pagemap.path = some rewrite.map
  described : ∃ file : File, disk.get deltaFile = some file ∧ file.val = kit.marshal info
  distinct : info.files.Nodup
  paths : ∀ name, name ∈ info.files ↔ name ∈ rewrites.map fun rewrite => rewrite.pagemap.path
  pagemaps : ∀ name, name ∈ disk.pagemaps ↔ name ∈ info.files
  apart : images.Apart info.files

/-- What `MergeDelta` has put in place once its commit is through. -/
structure Remade (kit : ImageKit) (parent : Parent kit) (info : DeltaInfo) (middle : Disk)
    (rewrites : List Rewrite) (joined : Disk) : Prop where
  paths : (rewrites.map fun rewrite => rewrite.pagemap.path) = info.files
  each : ∀ rewrite ∈ rewrites, rewrite.Of (resolve kit parent) (view kit) middle
  entries : ∀ rewrite ∈ rewrites, rewrite.entries = rewrite.pagemap.entries.map PagemapEntry.merged
  committed : Committed middle (rewrites.flatMap Rewrite.plan) joined

theorem Remade.named {info : DeltaInfo} {seconds : List Rewrite} {joined : Disk}
    (remade : Remade kit parent info middle seconds joined) (mem : rewrite ∈ seconds) :
    rewrite.pagemap.path ∈ info.files := by
  rw [← remade.paths]
  exact mem_map_of_mem (f := fun r => r.pagemap.path) mem

namespace Delta

variable {source : Reading} {rewrites seconds : List Rewrite} {info : DeltaInfo}

theorem of_play {choices : List DiskFate} (checkpoint : disk.Checkpoint)
    (computed : play Disk.perform (computeDelta kit parent) disk choices = some (.ok info, middle)) :
    ∃ rewrites, Delta kit (view kit) (resolve kit parent) disk rewrites info middle ∧
      (rewrites.map fun rewrite => rewrite.pagemap.path) = disk.pagemaps ∧
      info.keptPages = (rewrites.map fun rewrite => rewrite.items.countP parent.keeps).sum := by
  obtain ⟨rewrites, file, ⟨paths, each, counted, files, contents⟩, committed⟩ :=
    ends_allOrNothing (yields_stageDelta checkpoint) disk choices _ middle rfl computed info rfl
  have there : ∀ rewrite ∈ rewrites, rewrite.pagemap.path ∈ disk.pagemaps := by
    intro rewrite mem
    rw [← paths]
    exact mem_map_of_mem (f := fun r => r.pagemap.path) mem
  have others : ∀ row ∈ [(deltaFile, file)], isPagemap row.1 = false := by
    intro row mem
    rw [mem_singleton.mp mem]
    exact not_isPagemap_deltaFile
  have named : ∀ name, name ∈ info.files ↔ name ∈ disk.pagemaps := by
    intro name
    rw [files, Ledger.sortIDs, mem_insertionSort]
  refine ⟨rewrites, ⟨each, fun rewrite mem => committed.files mem,
    ⟨file, committed.placed (deltaFile, file) (by simp), contents⟩, ?_, ?_, ?_, ?_⟩, paths,
    counted⟩
  · rw [files, Ledger.sortIDs]
    exact (perm_insertionSort _ _).nodup_iff.mpr (pagemaps_distinct disk)
  · intro name
    rw [named, paths]
  · intro name
    rw [committed.pagemaps there others, named]
  · intro name mem other among
    exact checkpoint.apart name ((named name).mp mem) other ((named other).mp among)

variable (delta : Delta kit source (resolve kit parent) disk rewrites info middle)
include delta

theorem isPagemap {name : String} (mem : name ∈ info.files) : isPagemap name = true :=
  (mem_pagemaps.mp ((delta.pagemaps name).mpr mem)).1

theorem found {name : String} (mem : name ∈ info.files) :
    ∃ rewrite ∈ rewrites, rewrite.pagemap.path = name :=
  mem_map.mp ((delta.paths name).mp mem)

theorem apart_middle : middle.Apart info.files := by
  have pagesID : ∀ rewrite ∈ rewrites, ∀ pagemap,
      middle.pagemap rewrite.pagemap.path = some pagemap →
        pagemap.pagesID = rewrite.pagemap.pagesID := by
    intro rewrite mem pagemap read
    rw [Disk.pagemap_written (delta.each rewrite mem) (delta.placed rewrite mem).2] at read
    split at read
    · rw [some.injEq] at read
      rw [← read]
      rfl
    · cases read
  intro name mem other among first second read also same
  obtain ⟨one, oneMember, rfl⟩ := delta.found mem
  obtain ⟨two, twoMember, rfl⟩ := delta.found among
  rw [pagesID one oneMember first read, pagesID two twoMember second also] at same
  exact delta.apart _ mem _ among _ _ (delta.each one oneMember).read
    (delta.each two twoMember).read same

theorem yields_merge :
    Yields Disk.perform (fun disk => disk = middle) (stageMerge kit parent) fun _ final =>
      ∃ seconds joined, Remade kit parent info middle seconds joined ∧
        final = Table.drop joined deltaFile := by
  obtain ⟨file, held, contents⟩ := delta.described
  refine (yields_stageMerge held contents (fun name => delta.isPagemap) delta.distinct
    delta.apart_middle).mono (fun _ has => has) ?_
  rintro _ _ ⟨seconds, ⟨paths, each, entries⟩, joined, committed, rfl⟩
  exact ⟨seconds, joined, ⟨paths, each, entries, committed⟩, rfl⟩

variable {joined : Disk} (remade : Remade kit parent info middle seconds joined)
include remade

/-- The merged directory is again one that `delta.json` describes. -/
theorem next : Delta kit (resolve kit parent) (view kit) middle seconds info joined := by
  have whole : Committed middle (seconds.flatMap Rewrite.plan ++ []) joined := by
    rw [append_nil]
    exact remade.committed
  have there : ∀ rewrite ∈ seconds, rewrite.pagemap.path ∈ middle.pagemaps :=
    fun rewrite mem => (delta.pagemaps _).mpr (remade.named mem)
  have unplanned : deltaFile ∉ (seconds.flatMap Rewrite.plan).map Prod.fst :=
    deltaFile_not_planned fun rewrite mem => delta.isPagemap (remade.named mem)
  refine ⟨remade.each, fun rewrite mem => whole.files mem, ?_, delta.distinct, ?_, ?_,
    delta.apart_middle⟩
  · obtain ⟨file, held, contents⟩ := delta.described
    exact ⟨file, (remade.committed.others _ plain_deltaFile unplanned).trans held, contents⟩
  · intro name
    rw [remade.paths]
  · intro name
    rw [whole.pagemaps there (by simp), delta.pagemaps]

/-- Every image says in the merged directory what it said before. -/
theorem restored (mem : rewrite ∈ rewrites) : joined.image kit rewrite.pagemap.path =
    some ⟨rewrite.pagemap.header, rewrite.pagemap.pagesID, rewrite.items⟩ := by
  have among : rewrite.pagemap.path ∈ seconds.map fun second => second.pagemap.path := by
    rw [remade.paths, delta.paths]
    exact mem_map_of_mem (f := fun r => r.pagemap.path) mem
  obtain ⟨second, member, path⟩ := mem_map.mp among
  obtain ⟨readable, pagemap, items⟩ := (delta.each rewrite mem).again (delta.placed rewrite mem)
    (remade.each second member) path
  have sizes : frameable second.written.sizes = true := by
    rw [sizes_merged (remade.entries second member), pagemap]
    exact readable
  have image := (remade.each second member).image ((delta.next remade).placed second member) sizes
  rw [path, pagemap, items] at image
  exact image

end Delta

/-- The directories have the same images. -/
def Disk.Alike (disk other : Disk) : Prop :=
  ∀ name, Plain name → name ≠ deltaFile → other.get name = disk.get name

namespace Disk.Alike

theorem drop (disk : Disk) : disk.Alike (Table.drop disk deltaFile) :=
  fun _ _ other => get_drop_other _ other

variable (alike : disk.Alike final)
include alike

theorem get_pagemap {name : String} (matched : isPagemap name = true) :
    final.get name = disk.get name := by
  refine alike name (plain_of_isPagemap matched) ?_
  rintro rfl
  rw [not_isPagemap_deltaFile] at matched
  cases matched

theorem get_pages (pagemap : Pagemap) : final.get pagemap.pagesFile = disk.get pagemap.pagesFile :=
  alike _ (plain_pagesFile pagemap) (pagesFile_ne_deltaFile pagemap)

theorem image {name : String} (matched : isPagemap name = true) :
    final.image kit name = disk.image kit name := by
  simp only [Disk.image, Disk.pagemap, alike.get_pagemap matched, alike.get_pages]

theorem pagemaps (name : String) : name ∈ final.pagemaps ↔ name ∈ disk.pagemaps := by
  rw [mem_pagemaps, mem_pagemaps]
  exact and_congr_right fun matched => by rw [alike.get_pagemap matched]

end Disk.Alike

/-- A delta and back: every image says what it said, and the pages that were kept are those that
the parent lacks or holds with other bytes. -/
theorem delta_round_trip {before after : List DiskFate} {info : DeltaInfo}
    (checkpoint : disk.Checkpoint)
    (computed : play Disk.perform (computeDelta kit parent) disk before = some (.ok info, middle))
    (merged : play Disk.perform (mergeDelta kit parent) middle after = some (.ok (), final)) :
    (∀ name, name ∈ final.pagemaps ↔ name ∈ disk.pagemaps) ∧
      (∀ name ∈ disk.pagemaps, ∃ image, disk.image kit name = some image ∧
        final.image kit name = some image) ∧
      info.keptPages = (disk.pagemaps.map fun name =>
        ((disk.image kit name).map fun image => image.items.countP parent.keeps).getD 0).sum := by
  obtain ⟨rewrites, delta, paths, counted⟩ := Delta.of_play checkpoint computed
  obtain ⟨seconds, joined, remade, rfl⟩ :=
    ends_allOrNothing delta.yields_merge middle after _ final rfl merged () rfl
  have named : ∀ name, name ∈ info.files ↔ name ∈ disk.pagemaps := by
    intro name
    rw [delta.paths, paths]
  have old : ∀ rewrite ∈ rewrites, disk.image kit rewrite.pagemap.path =
      some ⟨rewrite.pagemap.header, rewrite.pagemap.pagesID, rewrite.items⟩ :=
    fun rewrite mem => (delta.each rewrite mem).imageBefore
  refine ⟨fun name => ?_, ?_, ?_⟩
  · rw [(Disk.Alike.drop joined).pagemaps, (delta.next remade).pagemaps, named]
  · intro name member
    obtain ⟨rewrite, among, rfl⟩ := delta.found ((named name).mpr member)
    refine ⟨_, old rewrite among, ?_⟩
    rw [(Disk.Alike.drop joined).image (mem_pagemaps.mp member).1]
    exact delta.restored remade among
  · rw [counted, ← paths, map_map]
    refine congrArg sum (map_congr_left fun rewrite member => ?_)
    simp [old rewrite member]

end RoundTrip

def DeltaInfo.rows (info : DeltaInfo) : List (List Nat) :=
  [info.pageSize.toNat, info.totalPages, info.keptPages] :: stringCode info.parentSHA256 ::
    info.files.map stringCode

def infoOfRows : List (List Nat) → Option DeltaInfo
  | [pageSize, totalPages, keptPages] :: sha :: files =>
    some ⟨UInt64.ofNat pageSize, codeString sha, totalPages, keptPages, files.map codeString⟩
  | _ => none

theorem infoOfRows_rows (info : DeltaInfo) : infoOfRows info.rows = some info := by
  simp [DeltaInfo.rows, infoOfRows, codeString_stringCode, Function.comp_def]

/-- Pages of two bytes. -/
def smallKit : ImageKit where
  pageSize := 2
  sha256 bytes := String.ofList (List.replicate bytes.length '#')
  marshal info := rowsText info.rows
  unmarshal bytes := infoOfRows (readRows 0 [] [] bytes)
  pageSize_pos := by decide
  unmarshal_marshal info := by
    rw [readRows_rowsText, List.nil_append]
    exact infoOfRows_rows info

def smallCheckpoint (pages : Bytes) : Disk :=
  ((∅ : Disk).put "pagemap-1.img" (fileOf (pagemapBytes
    { path := "pagemap-1.img", header := [1, 2, 3, 4, 5, 6, 7, 8], pagesID := 3
      entries := [⟨0, 7, 0⟩, ⟨16, 3, 4⟩, ⟨32, 1, 2⟩] }))).put "pages-3.img" (fileOf pages)

/-- The parent has the first and the third page as they are. -/
def smallParent : Parent smallKit :=
  match play Disk.perform (loadParent smallKit) (smallCheckpoint [1, 1, 9, 9, 3, 3])
    [.done, .done, .done] with
  | some (.ok parent, _) => parent
  | _ => ⟨∅, ""⟩

def smallDisk : Disk := smallCheckpoint [1, 1, 2, 2, 3, 3, 0]

def smallDelta : Option (Except ImageError DeltaInfo × Disk) :=
  play Disk.perform (computeDelta smallKit smallParent) smallDisk (List.replicate 15 .done)

def smallMerged (middle : Disk) : Option (Except ImageError Unit × Disk) :=
  play Disk.perform (mergeDelta smallKit smallParent) middle (List.replicate 14 .done)

theorem smallDisk_checkpoint : smallDisk.Checkpoint := by
  have only : smallDisk.pagemaps = ["pagemap-1.img"] := by decide +kernel
  have read : smallDisk.pagemap "pagemap-1.img" = some
      { path := "pagemap-1.img", header := [1, 2, 3, 4, 5, 6, 7, 8], pagesID := 3
        entries := [⟨0, 7, 0⟩, ⟨16, 3, 4⟩, ⟨32, 1, 2⟩] } := by decide +kernel
  constructor
  · intro name mem pagemap got
    rw [only, mem_singleton] at mem
    rw [mem, read] at got
    cases got
    decide
  · intro name mem other among first second _ _ _
    rw [only, mem_singleton] at mem among
    rw [mem, among]

theorem small_round_trip :
    ∃ middle final : Disk, (∃ info, smallDelta = some (.ok info, middle) ∧ info.keptPages = 1) ∧
      smallMerged middle = some (.ok (), final) ∧
      ∀ name ∈ smallDisk.pagemaps, ∃ image, smallDisk.image smallKit name = some image ∧
        final.image smallKit name = some image := by
  have ran : (smallDelta.bind fun delta => delta.1.toOption.bind fun info =>
      (smallMerged delta.2).bind fun merged => merged.1.toOption.map fun _ => info.keptPages) =
        some 1 := by decide +kernel
  obtain ⟨⟨outcome, middle⟩, computed, rest⟩ := bind_eq_some_iff.mp ran
  obtain ⟨info, fine, rest⟩ := bind_eq_some_iff.mp rest
  obtain ⟨⟨ending, final⟩, merged, rest⟩ := bind_eq_some_iff.mp rest
  obtain ⟨_, whole, kept⟩ := Option.map_eq_some_iff.mp rest
  cases outcome with
  | error error => cases fine
  | ok told =>
    cases fine
    cases ending with
    | error error => cases whole
    | ok _ =>
      exact ⟨middle, final, ⟨info, computed, kept⟩, merged,
        (delta_round_trip smallDisk_checkpoint computed merged).2.1⟩

end Fiberd
