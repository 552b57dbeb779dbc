import Fiberd.Images.ImageDelta

/-!
What a rewrite leaves in the directory.  It writes beside the images, so they are
read unchanged until the commit, and the commit puts each staged file in the
place of its image.
-/

namespace Fiberd

open Tables Messages Programs Scripts ImageScript

def Plain (name : String) : Prop := ¬".tmp".toList <:+ name.toList

theorem tmp_toList (name : String) : (tmp name).toList = name.toList ++ ".tmp".toList :=
  String.toList_append

variable {name : String}

theorem tmp_inj {other : String} (same : tmp name = tmp other) : name = other := by
  have lists := congrArg String.toList same
  rw [tmp_toList, tmp_toList] at lists
  exact String.toList_inj.mp (List.append_cancel_right lists)

theorem Plain.ne_tmp (plain : Plain name) (other : String) : name ≠ tmp other := by
  rintro rfl
  exact plain ⟨other.toList, (tmp_toList other).symm⟩

theorem plain_of_img (suffix : ".img".toList <:+ name.toList) : Plain name := by
  intro temp
  have same := List.IsSuffix.eq_of_length
    (List.suffix_of_suffix_length_le temp suffix (by decide)) (by decide)
  exact absurd same (by decide)

theorem plain_of_isPagemap (pagemap : isPagemap name = true) : Plain name := by
  rw [isPagemap, Bool.and_eq_true, List.isSuffixOf_iff_suffix] at pagemap
  exact plain_of_img pagemap.2

theorem plain_pagesFile (pagemap : Pagemap) : Plain pagemap.pagesFile := by
  refine plain_of_img ⟨("pages-" ++ pagemap.pagesID.toNat.repr).toList, ?_⟩
  exact String.toList_append.symm

theorem plain_deltaFile : Plain deltaFile := by
  unfold Plain
  decide

theorem pagesFile_toList (pagemap : Pagemap) : pagemap.pagesFile.toList =
    'p' :: 'a' :: 'g' :: 'e' :: 's' :: '-' ::
      (pagemap.pagesID.toNat.repr.toList ++ ".img".toList) := by
  rw [Pagemap.pagesFile, String.toList_append, String.toList_append]
  rfl

theorem not_isPagemap_pagesFile (pagemap : Pagemap) : isPagemap pagemap.pagesFile = false := by
  rw [isPagemap, pagesFile_toList]
  rfl

theorem not_isPagemap_deltaFile : isPagemap deltaFile = false := by decide

theorem pagesFile_ne_deltaFile (pagemap : Pagemap) : pagemap.pagesFile ≠ deltaFile := by
  intro same
  have lists := congrArg String.toList same
  rw [pagesFile_toList] at lists
  have first : 'p' = 'd' := List.cons.inj lists |>.1
  exact absurd first (by decide)

theorem pagesFile_inj {pagemap other : Pagemap} (same : pagemap.pagesFile = other.pagesFile) :
    pagemap.pagesID = other.pagesID := by
  have lists := congrArg String.toList same
  rw [pagesFile_toList, pagesFile_toList] at lists
  simp only [List.cons.injEq, true_and] at lists
  have texts := String.toList_inj.mp (List.append_cancel_right lists)
  exact UInt32.toNat_inj.mp (repr_inj texts)

theorem mem_pagemaps {disk : Disk} :
    name ∈ disk.pagemaps ↔ isPagemap name = true ∧ (disk.get name).isSome = true := by
  rw [Disk.pagemaps, Ledger.sortIDs, List.mem_insertionSort, List.mem_filter, List.mem_map]
  constructor
  · rintro ⟨⟨row, mem, rfl⟩, pagemap⟩
    exact ⟨pagemap, by rw [(mem_rows_iff _ _ _).mp mem]; rfl⟩
  · rintro ⟨pagemap, got⟩
    obtain ⟨file, got⟩ := Option.isSome_iff_exists.mp got
    exact ⟨⟨(name, file), (mem_rows_iff _ _ _).mpr got, rfl⟩, pagemap⟩

theorem pagemaps_distinct (disk : Disk) : disk.pagemaps.Nodup := by
  rw [Disk.pagemaps, Ledger.sortIDs]
  exact (List.perm_insertionSort _ _).nodup_iff.mpr ((rows_distinct disk).filter _)

namespace Disk

variable {disk next : Disk} {fate : DiskFate} {name : String} {bytes : Bytes}

variable {out : Option Bytes}

theorem perform_readFile (ran : disk.perform (.readFile name) fate = some (out, next)) :
    next = disk ∧ ∀ bytes, out = some bytes → ∃ file, disk.get name = some file ∧
      file.val = bytes := by
  cases fate with
  | done =>
    replace ran := outcome_eq ran
    refine ⟨ran.2.symm, fun bytes same => ?_⟩
    exact Option.map_eq_some_iff.mp (ran.1.trans same)
  | failed landed =>
    replace ran := outcome_eq ran
    exact ⟨ran.2.symm, fun bytes same => by simp [← ran.1] at same⟩

variable {fine : Bool}

theorem perform_openFile
    (ran : disk.perform (.openFile name) fate = some (fine, next)) : next = disk := by
  cases fate with
  | done | failed landed =>
    cases ran
    exact rfl

theorem perform_flush
    (ran : disk.perform (.flush name) fate = some (fine, next)) : next = disk := by
  cases fate with
  | done | failed landed =>
    cases ran
    exact rfl

theorem perform_close
    (ran : disk.perform (.close name) fate = some (fine, next)) : next = disk := by
  cases fate with
  | done | failed landed =>
    cases ran
    exact rfl

theorem perform_read {offset count : Nat}
    (ran : disk.perform (.read name offset count) fate = some (out, next)) :
    next = disk ∧ ∀ page, out = some page → ∃ file, disk.get name = some file ∧
      offset + count ≤ file.val.length ∧ page = (file.val.drop offset).take count := by
  cases fate with
  | done =>
    replace ran := outcome_eq ran
    refine ⟨ran.2.symm, fun page same => ?_⟩
    obtain ⟨file, got, inside⟩ := Option.bind_eq_some_iff.mp (ran.1.trans same)
    split at inside
    · rename_i long
      exact ⟨file, got, long, (Option.some.inj inside).symm⟩
    · cases inside
  | failed landed =>
    replace ran := outcome_eq ran
    exact ⟨ran.2.symm, fun page same => by simp [← ran.1] at same⟩

theorem perform_create (ran : disk.perform (.create name) fate = some (true, next)) :
    next = disk.put (tmp name) emptyFile := by
  cases fate with
  | done =>
    cases ran
    exact rfl
  | failed landed => cases ran

theorem perform_write (ran : disk.perform (.write name bytes) fate = some (true, next)) :
    ∃ file longer, disk.get (tmp name) = some file ∧ longer.val = file.val ++ bytes ∧
      next = disk.put (tmp name) longer := by
  cases fate with
  | done =>
    simp only [perform, append, Option.some.injEq] at ran
    split at ran
    · simp at ran
    · rename_i file got
      split at ran
      · simp at ran
      · rename_i longer fits
        simp only [Prod.mk.injEq, true_and] at ran
        exact ⟨file, longer, got, File.of_val fits, ran.symm⟩
  | failed landed => cases landed <;> cases ran

theorem perform_writeFile (ran : disk.perform (.writeFile name bytes) fate = some (true, next)) :
    ∃ file, file.val = bytes ∧ next = disk.put (tmp name) file := by
  cases fate with
  | done =>
    simp only [perform, replace, Option.some.injEq] at ran
    split at ran
    · simp at ran
    · rename_i file fits
      simp only [Prod.mk.injEq, true_and] at ran
      exact ⟨file, File.of_val fits, ran.symm⟩
  | failed landed => cases landed <;> cases ran

theorem perform_rename (ran : disk.perform (.rename name) fate = some (true, next)) :
    ∃ file, disk.get (tmp name) = some file ∧
      next = (Table.drop disk (tmp name)).put name file := by
  cases fate with
  | done =>
    simp only [perform] at ran
    split at ran <;> cases ran
    rename_i file got
    exact ⟨file, got, rfl⟩
  | failed landed => cases ran

theorem perform_removeInfo (ran : disk.perform .removeInfo fate = some (true, next)) :
    next = Table.drop disk deltaFile := by
  cases fate with
  | done =>
    replace ran := outcome_eq ran
    exact ran.2.symm
  | failed landed => cases ran

end Disk

section Rules

variable {before after : Disk → Prop}

variable {staged : List String}

theorem yields_ensure {error : ImageError} {fine : Bool}
    (has : ∀ disk, before disk → fine = true → after disk) :
    Yields Disk.perform before (ensure error staged fine) fun _ => after := by
  unfold ensure
  split
  · exact yields_pure fun disk start => has disk start (by assumption)
  · exact yields_throw _

theorem yields_checked {β : Type} {asked : ImageScript Bool} {later : β → Disk → Prop}
    {error : ImageError} {rest : Unit → ImageScript β}
    (acts : Yields Disk.perform before asked fun fine disk => fine = true → after disk)
    (onward : Yields Disk.perform after (rest ()) later) :
    Yields Disk.perform before (asked >>= fun fine => ensure error staged fine >>= rest) later := by
  refine acts.bind fun fine => ?_
  have goes : Yields Disk.perform (fun disk => fine = true → after disk)
      (ensure error staged fine) fun _ => after := yields_ensure fun disk has => has
  exact goes.bind fun _ => onward

theorem yields_flush (name : String) :
    Yields Disk.perform before (ask (.flush name)) fun fine disk => fine = true → before disk := by
  refine yields_act (DiskAct.flush name) _ ?_
  intro disk fate fine next has ran _
  exact Disk.perform_flush ran ▸ has

theorem yields_close (name : String) :
    Yields Disk.perform before (ask (.close name)) fun fine disk => fine = true → before disk := by
  refine yields_act (DiskAct.close name) _ ?_
  intro disk fate fine next has ran _
  exact Disk.perform_close ran ▸ has

end Rules

structure Staged (images : Disk) (plan : List (String × File)) (disk : Disk) : Prop where
  written : ∀ row ∈ plan, disk.get (tmp row.1) = some row.2
  images : ∀ name, Plain name → disk.get name = images.get name
  plain : ∀ row ∈ plan, Plain row.1
  distinct : (plan.map Prod.fst).Nodup

namespace Staged

variable {images disk : Disk} {plan : List (String × File)}

theorem none (images : Disk) : Staged images [] images :=
  ⟨by simp, fun _ _ => rfl, by simp, by simp⟩

variable {name : String}

theorem stage (staged : Staged images plan disk) (plain : Plain name)
    (fresh : name ∉ plan.map Prod.fst) (file : File) :
    Staged images (plan ++ [(name, file)]) (disk.put (tmp name) file) := by
  refine ⟨?_, ?_, ?_, ?_⟩
  · intro row mem
    rcases List.mem_append.mp mem with earlier | last
    · have other : tmp row.1 ≠ tmp name := by
        intro same
        exact fresh (tmp_inj same ▸ List.mem_map_of_mem earlier)
      rw [get_put_other _ _ other]
      exact staged.written row earlier
    · rw [List.mem_singleton.mp last, get_put_same]
  · intro other isPlain
    rw [get_put_other _ _ (isPlain.ne_tmp name)]
    exact staged.images other isPlain
  · intro row mem
    rcases List.mem_append.mp mem with earlier | last
    · exact staged.plain row earlier
    · rw [List.mem_singleton.mp last]
      exact plain
  · rw [List.map_append, List.nodup_append]
    refine ⟨staged.distinct, by simp, ?_⟩
    intro first earlier second last same
    rw [List.map_singleton, List.mem_singleton] at last
    rw [same, last] at earlier
    exact fresh earlier

theorem rewrite {old : File} (staged : Staged images (plan ++ [(name, old)]) disk)
    (file : File) : Staged images (plan ++ [(name, file)]) (disk.put (tmp name) file) := by
  have nodup := staged.distinct
  rw [List.map_append, List.nodup_append] at nodup
  have earlier : Staged images plan disk :=
    ⟨fun row mem => staged.written row (List.mem_append_left _ mem), staged.images,
      fun row mem => staged.plain row (List.mem_append_left _ mem), nodup.1⟩
  exact earlier.stage (staged.plain (name, old) (by simp))
    (fun mem => nodup.2.2 name mem name (by simp) rfl) file

theorem renamed {file : File} (staged : Staged images ((name, file) :: plan) disk) :
    Staged (images.put name file) plan ((Table.drop disk (tmp name)).put name file) := by
  have plain : Plain name := staged.plain (name, file) (by simp)
  have nodup := staged.distinct
  rw [List.map_cons, List.nodup_cons] at nodup
  refine ⟨?_, ?_, fun row mem => staged.plain row (List.mem_cons_of_mem _ mem), nodup.2⟩
  · intro row mem
    have other : tmp row.1 ≠ tmp name := by
      intro same
      have named := List.mem_map_of_mem (f := Prod.fst) mem
      rw [tmp_inj same] at named
      exact nodup.1 named
    rw [get_put_other _ _ (plain.ne_tmp row.1).symm, get_drop_other _ other]
    exact staged.written row (List.mem_cons_of_mem _ mem)
  · intro other isPlain
    by_cases same : other = name
    · rw [same, get_put_same, get_put_same]
    · rw [get_put_other _ _ same, get_put_other _ _ same, get_drop_other _ (isPlain.ne_tmp name)]
      exact staged.images other isPlain

end Staged

structure Committed (images : Disk) (plan : List (String × File)) (disk : Disk) : Prop where
  placed : ∀ row ∈ plan, disk.get row.1 = some row.2
  others : ∀ name, Plain name → name ∉ plan.map Prod.fst → disk.get name = images.get name

theorem Committed.cons {images disk : Disk} {plan : List (String × File)} {name : String}
    {file : File} (plain : Plain name) (fresh : name ∉ plan.map Prod.fst)
    (committed : Committed (images.put name file) plan disk) :
    Committed images ((name, file) :: plan) disk := by
  constructor
  · intro row mem
    rcases List.mem_cons.mp mem with rfl | later
    · rw [committed.others name plain fresh, get_put_same]
    · exact committed.placed row later
  · intro other isPlain gone
    rw [List.map_cons, List.mem_cons, not_or] at gone
    rw [committed.others other isPlain gone.2, get_put_other _ _ gone.1]

theorem yields_commitFrom (all : List String) (plan : List (String × File)) (images : Disk) :
    Yields Disk.perform (Staged images plan) (commitFrom all (plan.map Prod.fst))
      fun _ => Committed images plan := by
  induction plan generalizing images with
  | nil =>
    refine yields_pure fun disk staged => ⟨by simp, ?_⟩
    intro name plain _
    exact staged.images name plain
  | cons row plan ih =>
    obtain ⟨name, file⟩ := row
    have renames : Yields Disk.perform (Staged images ((name, file) :: plan))
        (ask (.rename name)) fun fine disk => fine = true →
          Staged (images.put name file) plan disk ∧ name ∉ plan.map Prod.fst ∧ Plain name := by
      refine yields_act _ _ ?_
      intro disk fate fine next staged ran renamed
      subst renamed
      obtain ⟨moved, got, rfl⟩ := Disk.perform_rename ran
      rw [staged.written (name, file) (by simp), Option.some.injEq] at got
      rw [← got]
      exact ⟨staged.renamed, (List.nodup_cons.mp staged.distinct).1,
        staged.plain (name, file) (by simp)⟩
    refine yields_checked renames ?_
    refine yields_of_fact (fun _ has => has.2) fun fact => ?_
    exact (ih (images.put name file)).mono (fun _ has => has.1)
      fun _ _ committed => committed.cons fact.2 fact.1

end Fiberd
