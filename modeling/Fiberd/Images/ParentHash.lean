import Fiberd.Images.ImageRoundTrip

/-!
What the hash of a parent says of it.  It covers the pages files in the order of
their pagemaps and not the pagemaps, so two directories of one hash are one parent
where they lay their pages out alike.
-/

namespace Fiberd

open Tables Messages Programs Scripts ImageScript

abbrev PageIndex (kit : ImageKit) := Table UInt64 { page : Bytes // page.length = kit.pageSize.toNat }

def presentRuns (entries : List PagemapEntry) : List (UInt64 × UInt64) :=
  (entries.filter PagemapEntry.present).map fun entry => (entry.vaddr, entry.nrPages)

/-- The runs of each image, in the order of their names, and the size of its pages file. -/
def Disk.layout (disk : Disk) : List (List (UInt64 × UInt64) × Nat) :=
  disk.pagemaps.map fun name =>
    (disk.pagemap name).elim ([], 0) fun pagemap =>
      (presentRuns pagemap.entries,
        ((disk.get pagemap.pagesFile).map fun file => file.val.length).getD 0)

section Loading

variable {kit : ImageKit} {disk : Disk} (pages : PageIndex kit)

def filed (kit : ImageKit) : List (UInt64 × UInt64) → PageIndex kit → Bytes → Option (PageIndex kit)
  | [], pages, _ => some pages
  | run :: runs, pages, data =>
    ((loadPages kit "" ⟨run.1, run.2, 0⟩ 0 run.2.toNat pages data).toOption).bind fun next =>
      filed kit runs next.1 next.2

theorem loadPages_run (path : String) (entry : PagemapEntry) (index left : Nat) (data : Bytes) :
    (loadPages kit path entry index left pages data).toOption =
      (loadPages kit "" ⟨entry.vaddr, entry.nrPages, 0⟩ index left pages data).toOption := by
  induction left generalizing index pages data with
  | zero => rfl
  | succ left ih =>
    rw [loadPages, loadPages]
    split
    · exact ih _ _ _
    · rfl

theorem loadEntries_eq_filed (path : String) (entries : List PagemapEntry) (data : Bytes) :
    (loadEntries kit path entries pages data).toOption =
      filed kit (presentRuns entries) pages data := by
  induction entries generalizing pages data with
  | nil => rfl
  | cons entry entries ih =>
    rw [loadEntries]
    split
    · rename_i here
      have first := loadPages_run pages path entry 0 entry.nrPages.toNat data
      simp only [presentRuns, List.filter_cons, here, if_true, List.map_cons, filed, ← first]
      split <;> rename_i loaded
      · simp [loaded, Except.toOption]
      · simpa [loaded, Except.toOption, presentRuns] using ih _ _
    · rename_i gone
      simpa [presentRuns, List.filter_cons, gone] using ih pages data

inductive Found (disk : Disk) : List String → List (List (UInt64 × UInt64) × Bytes) → Prop
  | nil : Found disk [] []
  | cons {name : String} {names : List String} {rows : List (List (UInt64 × UInt64) × Bytes)}
      {pagemap : Pagemap} {file : File} (read : disk.pagemap name = some pagemap)
      (held : disk.get pagemap.pagesFile = some file) (rest : Found disk names rows) :
      Found disk (name :: names) ((presentRuns pagemap.entries, file.val) :: rows)

def parentOf (kit : ImageKit) : List (List (UInt64 × UInt64) × Bytes) → PageIndex kit → Bytes →
    Option (Parent kit)
  | [], pages, hashed => some ⟨pages, kit.sha256 hashed⟩
  | row :: rows, pages, hashed =>
    (filed kit row.1 pages row.2).bind fun next => parentOf kit rows next (hashed ++ row.2)

theorem yields_loadImages (names : List String) (hashed : Bytes) :
    Yields Disk.perform (fun state => state = disk) (loadImages kit names pages hashed)
      fun parent state => state = disk ∧ ∃ rows, Found disk names rows ∧
        parentOf kit rows pages hashed = some parent := by
  induction names generalizing pages hashed with
  | nil => exact yields_pure fun _ same => ⟨same, [], .nil, rfl⟩
  | cons name names ih =>
    have reads : ∀ other, Yields Disk.perform (fun state => state = disk)
        (ask (.readFile other)) fun out state => state = disk ∧ ∀ bytes,
          out = some bytes → ∃ file, disk.get other = some file ∧ file.val = bytes := by
      refine fun other => yields_act _ _ ?_
      rintro state fate out next rfl ran
      exact Disk.perform_readFile ran
    have images : Yields Disk.perform (fun state => state = disk) (readImage [] name)
        fun pagemap state => disk.pagemap name = some pagemap ∧ state = disk := by
      refine (reads name).bind fun out => ?_
      cases out with
      | none => exact yields_throw _
      | some bytes =>
        dsimp only
        split
        · exact yields_throw _
        · rename_i pagemap parsed
          refine yields_pure fun state has => ⟨?_, has.1⟩
          obtain ⟨file, held, same⟩ := has.2 bytes rfl
          simp [Disk.pagemap, held, same, parsed, Except.toOption]
    refine images.bind fun pagemap => yields_of_fact (fun _ has => has.1) fun read => ?_
    refine ((reads pagemap.pagesFile).mono (fun _ has => has.2)
      fun _ _ has => has).bind fun out => ?_
    cases out with
    | none => exact yields_throw _
    | some data =>
      refine yields_of_fact (fun _ has => has.2 data rfl) ?_
      rintro ⟨file, held, rfl⟩
      dsimp only
      have loads := loadEntries_eq_filed pages pagemap.pagesFile pagemap.entries file.val
      split <;> rename_i loaded
      · exact yields_throw _
      · rename_i next
        refine (ih _ _).mono (fun _ has => has.1) ?_
        rintro parent state ⟨same, rows, got, made⟩
        refine ⟨same, _, .cons read held got, ?_⟩
        rw [parentOf, ← loads, loaded]
        exact made

variable {pages}

variable {rows : List (List (UInt64 × UInt64) × Bytes)}

theorem parentOf_sha {hashed : Bytes} {parent : Parent kit}
    (made : parentOf kit rows pages hashed = some parent) :
    parent.sha = kit.sha256 (hashed ++ rows.flatMap Prod.snd) := by
  induction rows generalizing pages hashed with
  | nil =>
    simp only [parentOf, Option.some.injEq] at made
    simp [← made]
  | cons row rows ih =>
    obtain ⟨next, _, rest⟩ := Option.bind_eq_some_iff.mp made
    simpa using ih rest

theorem Found.layout {names : List String} (got : Found disk names rows) :
    (rows.map fun row => (row.1, row.2.length)) =
      names.map fun name => (disk.pagemap name).elim ([], 0) fun pagemap =>
        (presentRuns pagemap.entries,
          ((disk.get pagemap.pagesFile).map fun file => file.val.length).getD 0) := by
  induction got with
  | nil => rfl
  | cons read held _ ih => simp [read, held, ih]

theorem rows_eq_of_layout {one two : List (List (UInt64 × UInt64) × Bytes)}
    (layout : (one.map fun row => (row.1, row.2.length)) = two.map fun row => (row.1, row.2.length))
    (bytes : one.flatMap Prod.snd = two.flatMap Prod.snd) : one = two := by
  induction one generalizing two with
  | nil => exact (List.map_eq_nil_iff.mp layout.symm).symm
  | cons row one ih =>
    cases two with
    | nil => simp at layout
    | cons other two =>
      simp only [List.map_cons, List.cons.injEq, Prod.mk.injEq] at layout
      obtain ⟨⟨runs, length⟩, rest⟩ := layout
      obtain ⟨data, more⟩ := List.append_inj bytes length
      rw [ih rest more, Prod.ext runs data]

theorem loadParent_found {choices : List DiskFate} {parent : Parent kit} {final : Disk}
    (loaded : play Disk.perform (Fiberd.loadParent kit) disk choices = some (.ok parent, final)) :
    ∃ rows, Found disk disk.pagemaps rows ∧ parentOf kit rows ∅ [] = some parent := by
  have loads : Yields Disk.perform (fun state => state = disk) (ImageScript.loadParent kit)
      fun parent _ => ∃ rows, Found disk disk.pagemaps rows ∧
        parentOf kit rows ∅ [] = some parent := by
    have globs : Yields Disk.perform (fun state => state = disk) (ask .glob) fun names state =>
        names = disk.pagemaps ∧ state = disk := by
      refine yields_act _ _ ?_
      rintro state fate names next rfl ran
      cases ran
      exact ⟨rfl, rfl⟩
    refine globs.bind fun names => yields_of_fact (fun _ has => has.1) ?_
    rintro rfl
    split
    · exact yields_throw_bind _ _
    · exact (yields_loadImages ∅ _ _).mono (fun _ has => has.2) fun _ _ has => has.2
  exact ends_allOrNothing loads disk choices _ final rfl loaded parent rfl

end Loading

/-- Two directories of one hash that lay their pages out alike are one parent. -/
theorem parent_pinned {kit : ImageKit} (distinct : Function.Injective kit.sha256)
    {disk other : Disk} {choices more : List DiskFate} {parent second : Parent kit}
    {final last : Disk}
    (loaded : play Disk.perform (loadParent kit) disk choices = some (.ok parent, final))
    (also : play Disk.perform (loadParent kit) other more = some (.ok second, last))
    (sha : parent.sha = second.sha) (layout : disk.layout = other.layout) :
    (∀ address, parent.page address = second.page address) ∧
      mergeDelta kit parent = mergeDelta kit second := by
  obtain ⟨rows, found, made⟩ := loadParent_found loaded
  obtain ⟨others, foundAlso, madeAlso⟩ := loadParent_found also
  rw [parentOf_sha made, parentOf_sha madeAlso] at sha
  have same : rows = others := by
    refine rows_eq_of_layout ?_ (distinct sha)
    rw [found.layout, foundAlso.layout]
    exact layout
  subst others
  cases made.symm.trans madeAlso
  exact ⟨fun _ => rfl, rfl⟩

/-- Pages of two bytes, hashed to their own text. -/
def plainKit : ImageKit :=
  { smallKit with
    sha256 := fun bytes => String.ofList (bytes.map fun byte => Char.ofNat byte.toNat) }

theorem plainKit_injective : Function.Injective plainKit.sha256 := by
  intro one two same
  refine List.map_injective_iff.mpr ?_ (String.ofList_inj.mp same)
  intro first second equal
  have code : ∀ byte : UInt8, (Char.ofNat byte.toNat).toNat = byte.toNat := by
    intro byte
    have below := byte.toNat_lt
    unfold Char.ofNat
    rw [dif_pos (.inl (by omega))]
    exact UInt32.toNat_ofNatLT
  have codes := congrArg Char.toNat equal
  rw [code, code] at codes
  exact UInt8.toNat_inj.mp codes

def onePage (entries : List PagemapEntry) : Disk :=
  ((∅ : Disk).put "pagemap-1.img" (fileOf (pagemapBytes
    { path := "pagemap-1.img", header := [1, 2, 3, 4, 5, 6, 7, 8], pagesID := 3
      entries := entries }))).put "pages-3.img" (fileOf [5, 6])

def loadOnePage (entries : List PagemapEntry) :
    Option (Except ImageError (Parent plainKit) × Disk) :=
  play Disk.perform (loadParent plainKit) (onePage entries) [.done, .done, .done]

theorem onePage_loaded (entries : List PagemapEntry) (facts : Bool × Option Bytes)
    (ran : ((loadOnePage entries).bind fun ending => ending.1.toOption.map fun parent =>
      (decide (parent.sha = plainKit.sha256 [5, 6]), parent.page 16)) = some facts) :
    ∃ parent final, loadOnePage entries = some (.ok parent, final) ∧
      decide (parent.sha = plainKit.sha256 [5, 6]) = facts.1 ∧ parent.page 16 = facts.2 := by
  obtain ⟨⟨outcome, final⟩, loaded, rest⟩ := Option.bind_eq_some_iff.mp ran
  obtain ⟨parent, fine, same⟩ := Option.map_eq_some_iff.mp rest
  cases outcome with
  | error error => cases fine
  | ok told =>
    cases fine
    exact ⟨parent, final, loaded, congrArg Prod.fst same, congrArg Prod.snd same⟩

theorem onePage_pinned : ∃ parent second final last,
    loadOnePage [⟨16, 1, 4⟩] = some (.ok parent, final) ∧
      loadOnePage [⟨0, 7, 0⟩, ⟨16, 1, 6⟩] = some (.ok second, last) ∧
      (∀ address, parent.page address = second.page address) ∧
      mergeDelta plainKit parent = mergeDelta plainKit second := by
  obtain ⟨parent, final, loaded, sha, _⟩ := onePage_loaded [⟨16, 1, 4⟩] (true, some [5, 6])
    (by decide +kernel)
  obtain ⟨second, last, also, shaAlso, _⟩ := onePage_loaded [⟨0, 7, 0⟩, ⟨16, 1, 6⟩] (true, some [5, 6])
    (by decide +kernel)
  exact ⟨parent, second, final, last, loaded, also, parent_pinned plainKit_injective loaded also
    ((of_decide_eq_true sha).trans (of_decide_eq_true shaAlso).symm) (by decide +kernel)⟩

theorem parent_unpinned : Function.Injective plainKit.sha256 ∧ ∃ parent second final last,
    loadOnePage [⟨16, 1, 4⟩] = some (.ok parent, final) ∧
      loadOnePage [⟨32, 1, 4⟩] = some (.ok second, last) ∧ parent.sha = second.sha ∧
      parent.page 16 = some [5, 6] ∧ second.page 16 = none := by
  refine ⟨plainKit_injective, ?_⟩
  obtain ⟨parent, final, loaded, sha, page⟩ := onePage_loaded [⟨16, 1, 4⟩] (true, some [5, 6])
    (by decide +kernel)
  obtain ⟨second, last, also, shaAlso, absent⟩ := onePage_loaded [⟨32, 1, 4⟩] (true, none)
    (by decide +kernel)
  exact ⟨parent, second, final, last, loaded, also,
    (of_decide_eq_true sha).trans (of_decide_eq_true shaAlso).symm, page, absent⟩

end Fiberd
