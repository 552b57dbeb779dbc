import Fiberd.Images.ImageStaging

/-!
What the runs of an image say: the sequence of its present pages, each with its
address and flags, and of its other runs.  A delta says the same over its parent.
`ComputeDelta` cuts and joins the runs page by page and keeps that sequence, and
`MergeDelta` writes runs that say it without the parent.
-/

namespace Fiberd

open Tables Messages Programs Scripts ImageScript

section Flags

def flagBit (flags : UInt32) (index : Nat) : Bool := flags.toBitVec.getLsbD index

theorem flags_ext {flags other : UInt32}
    (same : ∀ index < 32, flagBit flags index = flagBit other index) : flags = other :=
  UInt32.toBitVec_inj.mp (BitVec.eq_of_getLsbD_eq same)

theorem flagBit_and (flags other : UInt32) (index : Nat) :
    flagBit (flags &&& other) index = (flagBit flags index && flagBit other index) := by
  rw [flagBit, UInt32.toBitVec_and, BitVec.getLsbD_and]
  rfl

theorem flagBit_or (flags other : UInt32) (index : Nat) :
    flagBit (flags ||| other) index = (flagBit flags index || flagBit other index) := by
  rw [flagBit, UInt32.toBitVec_or, BitVec.getLsbD_or]
  rfl

theorem flagBit_one : ∀ index < 32, flagBit 1 index = decide (index = 0) := by decide

theorem flagBit_four : ∀ index < 32, flagBit 4 index = decide (index = 2) := by decide

theorem flagBit_not_one : ∀ index < 32, flagBit (~~~1) index = decide (index ≠ 0) := by decide

theorem flagBit_not_four : ∀ index < 32, flagBit (~~~4) index = decide (index ≠ 2) := by decide

theorem flagBit_zero : ∀ index < 32, flagBit 0 index = false := by decide

theorem and_ne_zero_iff {mask : UInt32} {bit : Nat} (inside : bit < 32)
    (single : ∀ index < 32, flagBit mask index = decide (index = bit)) (flags : UInt32) :
    flags &&& mask ≠ 0 ↔ flagBit flags bit = true := by
  constructor
  · intro some
    by_contra unset
    rw [Bool.not_eq_true] at unset
    refine some (flags_ext fun index below => ?_)
    rw [flagBit_and, single index below, flagBit_zero index below]
    by_cases same : index = bit
    · simp [same, unset]
    · simp [same]
  · intro set none
    have same := congrArg (flagBit · bit) none
    simp [flagBit_and, set, single bit inside, flagBit_zero bit inside] at same

variable (entry : PagemapEntry) (flags : UInt32)

theorem PagemapEntry.present_eq : entry.present = flagBit entry.flags 2 := by
  rw [Bool.eq_iff_iff, present, decide_eq_true_eq]
  exact and_ne_zero_iff (by omega) flagBit_four entry.flags

theorem PagemapEntry.parented_eq : entry.parented = flagBit entry.flags 0 := by
  rw [Bool.eq_iff_iff, parented, decide_eq_true_eq]
  exact and_ne_zero_iff (by omega) flagBit_one entry.flags

theorem flagBit_dropped {index : Nat} (inside : index < 32) : flagBit (droppedFlags flags) index =
      (flagBit flags index && decide (index ≠ 2) || decide (index = 0)) := by
  rw [droppedFlags, flagBit_or, flagBit_and, flagBit_not_four index inside,
    flagBit_one index inside]

theorem flagBit_restored {index : Nat} (inside : index < 32) : flagBit (restoredFlags flags) index =
      (flagBit flags index && decide (index ≠ 0) || decide (index = 2)) := by
  rw [restoredFlags, flagBit_or, flagBit_and, flagBit_not_one index inside,
    flagBit_four index inside]

variable {flags}

theorem restored_dropped (present : flagBit flags 2 = true) (own : flagBit flags 0 = false) :
    restoredFlags (droppedFlags flags) = flags := by
  refine flags_ext fun index inside => ?_
  rw [flagBit_restored _ inside, flagBit_dropped _ inside]
  by_cases two : index = 2
  · simp [two, present]
  · by_cases zero : index = 0
    · simp [zero, own]
    · simp [two, zero]

theorem restored_div (flags : UInt32) : (restoredFlags flags).toNat / 128 = flags.toNat / 128 := by
  refine Nat.eq_of_testBit_eq fun index => ?_
  have high : ∀ value : UInt32, (value.toNat / 2 ^ 7).testBit index =
      flagBit value (7 + index) := by
    intro value
    rw [Nat.testBit_div_two_pow, Nat.add_comm]
    rfl
  rw [show 128 = 2 ^ 7 from rfl, high, high]
  by_cases inside : 7 + index < 32
  · rw [flagBit_restored _ inside]
    have two : 7 + index ≠ 2 := by omega
    simp [two]
  · have outside : ∀ value : UInt32, flagBit value (7 + index) = false := by
      intro value
      exact BitVec.getLsbD_of_ge _ _ (by omega)
    rw [outside, outside]

end Flags

inductive Item where
  | page (address : UInt64) (bytes : Bytes) (flags : UInt32)
  | absent (entry : PagemapEntry)
  deriving DecidableEq, Repr

section Expand

abbrev Reading := PagemapEntry → Bytes → Option (List Item × Bytes)

variable (reading : Reading)

def expand : List PagemapEntry → Bytes → Option (List Item × Bytes)
  | [], bytes => some ([], bytes)
  | entry :: entries, bytes =>
    (reading entry bytes).bind fun first =>
      (expand entries first.2).map fun rest => (first.1 ++ rest.1, rest.2)

variable {reading}

variable {bytes rest : Bytes} {items : List Item}

theorem expand_append {front back : List PagemapEntry} {mid : Bytes} {more : List Item}
    (first : expand reading front bytes = some (items, mid))
    (second : expand reading back mid = some (more, rest)) :
    expand reading (front ++ back) bytes = some (items ++ more, rest) := by
  induction front generalizing bytes items with
  | nil =>
    simp only [expand, Option.some.injEq, Prod.mk.injEq] at first
    rw [List.nil_append, ← first.1, first.2]
    exact second
  | cons entry front ih =>
    obtain ⟨⟨one, behind⟩, read, later⟩ := Option.bind_eq_some_iff.mp first
    obtain ⟨⟨others, left⟩, onward, same⟩ := Option.map_eq_some_iff.mp later
    cases same
    rw [List.cons_append, expand, read]
    simp [ih onward]

theorem expand_append_inv {front back : List PagemapEntry}
    (whole : expand reading (front ++ back) bytes = some (items, rest)) :
    ∃ some₁ mid some₂, expand reading front bytes = some (some₁, mid) ∧
      expand reading back mid = some (some₂, rest) ∧ items = some₁ ++ some₂ := by
  induction front generalizing bytes items with
  | nil => exact ⟨[], bytes, items, rfl, whole, rfl⟩
  | cons entry front ih =>
    obtain ⟨⟨one, behind⟩, read, later⟩ := Option.bind_eq_some_iff.mp whole
    obtain ⟨⟨others, left⟩, onward, same⟩ := Option.map_eq_some_iff.mp later
    cases same
    obtain ⟨first, mid, second, old, after, rfl⟩ := ih onward
    refine ⟨one ++ first, mid, second, ?_, after, (List.append_assoc _ _ _).symm⟩
    simp [expand, read, old]

theorem expand_one {entry : PagemapEntry} :
    expand reading [entry] bytes = some (items, rest) ↔ reading entry bytes = some (items, rest) := by
  rw [expand]
  constructor
  · intro whole
    obtain ⟨⟨one, behind⟩, read, later⟩ := Option.bind_eq_some_iff.mp whole
    simp only [expand, Option.map_some, Option.some.injEq, Prod.mk.injEq, List.append_nil] at later
    rw [read, ← later.1, ← later.2]
  · intro read
    simp [read, expand]

def Reading.Frames (reading : Reading) : Prop :=
  ∀ entry bytes items rest more, reading entry bytes = some (items, rest) →
    reading entry (bytes ++ more) = some (items, rest ++ more)

theorem expand_frame (frames : Reading.Frames reading) {entries : List PagemapEntry} (more : Bytes)
    (read : expand reading entries bytes = some (items, rest)) :
    expand reading entries (bytes ++ more) = some (items, rest ++ more) := by
  induction entries generalizing bytes items with
  | nil =>
    simp only [expand, Option.some.injEq, Prod.mk.injEq] at read
    rw [← read.1, ← read.2]
    rfl
  | cons entry entries ih =>
    obtain ⟨⟨one, behind⟩, first, later⟩ := Option.bind_eq_some_iff.mp read
    obtain ⟨⟨others, left⟩, onward, same⟩ := Option.map_eq_some_iff.mp later
    cases same
    rw [expand, frames _ _ _ _ more first]
    simp [ih onward]

end Expand

section Readings

variable (kit : ImageKit) (parent : Parent kit)

def takePages (entry : PagemapEntry) : (index left : Nat) → Bytes → Option (List Item × Bytes)
  | _, 0, bytes => some ([], bytes)
  | index, left + 1, bytes =>
    if bytes.length < kit.pageSize.toNat then none
    else
      (takePages entry (index + 1) left (bytes.drop kit.pageSize.toNat)).map fun rest =>
        (.page (entry.address kit index) (bytes.take kit.pageSize.toNat) entry.flags :: rest.1,
          rest.2)

def parentPages (entry : PagemapEntry) : (index left : Nat) → Option (List Item)
  | _, 0 => some []
  | index, left + 1 =>
    (parent.page (entry.address kit index)).bind fun page =>
      (parentPages entry (index + 1) left).map fun rest =>
        .page (entry.address kit index) page (restoredFlags entry.flags) :: rest

def view : Reading := fun entry bytes =>
  if entry.present then takePages kit entry 0 entry.nrPages.toNat bytes
  else some ([.absent entry], bytes)

def resolve : Reading := fun entry bytes =>
  if entry.present then takePages kit entry 0 entry.nrPages.toNat bytes
  else if entry.parented then
    (parentPages kit parent entry 0 entry.nrPages.toNat).map fun items => (items, bytes)
  else some ([.absent entry], bytes)

variable {kit parent}

variable {entry : PagemapEntry} {items : List Item}

theorem takePages_frame {index left : Nat} {bytes rest : Bytes} (more : Bytes)
    (read : takePages kit entry index left bytes = some (items, rest)) :
    takePages kit entry index left (bytes ++ more) = some (items, rest ++ more) := by
  induction left generalizing index bytes items with
  | zero =>
    simp only [takePages, Option.some.injEq, Prod.mk.injEq] at read
    rw [takePages, ← read.1, read.2]
  | succ left ih =>
    rw [takePages] at read
    split at read
    · cases read
    · rename_i long
      have enough : kit.pageSize.toNat ≤ bytes.length := by omega
      obtain ⟨⟨others, behind⟩, onward, same⟩ := Option.map_eq_some_iff.mp read
      cases same
      rw [takePages, if_neg (by rw [List.length_append]; omega),
        List.drop_append_of_le_length enough, List.take_append_of_le_length enough, ih onward]
      rfl

section Equations

variable {entry : PagemapEntry} (bytes : Bytes)

theorem view_present (present : entry.present = true) :
    view kit entry bytes = takePages kit entry 0 entry.nrPages.toNat bytes := if_pos present

theorem view_absent (present : entry.present = false) :
    view kit entry bytes = some ([.absent entry], bytes) := by
  rw [view, present]
  rfl

theorem resolve_present (present : entry.present = true) :
    resolve kit parent entry bytes = takePages kit entry 0 entry.nrPages.toNat bytes :=
  if_pos present

theorem resolve_parented (present : entry.present = false) (parented : entry.parented = true) :
    resolve kit parent entry bytes =
      (parentPages kit parent entry 0 entry.nrPages.toNat).map fun items => (items, bytes) := by
  rw [resolve, present, parented]
  rfl

theorem resolve_absent (present : entry.present = false) (parented : entry.parented = false) :
    resolve kit parent entry bytes = some ([.absent entry], bytes) := by
  rw [resolve, present, parented]
  rfl

end Equations

theorem view_frames : Reading.Frames (view kit) := by
  intro entry bytes items rest more read
  cases present : entry.present with
  | true =>
    rw [view_present _ present] at read ⊢
    exact takePages_frame more read
  | false =>
    rw [view_absent _ present, Option.some.injEq, Prod.mk.injEq] at read
    rw [view_absent _ present, ← read.1, ← read.2]

theorem resolve_frames : Reading.Frames (resolve kit parent) := by
  intro entry bytes items rest more read
  cases present : entry.present with
  | true =>
    rw [resolve_present _ present] at read ⊢
    exact takePages_frame more read
  | false =>
    cases parented : entry.parented with
    | true =>
      rw [resolve_parented _ present parented] at read ⊢
      obtain ⟨pages, got, same⟩ := Option.map_eq_some_iff.mp read
      simp only [Prod.mk.injEq] at same
      rw [got, ← same.1, ← same.2]
      rfl
    | false =>
      rw [resolve_absent _ present parented, Option.some.injEq, Prod.mk.injEq] at read
      rw [resolve_absent _ present parented, ← read.1, ← read.2]

theorem takePages_succ {index left : Nat} {bytes page : Bytes}
    (whole : page.length = kit.pageSize.toNat)
    (read : takePages kit entry index left bytes = some (items, [])) :
    takePages kit entry index (left + 1) (bytes ++ page) =
      some (items ++ [.page (entry.address kit (index + left)) page entry.flags], []) := by
  induction left generalizing index bytes items with
  | zero =>
    simp only [takePages, Option.some.injEq, Prod.mk.injEq] at read
    rw [← read.1, read.2, takePages, List.nil_append, if_neg (by omega), takePages,
      List.take_of_length_le (by omega), List.drop_of_length_le (by omega)]
    rfl
  | succ left ih =>
    rw [takePages] at read
    split at read
    · cases read
    · rename_i long
      have enough : kit.pageSize.toNat ≤ bytes.length := by omega
      obtain ⟨⟨others, behind⟩, onward, same⟩ := Option.map_eq_some_iff.mp read
      cases same
      rw [takePages, if_neg (by rw [List.length_append]; omega),
        List.drop_append_of_le_length enough, List.take_append_of_le_length enough, ih onward,
        Nat.add_right_comm index 1 left]
      rfl

theorem parentPages_succ {index left : Nat} {page : Bytes}
    (got : parent.page (entry.address kit (index + left)) = some page)
    (read : parentPages kit parent entry index left = some items) :
    parentPages kit parent entry index (left + 1) = some (items ++
        [.page (entry.address kit (index + left)) page (restoredFlags entry.flags)]) := by
  induction left generalizing index items with
  | zero =>
    simp only [parentPages, Option.some.injEq] at read
    rw [← read]
    simp only [Nat.add_zero] at got ⊢
    simp [parentPages, got]
  | succ left ih =>
    obtain ⟨first, here, later⟩ := Option.bind_eq_some_iff.mp read
    obtain ⟨others, onward, same⟩ := Option.map_eq_some_iff.mp later
    have moved : index + 1 + left = index + (left + 1) := by omega
    rw [← moved] at got
    rw [parentPages, here, Option.bind_some, ih got onward, ← same, moved]
    rfl

end Readings

section Compute

variable {kit : ImageKit} {parent : Parent kit}

/-- The page is kept: the parent lacks it or has other bytes there. -/
def Parent.keeps (parent : Parent kit) : Item → Bool
  | .page address bytes _ => decide (parent.page address ≠ some bytes)
  | .absent _ => false

def PagemapEntry.longer (entry : PagemapEntry) : PagemapEntry :=
  { entry with nrPages := entry.nrPages + 1 }

theorem PagemapEntry.toNat_longer {entry : PagemapEntry} (small : entry.nrPages.toNat < 2 ^ 63) :
    entry.longer.nrPages.toNat = entry.nrPages.toNat + 1 := by
  rw [longer, UInt64.toNat_add]
  change (entry.nrPages.toNat + 1) % 2 ^ 64 = entry.nrPages.toNat + 1
  omega

theorem takePages_longer (entry : PagemapEntry) (index left : Nat) (bytes : Bytes) :
    takePages kit entry.longer index left bytes = takePages kit entry index left bytes := by
  induction left generalizing index bytes with
  | zero => rfl
  | succ left ih =>
    rw [takePages, takePages, ih]
    rfl

theorem parentPages_longer (entry : PagemapEntry) (index left : Nat) :
    parentPages kit parent entry.longer index left = parentPages kit parent entry index left := by
  induction left generalizing index with
  | zero => rfl
  | succ left ih =>
    rw [parentPages, parentPages, ih]
    rfl

theorem addPage_cases (entries : List PagemapEntry) (address : UInt64) (flags : UInt32) :
    addPage kit entries address flags = entries ++ [⟨address, 1, flags⟩] ∨
      ∃ front last, entries = front ++ [last] ∧ last.flags = flags ∧
        last.address kit last.nrPages.toNat = address ∧
        addPage kit entries address flags = front ++ [last.longer] := by
  unfold addPage
  split
  · rename_i last got
    split
    · rename_i joins
      refine .inr ⟨entries.dropLast, last, ?_, joins.1, ?_, rfl⟩
      · exact (List.dropLast_append_getLast? last got).symm
      · rw [PagemapEntry.address, UInt64.ofNat_toNat]
        exact joins.2
    · exact .inl rfl
  · exact .inl rfl

variable {address : UInt64} {flags : UInt32}

theorem expand_addPage_kept {entries : List PagemapEntry} {kept page : Bytes} {items : List Item}
    (whole : page.length = kit.pageSize.toNat) (present : flagBit flags 2 = true)
    (small : ∀ entry ∈ entries, flagBit entry.flags 2 = true → entry.nrPages.toNat < 2 ^ 63)
    (resolved : expand (resolve kit parent) entries kept = some (items, [])) :
    expand (resolve kit parent) (addPage kit entries address flags) (kept ++ page) =
      some (items ++ [.page address page flags], []) := by
  rcases addPage_cases entries address flags with fresh | ⟨front, last, rfl, same, behind, joined⟩
  · have alone : PagemapEntry.present ⟨address, 1, flags⟩ = true := by
      rw [PagemapEntry.present_eq]
      exact present
    rw [fresh]
    refine expand_append (expand_frame resolve_frames page resolved) (expand_one.mpr ?_)
    rw [resolve_present _ alone, List.nil_append]
    have one : takePages kit ⟨address, 1, flags⟩ 0 (0 + 1) ([] ++ page) =
        some ([] ++ [.page (PagemapEntry.address ⟨address, 1, flags⟩ kit (0 + 0)) page flags], []) :=
      takePages_succ whole rfl
    simpa [PagemapEntry.address] using one
  · have alone : last.present = true := by
      rw [PagemapEntry.present_eq, same]
      exact present
    obtain ⟨first, mid, second, old, after, rfl⟩ := expand_append_inv resolved
    rw [expand_one, resolve_present _ alone] at after
    have still : last.longer.present = true := alone
    have count := PagemapEntry.toNat_longer (small last (by simp) (same ▸ present))
    have onward := takePages_succ whole after
    rw [Nat.zero_add, behind, same] at onward
    rw [joined, List.append_assoc]
    refine expand_append (expand_frame resolve_frames page old) (expand_one.mpr ?_)
    rw [resolve_present _ still, count, takePages_longer]
    exact onward

theorem expand_addPage_dropped {entries : List PagemapEntry} {kept page : Bytes} {items : List Item}
    (got : parent.page address = some page) (present : flagBit flags 2 = true)
    (own : flagBit flags 0 = false)
    (small : ∀ entry ∈ entries, flagBit entry.flags 0 = true → entry.nrPages.toNat < 2 ^ 63)
    (resolved : expand (resolve kit parent) entries kept = some (items, [])) :
    expand (resolve kit parent) (addPage kit entries address (droppedFlags flags)) kept =
      some (items ++ [.page address page flags], []) := by
  have unset : flagBit (droppedFlags flags) 2 = false := by
    rw [flagBit_dropped _ (by omega)]
    simp
  have set : flagBit (droppedFlags flags) 0 = true := by
    rw [flagBit_dropped _ (by omega)]
    simp
  have back : restoredFlags (droppedFlags flags) = flags := restored_dropped present own
  rcases addPage_cases entries address (droppedFlags flags) with
    fresh | ⟨front, last, rfl, same, behind, joined⟩
  · have gone : PagemapEntry.present ⟨address, 1, droppedFlags flags⟩ = false := by
      rw [PagemapEntry.present_eq]
      exact unset
    have dropped : PagemapEntry.parented ⟨address, 1, droppedFlags flags⟩ = true := by
      rw [PagemapEntry.parented_eq]
      exact set
    rw [fresh]
    refine expand_append resolved (expand_one.mpr ?_)
    rw [resolve_parented _ gone dropped]
    have here : PagemapEntry.address ⟨address, 1, droppedFlags flags⟩ kit 0 = address := by
      simp [PagemapEntry.address]
    have one : parentPages kit parent ⟨address, 1, droppedFlags flags⟩ 0 (0 + 1) = _ :=
      parentPages_succ (here.symm ▸ got) rfl
    simp only [Nat.add_zero, here, back, List.nil_append] at one
    exact Option.map_eq_some_iff.mpr ⟨_, one, rfl⟩
  · have gone : last.present = false := by
      rw [PagemapEntry.present_eq, same]
      exact unset
    have dropped : last.parented = true := by
      rw [PagemapEntry.parented_eq, same]
      exact set
    obtain ⟨first, mid, second, old, after, rfl⟩ := expand_append_inv resolved
    rw [expand_one, resolve_parented _ gone dropped] at after
    obtain ⟨pages, took, same₂⟩ := Option.map_eq_some_iff.mp after
    cases same₂
    have still : last.longer.present = false := gone
    have count := PagemapEntry.toNat_longer (small last (by simp) (same ▸ set))
    have onward := parentPages_succ (by rw [Nat.zero_add, behind]; exact got) took
    rw [Nat.zero_add, behind, same, back] at onward
    rw [joined, List.append_assoc]
    refine expand_append old (expand_one.mpr ?_)
    rw [resolve_parented _ still dropped, count, parentPages_longer]
    exact Option.map_eq_some_iff.mpr ⟨_, onward, rfl⟩

theorem addPage_bounded {entries : List PagemapEntry} {offset : Nat} (fits : offset < 2 ^ 63)
    (marked : flagBit flags 2 = true ∨ flagBit flags 0 = true)
    (bounded : ∀ entry ∈ entries, flagBit entry.flags 2 = true ∨ flagBit entry.flags 0 = true →
      entry.nrPages.toNat ≤ offset) : ∀ entry ∈ addPage kit entries address flags,
      flagBit entry.flags 2 = true ∨ flagBit entry.flags 0 = true →
        entry.nrPages.toNat ≤ offset + kit.pageSize.toNat := by
  have positive := kit.pageSize_pos
  intro entry mem marks
  rcases addPage_cases entries address flags with fresh | ⟨front, last, rfl, same, _, joined⟩
  · rw [fresh, List.mem_append, List.mem_singleton] at mem
    rcases mem with earlier | rfl
    · exact (bounded entry earlier marks).trans (Nat.le_add_right _ _)
    · change 1 ≤ offset + kit.pageSize.toNat
      omega
  · rw [joined, List.mem_append, List.mem_singleton] at mem
    rcases mem with earlier | rfl
    · exact (bounded entry (List.mem_append_left _ earlier) marks).trans (Nat.le_add_right _ _)
    · have old := bounded last (by simp) (same ▸ marked)
      rw [PagemapEntry.toNat_longer (by omega)]
      omega

section Pages

variable {images : Disk} {plan : List (String × File)} {pages : String} {data : File}

def Outs (images : Disk) (plan : List (String × File)) (pages : String) (bytes : Bytes)
    (disk : Disk) : Prop :=
  ∃ out : File, Staged images (plan ++ [(pages, out)]) disk ∧ out.val = bytes

theorem yields_write (bytes page : Bytes) :
    Yields Disk.perform (Outs images plan pages bytes) (ask (.write pages page))
      fun fine disk => fine = true → Outs images plan pages (bytes ++ page) disk := by
  refine yields_act _ _ ?_
  rintro disk fate fine next ⟨out, stages, rfl⟩ ran rfl
  obtain ⟨file, longer, got, contents, rfl⟩ := Disk.perform_write ran
  rw [stages.written (pages, out) (by simp)] at got
  cases got
  exact ⟨longer, stages.rewrite longer, contents⟩

theorem yields_readPage (plain : Plain pages) (held : images.get pages = some data) (offset : Nat)
    (bytes : Bytes) :
    Yields Disk.perform (Outs images plan pages bytes)
      (ask (.read pages offset kit.pageSize.toNat)) fun result disk =>
        (∀ page, result = some page → offset + kit.pageSize.toNat ≤ data.val.length ∧
          page = (data.val.drop offset).take kit.pageSize.toNat) ∧
          Outs images plan pages bytes disk := by
  refine yields_act _ _ ?_
  intro disk fate result next outs ran
  obtain ⟨rfl, got⟩ := Disk.perform_read ran
  refine ⟨fun page same => ?_, outs⟩
  obtain ⟨file, read, long, took⟩ := got page same
  obtain ⟨out, stages, _⟩ := outs
  rw [stages.images pages plain, held, Option.some.injEq] at read
  rw [read]
  exact ⟨long, took⟩

end Pages

structure Computing (parent : Parent kit) (data : Bytes) (start : Nat) (run : DeltaRun)
    (items : List Item) (kept : Bytes) : Prop where
  resolved : expand (resolve kit parent) run.entries kept = some (items, [])
  inside : run.offset ≤ data.length
  bounded : ∀ entry ∈ run.entries, flagBit entry.flags 2 = true ∨ flagBit entry.flags 0 = true →
    entry.nrPages.toNat ≤ run.offset
  counted : run.kept = start + items.countP parent.keeps

def Computes (parent : Parent kit) (images : Disk) (plan : List (String × File)) (pages : String)
    (data : File) (start : Nat) (run : DeltaRun) (items : List Item) (disk : Disk) : Prop :=
  ∃ kept, Outs images plan pages kept disk ∧ Computing parent data.val start run items kept

section Loops

variable {images : Disk} {plan : List (String × File)} {pages : String} {data : File}
  {start : Nat} {staged : List String} {entry : PagemapEntry}

section

variable (plain : Plain pages) (held : images.get pages = some data)
  (present : entry.present = true) (own : entry.parented = false)
include plain held present own

theorem yields_computePage (index : Nat) (run : DeltaRun) (items : List Item) :
    Yields Disk.perform (Computes parent images plan pages data start run items)
      (computePage kit parent pages staged entry index run) fun later disk =>
        later.offset = run.offset + kit.pageSize.toNat ∧ later.offset ≤ data.val.length ∧
          Computes parent images plan pages data start later
            (items ++ [.page (entry.address kit index)
              ((data.val.drop run.offset).take kit.pageSize.toNat) entry.flags]) disk := by
  rw [PagemapEntry.present_eq] at present
  rw [PagemapEntry.parented_eq] at own
  refine yields_exists fun kept => yields_of_fact (fun _ has => has.2) fun computing => ?_
  refine ((yields_readPage plain held run.offset kept).mono (fun _ has => has.1)
    fun _ _ has => has).bind fun out => ?_
  cases out with
  | none => exact yields_throw _
  | some page =>
    refine yields_of_fact (fun _ has => has.1 page rfl) ?_
    rintro ⟨long, took⟩
    have whole : page.length = kit.pageSize.toNat := by
      rw [took, List.length_take, List.length_drop]
      omega
    have size := data.property
    rw [← took]
    simp only
    split
    · rename_i got
      refine yields_pure ?_
      rintro disk ⟨_, outs⟩
      refine ⟨rfl, long, kept, outs, ?_, long, ?_, ?_⟩
      · refine expand_addPage_dropped got present own ?_ computing.resolved
        intro other mem parented
        have bound := computing.bounded other mem (.inr parented)
        omega
      · refine addPage_bounded (by omega) (.inr ?_) computing.bounded
        rw [flagBit_dropped _ (by omega)]
        simp
      · simp [computing.counted, List.countP_append, Parent.keeps, got]
    · rename_i other
      refine yields_checked ((yields_write kept page).mono (fun _ has => has.2)
        fun _ _ has => has) (yields_pure fun disk outs => ?_)
      refine ⟨rfl, long, kept ++ page, outs, ?_, long, ?_, ?_⟩
      · refine expand_addPage_kept whole present ?_ computing.resolved
        intro other mem marked
        have bound := computing.bounded other mem (.inl marked)
        omega
      · exact addPage_bounded (by omega) (.inl present) computing.bounded
      · simp [computing.counted, List.countP_append, Parent.keeps, other, Nat.add_assoc]

theorem yields_computePages (index left : Nat) (run : DeltaRun) (items : List Item) :
    Yields Disk.perform (Computes parent images plan pages data start run items)
      (computePages kit parent pages staged entry index left run) fun later disk =>
        ∃ more, takePages kit entry index left (data.val.drop run.offset) =
            some (more, data.val.drop later.offset) ∧
          Computes parent images plan pages data start later (items ++ more) disk := by
  induction left generalizing index run items with
  | zero =>
    refine yields_pure fun disk computes => ⟨[], rfl, ?_⟩
    rw [List.append_nil]
    exact computes
  | succ left ih =>
    refine (yields_computePage plain held present own index run items).bind fun next => ?_
    refine yields_of_fact (fun _ has => And.intro has.1 has.2.1) fun moved => ?_
    refine (ih (index + 1) next _).mono (fun _ has => has.2.2) ?_
    rintro later disk ⟨more, took, computes⟩
    refine ⟨.page (entry.address kit index)
      ((data.val.drop run.offset).take kit.pageSize.toNat) entry.flags :: more, ?_, ?_⟩
    · have long : ¬(data.val.drop run.offset).length < kit.pageSize.toNat := by
        rw [List.length_drop]
        omega
      rw [takePages, if_neg long, List.drop_drop, ← moved.1, took]
      rfl
    · rw [List.append_assoc] at computes
      exact computes

end

theorem yields_computeEntries (plain : Plain pages) (held : images.get pages = some data)
    (entries : List PagemapEntry) (own : ∀ entry ∈ entries, entry.parented = false)
    (run : DeltaRun) (items : List Item) :
    Yields Disk.perform (Computes parent images plan pages data start run items)
      (computeEntries kit parent pages staged entries run) fun later disk =>
        ∃ more, expand (view kit) entries (data.val.drop run.offset) =
            some (more, data.val.drop later.offset) ∧
          Computes parent images plan pages data start later (items ++ more) disk := by
  induction entries generalizing run items with
  | nil =>
    refine yields_pure fun disk computes => ⟨[], rfl, ?_⟩
    rw [List.append_nil]
    exact computes
  | cons entry entries ih =>
    have onward := ih fun other mem => own other (List.mem_cons_of_mem _ mem)
    have mine : entry.parented = false := own entry (by simp)
    rw [computeEntries]
    split
    · rename_i present
      refine (yields_computePages plain held present mine 0 entry.nrPages.toNat run items).bind
        fun next => yields_exists fun more => yields_of_fact (fun _ has => has.1) fun took => ?_
      refine (onward next (items ++ more)).mono (fun _ has => has.2) ?_
      rintro later disk ⟨rest, expanded, computes⟩
      refine ⟨more ++ rest, ?_, by rw [← List.append_assoc]; exact computes⟩
      rw [expand, view_present _ present, took]
      simp [expanded]
    · rename_i gone
      rw [Bool.not_eq_true] at gone
      refine (onward { run with entries := run.entries ++ [entry] }
        (items ++ [.absent entry])).mono ?_ ?_
      · rintro disk ⟨kept, outs, computing⟩
        refine ⟨kept, outs, ?_, computing.inside, ?_, ?_⟩
        · refine expand_append computing.resolved (expand_one.mpr ?_)
          exact resolve_absent _ gone mine
        · intro other mem marks
          rcases List.mem_append.mp mem with earlier | last
          · exact computing.bounded other earlier marks
          · rw [List.mem_singleton.mp last, ← PagemapEntry.present_eq,
              ← PagemapEntry.parented_eq, gone, mine] at marks
            simp at marks
        · simp [computing.counted, List.countP_append, Parent.keeps]
      · rintro later disk ⟨more, expanded, computes⟩
        refine ⟨.absent entry :: more, ?_, by rw [List.append_assoc] at computes; exact computes⟩
        rw [expand, view_absent _ gone]
        simp [expanded]

end Loops

end Compute

section Merge

variable {kit : ImageKit} {parent : Parent kit}

theorem takePages_cons {entry : PagemapEntry} {index left : Nat} {page bytes rest : Bytes}
    {items : List Item} (whole : page.length = kit.pageSize.toNat)
    (later : takePages kit entry (index + 1) left bytes = some (items, rest)) :
    takePages kit entry index (left + 1) (page ++ bytes) =
      some (.page (entry.address kit index) page entry.flags :: items, rest) := by
  rw [takePages, if_neg (by rw [List.length_append]; omega), List.drop_left' whole,
    List.take_left' whole, later]
  rfl

theorem Parent.length_page {address : UInt64} {page : Bytes}
    (got : parent.page address = some page) : page.length = kit.pageSize.toNat := by
  obtain ⟨held, _, same⟩ := Option.map_eq_some_iff.mp got
  rw [← same]
  exact held.property

def PagemapEntry.merged (entry : PagemapEntry) : PagemapEntry :=
  if !entry.present && entry.parented then { entry with flags := restoredFlags entry.flags }
  else entry

theorem length_merged (entry : PagemapEntry) : (fieldsMessage (entryFields entry.merged)).length =
      (fieldsMessage (entryFields entry)).length := by
  unfold PagemapEntry.merged
  split
  · have flags := length_appendUvarint_congr (restored_div entry.flags)
    simp only [fieldsMessage, entryFields, List.flatMap_cons, List.flatMap_nil, List.length_append,
      flags]
  · rfl

section Loops

variable {images : Disk} {plan : List (String × File)} {pages : String} {data : File}
  {staged : List String}

theorem yields_copyPages (plain : Plain pages) (held : images.get pages = some data)
    (entry : PagemapEntry) (index left offset : Nat) (bytes : Bytes) :
    Yields Disk.perform (Outs images plan pages bytes) (copyPages kit pages staged left offset)
      fun later disk => ∃ more written, (takePages kit entry index left (data.val.drop offset) =
            some (more, data.val.drop later) ∧
          takePages kit entry index left written = some (more, [])) ∧
          Outs images plan pages (bytes ++ written) disk := by
  induction left generalizing index offset bytes with
  | zero =>
    refine yields_pure fun disk outs => ⟨[], [], ⟨rfl, rfl⟩, ?_⟩
    rw [List.append_nil]
    exact outs
  | succ left ih =>
    refine (yields_readPage plain held offset bytes).bind fun result => ?_
    cases result with
    | none => exact yields_throw _
    | some page =>
      refine yields_of_fact (fun _ has => has.1 page rfl) ?_
      rintro ⟨long, took⟩
      have whole : page.length = kit.pageSize.toNat := by
        rw [took, List.length_take, List.length_drop]
        omega
      have enough : ¬(data.val.drop offset).length < kit.pageSize.toNat := by
        rw [List.length_drop]
        omega
      refine yields_checked
        ((yields_write bytes page).mono (fun _ has => has.2) fun _ _ has => has) ?_
      refine (ih (index + 1) (offset + kit.pageSize.toNat) (bytes ++ page)).mono
        (fun _ has => has) ?_
      rintro later disk ⟨more, written, ⟨read, wrote⟩, outs⟩
      refine ⟨.page (entry.address kit index) page entry.flags :: more, page ++ written,
        ⟨?_, takePages_cons whole wrote⟩, by rw [← List.append_assoc]; exact outs⟩
      rw [takePages, if_neg enough, List.drop_drop, read, ← took]
      rfl

theorem yields_fetchPages (entry : PagemapEntry) (index left : Nat) (bytes : Bytes) :
    Yields Disk.perform (Outs images plan pages bytes)
      (fetchPages kit parent pages staged entry index left) fun _ disk => ∃ more written,
        (parentPages kit parent entry index left = some more ∧
          takePages kit { entry with flags := restoredFlags entry.flags } index left written =
            some (more, [])) ∧
          Outs images plan pages (bytes ++ written) disk := by
  induction left generalizing index bytes with
  | zero =>
    refine yields_pure fun disk outs => ⟨[], [], ⟨rfl, rfl⟩, ?_⟩
    rw [List.append_nil]
    exact outs
  | succ left ih =>
    rw [fetchPages]
    split
    · exact yields_throw _
    · rename_i page got
      refine yields_checked (yields_write bytes page) ?_
      refine (ih (index + 1) (bytes ++ page)).mono (fun _ has => has) ?_
      rintro _ disk ⟨more, written, ⟨fetched, wrote⟩, outs⟩
      refine ⟨.page (entry.address kit index) page (restoredFlags entry.flags) :: more,
        page ++ written, ⟨?_, takePages_cons (Parent.length_page got) wrote⟩,
        by rw [← List.append_assoc]; exact outs⟩
      rw [parentPages, got, Option.bind_some, fetched]
      rfl

structure Merged (parent : Parent kit) (entries : List PagemapEntry) (before after : Bytes)
    (items : List Item) (written : Bytes) : Prop where
  resolved : expand (resolve kit parent) entries before = some (items, after)
  viewed : expand (view kit) (entries.map PagemapEntry.merged) written = some (items, [])

theorem Merged.cons {entry : PagemapEntry} {entries : List PagemapEntry}
    {old mid after first rest : Bytes} {items more : List Item}
    (resolved : resolve kit parent entry old = some (items, mid))
    (viewed : view kit entry.merged first = some (items, []))
    (merged : Merged parent entries mid after more rest) :
    Merged parent (entry :: entries) old after (items ++ more) (first ++ rest) := by
  constructor
  · rw [expand, resolved]
    simp [merged.resolved]
  · rw [List.map_cons, expand, view_frames _ _ _ _ rest viewed]
    simp [merged.viewed]

theorem yields_mergeEntries (plain : Plain pages) (held : images.get pages = some data)
    (entries : List PagemapEntry) (run : MergeRun) (bytes : Bytes) :
    Yields Disk.perform (Outs images plan pages bytes)
      (mergeEntries kit parent pages staged entries run) fun later disk => ∃ more written,
        (later.entries = run.entries ++ entries.map PagemapEntry.merged ∧
          Merged parent entries (data.val.drop run.offset) (data.val.drop later.offset) more
            written) ∧ Outs images plan pages (bytes ++ written) disk := by
  induction entries generalizing run bytes with
  | nil =>
    refine yields_pure fun disk outs => ⟨[], [], ⟨by simp, rfl, rfl⟩, ?_⟩
    rw [List.append_nil]
    exact outs
  | cons entry entries ih =>
    rw [mergeEntries]
    split
    · rename_i present
      have same : entry.merged = entry := by simp [PagemapEntry.merged, present]
      refine (yields_copyPages plain held entry 0 entry.nrPages.toNat run.offset bytes).bind
        fun offset => yields_exists fun items => yields_exists fun first =>
          yields_of_fact (fun _ has => has.1) ?_
      rintro ⟨read, wrote⟩
      refine (ih ⟨offset, run.entries ++ [entry]⟩ (bytes ++ first)).mono
        (fun _ has => has.2) ?_
      rintro later disk ⟨more, rest, ⟨added, merged⟩, outs⟩
      refine ⟨items ++ more, first ++ rest, ⟨?_, Merged.cons ?_ ?_ merged⟩, ?_⟩
      · rw [added, List.map_cons, same]
        simp
      · rw [resolve_present _ present]
        exact read
      · rw [same, view_present _ present]
        exact wrote
      · rw [← List.append_assoc]
        exact outs
    · rename_i gone
      rw [Bool.not_eq_true] at gone
      split
      · rename_i parented
        have same : entry.merged = { entry with flags := restoredFlags entry.flags } := by
          simp [PagemapEntry.merged, gone, parented]
        have present : entry.merged.present = true := by
          rw [same, PagemapEntry.present_eq, flagBit_restored _ (by omega)]
          simp
        refine (yields_fetchPages entry 0 entry.nrPages.toNat bytes).bind fun _ =>
          yields_exists fun items => yields_exists fun first =>
            yields_of_fact (fun _ has => has.1) ?_
        rintro ⟨fetched, wrote⟩
        refine (ih { run with
          entries := run.entries ++ [{ entry with flags := restoredFlags entry.flags }] }
          (bytes ++ first)).mono (fun _ has => has.2) ?_
        rintro later disk ⟨more, rest, ⟨added, merged⟩, outs⟩
        refine ⟨items ++ more, first ++ rest, ⟨?_, Merged.cons ?_ ?_ merged⟩, ?_⟩
        · rw [added, List.map_cons, same]
          simp
        · rw [resolve_parented _ gone parented, fetched]
          rfl
        · rw [view_present _ present, same]
          exact wrote
        · rw [← List.append_assoc]
          exact outs
      · rename_i plainRun
        rw [Bool.not_eq_true] at plainRun
        have same : entry.merged = entry := by simp [PagemapEntry.merged, plainRun]
        refine (ih { run with entries := run.entries ++ [entry] } bytes).mono
          (fun _ has => has) ?_
        rintro later disk ⟨more, rest, ⟨added, merged⟩, outs⟩
        refine ⟨[.absent entry] ++ more, [] ++ rest, ⟨?_, Merged.cons ?_ ?_ merged⟩, outs⟩
        · rw [added, List.map_cons, same]
          simp
        · exact resolve_absent _ gone plainRun
        · rw [same, view_absent _ gone]

end Loops

end Merge

end Fiberd
