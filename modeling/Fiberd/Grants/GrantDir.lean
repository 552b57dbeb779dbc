import Fiberd.Lib.Machines
import Fiberd.Lib.Tables
import Mathlib.Data.List.Sort
import Mathlib.Data.List.Perm.Basic

/-!
The grants directory of `pkg/home/grantdir`: what a scan delivers of the files it
finds, and the UIDs a reader of the events has in.  How a token is parsed is left
open: `peekUID` is any function.
-/

namespace Fiberd

open Tables Machines

structure FileInfo where
  regular : Bool := true
  modTime : Nat
  size : Nat

/-- An entry of the directory, with what `os.Stat` and `os.ReadFile` answer for it. -/
structure DirEntry where
  name : String
  info : Option FileInfo
  contents : Option String

structure FileState where
  modTime : Nat
  size : Nat
  uid : String
  /-- The token that was read.  The source passes it on and does not keep it. -/
  token : String

inductive GrantEvent where
  | added (token : String)
  | removed (uid : String)
  deriving DecidableEq

def maxTokenBytes : Nat := 8192

def isGrantFile (name : String) : Bool := ".jwt".toList.isSuffixOf name.toList

/-- What a scan reads: neither a FIFO or a device nor what is too large to be a token. -/
def DirEntry.file? (entry : DirEntry) : Option FileInfo :=
  entry.info.filter fun info => info.regular && decide (info.size ≤ maxTokenBytes)

def FileState.current (state : FileState) (info : FileInfo) : Bool :=
  decide (state.modTime = info.modTime) && decide (state.size = info.size)

section Scan

variable (peekUID : String → Option String)

/-- What a scan reads of an entry and delivers, `none` where it goes on to the next. -/
def delivered (seen : Option FileState) (entry : DirEntry) : Option FileState :=
  match entry.file? with
  | none => none
  | some info =>
    if seen.any fun state => state.current info then none
    else if info.size = 0 then none
    else
      match entry.contents with
      | none => none
      | some token =>
        if token.utf8ByteSize ≠ info.size then none
        else some { modTime := info.modTime, size := info.size,
                    uid := (peekUID token).getD "", token := token }

def addFiles (seen : Table String FileState) :
    List DirEntry → Table String FileState × List GrantEvent
  | [] => (seen, [])
  | entry :: rest =>
    match delivered peekUID (seen.get entry.name) entry with
    | none => addFiles seen rest
    | some state =>
      let added := addFiles (seen.put entry.name state) rest
      (added.1, .added state.token :: added.2)

def dropFiles (present : List String) (seen : Table String FileState) :
    List String → Table String FileState × List GrantEvent
  | [] => (seen, [])
  | name :: rest =>
    match seen.get name with
    | none => dropFiles present seen rest
    | some state =>
      if name ∈ present then dropFiles present seen rest
      else
        let dropped := dropFiles present (seen.drop name) rest
        (dropped.1,
          if state.uid = "" then dropped.2 else .removed state.uid :: dropped.2)

def grantFiles (entries : List DirEntry) : List DirEntry :=
  (entries.filter fun entry => isGrantFile entry.name).insertionSort fun first second =>
    first.name ≤ second.name

def presentNames (files : List DirEntry) : List String :=
  (files.filter fun entry => entry.file?.isSome).map DirEntry.name

def scan (seen : Table String FileState) (entries : List DirEntry) (order : List String) :
    Table String FileState × List GrantEvent :=
  let files := grantFiles entries
  let added := addFiles peekUID seen files
  let dropped := dropFiles (presentNames files) added.1 order
  (dropped.1, added.2 ++ dropped.2)

/-- What the reader of the events has in: an added token that parses puts its UID in, a removal
takes its UID out. -/
def applyEvent (admitted : List String) : GrantEvent → List String
  | .added token =>
    match peekUID token with
    | some uid => uid :: admitted
    | none => admitted
  | .removed uid => admitted.filter fun other => decide (other ≠ uid)

def DirEntry.parsed (entry : DirEntry) : Option String :=
  (entry.contents.filter fun token => decide (token ≠ "")).bind peekUID

/-- The UID each present file holds: of its token, or of the last one that parsed in it. -/
def holding (before : String → Option String) (files : List DirEntry) (name : String) :
    Option String :=
  match files.find? fun entry => decide (entry.name = name) && entry.file?.isSome with
  | none => none
  | some entry => (entry.parsed peekUID).or (before name)

structure Poll where
  seen : Table String FileState := ∅
  admitted : List String := []
  held : String → Option String := fun _ => none

structure Scan where
  entries : Option (List DirEntry)
  order : List String

def Poll.step (poll : Poll) (found : Scan) : Option Poll :=
  match found.entries with
  | none => some poll
  | some entries =>
    if found.order.Perm
        ((addFiles peekUID poll.seen (grantFiles entries)).1.rows.map Prod.fst) then
      let scanned := scan peekUID poll.seen entries found.order
      some {
        seen := scanned.1
        admitted := scanned.2.foldl (applyEvent peekUID) poll.admitted
        held := holding peekUID poll.held (grantFiles entries) }
    else none

/-- The directory is readable and of regular files no larger than a token, each read whole. -/
def Scan.plain (found : Scan) : Bool :=
  match found.entries with
  | none => false
  | some entries =>
    decide ((entries.map DirEntry.name).Nodup) && (grantFiles entries).all fun entry =>
      match entry.file?, entry.contents with
      | some info, some token => decide (token.utf8ByteSize = info.size)
      | _, _ => false

def Scan.files (found : Scan) : List DirEntry := grantFiles (found.entries.getD [])

/-- A file that changed since it was read has another time or size. -/
def Poll.stamped (poll : Poll) (found : Scan) : Bool :=
  found.files.all fun entry =>
    match entry.file?, poll.seen.get entry.name with
    | some info, some state => !state.current info || decide (entry.contents = some state.token)
    | _, _ => true

/-- A file whose token was delivered is empty or holds a token of the same grant. -/
def Poll.steady (poll : Poll) (found : Scan) : Bool :=
  found.files.all fun entry =>
    decide (entry.parsed peekUID ≠ some "") &&
      (poll.seen.get entry.name).all fun state =>
        decide (state.uid = "" ∨ entry.contents = some "" ∨ entry.parsed peekUID = some state.uid)

/-- The grant of a file that is gone is in no file that is there. -/
def Poll.retires (poll : Poll) (found : Scan) : Bool :=
  poll.seen.rows.all fun row =>
    decide (row.1 ∈ presentNames found.files ∨ row.2.uid = "") || found.files.all fun entry =>
      decide (entry.parsed peekUID ≠ some row.2.uid) &&
        (poll.seen.get entry.name).all fun state => decide (state.uid ≠ row.2.uid)

def pollMachine : Machine Poll Scan where
  start poll := poll = {}
  step := Poll.step peekUID

end Scan

section Loops

variable {peekUID : String → Option String}

theorem addFiles_seen (seen : Table String FileState) (files : List DirEntry)
    (nodup : (files.map DirEntry.name).Nodup) (name : String) :
    (addFiles peekUID seen files).1.get name =
      match files.find? fun entry => decide (entry.name = name) with
      | none => seen.get name
      | some entry => (delivered peekUID (seen.get name) entry).or (seen.get name) := by
  induction files generalizing seen with
  | nil => rfl
  | cons entry rest ih =>
    rw [List.map_cons, List.nodup_cons] at nodup
    have gone : entry.name = name →
        rest.find? (fun entry => decide (entry.name = name)) = none := by
      intro same
      rw [List.find?_eq_none]
      intro other mem
      simp only [decide_eq_true_eq]
      intro twin
      exact nodup.1 (List.mem_map.mpr ⟨other, mem, twin.trans same.symm⟩)
    by_cases same : entry.name = name
    · subst name
      simp only [addFiles, List.find?_cons, decide_true]
      cases told : delivered peekUID (seen.get entry.name) entry with
      | none => simp [ih seen nodup.2, gone rfl]
      | some state => simp [ih _ nodup.2, gone rfl]
    · simp only [addFiles, List.find?_cons, same, decide_false]
      cases told : delivered peekUID (seen.get entry.name) entry with
      | none => simpa using ih seen nodup.2
      | some state =>
        have other := get_put_other seen state (Ne.symm same)
        simpa [other] using ih (seen.put entry.name state) nodup.2

theorem addFiles_absent {seen : Table String FileState} {files : List DirEntry}
    (nodup : (files.map DirEntry.name).Nodup) {name : String}
    (gone : name ∉ files.map DirEntry.name) :
    (addFiles peekUID seen files).1.get name = seen.get name := by
  have missing : (files.find? fun entry => decide (entry.name = name)) = none := by
    rw [List.find?_eq_none]
    intro entry mem
    simp only [decide_eq_true_eq]
    rintro rfl
    exact gone (List.mem_map.mpr ⟨entry, mem, rfl⟩)
  rw [addFiles_seen seen files nodup, missing]

theorem mem_addFiles (seen : Table String FileState) (files : List DirEntry)
    (nodup : (files.map DirEntry.name).Nodup) (event : GrantEvent) :
    event ∈ (addFiles peekUID seen files).2 ↔
      ∃ entry ∈ files, ∃ state, delivered peekUID (seen.get entry.name) entry = some state ∧
        event = .added state.token := by
  induction files generalizing seen with
  | nil => simp [addFiles]
  | cons entry rest ih =>
    rw [List.map_cons, List.nodup_cons] at nodup
    simp only [addFiles, List.exists_mem_cons_iff]
    cases told : delivered peekUID (seen.get entry.name) entry with
    | none => simp [ih seen nodup.2]
    | some state =>
      have same : ∀ other ∈ rest, (seen.put entry.name state).get other.name =
          seen.get other.name := by
        intro other mem
        refine get_put_other seen state ?_
        intro twin
        exact nodup.1 (List.mem_map.mpr ⟨other, mem, twin⟩)
      simp only [List.mem_cons, ih (seen.put entry.name state) nodup.2, Option.some.injEq,
        exists_eq_left']
      refine or_congr Iff.rfl (exists_congr fun other => ?_)
      refine and_congr_right fun mem => ?_
      rw [same other mem]

section

variable (present : List String) (seen : Table String FileState) (order : List String)
include present seen order

theorem dropFiles_seen (name : String) :
    (dropFiles present seen order).1.get name =
      if name ∈ order ∧ name ∉ present then none else seen.get name := by
  induction order generalizing seen with
  | nil => simp [dropFiles]
  | cons first rest ih =>
    simp only [dropFiles]
    cases got : seen.get first with
    | none =>
      rw [ih seen]
      by_cases same : name = first
      · subst first
        simp [got]
      · simp [same]
    | some state =>
      dsimp only
      split
      · rename_i here
        rw [ih seen]
        by_cases same : name = first
        · subst first
          simp [here]
        · simp [same]
      · rename_i gone
        rw [ih (seen.drop first), get_drop]
        by_cases same : name = first
        · subst first
          simp [gone]
        · simp [same]

theorem mem_dropFiles (nodup : order.Nodup) (event : GrantEvent) :
    event ∈ (dropFiles present seen order).2 ↔
      ∃ name ∈ order, name ∉ present ∧ ∃ state, seen.get name = some state ∧ state.uid ≠ "" ∧
        event = .removed state.uid := by
  induction order generalizing seen with
  | nil => simp [dropFiles]
  | cons first rest ih =>
    rw [List.nodup_cons] at nodup
    simp only [dropFiles, List.exists_mem_cons_iff]
    cases got : seen.get first with
    | none => simp [ih seen nodup.2]
    | some state =>
      dsimp only
      split
      · rename_i here
        simp [ih seen nodup.2, here]
      · rename_i gone
        have same : ∀ name ∈ rest, (seen.drop first).get name = seen.get name := by
          intro name mem
          refine get_drop_other seen ?_
          rintro rfl
          exact nodup.1 mem
        have others : (∃ name ∈ rest, name ∉ present ∧ ∃ state,
            (seen.drop first).get name = some state ∧ state.uid ≠ "" ∧
              event = .removed state.uid) ↔
            ∃ name ∈ rest, name ∉ present ∧ ∃ state, seen.get name = some state ∧
              state.uid ≠ "" ∧ event = .removed state.uid := by
          refine exists_congr fun name => and_congr_right fun mem => ?_
          rw [same name mem]
        by_cases unread : state.uid = ""
        · simp [ih (seen.drop first) nodup.2, others, unread]
        · simp [ih (seen.drop first) nodup.2, others, unread, gone]

end

variable {events : List GrantEvent} {admitted : List String}

theorem mem_applyAdded {uid : String} (adds : ∀ event ∈ events, ∃ token, event = .added token) :
    uid ∈ events.foldl (applyEvent peekUID) admitted ↔
      uid ∈ admitted ∨ ∃ token, .added token ∈ events ∧ peekUID token = some uid := by
  induction events generalizing admitted with
  | nil => simp
  | cons event rest ih =>
    obtain ⟨token, rfl⟩ := adds event (by simp)
    rw [List.foldl_cons, ih fun event mem => adds event (List.mem_cons_of_mem _ mem)]
    have first : uid ∈ applyEvent peekUID admitted (.added token) ↔
        uid ∈ admitted ∨ peekUID token = some uid := by
      cases parses : peekUID token with
      | none => simp [applyEvent, parses]
      | some got => simp [applyEvent, parses, or_comm, eq_comm]
    simp only [first, List.mem_cons, GrantEvent.added.injEq, or_and_right, exists_or,
      exists_eq_left, or_assoc]

theorem mem_applyRemoved {uid : String}
    (removes : ∀ event ∈ events, ∃ other, event = .removed other) :
    uid ∈ events.foldl (applyEvent peekUID) admitted ↔ uid ∈ admitted ∧ .removed uid ∉ events := by
  induction events generalizing admitted with
  | nil => simp
  | cons event rest ih =>
    obtain ⟨other, rfl⟩ := removes event (by simp)
    rw [List.foldl_cons, ih fun event mem => removes event (List.mem_cons_of_mem _ mem)]
    simp only [applyEvent, List.mem_filter, decide_eq_true_eq, List.mem_cons,
      GrantEvent.removed.injEq, not_or, and_assoc]

end Loops

section Poll

variable {peekUID : String → Option String}

/-- What the reader has in is what the present files hold. -/
def Poll.Follows (poll : Poll) : Prop :=
  ∀ uid, uid ∈ poll.admitted ↔ ∃ name, poll.held name = some uid

structure Poll.Kept (peekUID : String → Option String) (poll : Poll) : Prop where
  tokens : ∀ name state, poll.seen.get name = some state →
    state.uid = (peekUID state.token).getD ""
  held : ∀ name uid, poll.held name = some uid ↔
    uid ≠ "" ∧ ∃ state, poll.seen.get name = some state ∧ state.uid = uid
  admitted : ∀ uid, uid ∈ poll.admitted ↔
    uid ≠ "" ∧ ∃ name state, poll.seen.get name = some state ∧ state.uid = uid

variable {poll : Poll}

theorem Poll.Kept.follows (kept : poll.Kept peekUID) : poll.Follows := by
  intro uid
  rw [kept.admitted uid]
  simp only [kept.held]
  constructor
  · rintro ⟨nonempty, name, state, got, same⟩
    exact ⟨name, nonempty, state, got, same⟩
  · rintro ⟨name, nonempty, state, got, same⟩
    exact ⟨nonempty, name, state, got, same⟩

structure Delivery (peekUID : String → Option String) (seen : Option FileState)
    (entry : DirEntry) (info : FileInfo) (token : String) : Prop where
  file : entry.file? = some info
  contents : entry.contents = some token
  whole : token.utf8ByteSize = info.size
  stamped : ∀ state, seen = some state → state.current info = true → token = state.token
  tokens : ∀ state, seen = some state → state.uid = (peekUID state.token).getD ""
  named : entry.parsed peekUID ≠ some ""
  steady : ∀ state, seen = some state →
    state.uid = "" ∨ token = "" ∨ entry.parsed peekUID = some state.uid

variable {seen : Option FileState} {entry : DirEntry}

theorem Delivery.parsed {info : FileInfo}
    {token : String} (delivery : Delivery peekUID seen entry info token) :
    entry.parsed peekUID = if token = "" then none else peekUID token := by
  unfold DirEntry.parsed
  rw [delivery.contents]
  by_cases empty : token = "" <;> simp [empty, Option.filter]

theorem Delivery.holds {info : FileInfo}
    {token : String} (delivery : Delivery peekUID seen entry info token) (uid : String)
    (nonempty : uid ≠ "") :
    (∃ state, (delivered peekUID seen entry).or seen = some state ∧ state.uid = uid) ↔
      entry.parsed peekUID = some uid ∨
        entry.parsed peekUID = none ∧ ∃ state, seen = some state ∧ state.uid = uid := by
  have parsed := delivery.parsed
  by_cases current : (seen.any fun state => state.current info) = true
  · -- The file is as it was: its token is the one that was read.
    obtain ⟨state, rfl, same⟩ := (Option.any_eq_true _ _).mp current
    have told : delivered peekUID (some state) entry = none := by
      simp [delivered, delivery.file, same]
    have tokens := delivery.tokens state rfl
    rw [← delivery.stamped state rfl same] at tokens
    rw [told, parsed]
    by_cases empty : token = ""
    · simp [empty]
    · cases got : peekUID token with
      | none => simp [empty, tokens, got, Ne.symm nonempty]
      | some other => simp [empty, tokens, got]
  · by_cases unwritten : info.size = 0
    · have told : delivered peekUID seen entry = none := by
        simp [delivered, delivery.file, unwritten]
      have empty : token = "" := by
        simpa [unwritten] using delivery.whole
      rw [told, parsed]
      simp [empty]
    · have written : token ≠ "" := by
        rintro rfl
        exact unwritten delivery.whole.symm
      have told : delivered peekUID seen entry = some
          { modTime := info.modTime, size := info.size, uid := (peekUID token).getD "",
            token := token } := by
        simp [delivered, delivery.file, current, unwritten, delivery.contents, delivery.whole]
      rw [told, parsed]
      cases got : peekUID token with
      | none =>
        have unnamed : ∀ state, seen = some state → state.uid ≠ uid := by
          rintro state old rfl
          rcases delivery.steady state old with unread | empty | same
          · exact nonempty unread
          · exact written empty
          · simp [parsed, written, got] at same
        simp only [Option.getD_none, written, if_false, Option.some_or, Option.some.injEq,
          exists_eq_left', reduceCtorEq, false_or, true_and]
        constructor
        · intro empty
          exact (nonempty empty.symm).elim
        · rintro ⟨state, old, same⟩
          exact (unnamed state old same).elim
      | some other => simp [written]

theorem delivered_uid {state : FileState} (read : delivered peekUID seen entry = some state) :
    state.uid = (peekUID state.token).getD "" := by
  unfold delivered at read
  repeat' split at read
  all_goals
    first
    | (simp at read; done)
    | (simp only [Option.some.injEq] at read; rw [← read])

theorem delivered_parsed {state : FileState} (read : delivered peekUID seen entry = some state) :
    entry.parsed peekUID = peekUID state.token := by
  unfold delivered at read
  split at read
  · simp at read
  · split at read
    · simp at read
    · split at read
      · simp at read
      · rename_i written
        split at read
        · simp at read
        · rename_i token contents
          split at read
          · simp at read
          · rename_i whole
            simp only [Option.some.injEq] at read
            have nonempty : token ≠ "" := by
              rintro rfl
              exact written (by simpa using (not_not.mp whole).symm)
            rw [← read, DirEntry.parsed, contents]
            simp [Option.filter, nonempty]

theorem grantFiles_distinct {entries : List DirEntry} (nodup : (entries.map DirEntry.name).Nodup) :
    ((grantFiles entries).map DirEntry.name).Nodup := by
  have sorted := (List.perm_insertionSort (fun first second : DirEntry => first.name ≤ second.name)
    (entries.filter fun entry => isGrantFile entry.name)).map DirEntry.name
  refine sorted.nodup_iff.mpr ?_
  exact nodup.sublist (List.filter_sublist.map _)

variable {files : List DirEntry}

theorem presentNames_eq (all : ∀ entry ∈ files, entry.file?.isSome = true) :
    presentNames files = files.map DirEntry.name := by
  unfold presentNames
  rw [List.filter_eq_self.mpr all]

theorem find_file (nodup : (files.map DirEntry.name).Nodup) (mem : entry ∈ files) :
    (files.find? fun other => decide (other.name = entry.name)) = some entry := by
  induction files with
  | nil => simp at mem
  | cons first rest ih =>
    rw [List.map_cons, List.nodup_cons] at nodup
    rcases List.mem_cons.mp mem with rfl | later
    · simp
    · have other : first.name ≠ entry.name :=
        fun same => nodup.1 (List.mem_map.mpr ⟨entry, later, same.symm⟩)
      simpa [List.find?_cons, other] using ih nodup.2 later

structure Poll.Scanned (peekUID : String → Option String) (poll : Poll) (files : List DirEntry) :
    Prop where
  distinct : (files.map DirEntry.name).Nodup
  delivery : ∀ entry ∈ files, ∃ info token,
    Delivery peekUID (poll.seen.get entry.name) entry info token
  retires : ∀ name state, poll.seen.get name = some state → name ∉ files.map DirEntry.name →
    state.uid ≠ "" → ∀ entry ∈ files, entry.parsed peekUID ≠ some state.uid ∧
      ∀ other, poll.seen.get entry.name = some other → other.uid ≠ state.uid

theorem Poll.scanned_of_conditions {got : Scan} (kept : poll.Kept peekUID)
    (plain : got.plain = true) (stamped : poll.stamped got = true)
    (steady : poll.steady peekUID got = true) (retires : poll.retires peekUID got = true) :
    poll.Scanned peekUID got.files := by
  cases entries : got.entries with
  | none => simp [Scan.plain, entries] at plain
  | some listed =>
    simp only [Scan.plain, entries, Bool.and_eq_true, decide_eq_true_eq,
      List.all_eq_true] at plain
    have files : got.files = grantFiles listed := by simp [Scan.files, entries]
    have whole : ∀ entry ∈ got.files, ∃ info token, entry.file? = some info ∧
        entry.contents = some token ∧ token.utf8ByteSize = info.size := by
      intro entry mem
      have read := plain.2 entry (files ▸ mem)
      split at read
      · rename_i info token file contents
        exact ⟨info, token, file, contents, of_decide_eq_true read⟩
      · simp at read
    have present : presentNames got.files = got.files.map DirEntry.name := by
      refine presentNames_eq fun entry mem => ?_
      obtain ⟨info, _, file, _⟩ := whole entry mem
      simp [file]
    refine ⟨files ▸ grantFiles_distinct plain.1, ?_, ?_⟩
    · intro entry mem
      obtain ⟨info, token, file, contents, size⟩ := whole entry mem
      have named := List.all_eq_true.mp steady entry mem
      have stamp := List.all_eq_true.mp stamped entry mem
      simp only [Bool.and_eq_true, decide_eq_true_eq] at named
      refine ⟨info, token, file, contents, size, ?_, kept.tokens entry.name, named.1, ?_⟩
      · intro state old current
        simpa [file, old, current, contents] using stamp
      · intro state old
        simpa [old, contents] using named.2
    · intro name state old gone nonempty entry mem
      have row := List.all_eq_true.mp retires _ ((mem_rows_iff _ _ _).mpr old)
      simp only [present, gone, nonempty, or_self, decide_false, Bool.false_or,
        List.all_eq_true] at row
      have apart := row entry mem
      simp only [Bool.and_eq_true, decide_eq_true_eq] at apart
      refine ⟨apart.1, ?_⟩
      intro other seen
      simpa [seen] using apart.2

section Scanned

variable {poll : Poll} {files : List DirEntry} {order : List String}

theorem Poll.Scanned.present (scanned : poll.Scanned peekUID files) :
    presentNames files = files.map DirEntry.name := by
  refine presentNames_eq fun entry mem => ?_
  obtain ⟨info, token, delivery⟩ := scanned.delivery entry mem
  simp [delivery.file]

theorem mem_order {seen : Table String FileState} (all : order.Perm (seen.rows.map Prod.fst))
    (name : String) : name ∈ order ↔ seen.get name ≠ none := by
  rw [all.mem_iff, List.mem_map]
  constructor
  · rintro ⟨⟨_, state⟩, mem, rfl⟩
    simp [(mem_rows_iff _ _ _).mp mem]
  · intro got
    obtain ⟨state, present⟩ := Option.ne_none_iff_exists'.mp got
    exact ⟨(name, state), (mem_rows_iff _ _ _).mpr present, rfl⟩

variable (scanned : poll.Scanned peekUID files)
include scanned

theorem Poll.Scanned.seen_iff
    (all : order.Perm ((addFiles peekUID poll.seen files).1.rows.map Prod.fst)) (name : String)
    (state : FileState) :
    (dropFiles (presentNames files) (addFiles peekUID poll.seen files).1 order).1.get name =
        some state ↔ ∃ entry ∈ files, entry.name = name ∧
        (delivered peekUID (poll.seen.get name) entry).or (poll.seen.get name) = some state := by
  rw [dropFiles_seen, scanned.present]
  simp only [mem_order all, addFiles_seen _ _ scanned.distinct]
  cases got : files.find? fun entry => decide (entry.name = name) with
  | none =>
    have gone : ∀ entry ∈ files, entry.name ≠ name := by
      simpa using List.find?_eq_none.mp got
    have absent : name ∉ files.map DirEntry.name := by
      simpa using gone
    constructor
    · intro seen
      cases before : poll.seen.get name with
      | none => simp [before] at seen
      | some old => simp [before, absent] at seen
    · rintro ⟨entry, mem, same, _⟩
      exact (gone entry mem same).elim
  | some entry =>
    have mem := List.mem_of_find?_eq_some got
    have same : entry.name = name := by simpa using List.find?_some got
    have here : name ∈ files.map DirEntry.name := List.mem_map.mpr ⟨entry, mem, same⟩
    simp only [here, not_true_eq_false, and_false, if_false]
    constructor
    · intro seen
      exact ⟨entry, mem, same, seen⟩
    · rintro ⟨other, listed, twin, seen⟩
      have unique := find_file scanned.distinct listed
      rw [twin, got, Option.some.injEq] at unique
      rwa [unique]

theorem Poll.Scanned.holding_iff (old : String → Option String) (name uid : String) :
    holding peekUID old files name = some uid ↔ ∃ entry ∈ files, entry.name = name ∧
        (entry.parsed peekUID).or (old name) = some uid := by
  have present : ∀ entry ∈ files, entry.file?.isSome = true := by
    intro entry mem
    obtain ⟨info, token, delivery⟩ := scanned.delivery entry mem
    simp [delivery.file]
  unfold holding
  cases got : files.find? fun entry => decide (entry.name = name) && entry.file?.isSome with
  | none =>
    have gone : ∀ entry ∈ files, entry.name ≠ name := by
      intro entry mem same
      have other := List.find?_eq_none.mp got entry mem
      simp [same, present entry mem] at other
    constructor
    · intro told
      simp at told
    · rintro ⟨entry, mem, same, _⟩
      exact (gone entry mem same).elim
  | some entry =>
    have mem := List.mem_of_find?_eq_some got
    have same : entry.name = name := by
      have named := List.find?_some got
      simp only [Bool.and_eq_true, decide_eq_true_eq] at named
      exact named.1
    constructor
    · intro told
      exact ⟨entry, mem, same, told⟩
    · rintro ⟨other, listed, twin, told⟩
      have mine := find_file scanned.distinct mem
      have its := find_file scanned.distinct listed
      rw [same] at mine
      rw [twin, mine, Option.some.injEq] at its
      rwa [its]

theorem Poll.Scanned.kept_or_gone {name : String} {state : FileState}
    (old : poll.seen.get name = some state) (nonempty : state.uid ≠ "") :
    (∃ entry ∈ files, entry.name = name ∧ ∃ after, (delivered peekUID (poll.seen.get name) entry).or
        (poll.seen.get name) = some after ∧ after.uid = state.uid) ∨
      name ∉ files.map DirEntry.name := by
  by_cases here : name ∈ files.map DirEntry.name
  · obtain ⟨entry, mem, rfl⟩ := List.mem_map.mp here
    obtain ⟨info, token, delivery⟩ := scanned.delivery entry mem
    refine .inl ⟨entry, mem, rfl, (delivery.holds state.uid nonempty).mpr ?_⟩
    rcases delivery.steady state old with unread | empty | same
    · exact (nonempty unread).elim
    · exact .inr ⟨by simp [delivery.parsed, empty], state, old, rfl⟩
    · exact .inl same
  · exact .inr here

end Scanned

theorem Poll.Scanned.mem_admitted {order : List String}
    (scanned : poll.Scanned peekUID files) (kept : poll.Kept peekUID)
    (all : order.Perm ((addFiles peekUID poll.seen files).1.rows.map Prod.fst)) (uid : String) :
    uid ∈ ((addFiles peekUID poll.seen files).2 ++
        (dropFiles (presentNames files) (addFiles peekUID poll.seen files).1 order).2).foldl
          (applyEvent peekUID) poll.admitted ↔
      uid ≠ "" ∧ ∃ name state, (dropFiles (presentNames files)
        (addFiles peekUID poll.seen files).1 order).1.get name = some state ∧ state.uid = uid := by
  have nodup : order.Nodup := all.nodup_iff.mpr (rows_distinct _)
  have adds : ∀ event ∈ (addFiles peekUID poll.seen files).2, ∃ token, event = .added token := by
    intro event mem
    obtain ⟨_, _, state, _, same⟩ := (mem_addFiles _ _ scanned.distinct event).mp mem
    exact ⟨state.token, same⟩
  have removes : ∀ event ∈ (dropFiles (presentNames files)
      (addFiles peekUID poll.seen files).1 order).2, ∃ other, event = .removed other := by
    intro event mem
    obtain ⟨_, _, _, state, _, _, same⟩ := (mem_dropFiles _ _ _ nodup event).mp mem
    exact ⟨state.uid, same⟩
  rw [List.foldl_append, mem_applyRemoved removes, mem_applyAdded adds]
  constructor
  · rintro ⟨known, unremoved⟩
    rcases known with before | ⟨token, mem, parses⟩
    · obtain ⟨nonempty, name, state, seen, rfl⟩ := (kept.admitted uid).mp before
      refine ⟨nonempty, ?_⟩
      rcases scanned.kept_or_gone seen nonempty with ⟨entry, mem, same, after, told, mine⟩ | gone
      · exact ⟨name, after, (scanned.seen_iff all name after).mpr ⟨entry, mem, same, told⟩, mine⟩
      · -- The file is gone, so the scan has sent its removal.
        have still : (addFiles peekUID poll.seen files).1.get name = some state :=
          (addFiles_absent scanned.distinct gone).trans seen
        refine (unremoved ((mem_dropFiles _ _ _ nodup _).mpr ⟨name, ?_, ?_, state, still,
          nonempty, rfl⟩)).elim
        · exact (mem_order all name).mpr (by simp [still])
        · rwa [scanned.present]
    · obtain ⟨entry, listed, state, read, same⟩ :=
        (mem_addFiles _ _ scanned.distinct (.added token)).mp mem
      obtain rfl : token = state.token := GrantEvent.added.inj same
      obtain ⟨_, _, delivery⟩ := scanned.delivery entry listed
      have mine : state.uid = uid := by simp [delivered_uid read, parses]
      refine ⟨?_, entry.name, state, (scanned.seen_iff all _ _).mpr ⟨entry, listed, rfl, ?_⟩, mine⟩
      · rintro rfl
        exact delivery.named ((delivered_parsed read).trans parses)
      · simp [read]
  · rintro ⟨nonempty, name, state, seen, rfl⟩
    obtain ⟨entry, mem, rfl, told⟩ := (scanned.seen_iff all name state).mp seen
    refine ⟨?_, ?_⟩
    · rcases Option.or_eq_some_iff.mp told with read | ⟨_, before⟩
      · refine .inr ⟨state.token,
          (mem_addFiles _ _ scanned.distinct _).mpr ⟨entry, mem, state, read, rfl⟩, ?_⟩
        have same := delivered_uid read
        cases parses : peekUID state.token with
        | none => simp [parses, nonempty] at same
        | some uid => simp [parses, same]
      · exact .inl ((kept.admitted _).mpr ⟨nonempty, entry.name, state, before, rfl⟩)
    · intro removed
      obtain ⟨other, _, gone, old, before, _, same⟩ := (mem_dropFiles _ _ _ nodup _).mp removed
      have mine : state.uid = old.uid := GrantEvent.removed.inj same
      rw [scanned.present] at gone
      rw [addFiles_absent scanned.distinct gone] at before
      obtain ⟨unparsed, unseen⟩ :=
        scanned.retires other old before gone (mine ▸ nonempty) entry mem
      obtain ⟨_, _, delivery⟩ := scanned.delivery entry mem
      rcases (delivery.holds state.uid nonempty).mp ⟨state, told, rfl⟩ with
        parses | ⟨_, last, got, its⟩
      · exact unparsed (mine ▸ parses)
      · exact unseen last got (its.trans mine)

theorem Poll.Kept.step {next : Poll} {got : Scan} (kept : poll.Kept peekUID)
    (scanned : poll.Scanned peekUID got.files) (plain : got.plain = true)
    (took : poll.step peekUID got = some next) : next.Kept peekUID := by
  cases entries : got.entries with
  | none => simp [Scan.plain, entries] at plain
  | some listed =>
    have files : grantFiles listed = got.files := by simp [Scan.files, entries]
    simp only [Poll.step, entries, files, scan, Option.ite_none_right_eq_some,
      Option.some.injEq] at took
    obtain ⟨all, rfl⟩ := took
    refine ⟨?_, ?_, scanned.mem_admitted kept all⟩
    · intro name state seen
      obtain ⟨entry, mem, rfl, told⟩ := (scanned.seen_iff all name state).mp seen
      rcases Option.or_eq_some_iff.mp told with read | ⟨_, before⟩
      · exact delivered_uid read
      · exact kept.tokens entry.name state before
    · intro name uid
      simp only [scanned.holding_iff, scanned.seen_iff all]
      constructor
      · rintro ⟨entry, mem, rfl, told⟩
        obtain ⟨info, token, delivery⟩ := scanned.delivery entry mem
        have nonempty : uid ≠ "" := by
          rcases Option.or_eq_some_iff.mp told with parses | ⟨_, before⟩
          · rintro rfl
            exact delivery.named parses
          · exact ((kept.held entry.name uid).mp before).1
        obtain ⟨state, seen, same⟩ := (delivery.holds uid nonempty).mpr (by
          rcases Option.or_eq_some_iff.mp told with parses | ⟨unparsed, before⟩
          · exact .inl parses
          · exact .inr ⟨unparsed, ((kept.held entry.name uid).mp before).2⟩)
        exact ⟨nonempty, state, ⟨entry, mem, rfl, seen⟩, same⟩
      · rintro ⟨nonempty, state, ⟨entry, mem, rfl, seen⟩, same⟩
        obtain ⟨info, token, delivery⟩ := scanned.delivery entry mem
        refine ⟨entry, mem, rfl, Option.or_eq_some_iff.mpr ?_⟩
        rcases (delivery.holds uid nonempty).mp ⟨state, seen, same⟩ with
          parses | ⟨unparsed, old, before, mine⟩
        · exact .inl parses
        · exact .inr ⟨unparsed, (kept.held entry.name uid).mpr ⟨nonempty, old, before, mine⟩⟩

theorem grants_follow_directory {scans : List Scan}
    (plain : (pollMachine peekUID).Meets (fun _ found => found.plain = true) {} scans)
    (stamped : (pollMachine peekUID).Meets (fun poll found => poll.stamped found = true) {} scans)
    (steady : (pollMachine peekUID).Meets
      (fun poll found => poll.steady peekUID found = true) {} scans)
    (retires : (pollMachine peekUID).Meets
      (fun poll found => poll.retires peekUID found = true) {} scans) :
    (pollMachine peekUID).Along Poll.Follows {} scans := by
  have domain := plain.both stamped fun _ _ plain stamped => And.intro plain stamped
  have apart := steady.both retires fun _ _ steady retires => And.intro steady retires
  have meets := domain.both apart fun _ _ domain apart => And.intro domain apart
  have initial : ({} : Poll).Kept peekUID := by
    refine ⟨?_, ?_, ?_⟩ <;> simp
  have step : ∀ poll found next, Poll.Kept peekUID poll →
      ((found.plain = true ∧ poll.stamped found = true) ∧
        poll.steady peekUID found = true ∧ poll.retires peekUID found = true) →
      (pollMachine peekUID).step poll found = some next → Poll.Kept peekUID next := by
    rintro poll found next kept ⟨⟨plain, stamped⟩, steady, retires⟩ taken
    exact kept.step (Poll.scanned_of_conditions kept plain stamped steady retires) plain taken
  intro front back poll split run
  exact (along_of_meets step initial meets front back poll split run).follows

end Poll

/-- Tokens that are their own UID. -/
def wordUID (token : String) : Option String := if token = "torn" then none else some token

def grantFile (name : String) (modTime : Nat) (token : String) : DirEntry where
  name := name
  info := some { modTime := modTime, size := token.utf8ByteSize }
  contents := some token

/-- A file is rewritten over two scans, another is written in two goes, and the first goes. -/
def rewrittenScans : List Scan :=
  [⟨some [grantFile "a.jwt" 1 "g"], ["a.jwt"]⟩,
   ⟨some [grantFile "a.jwt" 2 "", grantFile "b.jwt" 2 "torn"], ["a.jwt", "b.jwt"]⟩,
   ⟨some [grantFile "a.jwt" 3 "g", grantFile "b.jwt" 3 "h"], ["b.jwt", "a.jwt"]⟩,
   ⟨some [grantFile "b.jwt" 3 "h"], ["a.jwt", "b.jwt"]⟩]

theorem follows_of_rewrittenScans :
    ((pollMachine wordUID).exec {} rewrittenScans).map (fun poll =>
      (poll.admitted, poll.held "a.jwt", poll.held "b.jwt")) = some (["h"], none, some "h") ∧
    (pollMachine wordUID).Along Poll.Follows {} rewrittenScans := by
  refine ⟨by decide +kernel, ?_⟩
  exact grants_follow_directory (by decide +kernel) (by decide +kernel) (by decide +kernel)
    (by decide +kernel)

/-- A file is renamed between two scans. -/
def renamedScans : List Scan :=
  [⟨some [grantFile "a.jwt" 1 "g"], ["a.jwt"]⟩,
   ⟨some [grantFile "b.jwt" 1 "g"], ["a.jwt", "b.jwt"]⟩]

theorem rename_takes_grant_out : ¬(pollMachine wordUID).Along Poll.Follows {} renamedScans := by
  intro along
  obtain ⟨poll, run, none_, held⟩ : ∃ poll, (pollMachine wordUID).exec {} renamedScans = some poll ∧
    poll.admitted = [] ∧ poll.held "b.jwt" = some "g" := by decide +kernel
  have follows := along renamedScans [] poll (by simp) run
  have admitted := (follows "g").mpr ⟨"b.jwt", held⟩
  simp [none_] at admitted

end Fiberd
