import Fiberd.Lib.Messages
import Fiberd.Lib.Tables

/-!
The pagemap images of a checkpoint, from `pkg/sys/criu/images.go`: eight bytes of
header and then size-prefixed protobuf messages, of which the first names the
pages file and each other one is a run of pages.  What is written is read back
as it was, unless the file is so long that the reader's 32-bit length check
refuses it; that depends on the sizes of the messages alone.
-/

namespace Fiberd

open Tables Messages

inductive ImageError where
  | noPagemap
  | shortHeader (path : String)
  | truncatedSize (path : String)
  | truncatedEntry (path : String)
  | badKey (path : String)
  | badVarint (path : String)
  | badLength (path : String)
  | badFixed64 (path : String)
  | badFixed32 (path : String)
  | wireType (path : String) (wire : Nat)
  | shortParent (path : String)
  | shortPages (path : String)
  | shortDelta (path : String)
  | lacksPage (address : UInt64)
  | parentMismatch (recorded offered : String)
  | badInfo
  | failed (path : String)
  deriving DecidableEq, Repr

structure PagemapEntry where
  vaddr : UInt64
  nrPages : UInt64
  flags : UInt32
  deriving DecidableEq, Repr

structure Pagemap where
  path : String
  header : Bytes
  pagesID : UInt32 := 0
  entries : List PagemapEntry := []
  deriving DecidableEq, Repr

def Pagemap.pagesFile (pagemap : Pagemap) : String :=
  "pages-" ++ pagemap.pagesID.toNat.repr ++ ".img"

def parseFields (path : String) (fields : Table Nat Nat) (message : Bytes) :
    Except ImageError (Table Nat Nat) :=
  if message = [] then .ok fields
  else
    match read : uvarint message with
    | none => .error (.badKey path)
    | some (key, rest) =>
      have := uvarint_shorter read
      match key % 8 with
      | 0 =>
        match held : uvarint rest with
        | none => .error (.badVarint path)
        | some (value, behind) =>
          have := uvarint_shorter held
          parseFields path (fields.put (key / 8) value) behind
      | 2 =>
        match held : uvarint rest with
        | none => .error (.badLength path)
        | some (length, behind) =>
          have := uvarint_shorter held
          if behind.length < length then .error (.badLength path)
          else parseFields path fields (behind.drop length)
      | 1 =>
        if rest.length < 8 then .error (.badFixed64 path)
        else parseFields path fields (rest.drop 8)
      | 5 =>
        if rest.length < 4 then .error (.badFixed32 path)
        else parseFields path fields (rest.drop 4)
      | wire => .error (.wireType path wire)
termination_by message.length
decreasing_by
  · omega
  · rw [List.length_drop]
    omega
  · rw [List.length_drop]
    omega
  · rw [List.length_drop]
    omega

def parseVarintFields (path : String) (message : Bytes) : Except ImageError (Table Nat Nat) :=
  parseFields path ∅ message

/-- The run a message stands for.  The page count moved from field 2 to field 5. -/
def fieldsEntry (fields : Table Nat Nat) : PagemapEntry where
  vaddr := UInt64.ofNat ((fields.get 1).getD 0)
  nrPages := UInt64.ofNat ((fields.get 5).getD ((fields.get 2).getD 0))
  flags := UInt32.ofNat ((fields.get 4).getD 0)

def readMessages (pagemap : Pagemap) (first : Bool) (rest : Bytes) : Except ImageError Pagemap :=
  if rest = [] then .ok pagemap
  else if rest.length < 4 then .error (.truncatedSize pagemap.path)
  else
    let size := uint32 (rest.take 4)
    let body := rest.drop 4
    if body.length % 2 ^ 32 < size then .error (.truncatedEntry pagemap.path)
    else
      match parseVarintFields pagemap.path (body.take size) with
      | .error error => .error error
      | .ok fields =>
        if first then
          readMessages { pagemap with pagesID := UInt32.ofNat ((fields.get 1).getD 0) } false
            (body.drop size)
        else
          readMessages { pagemap with entries := pagemap.entries ++ [fieldsEntry fields] } false
            (body.drop size)
termination_by rest.length
decreasing_by all_goals (simp only [List.length_drop]; omega)

def readPagemap (path : String) (bytes : Bytes) : Except ImageError Pagemap :=
  if bytes.length < 8 then .error (.shortHeader path)
  else readMessages { path, header := bytes.take 8 } true (bytes.drop 8)

/-- A message of varint fields, behind its size. -/
def fieldsMessage (fields : List (Nat × Nat)) : Bytes :=
  fields.flatMap fun field => appendUvarint (field.1 * 8) ++ appendUvarint field.2

def writeMessage (fields : List (Nat × Nat)) : Bytes :=
  putUint32 (fieldsMessage fields).length ++ fieldsMessage fields

def headFields (pagesID : UInt32) : List (Nat × Nat) := [(1, pagesID.toNat)]

def entryFields (entry : PagemapEntry) : List (Nat × Nat) :=
  [(1, entry.vaddr.toNat), (2, min entry.nrPages.toNat (2 ^ 32 - 1)), (4, entry.flags.toNat),
    (5, entry.nrPages.toNat)]

def pagemapBytes (pagemap : Pagemap) : Bytes :=
  pagemap.header ++ (writeMessage (headFields pagemap.pagesID) ++
    pagemap.entries.flatMap fun entry => writeMessage (entryFields entry))

theorem parseFields_message (path : String) (fields : List (Nat × Nat))
    (small : ∀ field ∈ fields, field.1 * 8 < 2 ^ 64 ∧ field.2 < 2 ^ 64) (got : Table Nat Nat) :
    parseFields path got (fieldsMessage fields) =
      .ok (fields.foldl (fun got field => got.put field.1 field.2) got) := by
  induction fields generalizing got with
  | nil => simp [fieldsMessage, parseFields]
  | cons field fields ih =>
    obtain ⟨keySmall, valueSmall⟩ := small field (by simp)
    have later := ih (fun other mem => small other (List.mem_cons_of_mem _ mem))
    have key := uvarint_append (appendUvarint field.2 ++ fieldsMessage fields) keySmall
    have value := uvarint_append (fieldsMessage fields) valueSmall
    have message : fieldsMessage (field :: fields) = appendUvarint (field.1 * 8) ++
        (appendUvarint field.2 ++ fieldsMessage fields) := by
      simp [fieldsMessage]
    have some : appendUvarint (field.1 * 8) ++ (appendUvarint field.2 ++ fieldsMessage fields) ≠
        [] := by
      intro none
      simp [none, uvarint, uvarintFrom] at key
    rw [message, parseFields, if_neg some]
    split
    · rename_i none
      simp [key] at none
    · rename_i got rest read
      rw [key, Option.some.injEq, Prod.mk.injEq] at read
      obtain ⟨rfl, rfl⟩ := read
      rw [Nat.mul_mod_left, Nat.mul_div_cancel _ (by omega : 0 < 8)]
      simp only
      split
      · rename_i none
        simp [value] at none
      · rename_i held behind read
        rw [value, Option.some.injEq, Prod.mk.injEq] at read
        obtain ⟨rfl, rfl⟩ := read
        exact later _

theorem headFields_small (pagesID : UInt32) :
    ∀ field ∈ headFields pagesID, field.1 * 8 < 2 ^ 64 ∧ field.2 < 2 ^ 64 := by
  have bound := pagesID.toNat_lt
  simp only [headFields, List.mem_singleton, forall_eq]
  omega

theorem entryFields_small (entry : PagemapEntry) :
    ∀ field ∈ entryFields entry, field.1 * 8 < 2 ^ 64 ∧ field.2 < 2 ^ 64 := by
  have address := entry.vaddr.toNat_lt
  have count := entry.nrPages.toNat_lt
  have flags := entry.flags.toNat_lt
  simp only [entryFields, List.forall_mem_cons, List.not_mem_nil, false_implies, implies_true,
    and_true]
  omega

theorem parse_head (path : String) (pagesID : UInt32) :
    parseVarintFields path (fieldsMessage (headFields pagesID)) =
      .ok ((∅ : Table Nat Nat).put 1 pagesID.toNat) :=
  parseFields_message path _ (headFields_small pagesID) ∅

theorem parse_entry (path : String) (entry : PagemapEntry) :
    ∃ fields, parseVarintFields path (fieldsMessage (entryFields entry)) = .ok fields ∧
      fieldsEntry fields = entry := by
  refine ⟨_, parseFields_message path _ (entryFields_small entry) ∅, ?_⟩
  simp [entryFields, fieldsEntry, get_put]

theorem length_field_le {field : Nat × Nat} (key : field.1 * 8 < 2 ^ 64) (value : field.2 < 2 ^ 64) :
    (appendUvarint (field.1 * 8) ++ appendUvarint field.2).length ≤ 20 := by
  have first := length_appendUvarint_le (by omega : field.1 * 8 < 128 ^ (9 + 1))
  have second := length_appendUvarint_le (by omega : field.2 < 128 ^ (9 + 1))
  rw [List.length_append]
  omega

theorem length_fieldsMessage_le {fields : List (Nat × Nat)}
    (small : ∀ field ∈ fields, field.1 * 8 < 2 ^ 64 ∧ field.2 < 2 ^ 64) :
    (fieldsMessage fields).length ≤ 20 * fields.length := by
  induction fields with
  | nil => simp [fieldsMessage]
  | cons field fields ih =>
    have rest := ih fun other mem => small other (List.mem_cons_of_mem _ mem)
    obtain ⟨key, value⟩ := small field (by simp)
    have one := length_field_le key value
    simp only [fieldsMessage, List.flatMap_cons, List.length_append, List.length_cons] at rest one ⊢
    omega

/-- Whether the length check of the reader lets messages of these sizes pass. -/
def frameable : List Nat → Bool
  | [] => true
  | size :: sizes =>
    decide (size ≤ (size + (sizes.map (· + 4)).sum) % 2 ^ 32) && frameable sizes

def entrySizes (entries : List PagemapEntry) : List Nat :=
  entries.map fun entry => (fieldsMessage (entryFields entry)).length

theorem length_entries (entries : List PagemapEntry) :
    (entries.flatMap fun entry => writeMessage (entryFields entry)).length =
      ((entrySizes entries).map (· + 4)).sum := by
  induction entries with
  | nil => rfl
  | cons entry entries ih =>
    have one : (writeMessage (entryFields entry)).length =
        (fieldsMessage (entryFields entry)).length + 4 := by
      rw [writeMessage, List.length_append, length_putUint32, Nat.add_comm]
    rw [List.flatMap_cons, List.length_append, ih, one]
    rfl

variable {pagemap : Pagemap}

theorem readMessages_message {first : Bool} {fields : List (Nat × Nat)}
    (size : (fieldsMessage fields).length < 2 ^ 32) (rest : Bytes) :
    readMessages pagemap first (writeMessage fields ++ rest) =
      if ((fieldsMessage fields).length + rest.length) % 2 ^ 32 < (fieldsMessage fields).length then
        .error (.truncatedEntry pagemap.path)
      else
        match parseVarintFields pagemap.path (fieldsMessage fields) with
        | .error error => .error error
        | .ok fields =>
          if first then
            readMessages { pagemap with pagesID := UInt32.ofNat ((fields.get 1).getD 0) } false
              rest
          else
            readMessages { pagemap with entries := pagemap.entries ++ [fieldsEntry fields] } false
              rest := by
  have apart : writeMessage fields ++ rest =
      putUint32 (fieldsMessage fields).length ++ (fieldsMessage fields ++ rest) := by
    rw [writeMessage, List.append_assoc]
  have took : (writeMessage fields ++ rest).take 4 = putUint32 (fieldsMessage fields).length := by
    rw [apart, List.take_left' (length_putUint32 _)]
  have dropped : (writeMessage fields ++ rest).drop 4 = fieldsMessage fields ++ rest := by
    rw [apart, List.drop_left' (length_putUint32 _)]
  have long : (writeMessage fields ++ rest).length =
      4 + ((fieldsMessage fields).length + rest.length) := by
    rw [apart]
    simp only [List.length_append, length_putUint32]
  rw [readMessages, if_neg (by rw [← List.length_eq_zero_iff]; omega), if_neg (by omega)]
  simp only [took, dropped, uint32_putUint32 size, List.length_append, List.take_left',
    List.drop_left']

theorem readMessages_entries (entries : List PagemapEntry) (pagemap : Pagemap) :
    readMessages pagemap false (entries.flatMap fun entry => writeMessage (entryFields entry)) =
      if frameable (entrySizes entries) then
        .ok { pagemap with entries := pagemap.entries ++ entries }
      else .error (.truncatedEntry pagemap.path) := by
  induction entries generalizing pagemap with
  | nil => simp [readMessages, frameable, entrySizes]
  | cons entry entries ih =>
    have short := length_fieldsMessage_le (entryFields_small entry)
    have size : (fieldsMessage (entryFields entry)).length < 2 ^ 32 := by
      simp only [entryFields, List.length_cons, List.length_nil] at short ⊢
      omega
    obtain ⟨fields, parsed, same⟩ := parse_entry pagemap.path entry
    have sizes : entrySizes (entry :: entries) =
        (fieldsMessage (entryFields entry)).length :: entrySizes entries := rfl
    rw [List.flatMap_cons, readMessages_message size, length_entries, parsed, sizes, frameable]
    by_cases passes : (fieldsMessage (entryFields entry)).length ≤
        ((fieldsMessage (entryFields entry)).length +
          ((entrySizes entries).map (· + 4)).sum) % 2 ^ 32
    · rw [if_neg (Nat.not_lt.mpr passes), decide_eq_true passes, Bool.true_and]
      simp only [Bool.false_eq_true, if_false, ih, same, List.append_assoc,
        List.singleton_append]
    · rw [if_pos (Nat.lt_of_not_le passes), decide_eq_false passes]
      rfl

def Pagemap.sizes (pagemap : Pagemap) : List Nat :=
  (fieldsMessage (headFields pagemap.pagesID)).length :: entrySizes pagemap.entries

theorem readPagemap_bytes (header : pagemap.header.length = 8) :
    readPagemap pagemap.path (pagemapBytes pagemap) =
      if frameable pagemap.sizes then .ok pagemap
      else .error (.truncatedEntry pagemap.path) := by
  have short := length_fieldsMessage_le (headFields_small pagemap.pagesID)
  have size : (fieldsMessage (headFields pagemap.pagesID)).length < 2 ^ 32 := by
    simp only [headFields, List.length_cons, List.length_nil] at short ⊢
    omega
  have long : ¬(pagemapBytes pagemap).length < 8 := by
    rw [pagemapBytes, List.length_append]
    omega
  rw [readPagemap, if_neg long, pagemapBytes, List.take_left' header, List.drop_left' header,
    readMessages_message size, length_entries, parse_head]
  rw [Pagemap.sizes, frameable]
  by_cases passes : (fieldsMessage (headFields pagemap.pagesID)).length ≤
      ((fieldsMessage (headFields pagemap.pagesID)).length +
        ((entrySizes pagemap.entries).map (· + 4)).sum) % 2 ^ 32
  · rw [if_neg (Nat.not_lt.mpr passes), decide_eq_true passes, Bool.true_and]
    simp only [if_true, get_put_same, Option.getD_some, UInt32.ofNat_toNat, readMessages_entries,
      List.nil_append]
  · rw [if_pos (Nat.lt_of_not_le passes), decide_eq_false passes]
    rfl

theorem readMessages_header {read : Pagemap} {first : Bool} {rest : Bytes}
    (parsed : readMessages pagemap first rest = .ok read) :
    read.header = pagemap.header ∧ read.path = pagemap.path := by
  fun_induction readMessages pagemap first rest with
  | case1 =>
    cases parsed
    exact ⟨rfl, rfl⟩
  | case2 => cases parsed
  | case3 => cases parsed
  | case4 => cases parsed
  | case5 _ _ _ _ _ _ _ _ _ ih | case6 _ _ _ _ _ _ _ _ _ _ _ ih => exact ih parsed

theorem readPagemap_header {path : String} {bytes : Bytes} {read : Pagemap}
    (parsed : readPagemap path bytes = .ok read) : read.header.length = 8 ∧ read.path = path := by
  rw [readPagemap] at parsed
  split at parsed
  · cases parsed
  · obtain ⟨header, named⟩ := readMessages_header parsed
    refine ⟨?_, named⟩
    rw [header, List.length_take]
    omega

end Fiberd
