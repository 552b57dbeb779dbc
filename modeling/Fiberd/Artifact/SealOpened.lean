import Fiberd.Artifact.Seal
import Fiberd.Audit.SpoolKit
import Fiberd.Lib.Rows

/-!
Sealed directories cannot be rearranged.  The header is the additional data of
every chunk and has the file's own salt in it, so all chunks of a stream that opens
are of one sealed file; their nonces give each its place and the last one its mark,
so they are all of that file.  The keys tell the kinds, the domains and the names
apart.
-/

namespace Fiberd

open Messages Chunks Tables Machines Rows

variable {kit : SealKit} {vault : Vault}

theorem chunkNonce_inj {index other : Nat} {last final : Bool} (small : index < 2 ^ 64)
    (also : other < 2 ^ 64) (same : chunkNonce index last = chunkNonce other final) :
    index = other ∧ last = final := by
  have lengths : ([0, 0, 0] ++ bigEndian 8 index).length = ([0, 0, 0] ++ bigEndian 8 other).length := by
    simp
  obtain ⟨front, back⟩ := List.append_inj same lengths
  refine ⟨bigEndian_inj small also (List.append_cancel_left front), ?_⟩
  cases last <;> cases final <;> simp_all

variable {text other bytes additional stream key plain another : Bytes}

theorem sealPrefix_inj (same : sealPrefix text = sealPrefix other) : text = other := by
  have behind := List.append_cancel_left same
  have lengths : (bigEndian 4 text.length).length = (bigEndian 4 other.length).length := by simp
  exact (List.append_inj behind lengths).2

variable {header : SealHeader}

theorem readSealHeader_ok (read : readSealHeader kit bytes = .ok (header, additional, stream)) :
    ∃ front text, front.length = sealMagic.length + 4 ∧ additional = front ++ text ∧
      kit.unmarshal text = some header ∧ stream.length ≤ bytes.length := by
  simp only [readSealHeader] at read
  split at read
  · cases read
  · rename_i magic
    split at read
    · cases read
    · split at read
      · cases read
      · split at read <;> cases read
        rename_i got parsed
        refine ⟨_, _, ?_, rfl, parsed, ?_⟩
        · have short : (bytes.take (sealMagic.length + 4)).length ≤ sealMagic.length + 4 :=
            List.length_take_le _ _
          have long : ¬(bytes.take (sealMagic.length + 4)).length < sealMagic.length + 4 :=
            fun less => magic (.inl less)
          omega
        · rw [List.length_drop, List.length_drop]
          omega

theorem opens_sealed {nonce sealed : Bytes}
    (opened : vault.opens kit key nonce sealed additional = some plain) :
    ∃ file ∈ vault, ∃ text, kit.marshal file.header = some text ∧ additional = sealPrefix text ∧
      key = fileKey kit (file.domainKey kit) file.name file.salt ∧
      ∃ chunk ∈ file.chunks kit, nonce = chunkNonce chunk.index chunk.last ∧ plain = chunk.data := by
  obtain ⟨made, got, rfl⟩ := Option.map_eq_some_iff.mp opened
  have matched := List.find?_some got
  simp only [decide_eq_true_eq] at matched
  obtain ⟨file, mem, logged⟩ := List.mem_flatMap.mp (List.mem_of_find?_eq_some got)
  refine ⟨file, mem, ?_⟩
  unfold SealedFile.seals at logged
  split at logged
  · cases logged
  · rename_i text marshalled
    obtain ⟨chunk, among, rfl⟩ := List.mem_map.mp logged
    exact ⟨text, marshalled, matched.2.2.1.symm, matched.1.symm, chunk, among, matched.2.1.symm, rfl⟩

theorem openChunks_ok {chunks : List (Chunk UInt8)}
    (opened : openChunks kit vault key additional chunks = .ok plain) :
    ∃ got : List (Chunk UInt8), plain = got.flatMap Chunk.data ∧
      got.map (fun chunk => (chunk.index, chunk.last)) =
        chunks.map (fun chunk => (chunk.index, chunk.last)) ∧
      ∀ chunk ∈ got, ∃ sealed, vault.opens kit key (chunkNonce chunk.index chunk.last) sealed
        additional = some chunk.data := by
  induction chunks generalizing plain with
  | nil =>
    simp only [openChunks, Except.ok.injEq] at opened
    exact ⟨[], by simp [← opened], rfl, by simp⟩
  | cons chunk chunks ih =>
    rw [openChunks] at opened
    split at opened
    · cases opened
    · rename_i first here
      split at opened
      · cases opened
      · rename_i rest later
        simp only [Except.ok.injEq] at opened
        obtain ⟨got, data, places, each⟩ := ih later
        refine ⟨⟨chunk.index, chunk.last, first⟩ :: got, ?_, ?_, ?_⟩
        · rw [← opened, data]
          rfl
        · rw [List.map_cons, List.map_cons, places]
        · intro other mem
          rcases List.mem_cons.mp mem with rfl | later
          · exact ⟨chunk.data, here⟩
          · exact each other later

def Vault.Distinct (vault : Vault) : Prop := (vault.map SealedFile.salt).Nodup

theorem salts_distinct (reached : (sealMachine kit).Reachable vault) : vault.Distinct := by
  refine reached.keeps ?_ ?_
  · rintro vault rfl
    exact List.nodup_nil
  · intro vault call next _ took
    simp only [sealMachine] at took
    split at took <;> cases took
    rename_i fresh
    exact fresh

variable {file : SealedFile}

theorem file_of_front (nodup : vault.Distinct) {other : SealedFile}
    (mem : file ∈ vault) (among : other ∈ vault) (marshalled : kit.marshal file.header = some text)
    (also : kit.marshal other.header = some another)
    (same : sealPrefix text = sealPrefix another) : file = other := by
  have texts := sealPrefix_inj same
  have headers := (kit.unmarshal_marshal _ _ marshalled).symm.trans
    (texts ▸ kit.unmarshal_marshal _ _ also)
  have salts : some file.header.salt = some other.header.salt :=
    congrArg (Option.map SealHeader.salt) headers
  have salted : ∀ file : SealedFile, file.header.salt = file.salt := by
    intro file
    unfold SealedFile.header
    split <;> rfl
  rw [salted, salted, Option.some.injEq] at salts
  exact List.inj_on_of_nodup_map nodup mem among salts

theorem mem_chunks {chunk : Chunk UInt8} (mem : chunk ∈ file.chunks kit) :
    chunk ∈ cut kit.sealChunk 0 file.plain.val ∧ chunk.index < file.sealed := by
  obtain ⟨place, got⟩ := List.mem_iff_getElem?.mp mem
  rw [SealedFile.chunks, List.getElem?_take] at got
  split at got
  · rename_i inside
    have position := (cut_at got).1
    exact ⟨List.mem_of_getElem? got, by omega⟩
  · cases got

theorem chunk_index_lt {size : Nat} (fits : stream.length < 2 ^ 63)
    {chunk : Chunk UInt8} (mem : chunk ∈ cut size 0 stream) : chunk.index < 2 ^ 64 := by
  obtain ⟨place, got⟩ := List.mem_iff_getElem?.mp mem
  have position := (cut_at got).1
  have inside := (List.getElem?_eq_some_iff.mp got).1
  have length : (cut size 0 stream).length ≤ stream.length + 1 := length_cut_le 0 stream
  omega

theorem openChunks_whole (nodup : vault.Distinct) (fits : stream.length < 2 ^ 63)
    (opened : openChunks kit vault key additional (cut (kit.sealChunk + overhead) 0 stream) = .ok plain) :
    ∃ file ∈ vault, ∃ text, kit.marshal file.header = some text ∧ additional = sealPrefix text ∧
      key = fileKey kit (file.domainKey kit) file.name file.salt ∧ file.whole kit ∧
      plain = file.plain.val := by
  obtain ⟨got, data, places, each⟩ := openChunks_ok opened
  have lengths : got.length = (cut (kit.sealChunk + overhead) 0 stream).length := by
    simpa using congrArg List.length places
  have some_ : got ≠ [] := by
    intro none
    have pieces : 0 < (cut (kit.sealChunk + overhead) 0 stream).length :=
      List.length_pos_of_ne_nil (cut_ne_nil 0 stream)
    rw [none] at lengths
    simp only [List.length_nil] at lengths
    omega
  -- The piece of the stream that a chunk was opened from has its index and its mark.
  have piece : ∀ (place : Nat) (chunk : Chunk UInt8), got[place]? = some chunk →
      ∃ other, (cut (kit.sealChunk + overhead) 0 stream)[place]? = some other ∧
        chunk.index = other.index ∧ chunk.last = other.last := by
    intro place chunk here
    have mapped := congrArg (fun list => list[place]?) places
    simp only [List.getElem?_map, here, Option.map_some] at mapped
    obtain ⟨other, there, same⟩ := Option.map_eq_some_iff.mp mapped.symm
    simp only [Prod.mk.injEq] at same
    exact ⟨other, there, same.1.symm, same.2.symm⟩
  have first : ∃ chunk, chunk ∈ got := List.exists_mem_of_ne_nil got some_
  obtain ⟨chunk, mem⟩ := first
  obtain ⟨sealed, opens⟩ := each chunk mem
  obtain ⟨file, filed, text, marshalled, front, keyed, _⟩ := opens_sealed opens
  have among : ∀ chunk ∈ got, chunk ∈ file.chunks kit := by
    intro chunk mem
    obtain ⟨sealed, opens⟩ := each chunk mem
    obtain ⟨other, alsoFiled, another, alsoMarshalled, alsoFront, _, held, inside, nonce, same⟩ :=
      opens_sealed opens
    have one := file_of_front nodup filed alsoFiled marshalled alsoMarshalled
      (front.symm.trans alsoFront)
    subst one
    obtain ⟨place, here⟩ := List.mem_iff_getElem?.mp mem
    obtain ⟨part, there, index, _⟩ := piece place chunk here
    have small := chunk_index_lt fits (List.mem_of_getElem? there)
    obtain ⟨indices, marks⟩ := chunkNonce_inj (index ▸ small)
      (chunk_index_lt file.plain.property (mem_chunks inside).1) nonce
    have equal : chunk = held := by
      cases chunk
      cases held
      simp_all
    exact equal ▸ inside
  have all : got = cut kit.sealChunk 0 file.plain.val := by
    refine whole_of_matches some_ ?_ ?_ fun chunk mem => (mem_chunks (among chunk mem)).1
    · intro place chunk here
      obtain ⟨other, there, index, _⟩ := piece place chunk here
      rw [index, (cut_at there).1, Nat.zero_add]
    · intro place chunk here
      obtain ⟨other, there, _, last⟩ := piece place chunk here
      rw [last, (cut_at there).2, lengths]
  refine ⟨file, filed, text, marshalled, front, keyed, ?_, ?_⟩
  · have positive := List.length_pos_of_ne_nil some_
    obtain ⟨final, atEnd⟩ : ∃ final, got[got.length - 1]? = some final :=
      ⟨_, List.getElem?_eq_getElem (by omega)⟩
    have bound := (mem_chunks (among final (List.mem_of_getElem? atEnd))).2
    rw [all] at atEnd
    have position := (cut_at atEnd).1
    rw [SealedFile.whole, ← all]
    rw [← all] at position
    omega
  · rw [data, all, cut_data]

variable {keyFor : SealHeader → Except SealError Bytes}

/-- The header of the file as it is read back. -/
def SealedFile.reread (kit : SealKit) (file : SealedFile) : SealHeader :=
  { file.header with
    context := { file.header.context with expires := kit.reread file.header.context.expires } }

theorem openFile_sealed (nodup : vault.Distinct) {name : String} (fits : bytes.length < 2 ^ 63)
    (opened : openFile kit vault name keyFor bytes = .ok (header, plain)) :
    ∃ file ∈ vault, file.name = name ∧ file.whole kit ∧ plain = file.plain.val ∧
      keyFor (file.reread kit) = .ok (file.domainKey kit) := by
  unfold openFile at opened
  split at opened
  · cases opened
  · rename_i got additional stream read
    split at opened
    · cases opened
    · rename_i domainKey judged
      split at opened
      · cases opened
      · rename_i text unsealed
        simp only [Except.ok.injEq, Prod.mk.injEq] at opened
        obtain ⟨rfl, rfl⟩ := opened
        obtain ⟨front, body, length, whole, parsed, short⟩ := readSealHeader_ok read
        obtain ⟨file, mem, text, marshalled, same, key, complete, data⟩ :=
          openChunks_whole nodup (by omega) unsealed
        have bodies : body = text := by
          have split : front ++ body = (sealMagic ++ bigEndian 4 text.length) ++ text := by
            rw [← whole, same, sealPrefix, List.append_assoc]
          exact (List.append_inj split (by simp [length])).2
        subst bodies
        have decoded : got = file.reread kit :=
          Option.some.inj (parsed.symm.trans (kit.unmarshal_marshal _ _ marshalled))
        have salted : got.salt = file.salt := by
          rw [decoded]
          change file.header.salt = file.salt
          unfold SealedFile.header
          split <;> rfl
        rw [salted] at key
        obtain ⟨keys, names⟩ := kit.hkdf_inj _ _ _ _ _ key
        have named : name = file.name := String.append_right_inj _ |>.mp names
        exact ⟨file, mem, named.symm, complete, data, decoded ▸ keys ▸ judged⟩

theorem not_pushable_tmp (name : String) : ¬pushable (name ++ ".open.tmp") = true := by
  intro pushes
  simp only [pushable, Bool.and_eq_true, Bool.not_eq_true'] at pushes
  have suffix : ".tmp".toList <:+ (name ++ ".open.tmp").toList := by
    refine ⟨name.toList ++ ".open".toList, ?_⟩
    rw [String.toList_append, List.append_assoc]
    rfl
  rw [List.isSuffixOf_iff_suffix.mpr suffix] at pushes
  exact absurd pushes.2 (by decide)

variable {dir final : Dir}

theorem mem_pushableNames {name : String} (mem : name ∈ pushableNames dir) :
    pushable name = true := by
  rw [pushableNames, Ledger.sortIDs, List.mem_insertionSort, List.mem_filter] at mem
  exact mem.2

theorem pushableNames_distinct (dir : Dir) : (pushableNames dir).Nodup := by
  rw [pushableNames, Ledger.sortIDs]
  exact (List.perm_insertionSort _ _).nodup_iff.mpr ((rows_distinct dir).filter _)

variable {context : Option SealContext}

theorem openNames_sealed (nodup : vault.Distinct)
    {names : List String} (pushed : ∀ name ∈ names, pushable name = true) (once : names.Nodup)
    {got : Option SealContext}
    (opened : openNames kit vault keyFor names got dir = .ok (context, final)) :
    (∀ name, pushable name = true → name ∉ names → final.get name = dir.get name) ∧
      ∀ name ∈ names, ∃ file ∈ vault, file.name = name ∧ file.whole kit ∧
        final.get name = some file.plain ∧ keyFor (file.reread kit) = .ok (file.domainKey kit) := by
  induction names generalizing got dir with
  | nil =>
    simp only [openNames, Except.ok.injEq, Prod.mk.injEq] at opened
    exact ⟨fun name _ _ => by rw [opened.2], by simp⟩
  | cons name names ih =>
    rw [openNames] at opened
    split at opened
    · cases opened
    · rename_i sealed held
      split at opened
      · cases opened
      · rename_i header plain unsealed
        split at opened
        · cases opened
        · split at opened
          · cases opened
          · rename_i file written
            obtain ⟨gone, distinctRest⟩ := List.nodup_cons.mp once
            obtain ⟨others, each⟩ := ih (fun other mem => pushed other (by simp [mem]))
              distinctRest opened
            have temp : ∀ other, pushable other = true → other ≠ name ++ ".open.tmp" := by
              rintro other pushes rfl
              exact not_pushable_tmp name pushes
            refine ⟨?_, ?_⟩
            · intro other pushes outside
              rw [List.mem_cons, not_or] at outside
              rw [others other pushes outside.2, get_put_other _ _ outside.1,
                get_drop_other _ (temp other pushes)]
            · intro other mem
              rcases List.mem_cons.mp mem with rfl | later
              · obtain ⟨found, filed, named, whole, data, judged⟩ :=
                  openFile_sealed nodup sealed.property unsealed
                refine ⟨found, filed, named, whole, ?_, judged⟩
                rw [others other (pushed other (by simp)) gone, get_put_same]
                have contents := File.of_val written
                exact congrArg some (Subtype.ext (contents.trans data))
              · exact each other later

theorem openDirWith_sealed (nodup : vault.Distinct)
    (opened : openDirWith kit vault keyFor dir = .ok (context, final)) :
    ∀ name ∈ pushableNames dir, ∃ file ∈ vault, file.name = name ∧ file.whole kit ∧
      final.get name = some file.plain ∧ keyFor (file.reread kit) = .ok (file.domainKey kit) := by
  rw [openDirWith] at opened
  split at opened
  · cases opened
  · exact (openNames_sealed nodup (fun _ mem => mem_pushableNames mem)
      (pushableNames_distinct dir) opened).2

theorem infoDelta_ne_infoParent (domain sha : String) :
    infoDelta ++ domain ≠ infoParent ++ parentDomain ++ sha := by
  intro same
  have lists := congrArg String.toList same
  simp only [String.toList_append, List.append_assoc] at lists
  have letters := congrArg (fun list => list[7]?) lists
  exact absurd letters (by simp [infoDelta, infoParent])

/-- The file was sealed as a delta of the domain and the session, under the master key. -/
def SealedFile.IsDelta (key : SealKey) (domain session : String) (file : SealedFile) : Prop :=
  ∃ owner context, file.kind = .delta owner context ∧ owner.key = key.key ∧
    context.domain = domain ∧ context.session = session

/-- The file was sealed as a part of the parent with the hash, under the master key. -/
def SealedFile.IsParent (key : SealKey) (sha : String) (file : SealedFile) : Prop :=
  ∃ owner, file.kind = .parent owner sha ∧ owner.key = key.key

def SealedFile.IsImages (sha : String) (file : SealedFile) : Prop :=
  ∃ keyID wrap contentKey, file.kind = .images keyID sha wrap contentKey

theorem isDelta_of_keyFor {key : SealKey} {domain session : String} {now : Time}
    (judged : deltaKeyFor kit key domain session now (file.reread kit) = .ok (file.domainKey kit)) :
    file.IsDelta key domain session := by
  unfold deltaKeyFor at judged
  split_ifs at judged with _ wrapped bound
  rw [Except.ok.injEq] at judged
  cases sort : file.kind with
  | delta owner context =>
    simp only [SealedFile.domainKey, sort] at judged
    obtain ⟨keys, infos⟩ := kit.hkdf_inj _ _ _ _ _ judged
    refine ⟨owner, context, sort, keys.symm, (String.append_right_inj _).mp infos.symm, ?_⟩
    by_contra other
    exact bound (.inr (by simpa [SealedFile.reread, SealedFile.header, sort] using other))
  | parent owner sha =>
    simp only [SealedFile.domainKey, sort] at judged
    exact (infoDelta_ne_infoParent _ _ (kit.hkdf_inj _ _ _ _ _ judged).2).elim
  | images keyID sha wrap contentKey =>
    simp [SealedFile.reread, SealedFile.header, sort] at wrapped

theorem isParent_of_keyFor {key : SealKey} {sha : String}
    (judged : parentKeyFor kit key sha (file.reread kit) = .ok (file.domainKey kit)) :
    file.IsParent key sha := by
  unfold parentKeyFor at judged
  split_ifs at judged with _ wrapped
  rw [Except.ok.injEq] at judged
  cases sort : file.kind with
  | delta owner context =>
    simp only [SealedFile.domainKey, sort] at judged
    exact (infoDelta_ne_infoParent _ _ (kit.hkdf_inj _ _ _ _ _ judged).2.symm).elim
  | parent owner other =>
    simp only [SealedFile.domainKey, sort] at judged
    obtain ⟨keys, infos⟩ := kit.hkdf_inj _ _ _ _ _ judged
    have hashes : sha = other := (String.append_right_inj _).mp infos
    exact ⟨owner, hashes ▸ sort, keys.symm⟩
  | images keyID other wrap contentKey =>
    simp [SealedFile.reread, SealedFile.header, sort] at wrapped

theorem isImages_of_keyFor {key : SealKey} {carried : ImagesSeal} {contentKey : Bytes}
    (judged : imagesKeyFor kit key carried (file.reread kit) = .ok contentKey) :
    file.IsImages carried.sha256 := by
  unfold imagesKeyFor at judged
  split at judged
  · cases judged
  · split at judged
    · cases judged
    · rename_i wrap wrapped
      split at judged
      · cases judged
      · rename_i context
        rw [Bool.not_eq_true, Bool.not_eq_false', sameSealContext, decide_eq_true_eq] at context
        cases sort : file.kind with
        | delta owner other | parent owner sha =>
          simp [SealedFile.reread, SealedFile.header, sort] at wrapped
        | images keyID sha other contentKey =>
          have domains := congrArg SealContext.domain context
          simp only [SealedFile.reread, SealedFile.header, sort, imagesContext] at domains
          have hashes : sha = carried.sha256 := (String.append_right_inj _).mp domains
          exact ⟨keyID, other, contentKey, hashes ▸ sort⟩

/-- Whatever directory is opened, each of its files comes out as one whole file that was sealed
under its name, as what the opener asked for. -/
theorem opened_files_were_sealed (reached : (sealMachine kit).Reachable vault) :
    (∀ key domain session now dir context final,
      openDir kit vault (some key) domain session now dir = .ok (context, final) →
      ∀ name ∈ pushableNames dir, ∃ file ∈ vault, file.IsDelta key domain session ∧
        file.name = name ∧ file.whole kit ∧ final.get name = some file.plain) ∧
    (∀ key sha dir final, openParentDir kit vault (some key) sha dir = .ok final →
      ∀ name ∈ pushableNames dir, ∃ file ∈ vault, file.IsParent key sha ∧
        file.name = name ∧ file.whole kit ∧ final.get name = some file.plain) ∧
    (∀ key carried src plain, openImages kit vault (some key) carried src = .ok plain →
      ∃ file ∈ vault, file.IsImages carried.sha256 ∧ file.name = fileImages ∧ file.whole kit ∧
        plain = file.plain.val) := by
  have distinct := salts_distinct reached
  refine ⟨?_, ?_, ?_⟩
  · intro key domain session now dir context final opened name member
    obtain ⟨file, filed, named, whole, held, judged⟩ :=
      openDirWith_sealed distinct opened name member
    exact ⟨file, filed, isDelta_of_keyFor judged, named, whole, held⟩
  · intro key sha dir final opened name member
    simp only [openParentDir] at opened
    split at opened
    · cases opened
    · cases result : openDirWith kit vault (parentKeyFor kit key sha) dir with
      | error error => simp [result, Except.map] at opened
      | ok value =>
        simp only [result, Except.map] at opened
        cases opened
        obtain ⟨file, filed, named, whole, held, judged⟩ :=
          openDirWith_sealed distinct result name member
        exact ⟨file, filed, isParent_of_keyFor judged, named, whole, held⟩
  · intro key carried src plain opened
    simp only [openImages] at opened
    split at opened
    · cases opened
    · split at opened
      · cases opened
      · split at opened
        · cases opened
        · rename_i header text unsealed
          split at opened <;> cases opened
          obtain ⟨file, filed, named, whole, data, judged⟩ :=
            openFile_sealed distinct src.property unsealed
          exact ⟨file, filed, isImages_of_keyFor judged, named, whole, data⟩

def byteCode (bytes : Bytes) : List Nat := bytes.map UInt8.toNat

def codeBytes (code : List Nat) : Bytes := code.map UInt8.ofNat

theorem codeBytes_byteCode (bytes : Bytes) : codeBytes (byteCode bytes) = bytes := by
  simp [codeBytes, byteCode, Function.comp_def]

def SealHeader.rows (header : SealHeader) : List (List Nat) :=
  [stringCode header.key, byteCode header.salt, stringCode header.context.domain,
    stringCode header.context.session, stringCode header.context.fence, [header.context.expires]] ++
    header.wrap.toList.flatMap fun wrap => [byteCode wrap.enc, byteCode wrap.wrapped]

def headerOfRows : List (List Nat) → Option SealHeader
  | key :: salt :: domain :: session :: fence :: [expires] :: wrap =>
    some
      { key := codeString key, salt := codeBytes salt
        context := ⟨codeString domain, codeString session, codeString fence, expires⟩
        wrap :=
          match wrap with
          | [enc, wrapped] => some ⟨codeBytes enc, codeBytes wrapped⟩
          | _ => none }
  | _ => none

theorem headerOfRows_rows (header : SealHeader) : headerOfRows header.rows = some header := by
  obtain ⟨key, salt, context, wrap⟩ := header
  cases wrap with
  | none | some wrap =>
    simp [SealHeader.rows, headerOfRows, codeString_stringCode, codeBytes_byteCode]

def paired (first second : Bytes) : Bytes :=
  List.replicate first.length 1 ++ 0 :: (first ++ second)

theorem paired_inj {first second : Bytes}
    (same : paired first second = paired other another) : first = other ∧ second = another := by
  have counts : ∀ (count number : Nat) (rest tail : Bytes),
      List.replicate count 1 ++ 0 :: rest = List.replicate number 1 ++ 0 :: tail →
        count = number ∧ rest = tail := by
    intro count
    induction count with
    | zero =>
      intro number rest tail same
      cases number with
      | zero => simpa using same
      | succ number => simp [List.replicate_succ] at same
    | succ count ih =>
      intro number rest tail same
      cases number with
      | zero => simp [List.replicate_succ] at same
      | succ number =>
        simp only [List.replicate_succ, List.cons_append, List.cons.injEq, true_and] at same
        obtain ⟨equal, rests⟩ := ih number rest tail same
        exact ⟨by rw [equal], rests⟩
  obtain ⟨lengths, texts⟩ := counts _ _ _ _ same
  exact List.append_inj texts lengths

def letterBytes (text : String) : Bytes := text.toList.flatMap fun letter => bigEndian 3 letter.toNat

theorem letterBytes_inj {text other : String} (same : letterBytes text = letterBytes other) :
    text = other := by
  have lists : ∀ letters others : List Char,
      (letters.flatMap fun letter => bigEndian 3 letter.toNat) =
        (others.flatMap fun letter => bigEndian 3 letter.toNat) → letters = others := by
    intro letters
    induction letters with
    | nil =>
      intro others same
      cases others with
      | nil => rfl
      | cons other others =>
        have lengths := congrArg List.length same
        simp only [List.flatMap_nil, List.length_nil, List.flatMap_cons, List.length_append,
          length_bigEndian] at lengths
        omega
    | cons letter letters ih =>
      intro others same
      cases others with
      | nil =>
        have lengths := congrArg List.length same
        simp at lengths
      | cons other others =>
        rw [List.flatMap_cons, List.flatMap_cons] at same
        obtain ⟨here, rest⟩ := List.append_inj same (by simp)
        have small : ∀ letter : Char, letter.toNat < 256 ^ 3 := by
          intro letter
          rcases letter.valid with low | ⟨_, high⟩
          · exact Nat.lt_trans low (by decide)
          · exact Nat.lt_trans high (by decide)
        rw [Char.toNat_inj.mp (bigEndian_inj (small letter) (small other) here), ih _ rest]
  exact String.toList_inj.mp (lists _ _ same)

/-- Chunks of two bytes, and keys that spell out what they are derived from. -/
def plainSealKit : SealKit where
  sealChunk := 2
  marshal header := some (rowsText header.rows)
  unmarshal text := headerOfRows (readRows 0 [] [] text)
  reread := id
  hkdf secret salt info := paired secret (paired salt (letterBytes info))
  gcm _ _ _ plain := plain ++ List.replicate 16 0
  sha256 bytes := String.ofList (List.replicate 63 '0' ++ [if bytes.length % 2 = 0 then 'a' else 'b'])
  publicKey := id
  wrapKID bytes := String.ofList (List.replicate bytes.length '#')
  wrapKey _ _ coins contentKey := ⟨coins, contentKey⟩
  unwrapKey _ _ _ wrapped := some wrapped
  unmarshal_marshal header text marshalled := by
    rw [← Option.some.inj marshalled, readRows_rowsText, List.nil_append]
    exact headerOfRows_rows header
  hkdf_inj secret other salt info another same := by
    obtain ⟨secrets, rest⟩ := paired_inj same
    exact ⟨secrets, letterBytes_inj (paired_inj rest).2⟩

def plainSealKey : SealKey := ⟨"k", [7]⟩

def sealCalls : List SealCall :=
  [.sealDir (((∅ : Dir).put "a" (fileOf [1, 2, 3, 4, 5])).put "b" (fileOf [])) plainSealKey
      { domain := "d", session := "s", expires := 9 } [⟨[0], 3⟩, ⟨[1], 1⟩],
    .sealDir ((∅ : Dir).put "a" (fileOf [1, 2, 3])) plainSealKey
      { domain := "d", session := "t", expires := 9 } [⟨[2], 1⟩]]

def plainVault : Vault := ((sealMachine plainSealKit).exec [] sealCalls).getD []

def sealedDir : Dir :=
  (plainVault.take 2).foldl (fun dir file =>
    dir.put file.name (fileOf ((file.bytes plainSealKit).getD []))) ∅

theorem sealed_files_open :
    ∃ context final, openDir plainSealKit plainVault (some plainSealKey) "d" "s" 1 sealedDir =
        .ok (context, final) ∧
      ∀ name ∈ pushableNames sealedDir, ∃ file ∈ plainVault,
        file.IsDelta plainSealKey "d" "s" ∧ file.name = name ∧ file.whole plainSealKit ∧
          final.get name = some file.plain := by
  have ran : ((sealMachine plainSealKit).exec [] sealCalls).isSome = true := by decide +kernel
  have reached : (sealMachine plainSealKit).Reachable plainVault := by
    refine ⟨[], sealCalls, rfl, ?_⟩
    obtain ⟨vault, run⟩ := Option.isSome_iff_exists.mp ran
    rw [plainVault, run]
    rfl
  have opens : (openDir plainSealKit plainVault (some plainSealKey) "d" "s" 1
      sealedDir).toOption.isSome = true := by decide +kernel
  cases opened : openDir plainSealKit plainVault (some plainSealKey) "d" "s" 1 sealedDir with
  | error error => simp [opened, Except.toOption] at opens
  | ok result =>
    exact ⟨result.1, result.2, rfl,
      (opened_files_were_sealed reached).1 _ _ _ _ _ _ _ opened⟩

end Fiberd
