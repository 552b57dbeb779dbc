import Fiberd.File
import Fiberd.Ledger.LedgerCore
import Fiberd.Lib.Chunks
import Fiberd.Lib.Machines

/-!
Sealed directories, from `pkg/artifact/seal.go`, `seal_parent.go` and `wrap.go`.
The vault is every seal that was made: AES-GCM is ideal, so a chunk opens only if
it is one of them.  A directory is its regular files, which is all that a pull or
an unpacked archive puts into one.
-/

namespace Fiberd

open Messages Chunks Tables Machines

/-- The text of a constant, whose characters are ASCII. -/
def asciiBytes (text : String) : Bytes := text.toList.map fun letter => UInt8.ofNat letter.toNat

def sealMagic : Bytes := asciiBytes "fiberd-seal-v1\n"

/-- What AES-GCM adds to a chunk. -/
def overhead : Nat := 16

def infoDelta : String := "fiberd-delta-v1 domain:"

def infoParent : String := "fiberd-parent-v1 "

def infoWrap : String := "fiberd-template-wrap-v1"

def infoImages : String := "fiberd-images-v1 "

def parentDomain : String := "parent:"

def imagesDomain : String := "images:"

def fileImages : String := "images.tar"

/-- The master key that deltas are sealed under. -/
structure SealKey where
  id : String
  key : Bytes
  deriving DecidableEq, Repr

/-- What a sealed file is bound to.  The zero expiry is never. -/
structure SealContext where
  domain : String
  session : String := ""
  fence : String := ""
  expires : Time := 0
  deriving DecidableEq, Repr

structure WrapHeader where
  enc : Bytes
  wrapped : Bytes
  deriving DecidableEq, Repr

structure SealHeader where
  key : String
  salt : Bytes := []
  context : SealContext
  wrap : Option WrapHeader := none
  deriving DecidableEq, Repr

structure ImagesSeal where
  keyID : String
  enc : Bytes
  wrapped : Bytes
  sha256 : String
  deriving DecidableEq, Repr

inductive SealError where
  | noKey
  | noExpiry
  | notSHA256 (sha : String)
  | notSealed
  | longHeader (size : Nat)
  | cutHeader
  | badHeader
  | otherKey (sealed own : String)
  | otherKind
  | otherContext
  | expired
  | otherWrap
  | noUnwrap
  | chunk (index : Nat)
  | nothingSealed
  | mixedContexts
  | otherHash
  | failed
  deriving DecidableEq, Repr

/-- The cryptography and the text of a header.  `hkdf` takes its secret, its salt and its info. -/
structure SealKit where
  /-- How much of a file goes into one chunk. -/
  sealChunk : Nat := 1048576
  marshal : SealHeader → Option Bytes
  unmarshal : Bytes → Option SealHeader
  /-- What is left of an expiry in its text. -/
  reread : Time → Time
  hkdf : Bytes → Bytes → String → Bytes
  gcm : (key nonce additional plain : Bytes) → Bytes
  sha256 : Bytes → String
  publicKey : Bytes → Bytes
  wrapKID : Bytes → String
  wrapKey : (publicKey : Bytes) → (info : String) → (coins contentKey : Bytes) → WrapHeader
  unwrapKey : (seed enc : Bytes) → (info : String) → (wrapped : Bytes) → Option Bytes
  unmarshal_marshal : ∀ header text, marshal header = some text → unmarshal text =
    some { header with
      context := { header.context with expires := reread header.context.expires } }
  hkdf_inj : ∀ secret other salt info another, hkdf secret salt info = hkdf other salt another →
    secret = other ∧ info = another

def parentContext (sha : String) : SealContext := { domain := parentDomain ++ sha }

def imagesContext (sha : String) : SealContext := { domain := imagesDomain ++ sha }

def imagesInfo (keyID sha : String) : String :=
  infoImages ++ imagesDomain ++ sha ++ " key:" ++ keyID

def checkSHA256Hex (sha : String) : Bool :=
  decide (sha.utf8ByteSize = 64) &&
    sha.toList.all fun letter =>
      decide ('0' ≤ letter ∧ letter ≤ '9') || decide ('a' ≤ letter ∧ letter ≤ 'f')

def sameSealContext (context other : SealContext) : Bool := decide (context = other)

/-- Whose key a file is sealed under, and what its header says. -/
inductive SealKind where
  | delta (key : SealKey) (context : SealContext)
  | parent (key : SealKey) (sha : String)
  | images (keyID sha : String) (wrap : WrapHeader) (contentKey : Bytes)
  deriving DecidableEq, Repr

section Keys

variable (kit : SealKit)

def deltaKey (key : SealKey) (domain : String) : Bytes := kit.hkdf key.key [] (infoDelta ++ domain)

def parentKey (key : SealKey) (sha : String) : Bytes :=
  kit.hkdf key.key [] (infoParent ++ parentDomain ++ sha)

def fileKey (domainKey : Bytes) (name : String) (salt : Bytes) : Bytes :=
  kit.hkdf domainKey salt ("file:" ++ name)

def wrapSeed (key : SealKey) : Bytes := kit.hkdf key.key [] infoWrap

/-- The id of the pair that `DeriveWrapKey` derives. -/
def wrapID (key : SealKey) : String := kit.wrapKID (kit.publicKey (wrapSeed kit key))

end Keys

def chunkNonce (index : Nat) (last : Bool) : Bytes :=
  [0, 0, 0] ++ bigEndian 8 index ++ [if last then 1 else 0]

def sealPrefix (text : Bytes) : Bytes := sealMagic ++ (bigEndian 4 text.length ++ text)

/-- A file that `sealFile` was called for, with how many of its chunks it came to seal. -/
structure SealedFile where
  kind : SealKind
  name : String
  salt : Bytes
  plain : File
  sealed : Nat
  deriving DecidableEq

structure GcmSeal where
  key : Bytes
  nonce : Bytes
  additional : Bytes
  plain : Bytes
  deriving DecidableEq, Repr

namespace SealedFile

variable (kit : SealKit) (file : SealedFile)

def header : SealHeader :=
  match file.kind with
  | .delta key context => { key := key.id, salt := file.salt, context }
  | .parent key sha => { key := key.id, salt := file.salt, context := parentContext sha }
  | .images keyID sha wrap _ =>
    { key := keyID, salt := file.salt, context := imagesContext sha, wrap := some wrap }

def domainKey : Bytes :=
  match file.kind with
  | .delta key context => deltaKey kit key context.domain
  | .parent key sha => parentKey kit key sha
  | .images _ _ _ contentKey => contentKey

def chunks : List (Chunk UInt8) := (cut kit.sealChunk 0 file.plain.val).take file.sealed

def whole : Prop := (cut kit.sealChunk 0 file.plain.val).length ≤ file.sealed

def seals : List GcmSeal :=
  match kit.marshal file.header with
  | none => []
  | some text => (file.chunks kit).map fun chunk =>
    ⟨fileKey kit (file.domainKey kit) file.name file.salt, chunkNonce chunk.index chunk.last,
      sealPrefix text, chunk.data⟩

def bytes : Option Bytes :=
  (kit.marshal file.header).map fun text => sealPrefix text ++
    (file.seals kit).flatMap fun made => kit.gcm made.key made.nonce made.additional made.plain

end SealedFile

abbrev Vault := List SealedFile

def Vault.log (kit : SealKit) (vault : Vault) : List GcmSeal :=
  vault.flatMap fun file => file.seals kit

/-- The ideal cipher: what opens was sealed under the same key, nonce and additional data. -/
def Vault.opens (kit : SealKit) (vault : Vault) (key nonce sealed additional : Bytes) :
    Option Bytes :=
  ((vault.log kit).find? fun made =>
    decide (made.key = key ∧ made.nonce = nonce ∧ made.additional = additional ∧
      kit.gcm made.key made.nonce made.additional made.plain = sealed)).map GcmSeal.plain

abbrev Dir := Table String File

def pushable (name : String) : Bool :=
  !(".log".toList.isSuffixOf name.toList) && !(".tmp".toList.isSuffixOf name.toList)

def pushableNames (dir : Dir) : List String :=
  Ledger.sortIDs ((dir.rows.map Prod.fst).filter pushable)

/-- What is drawn and what goes wrong for one file: its salt, and the chunks it came to seal. -/
structure SealCoins where
  salt : Bytes
  sealed : Nat
  deriving DecidableEq, Repr

/-- The files of a directory that `sealDirWith` comes to seal, as many as there are coins. -/
def sealDirWith (src : Dir) (kind : SealKind) (coins : List SealCoins) : List SealedFile :=
  ((pushableNames src).zip coins).filterMap fun drawn =>
    (src.get drawn.1).map fun plain => ⟨kind, drawn.1, drawn.2.salt, plain, drawn.2.sealed⟩

inductive SealCall where
  | sealDir (src : Dir) (key : SealKey) (context : SealContext) (coins : List SealCoins)
  | sealParentDir (src : Dir) (key : SealKey) (sha : String) (coins : List SealCoins)
  /-- The tar is read twice, to hash it and to seal it. -/
  | sealImages (hashed plain : File) (keyID : String) (publicKey contentKey wrapCoins : Bytes)
      (coins : SealCoins)

def SealCall.files (kit : SealKit) : SealCall → List SealedFile
  | .sealDir src key context coins =>
    if context.expires = 0 then [] else sealDirWith src (.delta key context) coins
  | .sealParentDir src key sha coins =>
    if checkSHA256Hex sha then sealDirWith src (.parent key sha) coins else []
  | .sealImages hashed plain keyID publicKey contentKey wrapCoins coins =>
    let sha := kit.sha256 hashed.val
    let wrap := kit.wrapKey publicKey (imagesInfo keyID sha) wrapCoins contentKey
    [⟨.images keyID sha wrap contentKey, fileImages, coins.salt, plain, coins.sealed⟩]

/-- Any calls of the sealers, each of which draws salts that were not drawn before. -/
def sealMachine (kit : SealKit) : Machine Vault SealCall where
  start vault := vault = []
  step vault call :=
    if ((vault ++ call.files kit).map SealedFile.salt).Nodup then some (vault ++ call.files kit)
    else none

section Open

variable (kit : SealKit) (vault : Vault)

def readSealHeader (bytes : Bytes) : Except SealError (SealHeader × Bytes × Bytes) :=
  let front := bytes.take (sealMagic.length + 4)
  let size := ofBigEndian (front.drop sealMagic.length)
  let text := (bytes.drop (sealMagic.length + 4)).take size
  if front.length < sealMagic.length + 4 ∨ front.take sealMagic.length ≠ sealMagic then
    .error .notSealed
  else if size > 65536 then .error (.longHeader size)
  else if text.length < size then .error .cutHeader
  else
    match kit.unmarshal text with
    | none => .error .badHeader
    | some header =>
      .ok (header, front ++ text, (bytes.drop (sealMagic.length + 4)).drop size)

def openChunks (key additional : Bytes) : List (Chunk UInt8) → Except SealError Bytes
  | [] => .ok []
  | chunk :: chunks =>
    match vault.opens kit key (chunkNonce chunk.index chunk.last) chunk.data additional with
    | none => .error (.chunk chunk.index)
    | some plain =>
      match openChunks key additional chunks with
      | .error error => .error error
      | .ok rest => .ok (plain ++ rest)

def openFile (name : String) (keyFor : SealHeader → Except SealError Bytes) (bytes : Bytes) :
    Except SealError (SealHeader × Bytes) :=
  match readSealHeader kit bytes with
  | .error error => .error error
  | .ok (header, additional, stream) =>
    match keyFor header with
    | .error error => .error error
    | .ok domainKey =>
      match openChunks kit vault (fileKey kit domainKey name header.salt) additional
        (cut (kit.sealChunk + overhead) 0 stream) with
      | .error error => .error error
      | .ok plain => .ok (header, plain)

def openNames (keyFor : SealHeader → Except SealError Bytes) :
    List String → Option SealContext → Dir → Except SealError (Option SealContext × Dir)
  | [], got, dir => .ok (got, dir)
  | name :: names, got, dir =>
    match dir.get name with
    | none => .error .failed
    | some file =>
      match openFile kit vault name keyFor file.val with
      | .error error => .error error
      | .ok (header, plain) =>
        if got.any fun context => !sameSealContext context header.context then
          .error .mixedContexts
        else
          match File.of plain with
          | none => .error .failed
          | some opened =>
            openNames keyFor names (some header.context)
              ((Table.drop dir (name ++ ".open.tmp")).put name opened)

def openDirWith (keyFor : SealHeader → Except SealError Bytes) (dir : Dir) :
    Except SealError (Option SealContext × Dir) :=
  if pushableNames dir = [] then .error .nothingSealed
  else openNames kit vault keyFor (pushableNames dir) none dir

def deltaKeyFor (key : SealKey) (domain session : String) (now : Time) (header : SealHeader) :
    Except SealError Bytes :=
  if header.key ≠ key.id then .error (.otherKey header.key key.id)
  else if header.wrap ≠ none then .error .otherKind
  else if header.context.domain ≠ domain ∨ header.context.session ≠ session then
    .error .otherContext
  else if header.context.expires = 0 then .error .expired
  else if ¬now < header.context.expires then .error .expired
  else .ok (deltaKey kit key domain)

def openDir (key : Option SealKey) (domain session : String) (now : Time) (dir : Dir) :
    Except SealError (Option SealContext × Dir) :=
  match key with
  | none => .error .noKey
  | some key => openDirWith kit vault (deltaKeyFor kit key domain session now) dir

def parentKeyFor (key : SealKey) (sha : String) (header : SealHeader) : Except SealError Bytes :=
  if header.key ≠ key.id then .error (.otherKey header.key key.id)
  else if header.wrap ≠ none then .error .otherKind
  else if !sameSealContext header.context (parentContext sha) then .error .otherContext
  else .ok (parentKey kit key sha)

def openParentDir (key : Option SealKey) (sha : String) (dir : Dir) : Except SealError Dir :=
  match key with
  | none => .error .noKey
  | some key =>
    if !checkSHA256Hex sha then .error (.notSHA256 sha)
    else (openDirWith kit vault (parentKeyFor kit key sha) dir).map Prod.snd

def imagesKeyFor (key : SealKey) (carried : ImagesSeal) (header : SealHeader) :
    Except SealError Bytes :=
  if header.key ≠ carried.keyID then .error (.otherKey header.key carried.keyID)
  else
    match header.wrap with
    | none => .error .otherKind
    | some wrap =>
      if !sameSealContext header.context (imagesContext carried.sha256) then .error .otherContext
      else if wrap.enc ≠ carried.enc ∨ wrap.wrapped ≠ carried.wrapped then .error .otherWrap
      else
        match kit.unwrapKey (wrapSeed kit key) wrap.enc (imagesInfo carried.keyID carried.sha256)
          wrap.wrapped with
        | none => .error .noUnwrap
        | some contentKey =>
          if contentKey.length ≠ 32 then .error .noUnwrap else .ok contentKey

def openImages (key : Option SealKey) (carried : ImagesSeal) (src : File) : Except SealError Bytes :=
  match key with
  | none => .error .noKey
  | some key =>
    if !checkSHA256Hex carried.sha256 then .error (.notSHA256 carried.sha256)
    else if carried.keyID ≠ wrapID kit key then .error (.otherKey carried.keyID (wrapID kit key))
    else
      match openFile kit vault fileImages (imagesKeyFor kit key carried) src.val with
      | .error error => .error error
      | .ok (_, plain) =>
        if kit.sha256 plain ≠ carried.sha256 then .error .otherHash else .ok plain

end Open

end Fiberd
