import OrbitRelay.Codec
import OrbitRelay.MachineInt
import OrbitRelay.Relational
import Mathlib.Data.List.AList
import Mathlib.Data.String.Basic

/-!
# The local Asset store

Rows of the `assets` table, the three directories, and what the store does to
them: the four commands of its worker, recovery at startup, and range reads.
The asset kernel (identities, descriptors, content hashes) is a parameter.
-/
namespace OrbitRelay.AssetStore

open Codec MachineInt Relational

abbrev Bytes := List UInt8

structure AssetKernel where
  AssetId : Type
  ContentHash : Type
  [decAssetId : DecidableEq AssetId]
  [decContentHash : DecidableEq ContentHash]
  assetId : TextForm AssetId
  hashText : ContentHash → String
  hashParse : String → Option ContentHash
  hashParse_text : ∀ c, hashParse (hashText c) = some c
  sha256 : Bytes → ContentHash
  /-- Whether `SourceAssetDescriptor::new` accepts its arguments. -/
  acceptsDescriptor : AssetId → String → Nat → ContentHash → Option String → Bool
  /-- Whether `AssetByteChunk::new` accepts its arguments. -/
  acceptsChunk : Nat → Bytes → Nat → Bool

attribute [instance] AssetKernel.decAssetId AssetKernel.decContentHash

variable {K : AssetKernel}

structure SourceAssetDescriptor (K : AssetKernel) where
  assetId : K.AssetId
  mediaType : String
  byteLength : Nat
  contentHash : K.ContentHash
  originalFilename : Option String
  length_le : byteLength ≤ u64Max
  valid : K.acceptsDescriptor assetId mediaType byteLength contentHash originalFilename = true
  deriving DecidableEq

inductive LocalAssetStoreError (K : AssetKernel) where
  | lengthOverflow (assetId : K.AssetId) (length : Nat)
  | lengthMismatch (assetId : K.AssetId) (expected actual : Nat)
  | hashMismatch (assetId : K.AssetId) (expected actual : K.ContentHash)
  | assetConflict (assetId : K.AssetId)
  | assetInProgress (assetId : K.AssetId)
  | backendUnavailable (detail : String)
  | backendFailure (detail : String)
  | filesystem (detail : String)
  | corruption (detail : String)
  deriving DecidableEq

def LocalAssetStoreError.safeDetail : LocalAssetStoreError K → String
  | .lengthOverflow _ _ => "Asset length overflow"
  | .lengthMismatch _ _ _ => "Asset length mismatch"
  | .hashMismatch _ _ _ => "Asset content hash mismatch"
  | .assetConflict _ => "Asset identity conflict"
  | .assetInProgress _ => "Asset ingest is in progress"
  | .backendUnavailable detail | .backendFailure detail | .filesystem detail | .corruption detail => detail

inductive AssetInsertOutcome where
  | inserted | existing
  deriving DecidableEq, Repr

inductive PublicationState where
  | staged | published
  deriving DecidableEq, Repr

def PublicationState.text : PublicationState → String
  | .staged => "staged"
  | .published => "published"

def PublicationState.parse (value : String) : Except (LocalAssetStoreError K) PublicationState :=
  if value = "staged" then .ok .staged
  else if value = "published" then .ok .published
  else .error (.corruption "unknown Asset publication state")

/-- A row of `assets`, without its key. -/
structure AssetRow where
  mediaType : String
  byteLength : Int
  contentHash : String
  originalFilename : Option String
  blobKey : String
  publicationState : String
  deriving DecidableEq, Repr

/-- The rows by their primary key `asset_id`. -/
abbrev AssetTable := AList (fun _ : String => AssetRow)

structure AssetRecord (K : AssetKernel) where
  descriptor : SourceAssetDescriptor K
  blobKey : String
  state : PublicationState

def blobKey (assetId : K.AssetId) : String := K.assetId.text assetId ++ ".blob"

def decodeRow (id : String) (row : AssetRow) : Except (LocalAssetStoreError K) (AssetRecord K) := do
  let assetId ← okOr (.corruption "Asset metadata identity is invalid") (K.assetId.parse id)
  let byteLength ← okOr (.corruption "Asset metadata byte length is invalid") (toU64 row.byteLength)
  let contentHash ← okOr (.corruption "Asset metadata content hash is invalid")
    (K.hashParse row.contentHash)
  if h : byteLength ≤ u64Max ∧
      K.acceptsDescriptor assetId row.mediaType byteLength contentHash row.originalFilename = true then
    if row.blobKey ≠ blobKey assetId then .error (.corruption "Asset metadata blob key is invalid")
    else do
      let state ← PublicationState.parse row.publicationState
      .ok ⟨⟨assetId, row.mediaType, byteLength, contentHash, row.originalFilename, h.1, h.2⟩, row.blobKey, state⟩
  else .error (.corruption "Asset metadata descriptor is invalid")

/-- The row that `stage_asset` writes. -/
def encodeRow (d : SourceAssetDescriptor K) (byteLength : Int) (key : String) (state : PublicationState) :
    AssetRow :=
  ⟨d.mediaType, byteLength, K.hashText d.contentHash, d.originalFilename, key, state.text⟩

/-- Places where SQLite or the filesystem can fail under one operation. -/
inductive Call where
  | lookup
  | stageTransaction | stageLookup | idempotentCommit | stageInsert | stageCommit
  | publishTransaction | publishLookup | publishUpdate | publishCommit
  | cleanup
  | scan | scanRow (index : Nat) | blobInspect (id : String) | blobOpen (id : String) | blobRead (id : String)
  | recoveryTransaction | recoveryDelete | recoveryCommit
  | readStaging | stagingEntry (index : Nat) | readBlobs | blobEntry (index : Nat)
  | nameTaken (index tries : Nat) | rename (index : Nat)
  deriving DecidableEq, Repr

abbrev Faults := Call → Option SqliteError

def Faults.none : Faults := fun _ => Option.none

def mapSqliteError (message : String) (error : SqliteError) : LocalAssetStoreError K :=
  if error = .busy ∨ error = .locked then
    .backendUnavailable "Asset metadata SQLite backend is busy"
  else .backendFailure message

def Call.report (error : SqliteError) : Call → LocalAssetStoreError K
  | .lookup => mapSqliteError "Asset metadata lookup failed" error
  | .stageTransaction => mapSqliteError "Asset stage transaction could not start" error
  | .stageLookup => mapSqliteError "Asset stage lookup failed" error
  | .idempotentCommit => mapSqliteError "Asset idempotent stage commit failed" error
  | .stageInsert => mapSqliteError "Asset staged metadata insert failed" error
  | .stageCommit => mapSqliteError "Asset staged metadata commit failed" error
  | .publishTransaction => mapSqliteError "Asset publish transaction could not start" error
  | .publishLookup => mapSqliteError "Asset publish lookup failed" error
  | .publishUpdate => mapSqliteError "Asset publication update failed" error
  | .publishCommit => mapSqliteError "Asset publication commit failed" error
  | .cleanup => mapSqliteError "staged Asset metadata cleanup failed" error
  | .scan => mapSqliteError "Asset metadata scan failed" error
  | .scanRow _ => .corruption "Asset metadata row could not be read"
  | .blobInspect _ => .corruption "published Asset blob is missing"
  | .blobOpen _ => .corruption "published Asset blob could not be opened"
  | .blobRead _ => .corruption "published Asset blob could not be read"
  | .recoveryTransaction => mapSqliteError "staged Asset recovery transaction failed" error
  | .recoveryDelete => mapSqliteError "staged Asset recovery failed" error
  | .recoveryCommit => mapSqliteError "staged Asset recovery commit failed" error
  | .readStaging => .filesystem "Asset recovery directory could not be read"
  | .stagingEntry _ => .filesystem "Asset recovery entry could not be read"
  | .readBlobs => .filesystem "Asset blob directory could not be read"
  | .blobEntry _ => .filesystem "Asset blob entry could not be read"
  | .nameTaken _ _ => .filesystem "Asset quarantine name allocation failed"
  | .rename _ => .filesystem "Asset orphan could not be quarantined"

def call (f : Faults) (c : Call) : Except (LocalAssetStoreError K) Unit :=
  match f c with
  | some e => .error (c.report e)
  | none => .ok ()

def lookupAsset (f : Faults) (t : AssetTable) (assetId : K.AssetId) :
    Except (LocalAssetStoreError K) (Option (AssetRecord K)) := do
  call f .lookup
  match t.lookup (K.assetId.text assetId) with
  | none => .ok none
  | some row => do
    let record ← decodeRow (K.assetId.text assetId) row
    .ok (some record)

/-- `stage_asset`; an error rolls the transaction back. -/
def stageAsset (f : Faults) (t : AssetTable) (d : SourceAssetDescriptor K) (key : String) :
    Except (LocalAssetStoreError K) (AssetInsertOutcome × AssetTable) := do
  call f .stageTransaction
  call f .stageLookup
  match t.lookup (K.assetId.text d.assetId) with
  | some row => do
    let existing ← decodeRow (K.assetId.text d.assetId) row
    match existing.state with
    | .published =>
      if existing.descriptor = d then do
        call f .idempotentCommit
        .ok (.existing, t)
      else .error (.assetConflict d.assetId)
    | .staged => .error (.assetInProgress d.assetId)
  | none => do
    let byteLength ← okOr (.lengthOverflow d.assetId d.byteLength) (toI64 d.byteLength)
    call f .stageInsert
    call f .stageCommit
    .ok (.inserted, t.insert (K.assetId.text d.assetId) (encodeRow d byteLength key .staged))

/-- `publish_asset`; an error rolls the transaction back. -/
def publishAsset (f : Faults) (t : AssetTable) (d : SourceAssetDescriptor K) (key : String) :
    Except (LocalAssetStoreError K) AssetTable := do
  call f .publishTransaction
  call f .publishLookup
  match t.lookup (K.assetId.text d.assetId) with
  | none => .error (.corruption "Asset staged metadata disappeared before publish")
  | some row => do
    let existing ← decodeRow (K.assetId.text d.assetId) row
    if existing.state ≠ .staged ∨ existing.descriptor ≠ d ∨ existing.blobKey ≠ key then
      .error (.corruption "Asset publication metadata changed before publish")
    else do
      call f .publishUpdate
      call f .publishCommit
      .ok (t.insert (K.assetId.text d.assetId)
        { row with publicationState := PublicationState.published.text })

/-- `DELETE FROM assets WHERE asset_id = ?1 AND publication_state = 'staged'`. -/
def deleteStaged (t : AssetTable) (id : String) : AssetTable :=
  match t.lookup id with
  | none => t
  | some row => if row.publicationState = PublicationState.staged.text then t.erase id else t

def removeStaged (f : Faults) (t : AssetTable) (assetId : K.AssetId) :
    Except (LocalAssetStoreError K) AssetTable := do
  call f .cleanup
  .ok (deleteStaged t (K.assetId.text assetId))

/-- A directory entry: a regular file with its bytes, or anything else. -/
inductive Node where
  | file (bytes : Bytes)
  | other
  deriving DecidableEq

abbrev Dir := AList (fun _ : String => Node)

structure Files where
  blobs : Dir
  staging : Dir
  quarantine : Dir

/-- Everything that survives the process. -/
structure Disk where
  assets : AssetTable
  files : Files

def verifyBlob (f : Faults) (blobs : Dir) (record : AssetRecord K) : Except (LocalAssetStoreError K) Unit := do
  call f (.blobInspect record.blobKey)
  match blobs.lookup record.blobKey with
  | none => .error (.corruption "published Asset blob is missing")
  | some .other => .error (.corruption "published Asset blob is not a regular file")
  | some (.file bytes) =>
    if bytes.length ≠ record.descriptor.byteLength then
      .error (.corruption "published Asset blob length does not match metadata")
    else do
      call f (.blobOpen record.blobKey)
      call f (.blobRead record.blobKey)
      if K.sha256 bytes ≠ record.descriptor.contentHash then
        .error (.corruption "published Asset blob hash does not match metadata")
      else .ok ()

def decodeRows (f : Faults) : Nat → List (Sigma fun _ : String => AssetRow) →
    Except (LocalAssetStoreError K) (List (AssetRecord K))
  | _, [] => .ok []
  | index, ⟨id, row⟩ :: rest => do
    call f (.scanRow index)
    let record ← decodeRow id row
    let records ← decodeRows f (index + 1) rest
    .ok (record :: records)

def loadAllRecords (f : Faults) (t : AssetTable) : Except (LocalAssetStoreError K) (List (AssetRecord K)) := do
  call f .scan
  decodeRows f 0 (orderBy Sigma.fst t.entries)

/-- The first loop of `recover_storage`: verified keys and staged identities. -/
def classify (f : Faults) (blobs : Dir) : List (AssetRecord K) →
    Except (LocalAssetStoreError K) (List String × List K.AssetId)
  | [] => .ok ([], [])
  | record :: rest =>
    match record.state with
    | .published => do
      verifyBlob f blobs record
      let (keys, ids) ← classify f blobs rest
      .ok (record.blobKey :: keys, ids)
    | .staged => do
      let (keys, ids) ← classify f blobs rest
      .ok (keys, record.descriptor.assetId :: ids)

def deleteStagedRows (f : Faults) (t : AssetTable) (ids : List K.AssetId) :
    Except (LocalAssetStoreError K) AssetTable :=
  if ids = [] then .ok t
  else do
    call f .recoveryTransaction
    call f .recoveryDelete
    call f .recoveryCommit
    .ok (ids.foldl (fun t id => deleteStaged t (K.assetId.text id)) t)

/-- `quarantine_entry` with so many tries left: the number of the name that was free. -/
def quarantineEntry (f : Faults) (index : Nat) : Nat → Except (LocalAssetStoreError K) Nat
  | 0 => .error (.filesystem "Asset quarantine name allocation failed")
  | tries + 1 =>
    if (f (.nameTaken index tries)).isSome then quarantineEntry f index tries
    else do
      call f (.rename index)
      .ok (8 * index + tries)

/-- The loops over `staging` and `blobs`: whatever is not published is renamed into the
quarantine, until one call fails. -/
def quarantineEntries (f : Faults) (fresh : Nat → String) (entry : Nat → Call) (published : List String) :
    Nat → List String → Dir → Dir → Except (LocalAssetStoreError K) Unit × Dir × Dir
  | _, [], dir, quarantine => (.ok (), dir, quarantine)
  | index, name :: rest, dir, quarantine =>
    match call (K := K) f (entry index) with
    | .error e => (.error e, dir, quarantine)
    | .ok () =>
      if name ∈ published then quarantineEntries f fresh entry published (index + 1) rest dir quarantine
      else
        match quarantineEntry f index 8, dir.lookup name with
        | .ok slot, some node =>
          quarantineEntries f fresh entry published (index + 1) rest (dir.erase name)
            (quarantine.insert (fresh slot) node)
        | .ok _, none => (.error (.filesystem "Asset orphan could not be quarantined"), dir, quarantine)
        | .error e, _ => (.error e, dir, quarantine)

/-- `recover_storage`. What a failed step has done so far stays done. -/
def recoverStorage (K : AssetKernel) (f : Faults) (fresh : Nat → String) (disk : Disk) :
    Except (LocalAssetStoreError K) Unit × Disk :=
  match (do let records ← loadAllRecords (K := K) f disk.assets; classify f disk.files.blobs records) with
  | .error e => (.error e, disk)
  | .ok (keys, ids) =>
    match deleteStagedRows f disk.assets ids with
    | .error e => (.error e, disk)
    | .ok assets =>
      match call (K := K) f .readStaging with
      | .error e => (.error e, ⟨assets, disk.files⟩)
      | .ok () =>
        match quarantineEntries (K := K) f fresh .stagingEntry [] 0 disk.files.staging.keys
            disk.files.staging disk.files.quarantine with
        | (.error e, staging, quarantine) => (.error e, ⟨assets, ⟨disk.files.blobs, staging, quarantine⟩⟩)
        | (.ok (), staging, quarantine) =>
          match call (K := K) f .readBlobs with
          | .error e => (.error e, ⟨assets, ⟨disk.files.blobs, staging, quarantine⟩⟩)
          | .ok () =>
            let (result, blobs, quarantine) := quarantineEntries (K := K) f fresh .blobEntry keys
              disk.files.staging.keys.length disk.files.blobs.keys disk.files.blobs quarantine
            (result, ⟨assets, ⟨blobs, staging, quarantine⟩⟩)

/-- `AssetByteRange`: not empty, and its end is a 64-bit offset. -/
structure AssetByteRange where
  offset : Nat
  length : Nat
  length_pos : 0 < length
  end_le : offset + length ≤ u64Max

structure AssetByteChunk where
  offset : Nat
  bytes : Bytes
  totalLength : Nat
  deriving DecidableEq

inductive AssetReadError (K : AssetKernel) where
  | notFound (assetId : K.AssetId)
  | rangeOutOfBounds (assetId : K.AssetId) (offset totalLength : Nat)
  | unavailable (detail : String)
  deriving DecidableEq

/-- `get_asset`, from the worker's answer to the lookup. -/
def getAsset (lookup : Except (LocalAssetStoreError K) (Option (AssetRecord K))) :
    Except String (Option (SourceAssetDescriptor K)) :=
  match lookup with
  | .ok (some record) => if record.state = .published then .ok (some record.descriptor) else .ok none
  | .ok none => .ok none
  | .error e => .error e.safeDetail

def newChunk (K : AssetKernel) (detail : String) (offset : Nat) (bytes : Bytes) (totalLength : Nat) :
    Except (AssetReadError K) AssetByteChunk :=
  if K.acceptsChunk offset bytes totalLength = true then .ok ⟨offset, bytes, totalLength⟩
  else .error (.unavailable detail)

/-- `read_range`, from the worker's answer, the entry that was inspected, the entry
that was opened, and whether seeking and reading went well. -/
def readRange (assetId : K.AssetId) (range : AssetByteRange)
    (lookup : Except (LocalAssetStoreError K) (Option (AssetRecord K)))
    (inspected opened : Option Node) (seekOk readOk : Bool) : Except (AssetReadError K) AssetByteChunk :=
  match lookup with
  | .error e => .error (.unavailable e.safeDetail)
  | .ok none => .error (.notFound assetId)
  | .ok (some record) =>
    if record.state ≠ .published then .error (.notFound assetId)
    else if record.descriptor.byteLength < range.offset then
      .error (.rangeOutOfBounds assetId range.offset record.descriptor.byteLength)
    else match inspected with
      | none => .error (.unavailable "published Asset blob could not be inspected")
      | some .other => .error (.unavailable "published Asset blob is not a regular file")
      | some (.file _) =>
        match opened with
        | none => .error (.unavailable "published Asset blob could not be opened")
        | some node =>
          if range.offset = record.descriptor.byteLength then
            newChunk K "published Asset produced an invalid EOF chunk" range.offset [] record.descriptor.byteLength
          else if seekOk = false then .error (.unavailable "published Asset seek failed")
          else
            let length := min (range.offset + range.length) record.descriptor.byteLength - range.offset
            match node with
            | .other => .error (.unavailable "published Asset read was truncated")
            | .file content =>
              if readOk = false ∨ content.length < range.offset + length then
                .error (.unavailable "published Asset read was truncated")
              else newChunk K "published Asset produced an invalid range chunk" range.offset
                ((content.drop range.offset).take length) record.descriptor.byteLength

/-- The length check of one read in `write_staging`. -/
def acceptRead (d : SourceAssetDescriptor K) (length read : Nat) : Except (LocalAssetStoreError K) Nat :=
  match checkedAddU64 length read with
  | none => .error (.lengthOverflow d.assetId u64Max)
  | some next =>
    if d.byteLength < next then .error (.lengthMismatch d.assetId d.byteLength next) else .ok next

/-- The checks of `ingest` on a staged file that was written to the end. -/
def verifyWritten (d : SourceAssetDescriptor K) (written : Bytes) : Except (LocalAssetStoreError K) Unit :=
  if written.length ≠ d.byteLength then
    .error (.lengthMismatch d.assetId d.byteLength written.length)
  else if K.sha256 written ≠ d.contentHash then
    .error (.hashMismatch d.assetId d.contentHash (K.sha256 written))
  else .ok ()

end OrbitRelay.AssetStore
