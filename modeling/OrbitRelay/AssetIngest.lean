import OrbitRelay.AssetStore
import OrbitRelay.Transition
import Mathlib.Logic.Function.Basic

/-!
# Ingests of the local Asset store

Any number of `ingest` futures on the handles of one store, the worker behind
its command queue, closes, process stops and reopens. An ingest moves from one
await to the next; a filesystem operation that was handed to the blocking pool
is carried out even when the future that awaits it is dropped.
-/
namespace OrbitRelay.AssetStore

open Codec MachineInt

variable {K : AssetKernel}

inductive Command (K : AssetKernel) where
  | lookup (assetId : K.AssetId)
  | stage (descriptor : SourceAssetDescriptor K) (blobKey : String)
  | publish (descriptor : SourceAssetDescriptor K) (blobKey : String)
  | removeStaged (assetId : K.AssetId)

inductive Reply (K : AssetKernel) where
  | lookup (result : Except (LocalAssetStoreError K) (Option (AssetRecord K)))
  | stage (result : Except (LocalAssetStoreError K) AssetInsertOutcome)
  | publish (result : Except (LocalAssetStoreError K) Unit)
  | removeStaged (result : Except (LocalAssetStoreError K) Unit)

/-- One turn of `run_worker`. A failed statement leaves the table alone. -/
def execute (f : Faults) (t : AssetTable) : Command K → Reply K × AssetTable
  | .lookup assetId => (.lookup (lookupAsset f t assetId), t)
  | .stage descriptor key =>
    match stageAsset f t descriptor key with
    | .error e => (.stage (.error e), t)
    | .ok (outcome, u) => (.stage (.ok outcome), u)
  | .publish descriptor key =>
    match publishAsset f t descriptor key with
    | .error e => (.publish (.error e), t)
    | .ok u => (.publish (.ok ()), u)
  | .removeStaged assetId =>
    match removeStaged f t assetId with
    | .error e => (.removeStaged (.error e), t)
    | .ok u => (.removeStaged (.ok ()), u)

/-- The errors of a dispatch that did not reach the worker. -/
def dispatchErrors (K : AssetKernel) : List (LocalAssetStoreError K) :=
  [.backendUnavailable "local Asset store is closed",
    .backendUnavailable "local Asset metadata worker is unavailable",
    .backendUnavailable "Asset metadata command queue is full",
    .backendUnavailable "Asset metadata worker is unavailable"]

/-- The error of a dispatch whose reply channel was dropped. -/
def lostReply : Command K → LocalAssetStoreError K
  | .lookup _ => .backendUnavailable "local Asset metadata response was lost"
  | .stage _ _ => .backendUnavailable "local Asset stage response was lost"
  | .publish _ _ => .backendUnavailable "local Asset publish response was lost"
  | .removeStaged _ => .backendUnavailable "local Asset cleanup response was lost"

abbrev Outcome (K : AssetKernel) := Except (LocalAssetStoreError K) AssetInsertOutcome

/-- Where an ingest is: waiting for the lock, for a reply, for a filesystem operation,
or woken up with a result that it has not looked at yet. `dropped` is a cancelled
ingest whose last filesystem operation is over. -/
inductive Phase (K : AssetKernel) where
  | waiting
  | looking
  | looked (result : Except (LocalAssetStoreError K) (Option (AssetRecord K)))
  | creating
  | writing (written : Bytes) (rest : List (Option Bytes))
  | staging
  | stageAnswered (result : Except (LocalAssetStoreError K) AssetInsertOutcome)
  | renaming
  | renamed (result : Except (LocalAssetStoreError K) Unit)
  | publishing
  | publishAnswered (result : Except (LocalAssetStoreError K) Unit)
  | quarantining (error : LocalAssetStoreError K)
  | quarantined (error : LocalAssetStoreError K)
  | unstaging (error : LocalAssetStoreError K) (cleanFile : Bool)
  | unstaged (error : LocalAssetStoreError K) (cleanFile : Bool)
  | removing (result : Outcome K)
  | finished (result : Outcome K)
  | dropped

/-- One call of `ingest`: the opening it belongs to, its arguments (a read of the source
gives bytes or fails), and the name of its staging file. -/
structure Ingest (K : AssetKernel) where
  gen : Nat
  descriptor : SourceAssetDescriptor K
  reads : List (Option Bytes)
  name : String
  phase : Phase K
  cancelled : Bool

def readBufferSize : Nat := 64 * 1024

def streamed (reads : List (Option Bytes)) : Bytes := (reads.filterMap id).flatten

def Ingest.assetId (ing : Ingest K) : K.AssetId := ing.descriptor.assetId

def Ingest.key (ing : Ingest K) : String := blobKey ing.assetId

/-- All bytes of the source. -/
def Ingest.content (ing : Ingest K) : Bytes := streamed ing.reads

/-- The next await of an ingest whose filesystem operation is over. -/
def Ingest.goOn (ing : Ingest K) (p : Phase K) : Ingest K :=
  { ing with phase := if ing.cancelled then .dropped else p }

/-- What `ingest` does when it runs on: send a command, or go to its next await. -/
inductive Intent (K : AssetKernel) where
  | send (command : Command K) (sent : Phase K) (refused : LocalAssetStoreError K → Phase K)
  | become (phase : Phase K)

/-- The code of `ingest` between two awaits, where no filesystem operation is outstanding. -/
def resume (ing : Ingest K) : Option (Intent K) :=
  match ing.phase with
  | .waiting => some (.send (.lookup ing.assetId) .looking (fun e => .finished (.error e)))
  | .looked (.error e) => some (.become (.finished (.error e)))
  | .looked (.ok none) => some (.become .creating)
  | .looked (.ok (some existing)) => some (.become (.finished (match existing.state with
      | .published => if existing.descriptor = ing.descriptor then .ok .existing
        else .error (.assetConflict ing.assetId)
      | .staged => .error (.assetInProgress ing.assetId))))
  | .writing written [] =>
    match verifyWritten ing.descriptor written with
    | .error e => some (.become (.removing (.error e)))
    | .ok () => some (.send (.stage ing.descriptor ing.key) .staging (fun e => .removing (.error e)))
  | .stageAnswered (.error e) => some (.become (.removing (.error e)))
  | .stageAnswered (.ok .existing) => some (.become (.removing (.ok .existing)))
  | .stageAnswered (.ok .inserted) => some (.become .renaming)
  | .renamed (.error e) => some (.send (.removeStaged ing.assetId) (.unstaging e true)
      (fun _ => .removing (.error e)))
  | .renamed (.ok ()) => some (.send (.publish ing.descriptor ing.key) .publishing .quarantining)
  | .publishAnswered (.ok ()) => some (.become (.finished (.ok .inserted)))
  | .publishAnswered (.error e) => some (.become (.quarantining e))
  | .quarantined e => some (.send (.removeStaged ing.assetId) (.unstaging e false)
      (fun _ => .finished (.error e)))
  | .unstaged e true => some (.become (.removing (.error e)))
  | .unstaged e false => some (.become (.finished (.error e)))
  | _ => none

/-- The command an ingest waits for, when it waits for one. -/
def awaited (ing : Ingest K) : Option (Command K) :=
  match ing.phase with
  | .looking => some (.lookup ing.assetId)
  | .staging => some (.stage ing.descriptor ing.key)
  | .publishing => some (.publish ing.descriptor ing.key)
  | .unstaging _ _ => some (.removeStaged ing.assetId)
  | _ => none

/-- How a reply wakes the ingest that waits for it; a dropped future hears nothing. -/
def Ingest.deliver (ing : Ingest K) (reply : Reply K) : Ingest K :=
  if ing.cancelled then ing
  else match ing.phase, reply with
    | .looking, .lookup r => { ing with phase := .looked r }
    | .staging, .stage r => { ing with phase := .stageAnswered r }
    | .publishing, .publish r => { ing with phase := .publishAnswered r }
    | .unstaging e b, .removeStaged _ => { ing with phase := .unstaged e b }
    | _, _ => ing

/-- The reply that a dropped channel amounts to. -/
def lost : Command K → Reply K
  | .lookup a => .lookup (.error (lostReply (.lookup a)))
  | .stage d key => .stage (.error (lostReply (.stage d key)))
  | .publish d key => .publish (.error (lostReply (.publish d key)))
  | .removeStaged a => .removeStaged (.error (lostReply (.removeStaged a)))

inductive Request (K : AssetKernel) where
  | command (owner : Nat) (command : Command K)
  | shutdown

/-- The disk, the opening in use, its worker's queue while the worker runs, its ingest
lock, and all ingests of the process. The last two fields are bookkeeping for the
proofs: who staged the row of an asset, and the source bytes of the ingest that
published it. -/
structure Store (K : AssetKernel) where
  disk : Disk
  gen : Nat
  worker : Option (List (Request K))
  holder : Option Nat
  ingests : Nat → Option (Ingest K)
  stagedBy : K.AssetId → Option Nat
  origin : K.AssetId → Option Bytes

def Phase.isFinished : Phase K → Bool
  | .finished _ => true
  | _ => false

/-- Replace one ingest; the lock guard goes with a future that returned or was dropped. -/
def Store.put (s : Store K) (i : Nat) (ing : Ingest K) : Store K :=
  { s with
    ingests := Function.update s.ingests i (some ing)
    holder := if s.holder = some i ∧ (ing.cancelled = true ∨ ing.phase.isFinished = true) then none
      else s.holder }

def Store.setStaging (s : Store K) (staging : Dir) : Store K :=
  { s with disk := ⟨s.disk.assets, { s.disk.files with staging }⟩ }

def Store.setFiles (s : Store K) (files : Files) : Store K := { s with disk := ⟨s.disk.assets, files⟩ }

/-- The bookkeeping that goes with one executed command. -/
def recordExecution (s : Store K) (i : Nat) (ing : Ingest K) (reply : Reply K) :
    (K.AssetId → Option Nat) × (K.AssetId → Option Bytes) :=
  match reply with
  | .stage (.ok .inserted) => (Function.update s.stagedBy ing.assetId (some i), s.origin)
  | .publish (.ok ()) => (Function.update s.stagedBy ing.assetId none,
      Function.update s.origin ing.assetId (some ing.content))
  | .removeStaged (.ok ()) => (Function.update s.stagedBy ing.assetId none, s.origin)
  | _ => (s.stagedBy, s.origin)

/-- The worker is gone: what was queued is dropped, and no staged row has an owner that could act. -/
def Store.stopWorker (s : Store K) : Store K :=
  { s with worker := none, stagedBy := fun _ => none }

inductive Step : Store K → Store K → Prop where
  | begin (s : Store K) (i gen : Nat) (d : SourceAssetDescriptor K) (reads : List (Option Bytes))
      (name : String) : s.ingests i = none → gen ≤ s.gen →
      (∀ chunk, some chunk ∈ reads → 1 ≤ chunk.length ∧ chunk.length ≤ readBufferSize) →
      (∀ j ing, s.ingests j = some ing → ing.name ≠ name) → s.disk.files.staging.lookup name = none →
      Step s (s.put i ⟨gen, d, reads, name,
        if i64Max < d.byteLength then .finished (.error (.lengthOverflow d.assetId d.byteLength))
        else .waiting, false⟩)
  | send (s : Store K) (i : Nat) (ing : Ingest K) (q : List (Request K)) (c : Command K)
      (sent : Phase K) (refused : LocalAssetStoreError K → Phase K) :
      s.ingests i = some ing → ing.cancelled = false → resume ing = some (.send c sent refused) →
      ing.gen = s.gen → s.worker = some q → (ing.phase = .waiting → s.holder = none) →
      Step s { s.put i { ing with phase := sent } with
        worker := some (q ++ [.command i c])
        holder := match ing.phase with
          | .waiting => some i
          | _ => s.holder }
  | refuse (s : Store K) (i : Nat) (ing : Ingest K) (e : LocalAssetStoreError K) (c : Command K)
      (sent : Phase K) (refused : LocalAssetStoreError K → Phase K) :
      s.ingests i = some ing → ing.cancelled = false → resume ing = some (.send c sent refused) →
      e ∈ dispatchErrors K → Step s (s.put i { ing with phase := refused e })
  | proceed (s : Store K) (i : Nat) (ing : Ingest K) (p : Phase K) :
      s.ingests i = some ing → ing.cancelled = false → resume ing = some (.become p) →
      Step s (s.put i { ing with phase := p })
  | cancel (s : Store K) (i : Nat) (ing : Ingest K) : s.ingests i = some ing →
      Step s (s.put i { ing with cancelled := true })
  | work (s : Store K) (f : Faults) (i : Nat) (ing : Ingest K) (c : Command K) (q : List (Request K)) :
      s.worker = some (.command i c :: q) → s.ingests i = some ing →
      Step s { s.put i (ing.deliver (execute f s.disk.assets c).1) with
        disk := ⟨(execute f s.disk.assets c).2, s.disk.files⟩
        worker := some q
        stagedBy := (recordExecution s i ing (execute f s.disk.assets c).1).1
        origin := (recordExecution s i ing (execute f s.disk.assets c).1).2 }
  | replyLost (s : Store K) (i : Nat) (ing : Ingest K) (c : Command K) :
      s.ingests i = some ing → awaited ing = some c → (s.worker = none ∨ ing.gen ≠ s.gen) →
      Step s (s.put i (ing.deliver (lost c)))
  | close (s : Store K) (q : List (Request K)) : s.worker = some q → Request.shutdown ∉ q →
      Step s { s with worker := some (q ++ [.shutdown]) }
  | shutdown (s : Store K) (q : List (Request K)) : s.worker = some (.shutdown :: q) →
      Step s s.stopWorker
  | drained (s : Store K) : s.worker = some [] → Step s s.stopWorker
  | create (s : Store K) (i : Nat) (ing : Ingest K) : s.ingests i = some ing → ing.phase = .creating →
      s.disk.files.staging.lookup ing.name = none →
      Step s ((s.setStaging (s.disk.files.staging.insert ing.name (.file []))).put i
        (ing.goOn (.writing [] ing.reads)))
  | createFailed (s : Store K) (i : Nat) (ing : Ingest K) : s.ingests i = some ing →
      ing.phase = .creating →
      Step s (s.put i (ing.goOn (.removing (.error (.filesystem "staging blob could not be created")))))
  | write (s : Store K) (i : Nat) (ing : Ingest K) (written chunk : Bytes) (rest : List (Option Bytes))
      (length : Nat) : s.ingests i = some ing → ing.phase = .writing written (some chunk :: rest) →
      acceptRead ing.descriptor written.length chunk.length = .ok length →
      Step s ((s.setStaging (match s.disk.files.staging.lookup ing.name with
          | some (.file _) => s.disk.files.staging.insert ing.name (.file (written ++ chunk))
          | _ => s.disk.files.staging)).put i
        (ing.goOn (.writing (written ++ chunk) rest)))
  | writeFailed (s : Store K) (i : Nat) (ing : Ingest K) (written : Bytes) (rest : List (Option Bytes))
      (e : LocalAssetStoreError K) : s.ingests i = some ing → ing.phase = .writing written rest →
      ((∃ chunk, rest.head? = some (some chunk) ∧ acceptRead ing.descriptor written.length chunk.length = .error e) ∨
        (rest.head? = some none ∧ e = .filesystem "Asset source could not be read") ∨
        e = .filesystem "staging blob could not be written" ∨
        e = .filesystem "staging blob could not be synchronized") →
      Step s (s.put i (ing.goOn (.removing (.error e))))
  | rename (s : Store K) (i : Nat) (ing : Ingest K) (node : Node) : s.ingests i = some ing →
      ing.phase = .renaming → s.disk.files.staging.lookup ing.name = some node →
      Step s ((s.setFiles { s.disk.files with
          blobs := s.disk.files.blobs.insert ing.key node
          staging := s.disk.files.staging.erase ing.name }).put i { ing with phase := .renamed (.ok ()) })
  | renameFailed (s : Store K) (i : Nat) (ing : Ingest K) (e : LocalAssetStoreError K) :
      s.ingests i = some ing → ing.phase = .renaming →
      (e = .filesystem "Asset blob destination already exists" ∨ e = .filesystem "Asset blob rename failed") →
      Step s (s.put i { ing with phase := .renamed (.error e) })
  | quarantine (s : Store K) (i : Nat) (ing : Ingest K) (e : LocalAssetStoreError K) (node : Node)
      (orphan : String) : s.ingests i = some ing → ing.phase = .quarantining e →
      s.disk.files.blobs.lookup ing.key = some node →
      Step s ((s.setFiles { s.disk.files with
          blobs := s.disk.files.blobs.erase ing.key
          quarantine := s.disk.files.quarantine.insert orphan node }).put i { ing with phase := .quarantined e })
  | quarantineFailed (s : Store K) (i : Nat) (ing : Ingest K) (e : LocalAssetStoreError K) :
      s.ingests i = some ing → ing.phase = .quarantining e →
      Step s (s.put i { ing with phase := .quarantined e })
  | remove (s : Store K) (i : Nat) (ing : Ingest K) (result : Outcome K) : s.ingests i = some ing →
      ing.phase = .removing result →
      Step s ((s.setStaging (s.disk.files.staging.erase ing.name)).put i { ing with phase := .finished result })
  | removeFailed (s : Store K) (i : Nat) (ing : Ingest K) (result : Outcome K) : s.ingests i = some ing →
      ing.phase = .removing result →
      Step s (s.put i { ing with
        phase := .finished (.error (.filesystem "temporary Asset blob cleanup failed")) })
  | crash (s : Store K) : Step s { s.stopWorker with holder := none, ingests := fun _ => none }
  | opened (s : Store K) (f : Faults) (fresh : Nat → String) (disk : Disk) : s.worker = none →
      recoverStorage K f fresh s.disk = (.ok (), disk) →
      Step s { s with disk, gen := s.gen + 1, worker := some [], holder := none }
  | openFailed (s : Store K) (f : Faults) (fresh : Nat → String) (e : LocalAssetStoreError K) (disk : Disk) :
      s.worker = none → recoverStorage K f fresh s.disk = (.error e, disk) → Step s { s with disk }

/-- Runs start with any disk that an open accepts. -/
def system (K : AssetKernel) : Transition.System (Store K) where
  init s := ∃ (f : Faults) (fresh : Nat → String) (disk : Disk),
    recoverStorage K f fresh disk = (.ok (), s.disk) ∧ s.gen = 1 ∧ s.worker = some [] ∧ s.holder = none ∧
      (∀ i, s.ingests i = none) ∧ (∀ a, s.stagedBy a = none) ∧ ∀ a, s.origin a = none
  step := Step

end OrbitRelay.AssetStore
