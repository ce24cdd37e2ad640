import OrbitRelay.AssetAnswers
import OrbitRelay.CatalogAtomic
import OrbitRelay.ServerLifecycle
import Mathlib.Logic.Equiv.Defs

/-!
# Development bootstrap over persistent stores

`Bootstrap::initialize` with an asset root and a catalog path: opening both stores,
the development Canvas with its binding, the development PDF, and the validation of
every Document against the asset store. A run may end at every await, by a failure or
because the process stops, and the next one has a configuration of its own.
-/
namespace OrbitRelay.Bootstrap

open AssetStore (SourceAssetDescriptor Bytes Ingest)
open Catalog (CanvasDescriptor DocumentDescriptor DocumentComposition BootstrapBinding)
open Server (ServerError)

/-- The two stores, which share the identities of assets, the PDF inspector and the composer. -/
structure BootstrapKernel where
  assets : AssetStore.AssetKernel
  catalog : Catalog.CatalogKernel
  asset : catalog.AssetId ≃ assets.AssetId
  PdfMetadata : Type
  ComposeInput : Type
  /-- The identities that a composition draws. -/
  Draw : Type
  pdfAssetId : PdfMetadata → assets.AssetId
  /-- `DocumentComposeInput::new`. -/
  composeInput : catalog.SessionId → SourceAssetDescriptor assets → PdfMetadata → Option ComposeInput
  /-- `DocumentComposer::compose`. -/
  compose : Draw → ComposeInput → Option (DocumentComposition catalog)
  compose_source : ∀ {session source pdf input draw composition}, composeInput session source pdf = some input →
    compose draw input = some composition → asset composition.document.sourceAssetId = source.assetId

structure DevelopmentCanvasConfig (C : Catalog.CatalogKernel) where
  sessionId : Option C.SessionId
  canvasId : Option C.CanvasId
  layerId : Option C.LayerId
  width : C.Measure
  height : C.Measure

/-- A path, as far as a descriptor shows it. -/
structure PdfPath where
  fileName : Option String

/-- The settings that the two stores depend on. -/
structure ServerConfig (K : BootstrapKernel) where
  developmentMode : Bool
  developmentCanvas : DevelopmentCanvasConfig K.catalog
  developmentPdfPath : Option PdfPath
  maxAssetBytes : Nat

variable {K : BootstrapKernel}

/-- Identities for what the configuration leaves open. -/
structure FreshIds (C : Catalog.CatalogKernel) where
  sessionId : C.SessionId
  canvasId : C.CanvasId
  layerId : C.LayerId

theorem singleton_length {α : Type} [LinearOrder α] (a : α) : (OrderedSet.ofList [a]).elements.length = 1 := by
  simp [OrderedSet.ofList]

/-- `development_canvas_descriptor`. -/
def developmentCanvasDescriptor {C : Catalog.CatalogKernel} (configured : DevelopmentCanvasConfig C)
    (fresh : FreshIds C) : Option (CanvasDescriptor C) :=
  let sessionId := configured.sessionId.getD fresh.sessionId
  let canvasId := configured.canvasId.getD fresh.canvasId
  let layerId := configured.layerId.getD fresh.layerId
  let layers := OrderedSet.ofList [layerId]
  if space : C.acceptsSpace configured.width configured.height = true then
    if valid : C.acceptsCanvas canvasId sessionId configured.width configured.height layers layerId = true then
      some ⟨canvasId, sessionId, configured.width, configured.height, layers, layerId, space, valid, by
        rw [singleton_length]
        decide⟩
    else none
  else none

/-- The start of `bootstrap_development_pdf`, from what the filesystem answers. -/
def describePdf (config : ServerConfig K) (path : PdfPath) (metadata : Option Nat) (read : Option Bytes)
    (fresh : K.assets.AssetId) : Except ServerError (SourceAssetDescriptor K.assets × Bytes) :=
  match metadata with
  | none => .error (.bootstrap "development PDF metadata could not be read")
  | some length =>
    if length > config.maxAssetBytes then
      .error (.bootstrap "development PDF exceeds the inspection size limit")
    else match read with
      | none => .error (.bootstrap "development PDF bytes could not be read")
      | some bytes =>
        if h : length ≤ MachineInt.u64Max ∧ K.assets.acceptsDescriptor fresh "application/pdf" length
            (K.assets.sha256 bytes) path.fileName = true then
          .ok (⟨fresh, "application/pdf", length, K.assets.sha256 bytes, path.fileName, h.1, h.2⟩, bytes)
        else .error (.bootstrap "development PDF asset metadata is invalid")

/-- The rest of it, from what the inspector answers. -/
def composeDocument (sessionId : K.catalog.SessionId) (source : SourceAssetDescriptor K.assets)
    (inspected : Option K.PdfMetadata) (draw : K.Draw) : Except ServerError (DocumentComposition K.catalog) :=
  match inspected with
  | none => .error (.bootstrap "development PDF inspection failed")
  | some pdf =>
    if K.pdfAssetId pdf ≠ source.assetId then .error (.bootstrap "development PDF metadata identity mismatch")
    else match K.composeInput sessionId source pdf with
      | none => .error (.bootstrap "development Document composition input is invalid")
      | some input =>
        match K.compose draw input with
        | none => .error (.bootstrap "development Document composition failed")
        | some composition => .ok composition

/-- `SQLiteCatalogStore::default_bootstrap_binding_key`. -/
def defaultBootstrapBindingKey : String := "development/default_canvas"

/-- Where `initialize` is. The optional Canvas is the development Canvas that the context
will report. -/
inductive Phase (K : BootstrapKernel) where
  | idle
  | openingAssets
  | openingCatalog
  | lookingUpBinding
  | lookingUpCanvas (binding : BootstrapBinding K.catalog)
  | publishingCanvas (descriptor : CanvasDescriptor K.catalog)
  | listing (canvas : CanvasDescriptor K.catalog)
  | readingPdf (canvas : CanvasDescriptor K.catalog)
  | ingesting (canvas : CanvasDescriptor K.catalog) (source : SourceAssetDescriptor K.assets) (call : Nat)
  | inspecting (canvas : CanvasDescriptor K.catalog) (source : SourceAssetDescriptor K.assets)
  | publishingDocument (canvas : CanvasDescriptor K.catalog) (composition : DocumentComposition K.catalog)
  | building (canvas : Option (CanvasDescriptor K.catalog))
  | validating (canvas : Option (CanvasDescriptor K.catalog))
  | checkingAsset (canvas : Option (CanvasDescriptor K.catalog)) (document : DocumentDescriptor K.catalog)
      (rest : List (DocumentDescriptor K.catalog))
  | viewing (canvas : Option (CanvasDescriptor K.catalog)) (rest : List (DocumentDescriptor K.catalog))
  | finished (result : Except ServerError (Option (CanvasDescriptor K.catalog)))

/-- A run that ends with `ServerError::bootstrap`. -/
def failed (message : String) : Phase K := .finished (.error (.bootstrap message))

/-- The catalog command that `initialize` awaits. -/
def Phase.request : Phase K → Option (Catalog.Command K.catalog)
  | .lookingUpBinding => some (.getBinding defaultBootstrapBindingKey)
  | .lookingUpCanvas binding => some (.getCanvas binding.canvasId)
  | .publishingCanvas descriptor =>
    some (.publishStandaloneWithBinding defaultBootstrapBindingKey descriptor descriptor.binding)
  | .listing _ => some .listAllDocuments
  | .publishingDocument _ composition => some (.publishDocument composition)
  | .validating _ => some .listAllDocuments
  | _ => none

/-- The loop of the validation. -/
def validateNext (canvas : Option (CanvasDescriptor K.catalog)) : List (DocumentDescriptor K.catalog) → Phase K
  | [] => .finished (.ok canvas)
  | document :: rest => .checkingAsset canvas document rest

/-- Where `initialize` goes on once the catalog has answered. -/
def Phase.answered (config : ServerConfig K) (fresh : FreshIds K.catalog) (phase : Phase K)
    (reply : Catalog.Reply K.catalog) : Phase K :=
  match phase, reply with
  | .lookingUpBinding, .binding (.error _) => failed "Development bootstrap binding lookup failed"
  | .lookingUpBinding, .binding (.ok (some binding)) => .lookingUpCanvas binding
  | .lookingUpBinding, .binding (.ok none) =>
    match developmentCanvasDescriptor config.developmentCanvas fresh with
    | none => failed "development Canvas configuration is invalid"
    | some descriptor => .publishingCanvas descriptor
  | .lookingUpCanvas _, .canvas (.error _) => failed "Development Canvas lookup failed"
  | .lookingUpCanvas _, .canvas (.ok none) => failed "Development bootstrap binding references a missing Canvas"
  | .lookingUpCanvas binding, .canvas (.ok (some descriptor)) =>
    if descriptor.sessionId ≠ binding.sessionId then failed "Development bootstrap Session mismatch"
    else .listing descriptor
  | .publishingCanvas _, .published (.error _) => failed "Development Canvas publication failed"
  | .publishingCanvas _, .published (.ok .conflict) => failed "Development Canvas identity conflict"
  | .publishingCanvas descriptor, .published (.ok _) => .listing descriptor
  | .listing _, .documents (.error _) => failed "Development Document catalog lookup failed"
  | .listing canvas, .documents (.ok documents) =>
    if documents = [] ∧ config.developmentPdfPath.isSome = true then .readingPdf canvas
    else .building (some canvas)
  | .publishingDocument _ _, .published (.error _) => failed "Development Document publication failed"
  | .publishingDocument _ _, .published (.ok .conflict) => failed "development Document identity conflict"
  | .publishingDocument canvas _, .published (.ok _) => .building (some canvas)
  | .validating _, .documents (.error _) => failed "Document catalog validation failed"
  | .validating canvas, .documents (.ok documents) => validateNext canvas documents
  | phase, _ => phase

/-- The failures in which neither store has a part. -/
def Phase.failsWith (error : ServerError) : Phase K → Prop
  | .openingAssets => (∃ message, error = .config message) ∨ (∃ source target, error = .lifecycle source target) ∨
      error ∈ [.bootstrap "SQLite EventStore initialization failed", .bootstrap "event bus initialization failed",
        .nodeLifecycle "node state registration failed", .bootstrap "persistent Asset store initialization failed"]
  | .openingCatalog => error = .bootstrap "persistent Catalog initialization failed"
  | .lookingUpBinding => error = .bootstrap "development handler registration failed"
  | .building _ => (∃ message, error = .config message) ∨
      error ∈ [.bootstrap "Canvas handler registration failed",
        .bootstrap "Document Query handler registration failed",
        .bootstrap "Canvas history Query registration failed",
        .bootstrap "Asset access Query handler registration failed"]
  | .viewing _ _ => error = .bootstrap "Document read model is inconsistent"
  | _ => False

/-- The two paths on disk with the handles on them, and the run that holds these. -/
structure Node (K : BootstrapKernel) where
  assets : AssetStore.Store K.assets
  catalog : Catalog.Store K.catalog
  config : ServerConfig K
  phase : Phase K

/-- One step of the ingest that the run awaits, or of the worker that it waits for. -/
structure Moves (s t : AssetStore.Store K.assets) (call : Nat) : Prop where
  step : AssetStore.Step s t
  gen : t.gen = s.gen
  running : t.worker.isSome = true
  awaited : ∃ ing, t.ingests call = some ing ∧ ing.cancelled = false
  others : ∀ i, i ≠ call → t.ingests i = s.ingests i

/-- The call that `ingest` starts with. -/
def begun (gen : Nat) (source : SourceAssetDescriptor K.assets) (reads : List (Option Bytes)) (name : String) :
    Ingest K.assets :=
  ⟨gen, source, reads, name,
    if MachineInt.i64Max < source.byteLength then
      .finished (.error (.lengthOverflow source.assetId source.byteLength))
    else .waiting, false⟩

/-- What a stopped process leaves of the asset store. -/
def killed {A : AssetStore.AssetKernel} (s : AssetStore.Store A) : AssetStore.Store A :=
  { s.stopWorker with holder := none, ingests := fun _ => none }

inductive Step : Node K → Node K → Prop where
  | start (s : Node K) (config : ServerConfig K) : s.phase = .idle →
      Step s { s with config, phase := .openingAssets }
  | fail (s : Node K) (error : ServerError) : s.phase.failsWith error →
      Step s { s with phase := .finished (.error error) }
  | openAssets (s : Node K) (f : AssetStore.Faults) (orphan : Nat → String) (disk : AssetStore.Disk) :
      s.phase = .openingAssets →
      AssetStore.recoverStorage K.assets f orphan s.assets.disk = (.ok (), disk) →
      Step s { s with
        assets := { s.assets with disk, gen := s.assets.gen + 1, worker := some [], holder := none }
        phase := .openingCatalog }
  | openAssetsFailed (s : Node K) (f : AssetStore.Faults) (orphan : Nat → String) (disk : AssetStore.Disk)
      (e : AssetStore.LocalAssetStoreError K.assets) : s.phase = .openingAssets →
      AssetStore.recoverStorage K.assets f orphan s.assets.disk = (.error e, disk) →
      Step s { s with
        assets := { s.assets with disk }
        phase := failed "persistent Asset store initialization failed" }
  | openCatalog (s : Node K) (f : Catalog.OpenFaults) (fresh : K.catalog.EntityId) (quickCheck : String)
      (id : K.catalog.EntityId) : s.phase = .openingCatalog →
      (Catalog.initializeStorage f fresh quickCheck s.catalog.db).1 = .ok id →
      Step s { s with
        catalog := ⟨(Catalog.initializeStorage f fresh quickCheck s.catalog.db).2, some id⟩
        phase := if s.config.developmentMode then .lookingUpBinding else .building none }
  | openCatalogFailed (s : Node K) (f : Catalog.OpenFaults) (fresh : K.catalog.EntityId) (quickCheck : String)
      (e : Catalog.CatalogStoreError) : s.phase = .openingCatalog →
      (Catalog.initializeStorage f fresh quickCheck s.catalog.db).1 = .error e →
      Step s { s with
        catalog := ⟨(Catalog.initializeStorage f fresh quickCheck s.catalog.db).2, none⟩
        phase := failed "persistent Catalog initialization failed" }
  /-- A command that does not reach the worker is one that SQLite fails; the reply of one
  that does can be lost. -/
  | request (s : Node K) (fault : Option Relational.SqliteError) (fresh : FreshIds K.catalog)
      (c : Catalog.Command K.catalog) (reply : Catalog.Reply K.catalog) : s.phase.request = some c →
      (reply = (Catalog.execute fault s.catalog.db.tables c).1 ∨ ∃ e, reply = c.failed e) →
      Step s { s with
        catalog := s.catalog.after fault c
        phase := s.phase.answered s.config fresh reply }
  | readPdfFailed (s : Node K) (canvas : CanvasDescriptor K.catalog) (path : PdfPath) (metadata : Option Nat)
      (read : Option Bytes) (fresh : K.assets.AssetId) (error : ServerError) : s.phase = .readingPdf canvas →
      s.config.developmentPdfPath = some path → describePdf s.config path metadata read fresh = .error error →
      Step s { s with phase := .finished (.error error) }
  | insertVerified (s : Node K) (canvas : CanvasDescriptor K.catalog) (path : PdfPath) (metadata : Option Nat)
      (read : Option Bytes) (source : SourceAssetDescriptor K.assets) (bytes : Bytes)
      (reads : List (Option Bytes)) (call : Nat) (name : String) : s.phase = .readingPdf canvas →
      s.config.developmentPdfPath = some path →
      describePdf s.config path metadata read source.assetId = .ok (source, bytes) →
      s.assets.ingests call = none → AssetStore.streamed reads = bytes → none ∉ reads →
      (∀ chunk, some chunk ∈ reads → 1 ≤ chunk.length ∧ chunk.length ≤ AssetStore.readBufferSize) →
      (∀ j ing, s.assets.ingests j = some ing → ing.name ≠ name) →
      s.assets.disk.files.staging.lookup name = none →
      Step s { s with
        assets := s.assets.put call (begun s.assets.gen source reads name)
        phase := .ingesting canvas source call }
  | ingest (s : Node K) (canvas : CanvasDescriptor K.catalog) (source : SourceAssetDescriptor K.assets)
      (call : Nat) (assets : AssetStore.Store K.assets) : s.phase = .ingesting canvas source call →
      Moves s.assets assets call → Step s { s with assets }
  | ingested (s : Node K) (canvas : CanvasDescriptor K.catalog) (source : SourceAssetDescriptor K.assets)
      (call : Nat) (ing : Ingest K.assets) (outcome : AssetStore.AssetInsertOutcome) :
      s.phase = .ingesting canvas source call → s.assets.ingests call = some ing →
      ing.phase = .finished (.ok outcome) → Step s { s with phase := .inspecting canvas source }
  | ingestFailed (s : Node K) (canvas : CanvasDescriptor K.catalog) (source : SourceAssetDescriptor K.assets)
      (call : Nat) (ing : Ingest K.assets) (e : AssetStore.LocalAssetStoreError K.assets) :
      s.phase = .ingesting canvas source call → s.assets.ingests call = some ing →
      ing.phase = .finished (.error e) →
      Step s { s with phase := failed "development PDF asset verification failed" }
  | inspectFailed (s : Node K) (canvas : CanvasDescriptor K.catalog) (source : SourceAssetDescriptor K.assets)
      (inspected : Option K.PdfMetadata) (draw : K.Draw) (error : ServerError) :
      s.phase = .inspecting canvas source →
      composeDocument canvas.sessionId source inspected draw = .error error →
      Step s { s with phase := .finished (.error error) }
  | composed (s : Node K) (canvas : CanvasDescriptor K.catalog) (source : SourceAssetDescriptor K.assets)
      (inspected : Option K.PdfMetadata) (draw : K.Draw) (composition : DocumentComposition K.catalog) :
      s.phase = .inspecting canvas source →
      composeDocument canvas.sessionId source inspected draw = .ok composition →
      Step s { s with phase := .publishingDocument canvas composition }
  | built (s : Node K) (canvas : Option (CanvasDescriptor K.catalog)) : s.phase = .building canvas →
      Step s { s with phase := .validating canvas }
  | checkAsset (s : Node K) (canvas : Option (CanvasDescriptor K.catalog)) (document : DocumentDescriptor K.catalog)
      (rest : List (DocumentDescriptor K.catalog))
      (answer : Except (AssetStore.LocalAssetStoreError K.assets) (Option (AssetStore.AssetRecord K.assets))) :
      s.phase = .checkingAsset canvas document rest →
      AssetStore.Answers s.assets (K.asset document.sourceAssetId) answer →
      Step s { s with phase := match AssetStore.getAsset answer with
        | .error _ => failed "Document source Asset lookup failed"
        | .ok none => failed "Document references a missing published Asset"
        | .ok (some _) => .viewing canvas rest }
  | viewed (s : Node K) (canvas : Option (CanvasDescriptor K.catalog))
      (rest : List (DocumentDescriptor K.catalog)) : s.phase = .viewing canvas rest →
      Step s { s with phase := validateNext canvas rest }
  /-- The process stops, or drops what a finished run has returned. -/
  | stop (s : Node K) : Step s { s with
      assets := killed s.assets
      catalog := { s.catalog with opened := none }
      phase := .idle }

/-- Any number of runs, one after the other, from two paths at which nothing is stored. -/
def system (K : BootstrapKernel) : Transition.System (Node K) where
  init s := s.assets.disk = ⟨∅, ⟨∅, ∅, ∅⟩⟩ ∧ s.assets.worker = none ∧ (∀ i, s.assets.ingests i = none) ∧
    (∀ a, s.assets.stagedBy a = none) ∧ (∀ a, s.assets.origin a = none) ∧
    s.catalog = ⟨⟨∅, Catalog.Tables.empty K.catalog⟩, none⟩ ∧ s.phase = .idle
  step := Step

end OrbitRelay.Bootstrap
