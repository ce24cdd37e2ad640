import OrbitRelay.Codec
import OrbitRelay.MachineInt
import OrbitRelay.OrderedSet
import OrbitRelay.Relational
import Mathlib.Data.String.Basic

/-!
# The SQLite catalog of Documents and Canvases

Descriptors, the rows they are spread over, what the worker reads back, the three
publications and the startup scan. The kernel (identities, constructors of
descriptors, page rotations) is a parameter; a width or height is a number that
the constructors compare and check but never compute with.
-/
namespace OrbitRelay.Catalog

open Codec MachineInt Relational

inductive DocumentType where
  | pdf
  deriving DecidableEq, Repr

/-- The fields of a `DocumentPageDescriptor`. -/
structure Page (PageId Measure Rotation CanvasId : Type) where
  pageId : PageId
  pageIndex : Nat
  width : Measure
  height : Measure
  rotation : Rotation
  overlayCanvasId : CanvasId
  deriving DecidableEq

def u32Max : Nat := 2 ^ 32 - 1

def u16Max : Nat := 2 ^ 16 - 1

structure CatalogKernel where
  DocumentId : Type
  SessionId : Type
  AssetId : Type
  PageId : Type
  CanvasId : Type
  LayerId : Type
  EntityId : Type
  Measure : Type
  Rotation : Type
  Summary : Type
  [decDocumentId : DecidableEq DocumentId]
  [decSessionId : DecidableEq SessionId]
  [decAssetId : DecidableEq AssetId]
  [decPageId : DecidableEq PageId]
  [decCanvasId : DecidableEq CanvasId]
  [ordLayerId : LinearOrder LayerId]
  [decMeasure : DecidableEq Measure]
  [decRotation : DecidableEq Rotation]
  documentId : PrintedForm DocumentId
  sessionId : PrintedForm SessionId
  assetId : PrintedForm AssetId
  pageId : PrintedForm PageId
  canvasId : PrintedForm CanvasId
  layerId : PrintedForm LayerId
  entityId : PrintedForm EntityId
  degrees : Rotation → Nat
  fromDegrees : Nat → Option Rotation
  degrees_le : ∀ r, degrees r ≤ u16Max
  fromDegrees_degrees : ∀ r, fromDegrees (degrees r) = some r
  /-- Whether `CanvasSpace::new` accepts a width and a height. -/
  acceptsSpace : Measure → Measure → Bool
  /-- Whether `PageDisplayGeometry::new` accepts its arguments. -/
  acceptsGeometry : Measure → Measure → Rotation → Bool
  /-- Whether `CanvasDescriptor::new` accepts its arguments. -/
  acceptsCanvas : CanvasId → SessionId → Measure → Measure → OrderedSet LayerId → LayerId → Bool
  /-- Whether `DocumentDescriptor::new` accepts its arguments. -/
  acceptsDocument : DocumentId → SessionId → DocumentType → AssetId → String →
    List (Page PageId Measure Rotation CanvasId) → Bool
  canvas_default : ∀ {c s w h layers d}, acceptsCanvas c s w h layers d = true → d ∈ layers.elements
  document_order : ∀ {i s t a title pages}, acceptsDocument i s t a title pages = true →
    pages.Pairwise (fun p q => p.pageIndex < q.pageIndex)
  /-- `DocumentSummary::from_document`. -/
  summarize : DocumentId → SessionId → DocumentType → AssetId → String → Nat → Option Summary

attribute [instance] CatalogKernel.decDocumentId CatalogKernel.decSessionId CatalogKernel.decAssetId
  CatalogKernel.decPageId CatalogKernel.decCanvasId CatalogKernel.ordLayerId CatalogKernel.decMeasure
  CatalogKernel.decRotation

abbrev CatalogKernel.Page (K : CatalogKernel) := Catalog.Page K.PageId K.Measure K.Rotation K.CanvasId

/-- A page whose index is a `u32` and whose geometry is accepted. -/
def PageValid (K : CatalogKernel) (p : K.Page) : Prop :=
  p.pageIndex ≤ u32Max ∧ K.acceptsGeometry p.width p.height p.rotation = true

instance (K : CatalogKernel) (p : K.Page) : Decidable (PageValid K p) := by
  unfold PageValid
  infer_instance

structure CanvasDescriptor (K : CatalogKernel) where
  canvasId : K.CanvasId
  sessionId : K.SessionId
  width : K.Measure
  height : K.Measure
  layerIds : OrderedSet K.LayerId
  defaultLayerId : K.LayerId
  space : K.acceptsSpace width height = true
  valid : K.acceptsCanvas canvasId sessionId width height layerIds defaultLayerId = true
  length_le : layerIds.elements.length ≤ i64Max
  deriving DecidableEq

structure DocumentDescriptor (K : CatalogKernel) where
  documentId : K.DocumentId
  sessionId : K.SessionId
  documentType : DocumentType
  sourceAssetId : K.AssetId
  title : String
  pages : List K.Page
  pages_valid : ∀ p ∈ pages, PageValid K p
  valid : K.acceptsDocument documentId sessionId documentType sourceAssetId title pages = true
  deriving DecidableEq

/-- A Document with the Canvas of each of its pages, as the composer builds it. -/
structure DocumentComposition (K : CatalogKernel) where
  document : DocumentDescriptor K
  pageCanvases : List (CanvasDescriptor K)
  pages_ne : document.pages ≠ []
  pageIds : (document.pages.map (·.pageId)).Nodup
  canvasIds : (pageCanvases.map (·.canvasId)).Nodup
  layerIds : (pageCanvases.flatMap (·.layerIds.elements)).Nodup
  overlays : List.Forall₂ (fun page canvas => canvas.canvasId = page.overlayCanvasId ∧
    canvas.sessionId = document.sessionId ∧ canvas.width = page.width ∧ canvas.height = page.height)
    document.pages pageCanvases

structure BootstrapBinding (K : CatalogKernel) where
  sessionId : K.SessionId
  canvasId : K.CanvasId
  deriving DecidableEq

inductive CatalogPublishOutcome where
  | inserted | existing | conflict
  deriving DecidableEq, Repr

/-- A SQLite diagnostic stands for its text. -/
inductive CatalogStoreError where
  | unavailable (detail : String)
  | backend (error : SqliteError)
  | corruption (detail : String)
  | schema (detail : String)
  | conflict
  | invalidGraph (detail : String)
  deriving DecidableEq, Repr

abbrev Result (α : Type) := Except CatalogStoreError α

structure DocumentRow where
  documentId : String
  sessionId : String
  documentType : String
  sourceAssetId : String
  title : String
  pageCount : Int
  publicationSequence : Int
  deriving DecidableEq

structure CanvasRow (K : CatalogKernel) where
  canvasId : String
  sessionId : String
  width : K.Measure
  height : K.Measure
  layerCount : Int
  defaultLayerId : String
  deriving DecidableEq

structure LayerRow where
  canvasId : String
  layerId : String
  deriving DecidableEq

structure PageRow (K : CatalogKernel) where
  pageId : String
  documentId : String
  pageIndex : Int
  width : K.Measure
  height : K.Measure
  rotation : Int
  overlayCanvasId : String
  deriving DecidableEq

structure BindingRow where
  bindingKey : String
  sessionId : String
  canvasId : String
  deriving DecidableEq

/-- The five tables, each with its PRIMARY KEY and UNIQUE constraints. -/
structure Tables (K : CatalogKernel) where
  documents : Table (fun a b : DocumentRow =>
    decide (a.documentId = b.documentId ∨ a.publicationSequence = b.publicationSequence))
  canvases : Table (fun a b : CanvasRow K => decide (a.canvasId = b.canvasId))
  layers : Table (fun a b : LayerRow => decide (a.layerId = b.layerId))
  pages : Table (fun a b : PageRow K => decide (a.pageId = b.pageId ∨
    (a.documentId = b.documentId ∧ a.pageIndex = b.pageIndex) ∨
    (a.documentId = b.documentId ∧ a.overlayCanvasId = b.overlayCanvasId)))
  bindings : Table (fun a b : BindingRow => decide (a.bindingKey = b.bindingKey))

variable {K : CatalogKernel}

def Tables.empty (K : CatalogKernel) : Tables K := ⟨.empty, .empty, .empty, .empty, .empty⟩

def documentTypeName : DocumentType → String
  | .pdf => "pdf"

def parseDocumentType (value : String) : Result DocumentType :=
  if value = "pdf" then .ok .pdf else .error (.corruption "unknown Document type")

def canvasRow (c : CanvasDescriptor K) : CanvasRow K where
  canvasId := K.canvasId.text c.canvasId
  sessionId := K.sessionId.text c.sessionId
  width := c.width
  height := c.height
  layerCount := c.layerIds.elements.length
  defaultLayerId := K.layerId.text c.defaultLayerId

def layerRows (c : CanvasDescriptor K) : List LayerRow :=
  c.layerIds.elements.map (fun l => ⟨K.canvasId.text c.canvasId, K.layerId.text l⟩)

def documentRow (d : DocumentDescriptor K) (sequence : Int) : DocumentRow where
  documentId := K.documentId.text d.documentId
  sessionId := K.sessionId.text d.sessionId
  documentType := documentTypeName d.documentType
  sourceAssetId := K.assetId.text d.sourceAssetId
  title := d.title
  pageCount := d.pages.length
  publicationSequence := sequence

def pageRow (document : K.DocumentId) (p : K.Page) : PageRow K where
  pageId := K.pageId.text p.pageId
  documentId := K.documentId.text document
  pageIndex := p.pageIndex
  width := p.width
  height := p.height
  rotation := K.degrees p.rotation
  overlayCanvasId := K.canvasId.text p.overlayCanvasId

def bindingRow (key : String) (b : BootstrapBinding K) : BindingRow :=
  ⟨key, K.sessionId.text b.sessionId, K.canvasId.text b.canvasId⟩

def loadLayers (t : Tables K) (id : K.CanvasId) : Result (OrderedSet K.LayerId) := do
  let ids ← (orderBy LayerRow.layerId (t.layers.rows.filter (fun l => l.canvasId = K.canvasId.text id))).mapM
    (fun l => okOr (.corruption "malformed Layer ID") (K.layerId.parse l.layerId))
  .ok (OrderedSet.ofList ids)

/-- `CanvasDescriptor::new` on fields that were just read. -/
def newCanvas (id : K.CanvasId) (session : K.SessionId) {width height : K.Measure}
    (space : K.acceptsSpace width height = true) (layers : OrderedSet K.LayerId) (default : K.LayerId) :
    Result (CanvasDescriptor K) :=
  if h : K.acceptsCanvas id session width height layers default = true ∧ layers.elements.length ≤ i64Max then
    .ok ⟨id, session, width, height, layers, default, space, h.1, h.2⟩
  else .error (.corruption "invalid persisted Canvas descriptor")

def decodeCanvas (t : Tables K) (row : CanvasRow K) : Result (CanvasDescriptor K) := do
  let id ← okOr (.corruption "malformed Canvas ID") (K.canvasId.parse row.canvasId)
  let session ← okOr (.corruption "malformed Canvas Session ID") (K.sessionId.parse row.sessionId)
  if space : K.acceptsSpace row.width row.height = true then do
    let default ← okOr (.corruption "malformed default Layer ID") (K.layerId.parse row.defaultLayerId)
    let layers ← loadLayers t id
    if row.layerCount ≤ 0 ∨ row.layerCount.toNat ≠ layers.elements.length then
      .error (.corruption "persisted Canvas Layer count mismatch")
    else newCanvas id session space layers default
  else .error (.corruption "invalid Canvas space")

/-- `load_canvas_tx`. -/
def loadCanvas (t : Tables K) (id : K.CanvasId) : Result (Option (CanvasDescriptor K)) :=
  match t.canvases.rows.find? (fun r => r.canvasId = K.canvasId.text id) with
  | none => .ok none
  | some row => do
    let canvas ← decodeCanvas t row
    .ok (some canvas)

def toU32 (z : Int) : Option Nat := if 0 ≤ z ∧ z ≤ u32Max then some z.toNat else none

def toU16 (z : Int) : Option Nat := if 0 ≤ z ∧ z ≤ u16Max then some z.toNat else none

/-- One row of `load_pages`. -/
def decodePage (row : PageRow K) : Result (Subtype (PageValid K)) := do
  let pageId ← okOr (.corruption "malformed Page ID") (K.pageId.parse row.pageId)
  let pageIndex ← okOr (.corruption "invalid Page index") (toU32 row.pageIndex)
  let degrees ← okOr (.corruption "invalid Page rotation") (toU16 row.rotation)
  let rotation ← okOr (.corruption "invalid Page rotation") (K.fromDegrees degrees)
  if hg : K.acceptsGeometry row.width row.height rotation = true then do
    let canvasId ← okOr (.corruption "malformed overlay Canvas ID") (K.canvasId.parse row.overlayCanvasId)
    if hi : pageIndex ≤ u32Max then
      .ok ⟨⟨pageId, pageIndex, row.width, row.height, rotation, canvasId⟩, hi, hg⟩
    else .error (.corruption "invalid Page index")
  else .error (.corruption "invalid Page geometry")

def loadPages (t : Tables K) (document : K.DocumentId) : Result (List (Subtype (PageValid K))) :=
  (orderBy PageRow.pageIndex (t.pages.rows.filter (fun p => p.documentId = K.documentId.text document))).mapM
    decodePage

/-- `DocumentDescriptor::new` on pages that were just read. -/
def newDocument (id : K.DocumentId) (session : K.SessionId) (kind : DocumentType) (asset : K.AssetId)
    (title : String) (pages : List (Subtype (PageValid K))) : Result (DocumentDescriptor K) :=
  if h : K.acceptsDocument id session kind asset title (pages.map Subtype.val) = true then
    .ok ⟨id, session, kind, asset, title, pages.map Subtype.val, by
      intro p hp
      obtain ⟨q, -, rfl⟩ := List.mem_map.mp hp
      exact q.property, h⟩
  else .error (.corruption "invalid persisted Document descriptor")

def decodeDocument (t : Tables K) (row : DocumentRow) : Result (DocumentDescriptor K) := do
  let id ← okOr (.corruption "malformed document ID") (K.documentId.parse row.documentId)
  let session ← okOr (.corruption "malformed document Session ID") (K.sessionId.parse row.sessionId)
  let kind ← parseDocumentType row.documentType
  let asset ← okOr (.corruption "malformed source Asset ID") (K.assetId.parse row.sourceAssetId)
  let pages ← loadPages t id
  if row.pageCount ≤ 0 ∨ row.pageCount.toNat ≠ pages.length then
    .error (.corruption "persisted Document page count mismatch")
  else newDocument id session kind asset row.title pages

/-- `load_document_tx`. -/
def loadDocument (t : Tables K) (id : K.DocumentId) : Result (Option (DocumentDescriptor K)) :=
  match t.documents.rows.find? (fun r => r.documentId = K.documentId.text id) with
  | none => .ok none
  | some row => do
    let document ← decodeDocument t row
    .ok (some document)

def loadBinding (t : Tables K) (key : String) : Result (Option (BootstrapBinding K)) :=
  match t.bindings.rows.find? (fun r => r.bindingKey = key) with
  | none => .ok none
  | some row => do
    let session ← okOr (.corruption "malformed bootstrap Session ID") (K.sessionId.parse row.sessionId)
    let canvas ← okOr (.corruption "malformed bootstrap Canvas ID") (K.canvasId.parse row.canvasId)
    .ok (some ⟨session, canvas⟩)

/-- One turn of the loops of `list_documents` and `list_all_documents`. -/
def loadListed (t : Tables K) (row : DocumentRow) : Result (DocumentDescriptor K) := do
  let id ← okOr (.corruption "malformed document ID") (K.documentId.parse row.documentId)
  let document ← loadDocument t id
  okOr (.corruption "publication order references missing Document") document

def listAllDocuments (t : Tables K) : Result (List (DocumentDescriptor K)) :=
  (orderBy DocumentRow.publicationSequence t.documents.rows).mapM (loadListed t)

def DocumentDescriptor.summary (d : DocumentDescriptor K) : Option K.Summary :=
  K.summarize d.documentId d.sessionId d.documentType d.sourceAssetId d.title d.pages.length

def listDocuments (t : Tables K) (session : K.SessionId) : Result (List K.Summary) :=
  (orderBy DocumentRow.publicationSequence
    (t.documents.rows.filter (fun r => r.sessionId = K.sessionId.text session))).mapM (fun row => do
      let document ← loadListed t row
      okOr (.corruption "Document page count overflowed") document.summary)

/-! ## Writing -/

/-- Constraint violations are the only failures of a statement here; a statement that
SQLite fails for another reason ends its command and is accounted for there. -/
def checked {α : Type} : Except SqliteError α → Result α
  | .ok a => .ok a
  | .error e => .error (.backend e)

/-- An immediate foreign key. -/
def references (found : Bool) : Result Unit :=
  if found then .ok () else .error (.backend .constraint)

def hasCanvas (t : Tables K) (id : String) : Bool := t.canvases.rows.any (fun r => r.canvasId = id)

def hasDocument (t : Tables K) (id : String) : Bool := t.documents.rows.any (fun r => r.documentId = id)

def hasLayer (t : Tables K) (id : String) : Bool := t.layers.rows.any (fun r => r.layerId = id)

/-- The parent row of the deferred foreign key of a Canvas. -/
def hasDefaultLayer (t : Tables K) (c : CanvasRow K) : Bool :=
  t.layers.rows.any (fun l => l.canvasId = c.canvasId ∧ l.layerId = c.defaultLayerId)

def insertLayer (t : Tables K) (row : LayerRow) : Result (Tables K) := do
  let layers ← checked (t.layers.insert row)
  references (hasCanvas t row.canvasId)
  .ok { t with layers }

/-- `insert_canvas_tx`. -/
def insertCanvas (t : Tables K) (c : CanvasDescriptor K) : Result (Tables K) := do
  let _ ← okOr (.invalidGraph "Canvas Layer count exceeds SQLite capacity") (toI64 c.layerIds.elements.length)
  let canvases ← checked (t.canvases.insert (canvasRow c))
  (layerRows c).foldlM insertLayer { t with canvases }

def insertPage (t : Tables K) (row : PageRow K) : Result (Tables K) := do
  let pages ← checked (t.pages.insert row)
  references (hasDocument t row.documentId && hasCanvas t row.overlayCanvasId)
  .ok { t with pages }

def insertBinding (t : Tables K) (row : BindingRow) : Result (Tables K) := do
  let bindings ← checked (t.bindings.insert row)
  references (hasCanvas t row.canvasId)
  .ok { t with bindings }

/-- `COMMIT`: the deferred foreign keys of the rows that the transaction added. -/
def commit {α : Type} (old new : Tables K) (value : α) : Result (α × Tables K) := do
  references (new.canvases.rows.all (fun r => old.canvases.rows.contains r || hasDefaultLayer new r))
  .ok (value, new)

/-- `SELECT COALESCE(MAX(publication_sequence), -1) + 1`: past the largest integer the sum
is a REAL, which the row reader does not accept as an `i64`. -/
def nextSequence (t : Tables K) : Result Int :=
  let top := (t.documents.rows.map (·.publicationSequence)).max?.getD (-1)
  if top + 1 ≤ i64Max then .ok (top + 1) else .error (.backend .other)

def documentIdsCollide (t : Tables K) (c : DocumentComposition K) : Bool :=
  hasDocument t (K.documentId.text c.document.documentId) ||
    c.pageCanvases.any (fun canvas => hasCanvas t (K.canvasId.text canvas.canvasId) ||
      canvas.layerIds.elements.any (fun l => hasLayer t (K.layerId.text l)))

/-- The comparison loop of `publish_document`. -/
def compareCanvases (t : Tables K) : Bool → List (CanvasDescriptor K) → Result Bool
  | same, [] => .ok same
  | same, canvas :: rest => do
    let found ← loadCanvas t canvas.canvasId
    let existing ← okOr (.corruption "published Document is missing its Canvas") found
    compareCanvases t (same && decide (existing = canvas)) rest

def publishDocument (t : Tables K) (c : DocumentComposition K) :
    Result (CatalogPublishOutcome × Tables K) := do
  match ← loadDocument t c.document.documentId with
  | some existing =>
    let same ← compareCanvases t (decide (existing = c.document)) c.pageCanvases
    if same then commit t t .existing else .error .conflict
  | none =>
    if documentIdsCollide t c then .error .conflict
    else
      let sequence ← nextSequence t
      let u ← c.pageCanvases.foldlM insertCanvas t
      let _ ← okOr (.invalidGraph "Document page count exceeds SQLite capacity")
        (toI64 c.document.pages.length)
      let documents ← checked (u.documents.insert (documentRow c.document sequence))
      let v ← (c.document.pages.map (pageRow c.document.documentId)).foldlM insertPage { u with documents }
      commit t v .inserted

def publishStandalone (t : Tables K) (c : CanvasDescriptor K) :
    Result (CatalogPublishOutcome × Tables K) := do
  match ← loadCanvas t c.canvasId with
  | some existing => if existing = c then commit t t .existing else .error .conflict
  | none =>
    if c.layerIds.elements.any (fun l => hasLayer t (K.layerId.text l)) then .error .conflict
    else
      let u ← insertCanvas t c
      commit t u .inserted

def publishStandaloneWithBinding (t : Tables K) (key : String) (c : CanvasDescriptor K)
    (b : BootstrapBinding K) : Result (CatalogPublishOutcome × Tables K) :=
  if b.canvasId ≠ c.canvasId ∨ b.sessionId ≠ c.sessionId then .error .conflict
  else match t.bindings.rows.find? (fun r => r.bindingKey = key) with
    | some row =>
      if row.sessionId ≠ K.sessionId.text b.sessionId ∨ row.canvasId ≠ K.canvasId.text b.canvasId then
        .error .conflict
      else do
        let found ← loadCanvas t c.canvasId
        let existing ← okOr (.corruption "bootstrap binding references missing Canvas") found
        if existing ≠ c then .error .conflict else commit t t .existing
    | none => do
      match ← loadCanvas t c.canvasId with
      | some existing =>
        if existing ≠ c then .error .conflict
        else
          let u ← insertBinding t (bindingRow key b)
          commit t u .existing
      | none =>
        let u ← insertCanvas t c
        let v ← insertBinding u (bindingRow key b)
        commit t v .inserted

def storeBinding (t : Tables K) (key : String) (b : BootstrapBinding K) : Result (Unit × Tables K) :=
  match t.bindings.rows.find? (fun r => r.bindingKey = key) with
  | some row =>
    if (row.sessionId, row.canvasId) ≠ (K.sessionId.text b.sessionId, K.canvasId.text b.canvasId) then
      .error .conflict
    else commit t t ()
  | none => do
    let u ← insertBinding t (bindingRow key b)
    commit t u ()

/-! ## The startup scan -/

/-- `PRAGMA foreign_key_check` reports no row. -/
def foreignKeysHold (t : Tables K) : Bool :=
  t.canvases.rows.all (hasDefaultLayer t) &&
  t.layers.rows.all (fun l => hasCanvas t l.canvasId) &&
  t.pages.rows.all (fun p => hasDocument t p.documentId && hasCanvas t p.overlayCanvasId) &&
  t.bindings.rows.all (fun b => hasCanvas t b.canvasId)

/-- The Canvas of one page of a scanned Document. -/
def scanPage (t : Tables K) (document : DocumentDescriptor K) (page : K.Page) : Result Unit := do
  let found ← loadCanvas t page.overlayCanvasId
  let canvas ← okOr (.corruption "Document Page references missing Canvas") found
  if canvas.sessionId ≠ document.sessionId ∨ canvas.width ≠ page.width ∨ canvas.height ≠ page.height then
    .error (.corruption "Document Page and Canvas descriptor mismatch")
  else .ok ()

def scanDocument (t : Tables K) (row : DocumentRow) : Result Unit := do
  let id ← okOr (.corruption "malformed document ID") (K.documentId.parse row.documentId)
  let session ← okOr (.corruption "malformed document Session ID") (K.sessionId.parse row.sessionId)
  let asset ← okOr (.corruption "malformed source Asset ID") (K.assetId.parse row.sourceAssetId)
  let kind ← parseDocumentType row.documentType
  let pages ← loadPages t id
  if row.pageCount ≤ 0 ∨ row.pageCount.toNat ≠ pages.length then
    .error (.corruption "persisted Document page count mismatch")
  else do
    let document ← newDocument id session kind asset row.title pages
    document.pages.forM (scanPage t document)

/-- The loop over the Documents, with the sequence number that is due next. -/
def scanDocuments (t : Tables K) : Int → List DocumentRow → Result Unit
  | _, [] => .ok ()
  | expected, row :: rest =>
    if row.publicationSequence < 0 ∨ row.publicationSequence < expected then
      .error (.corruption "invalid Document publication sequence")
    else do
      scanDocument t row
      scanDocuments t (min (row.publicationSequence + 1) i64Max) rest

def scanCanvas (t : Tables K) (row : CanvasRow K) : Result Unit := do
  let id ← okOr (.corruption "malformed Canvas ID") (K.canvasId.parse row.canvasId)
  let found ← loadCanvas t id
  let _ ← okOr (.corruption "Canvas disappeared during scan") found
  .ok ()

def scanBinding (t : Tables K) (row : BindingRow) : Result Unit := do
  let session ← okOr (.corruption "malformed bootstrap Session ID") (K.sessionId.parse row.sessionId)
  let canvas ← okOr (.corruption "malformed bootstrap Canvas ID") (K.canvasId.parse row.canvasId)
  let found ← loadCanvas t canvas
  let descriptor ← okOr (.corruption "bootstrap binding references missing Canvas") found
  if descriptor.sessionId ≠ session then .error (.corruption "bootstrap binding Session mismatch")
  else .ok ()

def scanIntegrity (t : Tables K) : Result Unit := do
  if foreignKeysHold t = false then .error (.corruption "Catalog foreign key check failed")
  else
    scanDocuments t 0 (orderBy DocumentRow.publicationSequence t.documents.rows)
    (orderBy CanvasRow.canvasId t.canvases.rows).forM (scanCanvas t)
    if t.layers.rows.any (fun l => !hasCanvas t l.canvasId) then .error (.corruption "orphan Layer row")
    else t.bindings.rows.forM (scanBinding t)

end OrbitRelay.Catalog
