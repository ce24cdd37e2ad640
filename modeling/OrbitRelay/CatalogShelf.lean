import OrbitRelay.CatalogContents

/-!
# What a catalog stands for

Documents, Canvases and bindings in the order in which they were written, and the
tables that represent them.
-/
namespace OrbitRelay.Catalog

open Codec MachineInt Relational

variable {K : CatalogKernel}

structure Shelf (K : CatalogKernel) where
  documents : List (DocumentDescriptor K)
  canvases : List (CanvasDescriptor K)
  bindings : List (String × BootstrapBinding K)

namespace Shelf

variable (s : Shelf K)

def empty (K : CatalogKernel) : Shelf K := ⟨[], [], []⟩

def document (id : K.DocumentId) : Option (DocumentDescriptor K) := s.documents.find? (fun d => d.documentId = id)

def canvas (id : K.CanvasId) : Option (CanvasDescriptor K) := s.canvases.find? (fun c => c.canvasId = id)

def binding (key : String) : Option (BootstrapBinding K) :=
  (s.bindings.find? (fun p => p.1 = key)).map Prod.snd

/-- The Documents of a session, in the form of a listing. -/
def summaries (session : K.SessionId) : Result (List K.Summary) :=
  (s.documents.filter (fun d => d.sessionId = session)).mapM
    (fun d => okOr (.corruption "Document page count overflowed") d.summary)

/-- Neither the Canvas nor a layer of it is there. -/
structure AdmitsCanvas (d : CanvasDescriptor K) : Prop where
  canvas : ∀ c ∈ s.canvases, c.canvasId ≠ d.canvasId
  layers : ∀ c ∈ s.canvases, ∀ l ∈ c.layerIds.elements, l ∉ d.layerIds.elements

/-- Nothing of the composition is there. -/
structure Admits (c : DocumentComposition K) : Prop where
  document : ∀ d ∈ s.documents, d.documentId ≠ c.document.documentId
  pages : ∀ d ∈ s.documents, ∀ p ∈ d.pages, ∀ q ∈ c.document.pages, p.pageId ≠ q.pageId
  canvases : ∀ canvas ∈ c.pageCanvases, s.AdmitsCanvas canvas

/-- All of the composition is there. -/
structure Holds (c : DocumentComposition K) : Prop where
  document : c.document ∈ s.documents
  canvases : ∀ canvas ∈ c.pageCanvases, canvas ∈ s.canvases

def Unbound (key : String) : Prop := ∀ p ∈ s.bindings, p.1 ≠ key

/-- Identities are unique, pages show Canvases that fit them, bindings name Canvases that are there. -/
structure WellFormed : Prop where
  documentIds : (s.documents.map (·.documentId)).Nodup
  pageIds : (s.documents.flatMap (fun d => d.pages.map (·.pageId))).Nodup
  canvasIds : (s.canvases.map (·.canvasId)).Nodup
  layerIds : (s.canvases.flatMap (·.layerIds.elements)).Nodup
  keys : (s.bindings.map Prod.fst).Nodup
  shown : ∀ d ∈ s.documents, d.pages ≠ [] ∧ ∀ page ∈ d.pages, ∃ c ∈ s.canvases,
    c.canvasId = page.overlayCanvasId ∧ c.sessionId = d.sessionId ∧ c.width = page.width ∧ c.height = page.height
  bound : ∀ p ∈ s.bindings, ∃ c ∈ s.canvases, c.canvasId = p.2.canvasId

/-- The Documents with their sequence numbers. -/
def sequenced : List (DocumentDescriptor K × Int) := s.documents.zipIdx.map (fun p => (p.1, (p.2 : Int)))

def boundRows : List BindingRow := s.bindings.map (fun p => bindingRow p.1 p.2)

end Shelf

/-- The tables hold the rows of the shelf, and no others. -/
structure Represents (t : Tables K) (s : Shelf K) : Prop where
  consistent : Consistent t
  added : Added (Tables.empty K) t s.canvases s.sequenced s.boundRows

variable {t u : Tables K} {s : Shelf K}

theorem consistent_empty (K : CatalogKernel) : Consistent (Tables.empty K) :=
  (Contents.empty K "").consistent

theorem represents_empty (K : CatalogKernel) : Represents (Tables.empty K) (Shelf.empty K) where
  consistent := consistent_empty K
  added := .refl _

namespace Represents

theorem documentRows (h : Represents t s) : t.documents.rows = numbered s.documents := by
  rw [h.added.documents, Shelf.sequenced, List.map_map]
  rfl

theorem canvasRows (h : Represents t s) : t.canvases.rows = s.canvases.map canvasRow := h.added.canvases

theorem allLayerRows (h : Represents t s) : t.layers.rows = s.canvases.flatMap layerRows := h.added.layers

theorem bindingRows (h : Represents t s) : t.bindings.rows = s.boundRows := h.added.bindings

theorem sequenced_fst (s : Shelf K) : s.sequenced.map Prod.fst = s.documents := by
  rw [Shelf.sequenced, List.map_map]
  exact List.zipIdx_map_fst 0 s.documents

theorem pageRows (h : Represents t s) :
    t.pages.rows = s.documents.flatMap (fun d => d.pages.map (pageRow d.documentId)) := by
  have hpages : (s.sequenced.map Prod.fst).flatMap (fun d => d.pages.map (pageRow d.documentId)) =
      s.sequenced.flatMap (fun d => d.1.pages.map (pageRow d.1.documentId)) := List.flatMap_map ..
  rw [← sequenced_fst, hpages]
  exact h.added.pages

theorem mem_sequenced {d : DocumentDescriptor K} : d ∈ s.documents ↔ ∃ n, (d, n) ∈ s.sequenced := by
  rw [← sequenced_fst, List.mem_map]
  constructor
  · rintro ⟨⟨d, n⟩, hmem, rfl⟩
    exact ⟨n, hmem⟩
  · rintro ⟨n, hmem⟩
    exact ⟨(d, n), hmem, rfl⟩

/-! ## What is there -/

theorem hasCanvas (h : Represents t s) {id : K.CanvasId} :
    hasCanvas t (K.canvasId.text id) = true ↔ ∃ c ∈ s.canvases, c.canvasId = id := by
  rw [hasCanvas_iff, h.canvasRows]
  constructor
  · rintro ⟨row, hrow, hid⟩
    obtain ⟨c, hc, rfl⟩ := List.mem_map.mp hrow
    exact ⟨c, hc, K.canvasId.text_injective hid⟩
  · rintro ⟨c, hc, rfl⟩
    exact ⟨canvasRow c, List.mem_map_of_mem hc, rfl⟩

theorem hasDocument (h : Represents t s) {id : K.DocumentId} :
    hasDocument t (K.documentId.text id) = true ↔ ∃ d ∈ s.documents, d.documentId = id := by
  rw [hasDocument_iff, h.added.documents]
  constructor
  · rintro ⟨row, hrow, hid⟩
    obtain ⟨⟨d, n⟩, hd, rfl⟩ := List.mem_map.mp hrow
    exact ⟨d, mem_sequenced.mpr ⟨n, hd⟩, K.documentId.text_injective hid⟩
  · rintro ⟨d, hd, rfl⟩
    obtain ⟨n, hn⟩ := mem_sequenced.mp hd
    exact ⟨documentRow d n, List.mem_map.mpr ⟨(d, n), hn, rfl⟩, rfl⟩

theorem hasLayer (h : Represents t s) {id : K.LayerId} :
    hasLayer t (K.layerId.text id) = true ↔ ∃ c ∈ s.canvases, id ∈ c.layerIds.elements := by
  rw [hasLayer_iff, h.allLayerRows]
  constructor
  · rintro ⟨row, hrow, hid⟩
    obtain ⟨c, hc, hrow⟩ := List.mem_flatMap.mp hrow
    obtain ⟨l, hl, rfl⟩ := List.mem_map.mp hrow
    exact ⟨c, hc, K.layerId.text_injective hid ▸ hl⟩
  · rintro ⟨c, hc, hl⟩
    exact ⟨_, List.mem_flatMap.mpr ⟨c, hc, List.mem_map_of_mem hl⟩, rfl⟩

theorem hasPage (h : Represents t s) {id : K.PageId} :
    hasPage t (K.pageId.text id) = true ↔ ∃ d ∈ s.documents, ∃ p ∈ d.pages, p.pageId = id := by
  rw [hasPage_iff, h.pageRows]
  constructor
  · rintro ⟨row, hrow, hid⟩
    obtain ⟨d, hd, hrow⟩ := List.mem_flatMap.mp hrow
    obtain ⟨p, hp, rfl⟩ := List.mem_map.mp hrow
    exact ⟨d, hd, p, hp, K.pageId.text_injective hid⟩
  · rintro ⟨d, hd, p, hp, rfl⟩
    exact ⟨_, List.mem_flatMap.mpr ⟨d, hd, List.mem_map_of_mem hp⟩, rfl⟩

/-! ## What is read -/

theorem stored_canvas (h : Represents t s) {c : CanvasDescriptor K} (hc : c ∈ s.canvases) :
    loadCanvas t c.canvasId = .ok (some c) :=
  h.added.canvas_added (consistent_empty K) hc

theorem pages_ne (h : Represents t s) {d : DocumentDescriptor K} (hd : d ∈ s.documents) : d.pages ≠ [] := by
  obtain ⟨n, hn⟩ := mem_sequenced.mp hd
  have hrow : documentRow d n ∈ t.documents.rows := by
    rw [h.added.documents]
    exact List.mem_append_right _ (List.mem_map.mpr ⟨(d, n), hn, rfl⟩)
  obtain ⟨-, found, hfound, -⟩ := h.consistent.documents _ hrow
  obtain ⟨-, -, -, -, -, hcount, hne, -⟩ := decodeDocument_eq_ok.mp hfound
  rintro hnil
  have hlength : (d.pages.length : Int) = found.pages.length := hcount
  rw [hnil] at hlength
  exact hne (List.eq_nil_of_length_eq_zero (by simpa using hlength.symm))

theorem stored_document (h : Represents t s) {d : DocumentDescriptor K} (hd : d ∈ s.documents) :
    loadDocument t d.documentId = .ok (some d) := by
  obtain ⟨n, hn⟩ := mem_sequenced.mp hd
  exact h.added.document_added (consistent_empty K) hn (h.pages_ne hd)

theorem loadCanvas (h : Represents t s) (id : K.CanvasId) : loadCanvas t id = .ok (s.canvas id) := by
  cases hfound : s.canvas id with
  | none =>
    rw [loadCanvas_eq_none, ← Bool.not_eq_true, h.hasCanvas]
    rintro ⟨c, hc, rfl⟩
    exact List.find?_eq_none.mp hfound c hc (decide_eq_true rfl)
  | some c =>
    have hid : c.canvasId = id := by simpa using List.find?_some hfound
    rw [← hid]
    exact h.stored_canvas (List.mem_of_find?_eq_some hfound)

theorem loadDocument (h : Represents t s) (id : K.DocumentId) : loadDocument t id = .ok (s.document id) := by
  cases hfound : s.document id with
  | none =>
    rw [loadDocument_eq_none, ← Bool.not_eq_true, h.hasDocument]
    rintro ⟨d, hd, rfl⟩
    exact List.find?_eq_none.mp hfound d hd (decide_eq_true rfl)
  | some d =>
    have hid : d.documentId = id := by simpa using List.find?_some hfound
    rw [← hid]
    exact h.stored_document (List.mem_of_find?_eq_some hfound)

theorem mem_canvases (h : Represents t s) {c : CanvasDescriptor K} :
    c ∈ s.canvases ↔ Catalog.loadCanvas t c.canvasId = .ok (some c) := by
  refine ⟨h.stored_canvas, fun hload => ?_⟩
  rw [h.loadCanvas] at hload
  exact List.mem_of_find?_eq_some (Except.ok.inj hload)

theorem mem_documents (h : Represents t s) {d : DocumentDescriptor K} :
    d ∈ s.documents ↔ Catalog.loadDocument t d.documentId = .ok (some d) := by
  refine ⟨h.stored_document, fun hload => ?_⟩
  rw [h.loadDocument] at hload
  exact List.mem_of_find?_eq_some (Except.ok.inj hload)

theorem findBinding (h : Represents t s) (key : String) :
    t.bindings.rows.find? (fun r => r.bindingKey = key) =
      (s.bindings.find? (fun p => p.1 = key)).map (fun p => bindingRow p.1 p.2) := by
  rw [h.bindingRows, Shelf.boundRows, List.find?_map]
  rfl

theorem loadBinding (h : Represents t s) (key : String) : loadBinding t key = .ok (s.binding key) := by
  unfold Catalog.loadBinding Shelf.binding
  rw [h.findBinding]
  cases s.bindings.find? (fun p => p.1 = key) with
  | none => rfl
  | some p => simp [bindingRow, K.sessionId.parse_text, K.canvasId.parse_text]

theorem listAllDocuments (h : Represents t s) : listAllDocuments t = .ok s.documents :=
  listAllDocuments_numbered h.documentRows fun _ => h.stored_document

theorem listDocuments (h : Represents t s) (session : K.SessionId) : listDocuments t session = s.summaries session :=
  listDocuments_numbered h.documentRows (fun _ => h.stored_document) session

/-! ## What can be published -/

theorem admitsCanvas_iff (h : Represents t s) {d : CanvasDescriptor K} :
    s.AdmitsCanvas d ↔ Catalog.hasCanvas t (K.canvasId.text d.canvasId) = false ∧ layerTaken t d = false := by
  rw [← Bool.not_eq_true, h.hasCanvas, ← Bool.not_eq_true, layerTaken, List.any_eq_true]
  constructor
  · intro hadmits
    constructor
    · rintro ⟨c, hc, hid⟩
      exact hadmits.canvas c hc hid
    · rintro ⟨l, hl, htaken⟩
      obtain ⟨c, hc, hmem⟩ := h.hasLayer.mp htaken
      exact hadmits.layers c hc l hmem hl
  · rintro ⟨hcanvas, hlayers⟩
    exact ⟨fun c hc hid => hcanvas ⟨c, hc, hid⟩, fun c hc l hmem hl => hlayers ⟨l, hl, h.hasLayer.mpr ⟨c, hc, hmem⟩⟩⟩

theorem canvasesFresh_iff (h : Represents t s) {cs : List (CanvasDescriptor K)} :
    CanvasesFresh t cs ↔ ∀ c ∈ cs, s.AdmitsCanvas c := by
  unfold CanvasesFresh
  refine forall₂_congr fun c _ => ?_
  rw [h.admitsCanvas_iff, layerTaken, List.any_eq_false]
  simp only [Bool.not_eq_true]

theorem fresh_iff (h : Represents t s) {c : DocumentComposition K} : Fresh t c ↔ s.Admits c := by
  unfold Fresh
  rw [h.canvasesFresh_iff, ← Bool.not_eq_true, h.hasDocument]
  constructor
  · rintro ⟨hdocument, hpages, hcanvases⟩
    refine ⟨fun d hd hid => hdocument ⟨d, hd, hid⟩, ?_, hcanvases⟩
    intro d hd p hp q hq hid
    have hfalse := hpages q hq
    rw [← Bool.not_eq_true, h.hasPage] at hfalse
    exact hfalse ⟨d, hd, p, hp, hid⟩
  · intro hadmits
    refine ⟨fun ⟨d, hd, hid⟩ => hadmits.document d hd hid, ?_, hadmits.canvases⟩
    intro q hq
    rw [← Bool.not_eq_true, h.hasPage]
    rintro ⟨d, hd, p, hp, hid⟩
    exact hadmits.pages d hd p hp q hq hid

theorem same_iff (h : Represents t s) {c : DocumentComposition K} : Same t c ↔ s.Holds c := by
  unfold Same
  rw [← h.mem_documents]
  exact ⟨fun hsame => ⟨hsame.1, fun canvas hc => h.mem_canvases.mpr (hsame.2 canvas hc)⟩,
    fun hholds => ⟨hholds.document, fun canvas hc => h.stored_canvas (hholds.canvases canvas hc)⟩⟩

theorem unbound_iff (h : Represents t s) {key : String} :
    s.Unbound key ↔ t.bindings.rows.find? (fun r => r.bindingKey = key) = none := by
  rw [h.findBinding, Option.map_eq_none_iff, List.find?_eq_none]
  simp only [Shelf.Unbound, decide_eq_true_eq]

/-! ## Growing -/

/-- Rows that are added to the tables are added to the shelf. -/
theorem grow (h : Represents t s) {cs : List (CanvasDescriptor K)} {ds : List (DocumentDescriptor K × Int)}
    {bs : List BindingRow} (hadded : Added t u cs ds bs) (hu : Consistent u) {s' : Shelf K}
    (hcanvases : s'.canvases = s.canvases ++ cs) (hdocuments : s'.sequenced = s.sequenced ++ ds)
    (hbindings : s'.boundRows = s.boundRows ++ bs) : Represents u s' where
  consistent := hu
  added := by
    constructor
    · rw [hadded.canvases, h.added.canvases, hcanvases, List.map_append, List.append_assoc]
    · rw [hadded.layers, h.added.layers, hcanvases, List.flatMap_append, List.append_assoc]
    · rw [hadded.documents, h.added.documents, hdocuments, List.map_append, List.append_assoc]
    · rw [hadded.pages, h.added.pages, hdocuments, List.flatMap_append, List.append_assoc]
    · rw [hadded.bindings, h.added.bindings, hbindings, List.append_assoc]

theorem sequenced_append (documents : List (DocumentDescriptor K)) (d : DocumentDescriptor K)
    (canvases canvases' : List (CanvasDescriptor K)) (bindings bindings' : List (String × BootstrapBinding K)) :
    (Shelf.mk (documents ++ [d]) canvases bindings).sequenced =
      (Shelf.mk documents canvases' bindings').sequenced ++ [(d, (documents.length : Int))] := by
  simp [Shelf.sequenced, List.zipIdx_append]

/-! ## Order in the shelf -/

theorem wellFormed (h : Represents t s) : s.WellFormed where
  documentIds := numbered_nodup h.documentRows
  pageIds := by
    have hrows := pages_unique t
    rw [h.pageRows] at hrows
    have hids : ((s.documents.flatMap (fun d => d.pages.map (pageRow d.documentId))).map (·.pageId)).Nodup :=
      List.pairwise_map.mpr hrows
    rw [List.map_flatMap] at hids
    have htexts : s.documents.flatMap (fun d => (d.pages.map (pageRow d.documentId)).map (·.pageId)) =
        (s.documents.flatMap (fun d => d.pages.map (·.pageId))).map K.pageId.text := by
      rw [List.map_flatMap]
      simp only [List.map_map]
      rfl
    rw [htexts] at hids
    exact hids.of_map
  canvasIds := by
    have hrows := canvases_unique t
    rw [h.canvasRows, List.pairwise_map] at hrows
    refine List.pairwise_map.mpr (hrows.imp fun hne hid => hne ?_)
    exact congrArg K.canvasId.text hid
  layerIds := by
    have hrows := layers_unique t
    rw [h.allLayerRows] at hrows
    have hids : ((s.canvases.flatMap layerRows).map (·.layerId)).Nodup := List.pairwise_map.mpr hrows
    have htexts : (s.canvases.flatMap layerRows).map (·.layerId) =
        (s.canvases.flatMap (·.layerIds.elements)).map K.layerId.text := by
      rw [List.map_flatMap, List.map_flatMap]
      simp only [layerRows, List.map_map]
      rfl
    rw [htexts] at hids
    exact hids.of_map
  keys := by
    have hrows := t.bindings.sound
    rw [h.bindingRows, Shelf.boundRows, List.pairwise_map] at hrows
    exact List.pairwise_map.mpr (hrows.imp fun hclash hid => of_decide_eq_false hclash hid)
  shown := by
    intro d hd
    refine ⟨h.pages_ne hd, fun page hpage => ?_⟩
    obtain ⟨found, hfound, hshown⟩ := h.consistent.document (h.hasDocument.mpr ⟨d, hd, rfl⟩)
    rw [h.stored_document hd] at hfound
    cases hfound
    obtain ⟨c, hload, hfits⟩ := hshown page hpage
    have hid := loadCanvas_id hload
    exact ⟨c, h.mem_canvases.mpr (hid ▸ hload), hid, hfits⟩
  bound := by
    intro p hp
    have hrow : bindingRow p.1 p.2 ∈ t.bindings.rows := by
      rw [h.bindingRows]
      exact List.mem_map_of_mem hp
    exact h.hasCanvas.mp ((foreignKeysHold_iff.mp h.consistent.keys).2.2.2 _ hrow)

end Represents

end OrbitRelay.Catalog
