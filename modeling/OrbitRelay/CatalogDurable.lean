import OrbitRelay.CatalogRun

/-!
# Durable publications and bindings

Publications are there for good and never keep the catalog from opening again.
`put_bootstrap_binding` does, when it binds a stored Canvas for another session.
-/
namespace OrbitRelay.Catalog

open Codec MachineInt Relational Transition

variable {K : CatalogKernel}

theorem publishDocument_durable {s u : Store K} (hs : Invariant s) {fault : Option SqliteError}
    {c : DocumentComposition K} {outcome : CatalogPublishOutcome}
    (h : (execute fault s.db.tables (.publishDocument c)).1 = .published (.ok outcome))
    (hrun : (system (publishing (K := K))).Run (s.after fault (.publishDocument c)) u) :
    loadDocument u.db.tables c.document.documentId = .ok (some c.document) ∧
      ∀ canvas ∈ c.pageCanvases, loadCanvas u.db.tables canvas.canvasId = .ok (some canvas) := by
  have hfault := published_ok h
  subst hfault
  obtain ⟨hg, hd, hcs⟩ := publishDocument_grown hs.consistent (transact_ok (Reply.published.inj h))
  have hk := run_kept ⟨after_ready hs.ready none (.publishDocument c), hg.consistent⟩ hrun
  exact ⟨hk.loadDocument _ _ hd, fun canvas hcanvas => hk.loadCanvas _ _ (hcs canvas hcanvas)⟩

theorem publishStandalone_durable {s u : Store K} (hs : Invariant s) {fault : Option SqliteError}
    {d : CanvasDescriptor K} {outcome : CatalogPublishOutcome}
    (h : (execute fault s.db.tables (.publishStandalone d)).1 = .published (.ok outcome))
    (hrun : (system (publishing (K := K))).Run (s.after fault (.publishStandalone d)) u) :
    loadCanvas u.db.tables d.canvasId = .ok (some d) := by
  have hfault := published_ok h
  subst hfault
  obtain ⟨hg, hd⟩ := publishStandalone_grown hs.consistent (transact_ok (Reply.published.inj h))
  have hk := run_kept ⟨after_ready hs.ready none (.publishStandalone d), hg.consistent⟩ hrun
  exact hk.loadCanvas _ _ hd

theorem publishStandaloneWithBinding_durable {s u : Store K} (hs : Invariant s) {fault : Option SqliteError}
    {key : String} {d : CanvasDescriptor K} {b : BootstrapBinding K} {outcome : CatalogPublishOutcome}
    (h : (execute fault s.db.tables (.publishStandaloneWithBinding key d b)).1 = .published (.ok outcome))
    (hrun : (system (publishing (K := K))).Run (s.after fault (.publishStandaloneWithBinding key d b)) u) :
    loadCanvas u.db.tables d.canvasId = .ok (some d) := by
  have hfault := published_ok h
  subst hfault
  obtain ⟨hg, hd⟩ := publishStandaloneWithBinding_grown hs.consistent (transact_ok (Reply.published.inj h))
  have hk := run_kept ⟨after_ready hs.ready none (.publishStandaloneWithBinding key d b), hg.consistent⟩ hrun
  exact hk.loadCanvas _ _ hd

/-- Publications are durable, immutable and never in the way of the next open. -/
theorem catalog_publications_durable (s : Store K) (hs : (system (publishing (K := K))).Reachable s) :
    (scanIntegrity s.db.tables = .ok () ∧
      ∀ fresh, ∃ id, initializeStorage OpenFaults.none fresh "ok" s.db = (.ok id, s.db)) ∧
    (∀ u, (system publishing).Run s u → Kept s.db.tables u.db.tables) ∧
    (∀ fault c outcome, (execute fault s.db.tables (.publishDocument c)).1 = .published (.ok outcome) →
      ∀ u, (system publishing).Run (s.after fault (.publishDocument c)) u →
        loadDocument u.db.tables c.document.documentId = .ok (some c.document) ∧
        ∀ canvas ∈ c.pageCanvases, loadCanvas u.db.tables canvas.canvasId = .ok (some canvas)) ∧
    (∀ fault d outcome, (execute fault s.db.tables (.publishStandalone d)).1 = .published (.ok outcome) →
      ∀ u, (system publishing).Run (s.after fault (.publishStandalone d)) u →
        loadCanvas u.db.tables d.canvasId = .ok (some d)) ∧
    (∀ fault key d b outcome,
      (execute fault s.db.tables (.publishStandaloneWithBinding key d b)).1 = .published (.ok outcome) →
      ∀ u, (system publishing).Run (s.after fault (.publishStandaloneWithBinding key d b)) u →
        loadCanvas u.db.tables d.canvasId = .ok (some d)) ∧
    ∀ fault c e, (execute fault s.db.tables c).1 = .published (.error e) →
      (execute fault s.db.tables c).2 = s.db.tables := by
  have hinv := reachable_invariant hs
  have hscan := reachable_scan hs
  refine ⟨⟨hscan, initializeStorage_ready hinv.ready hscan⟩, fun u hu => run_kept hinv hu, ?_, ?_, ?_, ?_⟩
  · intro fault c outcome h u hu
    exact publishDocument_durable hinv h hu
  · intro fault d outcome h u hu
    exact publishStandalone_durable hinv h hu
  · intro fault key d b outcome h u hu
    exact publishStandaloneWithBinding_durable hinv h hu
  · intro fault c e h
    exact published_error h

/-- A kernel of plain texts and numbers, with the rotations of a PDF page. -/
def textCatalog : CatalogKernel where
  DocumentId := String
  SessionId := String
  AssetId := String
  PageId := String
  CanvasId := String
  LayerId := String
  EntityId := String
  Measure := Nat
  Rotation := Fin 4
  Summary := String × Nat
  documentId := TextForm.self.toPrintedForm
  sessionId := TextForm.self.toPrintedForm
  assetId := TextForm.self.toPrintedForm
  pageId := TextForm.self.toPrintedForm
  canvasId := TextForm.self.toPrintedForm
  layerId := TextForm.self.toPrintedForm
  entityId := TextForm.self.toPrintedForm
  degrees r := 90 * r.val
  fromDegrees n := if n = 0 then some 0 else if n = 90 then some 1 else if n = 180 then some 2
    else if n = 270 then some 3 else none
  degrees_le r := by
    have := r.isLt
    simp only [u16Max]
    omega
  fromDegrees_degrees := by decide
  acceptsSpace w h := decide (0 < w ∧ 0 < h)
  acceptsGeometry w h _ := decide (0 < w ∧ 0 < h)
  acceptsCanvas _ _ _ _ layers d := decide (d ∈ layers.elements)
  acceptsDocument _ _ _ _ _ pages := decide (pages.Pairwise (fun p q => p.pageIndex < q.pageIndex))
  canvas_default h := of_decide_eq_true h
  document_order h := of_decide_eq_true h
  summarize _ _ _ _ title n := some (title, n)

theorem textCatalog_space : textCatalog.acceptsSpace (10 : Nat) (20 : Nat) = true := by decide

def sampleCanvas (id session : String) : CanvasDescriptor textCatalog where
  canvasId := id
  sessionId := session
  width := (10 : Nat)
  height := (20 : Nat)
  layerIds := OrderedSet.ofList [id ++ "-ink"]
  defaultLayerId := id ++ "-ink"
  space := textCatalog_space
  valid := decide_eq_true (OrderedSet.mem_ofList.mpr (List.mem_singleton_self _))
  length_le := by
    show 1 ≤ i64Max
    decide

def samplePage (id : String) (index : Nat) (canvas : String) : textCatalog.Page :=
  ⟨id, index, (10 : Nat), (20 : Nat), (1 : Fin 4), canvas⟩

def sampleDocument : DocumentDescriptor textCatalog where
  documentId := "document-1"
  sessionId := "session-1"
  documentType := .pdf
  sourceAssetId := "asset-1"
  title := "Test"
  pages := [samplePage "page-1" 0 "canvas-1"]
  pages_valid := by decide
  valid := by decide

def sampleComposition : DocumentComposition textCatalog where
  document := sampleDocument
  pageCanvases := [sampleCanvas "canvas-1" "session-1"]
  pages_ne := by simp [sampleDocument]
  pageIds := by simp [sampleDocument]
  canvasIds := by simp
  layerIds := by simpa using (sampleCanvas "canvas-1" "session-1").layerIds.nodup
  overlays := .cons ⟨rfl, rfl, rfl, rfl⟩ .nil

def sampleFile : Database textCatalog := ⟨∅, Tables.empty textCatalog⟩

/-- A new catalog, opened for the first time. -/
def sampleStore : Store textCatalog where
  db := (initializeStorage OpenFaults.none "store-1" "ok" sampleFile).2
  opened := some "store-1"

theorem sampleStore_reachable (allowed : Command textCatalog → Prop) :
    (system allowed).Reachable sampleStore :=
  .start ⟨OpenFaults.none, "store-1", "ok", sampleFile, "store-1", rfl, rfl⟩

theorem catalog_publications_durable_sample :
    (execute none sampleStore.db.tables (.publishDocument sampleComposition)).1 = .published (.ok .inserted) ∧
    ∀ u, (system publishing).Run (sampleStore.after none (.publishDocument sampleComposition)) u →
      loadDocument u.db.tables "document-1" = .ok (some sampleDocument) := by
  have hpublished : (execute none sampleStore.db.tables (.publishDocument sampleComposition)).1 =
      .published (.ok .inserted) := rfl
  obtain ⟨-, -, hdocument, -⟩ := catalog_publications_durable sampleStore (sampleStore_reachable _)
  exact ⟨hpublished, fun u hu => (hdocument none sampleComposition .inserted hpublished u hu).1⟩

/-! ## Bindings -/

/-- A new key is bound to any Canvas that is stored. -/
theorem storeBinding_fresh {t : Tables K} {key : String} {b : BootstrapBinding K}
    (hkey : ∀ row ∈ t.bindings.rows, row.bindingKey ≠ key)
    (hcanvas : hasCanvas t (K.canvasId.text b.canvasId) = true) :
    ∃ u, storeBinding t key b = .ok ((), u) ∧ bindingRow key b ∈ u.bindings.rows ∧
      Added t u [] [] [bindingRow key b] := by
  have hnone : t.bindings.rows.find? (fun r => r.bindingKey = key) = none := by
    rw [List.find?_eq_none]
    intro row hrow
    simpa using hkey row hrow
  obtain ⟨bindings, hbindings⟩ := Table.exists_insert (t := t.bindings) (r := bindingRow key b)
    (fun row hrow => decide_eq_false (hkey row hrow))
  obtain ⟨-, hrows⟩ := Table.insert_ok_iff.mp hbindings
  have hinsert : insertBinding t (bindingRow key b) = .ok { t with bindings } :=
    insertBinding_eq_ok.mpr ⟨hkey, hcanvas, hrows, rfl⟩
  have hadded := (Added.refl t).binding hinsert
  refine ⟨{ t with bindings }, ?_, ?_, hadded⟩
  · unfold storeBinding
    rw [hnone]
    simp only [hinsert, ok_bind]
    exact commit_added hadded ()
  · show bindingRow key b ∈ bindings.rows
    rw [hrows]
    exact List.mem_append_right _ (List.mem_singleton_self _)

/-- What `put_bootstrap_binding` is to guarantee: `Ok` leaves a catalog that opens, an
error leaves it alone. -/
def BindingSafe (t : Tables K) (key : String) (b : BootstrapBinding K) : Prop :=
  ∀ fault, ((execute fault t (.putBinding key b)).1 = .stored (.ok ()) →
      scanIntegrity (execute fault t (.putBinding key b)).2 = .ok ()) ∧
    ∀ e, (execute fault t (.putBinding key b)).1 = .stored (.error e) →
      (execute fault t (.putBinding key b)).2 = t

/-- The key is taken, or the Canvas is not stored, or it has the session of the binding. -/
def BindingFits (t : Tables K) (key : String) (b : BootstrapBinding K) : Prop :=
  (∃ row ∈ t.bindings.rows, row.bindingKey = key) ∨
    hasCanvas t (K.canvasId.text b.canvasId) = false ∨
    ∃ c, loadCanvas t b.canvasId = .ok (some c) ∧ c.sessionId = b.sessionId

theorem bindingFits_scan {t u : Tables K} {key : String} {b : BootstrapBinding K}
    (ht : scanIntegrity t = .ok ()) (hfits : BindingFits t key b)
    (h : storeBinding t key b = .ok ((), u)) : scanIntegrity u = .ok () := by
  rcases storeBinding_ok h with ⟨rfl, -⟩ | ⟨hadded, hcanvas, hkey⟩
  · exact ht
  · rcases hfits with ⟨row, hrow, htaken⟩ | hmissing | ⟨c, hc, hsession⟩
    · exact absurd htaken (hkey row hrow)
    · rw [hcanvas] at hmissing
      cases hmissing
    · have hg := storeBinding_grown (scanIntegrity_ok.mp ht).1 h
      have hid := loadCanvas_id hc
      have hagrees : Agrees u (bindingRow key b) := by
        refine ⟨c, by rw [bindingRow, hid, K.canvasId.parse_text], by
          rw [bindingRow, hsession, K.sessionId.parse_text], ?_⟩
        rw [hid]
        exact hadded.canvas_kept hc
      have hg' : Grown t u True := by
        refine ⟨⟨_, _, _, hadded, ?_⟩, hg.consistent⟩
        intro _ row hrow
        rw [List.mem_singleton] at hrow
        rw [hrow]
        exact hagrees
      exact hg'.scan ht

/-- `put_bootstrap_binding` keeps the catalog reopenable exactly where the binding fits. -/
theorem binding_safe_iff_fits (t : Tables K) (ht : scanIntegrity t = .ok ()) (key : String)
    (b : BootstrapBinding K) : BindingSafe t key b ↔ BindingFits t key b := by
  constructor
  · intro hsafe
    by_cases htaken : ∃ row ∈ t.bindings.rows, row.bindingKey = key
    · exact .inl htaken
    by_cases hcanvas : hasCanvas t (K.canvasId.text b.canvasId) = true
    · right
      right
      have hkey : ∀ row ∈ t.bindings.rows, row.bindingKey ≠ key := fun row hrow he => htaken ⟨row, hrow, he⟩
      obtain ⟨u, hu, hrow, hadded⟩ := storeBinding_fresh hkey hcanvas
      have hscan := (hsafe none).1 (by simp [execute, hu, transact])
      simp only [execute, hu, transact] at hscan
      obtain ⟨c, hid, hsession, hc⟩ := (scanIntegrity_ok.mp hscan).2 _ hrow
      have hid : b.canvasId = c.canvasId := (K.canvasId.parsed_eq hid rfl).symm
      have hsession : b.sessionId = c.sessionId := (K.sessionId.parsed_eq hsession rfl).symm
      obtain ⟨r, hr, hrid⟩ := hasCanvas_iff.mp hcanvas
      obtain ⟨c', hid', hc'⟩ := (scanIntegrity_ok.mp ht).1.canvases r hr
      have hsame : c'.canvasId = b.canvasId := K.canvasId.parsed_eq hid' hrid
      have hkept := hadded.canvas_kept hc'
      rw [hsame, hid, hc] at hkept
      cases hkept
      exact ⟨c, by rw [hid]; exact hc', hsession.symm⟩
    · right
      left
      simpa using hcanvas
  · intro hfits fault
    refine ⟨?_, ?_⟩
    · cases fault with
      | some e =>
        intro h
        cases h
      | none =>
        intro h
        exact bindingFits_scan ht hfits (transact_ok (Reply.stored.inj h))
    · intro e h
      cases fault with
      | some e' => rfl
      | none => exact transact_error (Reply.stored.inj h)

/-- A catalog with one standalone Canvas. -/
def sampleTables : Tables textCatalog :=
  (execute none (Tables.empty textCatalog) (.publishStandalone (sampleCanvas "canvas-1" "session-1"))).2

theorem binding_safe_iff_fits_sample :
    (execute none sampleTables (.putBinding "development/default_canvas" ⟨"session-1", "canvas-1"⟩)).1 =
        .stored (.ok ()) ∧
      BindingSafe sampleTables "development/default_canvas" ⟨"session-1", "canvas-1"⟩ := by
  refine ⟨rfl, (binding_safe_iff_fits sampleTables rfl _ _).mpr ?_⟩
  exact .inr (.inr ⟨sampleCanvas "canvas-1" "session-1", rfl, rfl⟩)

/-- A binding for another session is stored, and the next scan refuses the catalog. -/
theorem binding_of_other_session_stored :
    scanIntegrity sampleTables = .ok () ∧
    (execute none sampleTables (.putBinding "development/default_canvas" ⟨"session-2", "canvas-1"⟩)).1 =
      .stored (.ok ()) ∧
    scanIntegrity
        (execute none sampleTables (.putBinding "development/default_canvas" ⟨"session-2", "canvas-1"⟩)).2 =
      .error (.corruption "bootstrap binding Session mismatch") := ⟨rfl, rfl, rfl⟩

end OrbitRelay.Catalog
