import OrbitRelay.CatalogSound

/-!
# Publications add to the catalog

What a publication has done to the tables when it succeeds: rows of new Canvases,
Documents and bindings behind the old ones. From that alone everything that loaded
before still loads, what was added loads too, and the tables stay in order.
-/
namespace OrbitRelay.Catalog

open Codec MachineInt Relational

variable {K : CatalogKernel} {t u : Tables K}

/-- The rows of some Canvases, Documents with their sequence numbers, and bindings were added. -/
structure Added (t u : Tables K) (cs : List (CanvasDescriptor K)) (ds : List (DocumentDescriptor K × Int))
    (bs : List BindingRow) : Prop where
  canvases : u.canvases.rows = t.canvases.rows ++ cs.map canvasRow
  layers : u.layers.rows = t.layers.rows ++ cs.flatMap layerRows
  documents : u.documents.rows = t.documents.rows ++ ds.map (fun d => documentRow d.1 d.2)
  pages : u.pages.rows = t.pages.rows ++ ds.flatMap (fun d => d.1.pages.map (pageRow d.1.documentId))
  bindings : u.bindings.rows = t.bindings.rows ++ bs

theorem Added.refl (t : Tables K) : Added t t [] [] [] := by
  constructor <;> simp

theorem loadLayers_of_rows {c : CanvasDescriptor K}
    (h : ∀ l, (l ∈ t.layers.rows ∧ l.canvasId = K.canvasId.text c.canvasId) ↔ l ∈ layerRows c) :
    loadLayers t c.canvasId = .ok c.layerIds := by
  have hmem : ∀ l, l ∈ orderBy LayerRow.layerId
      (t.layers.rows.filter (fun l => l.canvasId = K.canvasId.text c.canvasId)) ↔ l ∈ layerRows c := by
    intro l
    rw [mem_orderBy, ← h l, List.mem_filter, decide_eq_true_eq]
  have hparse : ∀ l ∈ layerRows c, ∃ a ∈ c.layerIds.elements, K.layerId.text a = l.layerId := by
    intro l hl
    obtain ⟨a, ha, rfl⟩ := List.mem_map.mp hl
    exact ⟨a, ha, rfl⟩
  obtain ⟨ids, hids⟩ := exists_mapM_ok (f := fun l : LayerRow =>
      okOr (CatalogStoreError.corruption "malformed Layer ID") (K.layerId.parse l.layerId))
    (l := orderBy LayerRow.layerId
      (t.layers.rows.filter (fun l => l.canvasId = K.canvasId.text c.canvasId))) (by
      intro l hl
      obtain ⟨a, -, ha⟩ := hparse l ((hmem l).mp hl)
      exact ⟨a, by simp [← ha]⟩)
  unfold loadLayers
  rw [hids, ok_bind]
  refine congrArg Except.ok (OrderedSet.ofList_eq ?_)
  intro a
  rw [mem_of_mapM_ok hids]
  constructor
  · rintro ⟨l, hl, ha⟩
    obtain ⟨b, hb, hbl⟩ := hparse l ((hmem l).mp hl)
    rw [okOr_eq_ok, ← hbl, PrintedForm.parse_text] at ha
    cases ha
    exact hb
  · intro ha
    refine ⟨⟨K.canvasId.text c.canvasId, K.layerId.text a⟩, (hmem _).mpr ?_, by simp⟩
    exact List.mem_map.mpr ⟨a, ha, rfl⟩

theorem decodePage_pageRow (document : K.DocumentId) {p : K.Page} (hp : PageValid K p) :
    decodePage (pageRow document p) = .ok ⟨p, hp⟩ := by
  have hindex : toU32 (p.pageIndex : Int) = some p.pageIndex := by
    have := hp.1
    simp only [toU32]
    rw [if_pos (by omega), Int.toNat_natCast]
  have hrotation : toU16 (K.degrees p.rotation : Int) = some (K.degrees p.rotation) := by
    have := K.degrees_le p.rotation
    simp only [toU16]
    rw [if_pos (by omega), Int.toNat_natCast]
  simp only [decodePage, pageRow, PrintedForm.parse_text, okOr_some, ok_bind, hindex, hrotation,
    K.fromDegrees_degrees]
  rw [dif_pos hp.2, dif_pos hp.1]

theorem decodePages_map (document : K.DocumentId) (ps : List K.Page) (h : ∀ p ∈ ps, PageValid K p) :
    ∃ pages, (ps.map (pageRow document)).mapM decodePage = .ok pages ∧ ps = pages.map Subtype.val := by
  induction ps with
  | nil => exact ⟨[], rfl, rfl⟩
  | cons p ps ih =>
    obtain ⟨pages, hpages, hmap⟩ := ih (fun q hq => h q (List.mem_cons_of_mem p hq))
    refine ⟨⟨p, h p List.mem_cons_self⟩ :: pages, ?_, by rw [List.map_cons, ← hmap]⟩
    rw [List.map_cons, List.mapM_cons, decodePage_pageRow, ok_bind, hpages, ok_bind]
    rfl

theorem loadPages_of_rows {d : DocumentDescriptor K}
    (h : ∀ p, (p ∈ t.pages.rows ∧ p.documentId = K.documentId.text d.documentId) ↔
      p ∈ d.pages.map (pageRow d.documentId)) :
    ∃ pages, loadPages t d.documentId = .ok pages ∧ d.pages = pages.map Subtype.val := by
  have hsorted : (d.pages.map (pageRow d.documentId)).Pairwise (fun a b => a.pageIndex < b.pageIndex) := by
    rw [List.pairwise_map]
    exact (K.document_order d.valid).imp (fun h => by simpa [pageRow] using h)
  have hnodup : (t.pages.rows.filter (fun p => p.documentId = K.documentId.text d.documentId)).Nodup :=
    ((pages_unique t).imp (fun h he => h (by rw [he]))).filter _
  have hperm : (t.pages.rows.filter (fun p => p.documentId = K.documentId.text d.documentId)).Perm
      (d.pages.map (pageRow d.documentId)) := by
    refine (List.perm_ext_iff_of_nodup hnodup (hsorted.imp (fun h he => ?_))).mpr ?_
    · rw [he] at h
      exact lt_irrefl _ h
    · intro p
      rw [← h p, List.mem_filter, decide_eq_true_eq]
  unfold loadPages
  rw [orderBy_eq_of_perm PageRow.pageIndex hperm hsorted]
  exact decodePages_map d.documentId d.pages d.pages_valid

section Added

variable {cs : List (CanvasDescriptor K)} {ds : List (DocumentDescriptor K × Int)} {bs : List BindingRow}

theorem Added.canvas_new (h : Added t u cs ds bs) {r : CanvasRow K} (hr : r ∈ t.canvases.rows)
    {c : CanvasDescriptor K} (hc : c ∈ cs) : r.canvasId ≠ K.canvasId.text c.canvasId := by
  have hu := canvases_unique u
  rw [h.canvases, List.pairwise_append] at hu
  exact hu.2.2 r hr (canvasRow c) (List.mem_map.mpr ⟨c, hc, rfl⟩)

theorem Added.document_new (h : Added t u cs ds bs) {r : DocumentRow} (hr : r ∈ t.documents.rows)
    {d : DocumentDescriptor K × Int} (hd : d ∈ ds) : r.documentId ≠ K.documentId.text d.1.documentId := by
  have hu := documents_unique u
  rw [h.documents, List.pairwise_append] at hu
  exact hu.2.2 r hr (documentRow d.1 d.2) (List.mem_map.mpr ⟨d, hd, rfl⟩)

theorem Added.canvas_same (h : Added t u cs ds bs) {c c' : CanvasDescriptor K} (hc : c ∈ cs) (hc' : c' ∈ cs)
    (hid : c.canvasId = c'.canvasId) : c = c' := by
  have hu := canvases_unique u
  rw [h.canvases, List.pairwise_append, List.pairwise_map] at hu
  have hsymm : Std.Symm (fun a b : CanvasDescriptor K => (canvasRow a).canvasId ≠ (canvasRow b).canvasId) :=
    ⟨fun _ _ h => h.symm⟩
  by_contra hne
  exact hu.2.1.forall hc hc' hne (by simp [canvasRow, hid])

theorem Added.document_same (h : Added t u cs ds bs) {d d' : DocumentDescriptor K × Int} (hd : d ∈ ds)
    (hd' : d' ∈ ds) (hid : d.1.documentId = d'.1.documentId) : d = d' := by
  have hu := documents_unique u
  rw [h.documents, List.pairwise_append, List.pairwise_map] at hu
  have hsymm : Std.Symm (fun a b : DocumentDescriptor K × Int =>
      (documentRow a.1 a.2).documentId ≠ (documentRow b.1 b.2).documentId) := ⟨fun _ _ h => h.symm⟩
  by_contra hne
  exact hu.2.1.forall hd hd' hne (by simp [documentRow, hid])

/-- The layers of a Canvas that was there are what they were. -/
theorem Added.loadLayers_old (h : Added t u cs ds bs) {id : K.CanvasId}
    (hid : hasCanvas t (K.canvasId.text id) = true) : loadLayers u id = loadLayers t id := by
  obtain ⟨r, hr, hrid⟩ := hasCanvas_iff.mp hid
  have hnew : (cs.flatMap layerRows).filter (fun l => l.canvasId = K.canvasId.text id) = [] := by
    rw [List.filter_eq_nil_iff]
    intro l hl
    obtain ⟨c, hc, hl⟩ := List.mem_flatMap.mp hl
    obtain ⟨a, -, rfl⟩ := List.mem_map.mp hl
    have hne := h.canvas_new hr hc
    rw [hrid] at hne
    simpa using Ne.symm hne
  unfold loadLayers
  rw [h.layers, List.filter_append, hnew, List.append_nil]

theorem Added.loadPages_old (h : Added t u cs ds bs) {id : K.DocumentId}
    (hid : hasDocument t (K.documentId.text id) = true) : loadPages u id = loadPages t id := by
  obtain ⟨r, hr, hrid⟩ := hasDocument_iff.mp hid
  have hnew : (ds.flatMap (fun d => d.1.pages.map (pageRow d.1.documentId))).filter
      (fun p => p.documentId = K.documentId.text id) = [] := by
    rw [List.filter_eq_nil_iff]
    intro p hp
    obtain ⟨d, hd, hp⟩ := List.mem_flatMap.mp hp
    obtain ⟨a, -, rfl⟩ := List.mem_map.mp hp
    have hne := h.document_new hr hd
    rw [hrid] at hne
    simpa [pageRow] using Ne.symm hne
  unfold loadPages
  rw [h.pages, List.filter_append, hnew, List.append_nil]

theorem Added.canvas_kept (h : Added t u cs ds bs) {id : K.CanvasId} {c : CanvasDescriptor K}
    (hc : loadCanvas t id = .ok (some c)) : loadCanvas u id = .ok (some c) := by
  have hid := loadCanvas_id hc
  have hhas := loadCanvas_has hc
  obtain ⟨row, hrow, hrid, hd⟩ := loadCanvas_eq_some.mp hc
  refine loadCanvas_eq_some.mpr ⟨row, by rw [h.canvases]; exact List.mem_append_left _ hrow, hrid, ?_⟩
  rw [decodeCanvas_eq_ok] at hd ⊢
  obtain ⟨h₁, h₂, h₃, h₄, h₅, h₆, hlayers⟩ := hd
  exact ⟨h₁, h₂, h₃, h₄, h₅, h₆, by rw [hid, h.loadLayers_old hhas, ← hid, hlayers]⟩

theorem Added.decode_kept (h : Added t u cs ds bs) {row : DocumentRow} {d : DocumentDescriptor K}
    (hhas : hasDocument t (K.documentId.text d.documentId) = true) (hd : decodeDocument t row = .ok d) :
    decodeDocument u row = .ok d := by
  rw [decodeDocument_eq_ok] at hd ⊢
  obtain ⟨h₁, h₂, h₃, h₄, h₅, h₆, h₇, pages, hpages, hmap⟩ := hd
  exact ⟨h₁, h₂, h₃, h₄, h₅, h₆, h₇, pages, by rw [h.loadPages_old hhas, hpages], hmap⟩

theorem Added.document_kept (h : Added t u cs ds bs) {id : K.DocumentId} {d : DocumentDescriptor K}
    (hd : loadDocument t id = .ok (some d)) : loadDocument u id = .ok (some d) := by
  obtain ⟨row, hrow, hrid, hdec⟩ := loadDocument_eq_some.mp hd
  have hhas : hasDocument t (K.documentId.text d.documentId) = true :=
    hasDocument_iff.mpr ⟨row, hrow, by rw [hrid, loadDocument_id hd]⟩
  exact loadDocument_eq_some.mpr
    ⟨row, by rw [h.documents]; exact List.mem_append_left _ hrow, hrid, h.decode_kept hhas hdec⟩

/-- A Canvas that was added loads as it was given. -/
theorem Added.canvas_added (h : Added t u cs ds bs) (ht : Consistent t) {c : CanvasDescriptor K}
    (hc : c ∈ cs) : loadCanvas u c.canvasId = .ok (some c) := by
  have hrow : canvasRow c ∈ u.canvases.rows := by
    rw [h.canvases]
    exact List.mem_append_right _ (List.mem_map.mpr ⟨c, hc, rfl⟩)
  refine loadCanvas_eq_some.mpr ⟨canvasRow c, hrow, rfl, ?_⟩
  refine decodeCanvas_eq_ok.mpr ⟨K.canvasId.parse_text _, K.sessionId.parse_text _, rfl, rfl,
    K.layerId.parse_text _, rfl, loadLayers_of_rows ?_⟩
  intro l
  rw [h.layers, List.mem_append, List.mem_flatMap]
  constructor
  · rintro ⟨hl | ⟨c', hc', hl⟩, hid⟩
    · obtain ⟨r, hr, hrid⟩ := hasCanvas_iff.mp ((foreignKeysHold_iff.mp ht.keys).2.1 l hl)
      exact absurd (hrid.trans hid) (h.canvas_new hr hc)
    · have hl' := hl
      obtain ⟨a, -, rfl⟩ := List.mem_map.mp hl
      rw [h.canvas_same hc hc' (K.canvasId.text_injective hid.symm)]
      exact hl'
  · intro hl
    refine ⟨.inr ⟨c, hc, hl⟩, ?_⟩
    obtain ⟨a, -, rfl⟩ := List.mem_map.mp hl
    rfl

theorem Added.decode_added (h : Added t u cs ds bs) (ht : Consistent t)
    {d : DocumentDescriptor K × Int} (hd : d ∈ ds) (hne : d.1.pages ≠ []) :
    decodeDocument u (documentRow d.1 d.2) = .ok d.1 := by
  refine decodeDocument_eq_ok.mpr ⟨K.documentId.parse_text _, K.sessionId.parse_text _, rfl,
    K.assetId.parse_text _, rfl, rfl, hne, loadPages_of_rows ?_⟩
  intro p
  rw [h.pages, List.mem_append, List.mem_flatMap]
  constructor
  · rintro ⟨hp | ⟨d', hd', hp⟩, hid⟩
    · obtain ⟨r, hr, hrid⟩ := hasDocument_iff.mp ((foreignKeysHold_iff.mp ht.keys).2.2.1 p hp).1
      exact absurd (hrid.trans hid) (h.document_new hr hd)
    · have hp' := hp
      obtain ⟨a, -, rfl⟩ := List.mem_map.mp hp
      rw [h.document_same hd hd' (K.documentId.text_injective hid.symm)]
      exact hp'
  · intro hp
    refine ⟨.inr ⟨d, hd, hp⟩, ?_⟩
    obtain ⟨a, -, rfl⟩ := List.mem_map.mp hp
    rfl

theorem Added.document_added (h : Added t u cs ds bs) (ht : Consistent t)
    {d : DocumentDescriptor K × Int} (hd : d ∈ ds) (hne : d.1.pages ≠ []) :
    loadDocument u d.1.documentId = .ok (some d.1) := by
  have hrow : documentRow d.1 d.2 ∈ u.documents.rows := by
    rw [h.documents]
    exact List.mem_append_right _ (List.mem_map.mpr ⟨d, hd, rfl⟩)
  exact loadDocument_eq_some.mpr ⟨documentRow d.1 d.2, hrow, rfl, h.decode_added ht hd hne⟩

theorem Added.hasCanvas_mono (h : Added t u cs ds bs) {id : String} (hid : hasCanvas t id = true) :
    hasCanvas u id = true := by
  obtain ⟨r, hr, hrid⟩ := hasCanvas_iff.mp hid
  exact hasCanvas_iff.mpr ⟨r, by rw [h.canvases]; exact List.mem_append_left _ hr, hrid⟩

theorem Added.hasDocument_mono (h : Added t u cs ds bs) {id : String} (hid : hasDocument t id = true) :
    hasDocument u id = true := by
  obtain ⟨r, hr, hrid⟩ := hasDocument_iff.mp hid
  exact hasDocument_iff.mpr ⟨r, by rw [h.documents]; exact List.mem_append_left _ hr, hrid⟩

theorem Added.shows_kept (h : Added t u cs ds bs) {d : DocumentDescriptor K} {page : K.Page}
    (hs : Shows t d page) : Shows u d page := by
  obtain ⟨c, hc, hmatch⟩ := hs
  exact ⟨c, h.canvas_kept hc, hmatch⟩

theorem Added.agrees_kept (h : Added t u cs ds bs) {b : BindingRow} (hb : Agrees t b) : Agrees u b := by
  obtain ⟨c, h₁, h₂, hc⟩ := hb
  exact ⟨c, h₁, h₂, h.canvas_kept hc⟩

/-- Adding whole Documents over their Canvases, and bindings of Canvases, keeps the tables in order. -/
theorem Added.consistent (h : Added t u cs ds bs) (ht : Consistent t)
    (hds : ∀ d ∈ ds, 0 ≤ d.2 ∧ d.1.pages ≠ [] ∧ ∀ page ∈ d.1.pages, Shows u d.1 page)
    (hbs : ∀ b ∈ bs, hasCanvas u b.canvasId = true) : Consistent u := by
  obtain ⟨hdefault, hlayers, hpages, hbindings⟩ := foreignKeysHold_iff.mp ht.keys
  refine ⟨foreignKeysHold_iff.mpr ⟨?_, ?_, ?_, ?_⟩, ?_, ?_⟩
  · intro r hr
    rw [hasDefaultLayer_iff, h.layers]
    rw [h.canvases] at hr
    rcases List.mem_append.mp hr with hr | hr
    · exact List.mem_append_left _ (hasDefaultLayer_iff.mp (hdefault r hr))
    · obtain ⟨c, hc, rfl⟩ := List.mem_map.mp hr
      refine List.mem_append_right _ (List.mem_flatMap.mpr ⟨c, hc, ?_⟩)
      exact List.mem_map.mpr ⟨c.defaultLayerId, K.canvas_default c.valid, rfl⟩
  · intro l hl
    rw [h.layers] at hl
    rcases List.mem_append.mp hl with hl | hl
    · exact h.hasCanvas_mono (hlayers l hl)
    · obtain ⟨c, hc, hl⟩ := List.mem_flatMap.mp hl
      obtain ⟨a, -, rfl⟩ := List.mem_map.mp hl
      exact loadCanvas_has (h.canvas_added ht hc)
  · intro p hp
    rw [h.pages] at hp
    rcases List.mem_append.mp hp with hp | hp
    · exact ⟨h.hasDocument_mono (hpages p hp).1, h.hasCanvas_mono (hpages p hp).2⟩
    · obtain ⟨d, hd, hp⟩ := List.mem_flatMap.mp hp
      obtain ⟨page, hpage, rfl⟩ := List.mem_map.mp hp
      obtain ⟨c, hc, -⟩ := (hds d hd).2.2 page hpage
      refine ⟨hasDocument_iff.mpr ⟨documentRow d.1 d.2, ?_, rfl⟩, loadCanvas_has hc⟩
      rw [h.documents]
      exact List.mem_append_right _ (List.mem_map.mpr ⟨d, hd, rfl⟩)
  · intro b hb
    rw [h.bindings] at hb
    rcases List.mem_append.mp hb with hb | hb
    · exact h.hasCanvas_mono (hbindings b hb)
    · exact hbs b hb
  · intro r hr
    rw [h.canvases] at hr
    rcases List.mem_append.mp hr with hr | hr
    · obtain ⟨c, hid, hc⟩ := ht.canvases r hr
      exact ⟨c, hid, h.canvas_kept hc⟩
    · obtain ⟨c, hc, rfl⟩ := List.mem_map.mp hr
      exact ⟨c, K.canvasId.parse_text _, h.canvas_added ht hc⟩
  · intro r hr
    rw [h.documents] at hr
    rcases List.mem_append.mp hr with hr | hr
    · obtain ⟨hseq, d, hd, hshow⟩ := ht.documents r hr
      exact ⟨hseq, d, h.decode_kept (decodeDocument_has ht.keys hd) hd,
        fun page hpage => h.shows_kept (hshow page hpage)⟩
    · obtain ⟨d, hd, rfl⟩ := List.mem_map.mp hr
      obtain ⟨hseq, hne, hshow⟩ := hds d hd
      exact ⟨hseq, d.1, h.decode_added ht hd hne, hshow⟩

end Added

/-! ## The statements of a publication -/

theorem checked_eq_ok {α : Type} {x : Except SqliteError α} {a : α} : checked x = .ok a ↔ x = .ok a := by
  cases x <;> simp [checked]

theorem references_eq_ok {found : Bool} : references found = .ok () ↔ found = true := by
  cases found <;> simp [references]

theorem insertLayer_eq_ok {row : LayerRow} :
    insertLayer t row = .ok u ↔ hasLayer t row.layerId = false ∧ hasCanvas t row.canvasId = true ∧
      u.layers.rows = t.layers.rows ++ [row] ∧ u = { t with layers := u.layers } := by
  unfold insertLayer
  rw [← Bool.not_eq_true, hasLayer_iff]
  constructor
  · intro h
    obtain ⟨layers, hlayers, h⟩ := bind_ok h
    obtain ⟨⟨⟩, href, h⟩ := bind_ok h
    cases h
    obtain ⟨hfresh, hrows⟩ := Table.insert_ok_iff.mp (checked_eq_ok.mp hlayers)
    refine ⟨?_, references_eq_ok.mp href, hrows, rfl⟩
    rintro ⟨r, hr, hid⟩
    exact of_decide_eq_false (hfresh r hr) hid
  · rintro ⟨hfresh, hcanvas, hrows, hu⟩
    have hinsert : t.layers.insert row = .ok u.layers := by
      refine Table.insert_ok_iff.mpr ⟨?_, hrows⟩
      intro a ha
      exact decide_eq_false (fun hid => hfresh ⟨a, ha, hid⟩)
    rw [hinsert, hcanvas]
    exact congrArg Except.ok hu.symm

theorem insertPage_eq_ok {row : PageRow K} :
    insertPage t row = .ok u ↔
      (∀ p ∈ t.pages.rows, ¬ (p.pageId = row.pageId ∨
        (p.documentId = row.documentId ∧ p.pageIndex = row.pageIndex) ∨
        (p.documentId = row.documentId ∧ p.overlayCanvasId = row.overlayCanvasId))) ∧
      (hasDocument t row.documentId = true ∧ hasCanvas t row.overlayCanvasId = true) ∧
      u.pages.rows = t.pages.rows ++ [row] ∧ u = { t with pages := u.pages } := by
  unfold insertPage
  constructor
  · intro h
    obtain ⟨pages, hpages, h⟩ := bind_ok h
    obtain ⟨⟨⟩, href, h⟩ := bind_ok h
    cases h
    obtain ⟨hfresh, hrows⟩ := Table.insert_ok_iff.mp (checked_eq_ok.mp hpages)
    exact ⟨fun p hp => of_decide_eq_false (hfresh p hp), by simpa using references_eq_ok.mp href, hrows, rfl⟩
  · rintro ⟨hfresh, hrefs, hrows, hu⟩
    have hinsert : t.pages.insert row = .ok u.pages :=
      Table.insert_ok_iff.mpr ⟨fun p hp => decide_eq_false (hfresh p hp), hrows⟩
    rw [hinsert, hrefs.1, hrefs.2]
    exact congrArg Except.ok hu.symm

theorem insertBinding_eq_ok {row : BindingRow} :
    insertBinding t row = .ok u ↔ (∀ b ∈ t.bindings.rows, b.bindingKey ≠ row.bindingKey) ∧
      hasCanvas t row.canvasId = true ∧ u.bindings.rows = t.bindings.rows ++ [row] ∧
      u = { t with bindings := u.bindings } := by
  unfold insertBinding
  constructor
  · intro h
    obtain ⟨bindings, hbindings, h⟩ := bind_ok h
    obtain ⟨⟨⟩, href, h⟩ := bind_ok h
    cases h
    obtain ⟨hfresh, hrows⟩ := Table.insert_ok_iff.mp (checked_eq_ok.mp hbindings)
    exact ⟨fun b hb => of_decide_eq_false (hfresh b hb), references_eq_ok.mp href, hrows, rfl⟩
  · rintro ⟨hfresh, hcanvas, hrows, hu⟩
    have hinsert : t.bindings.insert row = .ok u.bindings :=
      Table.insert_ok_iff.mpr ⟨fun b hb => decide_eq_false (hfresh b hb), hrows⟩
    rw [hinsert, hcanvas]
    exact congrArg Except.ok hu.symm

theorem insertLayers_ok {rows : List LayerRow} (h : rows.foldlM insertLayer t = .ok u) :
    u.layers.rows = t.layers.rows ++ rows ∧ u = { t with layers := u.layers } := by
  induction rows generalizing t with
  | nil =>
    cases h
    simp
  | cons row rows ih =>
    rw [List.foldlM_cons] at h
    obtain ⟨v, hv, h⟩ := bind_ok h
    obtain ⟨-, -, hrows, hv⟩ := insertLayer_eq_ok.mp hv
    obtain ⟨hu, hu'⟩ := ih h
    refine ⟨by rw [hu, hrows, List.append_assoc]; rfl, ?_⟩
    rw [hu', hv]

theorem insertPages_ok {rows : List (PageRow K)} (h : rows.foldlM insertPage t = .ok u) :
    u.pages.rows = t.pages.rows ++ rows ∧ u = { t with pages := u.pages } := by
  induction rows generalizing t with
  | nil =>
    cases h
    simp
  | cons row rows ih =>
    rw [List.foldlM_cons] at h
    obtain ⟨v, hv, h⟩ := bind_ok h
    obtain ⟨-, -, hrows, hv⟩ := insertPage_eq_ok.mp hv
    obtain ⟨hu, hu'⟩ := ih h
    refine ⟨by rw [hu, hrows, List.append_assoc]; rfl, ?_⟩
    rw [hu', hv]

theorem insertCanvas_ok {c : CanvasDescriptor K} (h : insertCanvas t c = .ok u) : Added t u [c] [] [] := by
  unfold insertCanvas at h
  obtain ⟨-, -, h⟩ := bind_ok h
  obtain ⟨canvases, hcanvases, h⟩ := bind_ok h
  obtain ⟨-, hrows⟩ := Table.insert_ok_iff.mp (checked_eq_ok.mp hcanvases)
  obtain ⟨hlayers, hu⟩ := insertLayers_ok h
  rw [hu]
  constructor <;> simp [hrows, hlayers]

theorem insertCanvases_ok {cs : List (CanvasDescriptor K)} (h : cs.foldlM insertCanvas t = .ok u) :
    Added t u cs [] [] := by
  induction cs generalizing t with
  | nil =>
    cases h
    exact Added.refl _
  | cons c cs ih =>
    rw [List.foldlM_cons] at h
    obtain ⟨v, hv, h⟩ := bind_ok h
    have hv := insertCanvas_ok hv
    have hu := ih h
    constructor
    · rw [hu.canvases, hv.canvases]
      simp
    · rw [hu.layers, hv.layers]
      simp
    · rw [hu.documents, hv.documents]
      simp
    · rw [hu.pages, hv.pages]
      simp
    · rw [hu.bindings, hv.bindings]
      simp

theorem commit_ok {α : Type} {value w : α} {v : Tables K} (h : commit t u value = .ok (w, v)) :
    w = value ∧ v = u := by
  unfold commit at h
  obtain ⟨-, -, h⟩ := bind_ok h
  cases h
  exact ⟨rfl, rfl⟩

/-- The default layer of every Canvas that was added is there at the commit. -/
theorem commit_added {α : Type} {cs : List (CanvasDescriptor K)} {ds : List (DocumentDescriptor K × Int)}
    {bs : List BindingRow} (h : Added t u cs ds bs) (value : α) : commit t u value = .ok (value, u) := by
  have hall : u.canvases.rows.all (fun r => t.canvases.rows.contains r || hasDefaultLayer u r) = true := by
    rw [List.all_eq_true]
    intro r hr
    rw [h.canvases] at hr
    rcases List.mem_append.mp hr with hr | hr
    · simp [hr]
    · obtain ⟨c, hc, rfl⟩ := List.mem_map.mp hr
      have hdefault : hasDefaultLayer u (canvasRow c) = true := by
        rw [hasDefaultLayer_iff, h.layers]
        refine List.mem_append_right _ (List.mem_flatMap.mpr ⟨c, hc, ?_⟩)
        exact List.mem_map.mpr ⟨c.defaultLayerId, K.canvas_default c.valid, rfl⟩
      simp [hdefault]
  unfold commit
  rw [hall]
  rfl

theorem nextSequence_ok (ht : Consistent t) {n : Int} (h : nextSequence t = .ok n) : 0 ≤ n := by
  unfold nextSequence at h
  dsimp only at h
  split at h
  · cases h
    cases hmax : (t.documents.rows.map (·.publicationSequence)).max? with
    | none => decide
    | some m =>
      obtain ⟨r, hr, hm⟩ := List.mem_map.mp (List.max?_mem hmax)
      have := (ht.documents r hr).1
      simp only [Option.getD_some]
      omega
  · cases h

theorem compareCanvases_eq_true {same : Bool} {cs : List (CanvasDescriptor K)}
    (h : compareCanvases t same cs = .ok true) :
    same = true ∧ ∀ c ∈ cs, loadCanvas t c.canvasId = .ok (some c) := by
  induction cs generalizing same with
  | nil =>
    cases h
    simp
  | cons c cs ih =>
    rw [compareCanvases] at h
    obtain ⟨found, hfound, h⟩ := bind_ok h
    obtain ⟨existing, hexisting, h⟩ := bind_ok h
    obtain ⟨hsame, hrest⟩ := ih h
    simp only [Bool.and_eq_true, decide_eq_true_eq] at hsame
    rw [okOr_eq_ok] at hexisting
    refine ⟨hsame.1, ?_⟩
    intro c' hc'
    rcases List.mem_cons.mp hc' with rfl | hc'
    · rw [hfound, hexisting, hsame.2]
    · exact hrest c' hc'

/-- What a successful publication of a Document has found or added. -/
theorem publishDocument_ok {c : DocumentComposition K} {outcome : CatalogPublishOutcome}
    (h : publishDocument t c = .ok (outcome, u)) :
    (outcome = .existing ∧ u = t ∧ loadDocument t c.document.documentId = .ok (some c.document) ∧
      ∀ canvas ∈ c.pageCanvases, loadCanvas t canvas.canvasId = .ok (some canvas)) ∨
    (outcome = .inserted ∧ ∃ n, nextSequence t = .ok n ∧ Added t u c.pageCanvases [(c.document, n)] []) := by
  unfold publishDocument at h
  obtain ⟨found, hfound, h⟩ := bind_ok h
  cases found with
  | some existing =>
    dsimp only at h
    obtain ⟨same, hsame, h⟩ := bind_ok h
    split at h
    · rename_i htrue
      subst htrue
      obtain ⟨rfl, rfl⟩ := commit_ok h
      obtain ⟨heq, hcanvases⟩ := compareCanvases_eq_true hsame
      rw [decide_eq_true_eq] at heq
      exact .inl ⟨rfl, rfl, by rw [hfound, heq], hcanvases⟩
    · cases h
  | none =>
    dsimp only at h
    split at h
    · cases h
    · obtain ⟨n, hn, h⟩ := bind_ok h
      obtain ⟨v, hv, h⟩ := bind_ok h
      obtain ⟨-, -, h⟩ := bind_ok h
      obtain ⟨documents, hdocuments, h⟩ := bind_ok h
      obtain ⟨w, hw, h⟩ := bind_ok h
      obtain ⟨rfl, rfl⟩ := commit_ok h
      obtain ⟨-, hrows⟩ := Table.insert_ok_iff.mp (checked_eq_ok.mp hdocuments)
      have hv := insertCanvases_ok hv
      obtain ⟨hpages, hu⟩ := insertPages_ok hw
      refine .inr ⟨rfl, n, hn, ?_⟩
      rw [hu]
      constructor
      · exact hv.canvases
      · exact hv.layers
      · show documents.rows = _
        rw [hrows, hv.documents]
        simp
      · show u.pages.rows = _
        rw [hpages, hv.pages]
        simp
      · exact hv.bindings

theorem publishStandalone_ok {c : CanvasDescriptor K} {outcome : CatalogPublishOutcome}
    (h : publishStandalone t c = .ok (outcome, u)) :
    (outcome = .existing ∧ u = t ∧ loadCanvas t c.canvasId = .ok (some c)) ∨
    (outcome = .inserted ∧ Added t u [c] [] []) := by
  unfold publishStandalone at h
  obtain ⟨found, hfound, h⟩ := bind_ok h
  cases found with
  | some existing =>
    dsimp only at h
    split at h
    · rename_i heq
      obtain ⟨rfl, rfl⟩ := commit_ok h
      exact .inl ⟨rfl, rfl, by rw [hfound, heq]⟩
    · cases h
  | none =>
    dsimp only at h
    split at h
    · cases h
    · obtain ⟨v, hv, h⟩ := bind_ok h
      obtain ⟨rfl, rfl⟩ := commit_ok h
      exact .inr ⟨rfl, insertCanvas_ok hv⟩

/-- A binding added behind Canvases. -/
theorem Added.binding {v : Tables K} {cs : List (CanvasDescriptor K)} {row : BindingRow}
    (h : Added t v cs [] []) (hu : insertBinding v row = .ok u) : Added t u cs [] [row] := by
  obtain ⟨-, -, hrows, hu⟩ := insertBinding_eq_ok.mp hu
  rw [hu]
  refine ⟨h.canvases, h.layers, h.documents, h.pages, ?_⟩
  show u.bindings.rows = _
  rw [hrows, h.bindings]
  simp

/-- The Canvas is stored afterwards; the key has a binding, and if it was added it names the Canvas. -/
theorem publishStandaloneWithBinding_ok {key : String} {c : CanvasDescriptor K} {b : BootstrapBinding K}
    {outcome : CatalogPublishOutcome} (h : publishStandaloneWithBinding t key c b = .ok (outcome, u)) :
    b.canvasId = c.canvasId ∧ b.sessionId = c.sessionId ∧
      ((loadCanvas t c.canvasId = .ok (some c) ∧
          ((u = t ∧ ∃ row ∈ t.bindings.rows, row.bindingKey = key) ∨ Added t u [] [] [bindingRow key b])) ∨
        Added t u [c] [] [bindingRow key b]) := by
  unfold publishStandaloneWithBinding at h
  split at h
  · cases h
  · rename_i hmatch
    rw [not_or, not_not, not_not] at hmatch
    refine ⟨hmatch.1, hmatch.2, ?_⟩
    split at h
    · rename_i row hrow
      have hkey : row.bindingKey = key := by simpa using List.find?_some hrow
      split at h
      · cases h
      · obtain ⟨found, hfound, h⟩ := bind_ok h
        obtain ⟨existing, hexisting, h⟩ := bind_ok h
        rw [okOr_eq_ok] at hexisting
        split at h
        · cases h
        · rename_i heq
          obtain ⟨-, rfl⟩ := commit_ok h
          exact .inl ⟨by rw [hfound, hexisting, not_not.mp heq],
            .inl ⟨rfl, row, List.mem_of_find?_eq_some hrow, hkey⟩⟩
    · obtain ⟨found, hfound, h⟩ := bind_ok h
      cases found with
      | some existing =>
        dsimp only at h
        split at h
        · cases h
        · rename_i heq
          obtain ⟨v, hv, h⟩ := bind_ok h
          obtain ⟨-, rfl⟩ := commit_ok h
          exact .inl ⟨by rw [hfound, not_not.mp heq], .inr ((Added.refl t).binding hv)⟩
      | none =>
        dsimp only at h
        obtain ⟨v, hv, h⟩ := bind_ok h
        obtain ⟨w, hw, h⟩ := bind_ok h
        obtain ⟨-, rfl⟩ := commit_ok h
        exact .inr ((insertCanvas_ok hv).binding hw)

theorem storeBinding_ok {key : String} {b : BootstrapBinding K} {value : Unit}
    (h : storeBinding t key b = .ok (value, u)) :
    (u = t ∧ ∃ row ∈ t.bindings.rows, row = bindingRow key b) ∨
      (Added t u [] [] [bindingRow key b] ∧ hasCanvas t (K.canvasId.text b.canvasId) = true ∧
        ∀ row ∈ t.bindings.rows, row.bindingKey ≠ key) := by
  unfold storeBinding at h
  split at h
  · rename_i row hrow
    split at h
    · cases h
    · rename_i hmatch
      obtain ⟨-, rfl⟩ := commit_ok h
      have hkey : row.bindingKey = key := by simpa using List.find?_some hrow
      rw [not_not, Prod.mk.injEq] at hmatch
      refine .inl ⟨rfl, row, List.mem_of_find?_eq_some hrow, ?_⟩
      rw [bindingRow, ← hkey, ← hmatch.1, ← hmatch.2]
  · obtain ⟨v, hv, h⟩ := bind_ok h
    obtain ⟨-, rfl⟩ := commit_ok h
    obtain ⟨hfresh, hcanvas, -, -⟩ := insertBinding_eq_ok.mp hv
    exact .inr ⟨(Added.refl t).binding hv, hcanvas, hfresh⟩

/-! ## Publications keep the tables in order -/

theorem DocumentComposition.canvas_of_page (c : DocumentComposition K) {page : K.Page}
    (hpage : page ∈ c.document.pages) : ∃ canvas ∈ c.pageCanvases, canvas.canvasId = page.overlayCanvasId ∧
      canvas.sessionId = c.document.sessionId ∧ canvas.width = page.width ∧ canvas.height = page.height := by
  have hoverlays := c.overlays
  generalize c.document.pages = pages at hpage hoverlays
  generalize c.pageCanvases = canvases at hoverlays
  induction hoverlays with
  | nil => cases hpage
  | cons hhead _ ih =>
    rcases List.mem_cons.mp hpage with rfl | hpage
    · exact ⟨_, List.mem_cons_self, hhead⟩
    · obtain ⟨canvas, hcanvas, hm⟩ := ih hpage
      exact ⟨canvas, List.mem_cons_of_mem _ hcanvas, hm⟩

/-- Every page of a composition shows the Canvas that was composed for it. -/
theorem DocumentComposition.shows (c : DocumentComposition K) {n : Int} {bs : List BindingRow}
    (h : Added t u c.pageCanvases [(c.document, n)] bs) (ht : Consistent t) :
    ∀ page ∈ c.document.pages, Shows u c.document page := by
  intro page hpage
  obtain ⟨canvas, hcanvas, hid, hsession, hwidth, hheight⟩ := c.canvas_of_page hpage
  refine ⟨canvas, ?_, hsession, hwidth, hheight⟩
  rw [← hid]
  exact h.canvas_added ht hcanvas

end OrbitRelay.Catalog
