import OrbitRelay.Catalog

/-!
# What the startup scan accepts

The scan succeeds exactly on tables from which every Canvas and every Document
loads, whose pages agree with their Canvases and whose bindings agree with theirs.
-/
namespace OrbitRelay.Catalog

open Codec MachineInt Relational

variable {K : CatalogKernel} {t u : Tables K}

theorem canvases_unique (t : Tables K) :
    t.canvases.rows.Pairwise (fun a b => a.canvasId ≠ b.canvasId) :=
  t.canvases.sound.imp (fun h => of_decide_eq_false h)

theorem documents_unique (t : Tables K) :
    t.documents.rows.Pairwise (fun a b => a.documentId ≠ b.documentId) :=
  t.documents.sound.imp (fun h => (not_or.mp (of_decide_eq_false h)).1)

theorem sequences_unique (t : Tables K) :
    t.documents.rows.Pairwise (fun a b => a.publicationSequence ≠ b.publicationSequence) :=
  t.documents.sound.imp (fun h => (not_or.mp (of_decide_eq_false h)).2)

theorem layers_unique (t : Tables K) : t.layers.rows.Pairwise (fun a b => a.layerId ≠ b.layerId) :=
  t.layers.sound.imp (fun h => of_decide_eq_false h)

theorem pages_unique (t : Tables K) : t.pages.rows.Pairwise (fun a b => a.pageId ≠ b.pageId) :=
  t.pages.sound.imp (fun h => (not_or.mp (of_decide_eq_false h)).1)

theorem hasCanvas_iff {id : String} : hasCanvas t id = true ↔ ∃ r ∈ t.canvases.rows, r.canvasId = id := by
  simp [hasCanvas]

theorem hasDocument_iff {id : String} :
    hasDocument t id = true ↔ ∃ r ∈ t.documents.rows, r.documentId = id := by
  simp [hasDocument]

theorem hasLayer_iff {id : String} : hasLayer t id = true ↔ ∃ r ∈ t.layers.rows, r.layerId = id := by
  simp [hasLayer]

theorem hasDefaultLayer_iff {c : CanvasRow K} :
    hasDefaultLayer t c = true ↔ ⟨c.canvasId, c.defaultLayerId⟩ ∈ t.layers.rows := by
  simp only [hasDefaultLayer, List.any_eq_true, decide_eq_true_eq]
  constructor
  · rintro ⟨l, hl, h₁, h₂⟩
    rw [← h₁, ← h₂]
    exact hl
  · intro h
    exact ⟨_, h, rfl, rfl⟩

/-! ## Loading -/

theorem find_canvas (t : Tables K) {r : CanvasRow K} (hr : r ∈ t.canvases.rows) {id : K.CanvasId}
    (hid : r.canvasId = K.canvasId.text id) :
    t.canvases.rows.find? (fun r => r.canvasId = K.canvasId.text id) = some r := by
  have h := find?_eq_some_of_mem (canvases_unique t) hr
  rw [hid] at h
  exact h

theorem find_document (t : Tables K) {r : DocumentRow} (hr : r ∈ t.documents.rows) {id : K.DocumentId}
    (hid : r.documentId = K.documentId.text id) :
    t.documents.rows.find? (fun r => r.documentId = K.documentId.text id) = some r := by
  have h := find?_eq_some_of_mem (documents_unique t) hr
  rw [hid] at h
  exact h

theorem loadCanvas_eq_none {id : K.CanvasId} :
    loadCanvas t id = .ok none ↔ hasCanvas t (K.canvasId.text id) = false := by
  rw [← Bool.not_eq_true, hasCanvas_iff]
  unfold loadCanvas
  cases hrow : t.canvases.rows.find? (fun r => r.canvasId = K.canvasId.text id) with
  | none =>
    rw [List.find?_eq_none] at hrow
    simpa using hrow
  | some row =>
    have hid : row.canvasId = K.canvasId.text id := by simpa using List.find?_some hrow
    constructor
    · intro h
      obtain ⟨_, -, h⟩ := bind_ok h
      cases h
    · intro h
      exact absurd ⟨row, List.mem_of_find?_eq_some hrow, hid⟩ h

theorem loadDocument_eq_none {id : K.DocumentId} :
    loadDocument t id = .ok none ↔ hasDocument t (K.documentId.text id) = false := by
  rw [← Bool.not_eq_true, hasDocument_iff]
  unfold loadDocument
  cases hrow : t.documents.rows.find? (fun r => r.documentId = K.documentId.text id) with
  | none =>
    rw [List.find?_eq_none] at hrow
    simpa using hrow
  | some row =>
    have hid : row.documentId = K.documentId.text id := by simpa using List.find?_some hrow
    constructor
    · intro h
      obtain ⟨_, -, h⟩ := bind_ok h
      cases h
    · intro h
      exact absurd ⟨row, List.mem_of_find?_eq_some hrow, hid⟩ h

/-- A Canvas loads when its row decodes. -/
theorem loadCanvas_eq_some {id : K.CanvasId} {c : CanvasDescriptor K} :
    loadCanvas t id = .ok (some c) ↔
      ∃ row ∈ t.canvases.rows, row.canvasId = K.canvasId.text id ∧ decodeCanvas t row = .ok c := by
  constructor
  · intro h
    unfold loadCanvas at h
    split at h
    · cases h
    · rename_i row hrow
      obtain ⟨c', hc', h⟩ := bind_ok h
      cases h
      exact ⟨row, List.mem_of_find?_eq_some hrow, by simpa using List.find?_some hrow, hc'⟩
  · rintro ⟨row, hrow, hid, hc⟩
    unfold loadCanvas
    rw [find_canvas t hrow hid]
    simp only [hc, ok_bind]

theorem loadDocument_eq_some {id : K.DocumentId} {d : DocumentDescriptor K} :
    loadDocument t id = .ok (some d) ↔
      ∃ row ∈ t.documents.rows, row.documentId = K.documentId.text id ∧ decodeDocument t row = .ok d := by
  constructor
  · intro h
    unfold loadDocument at h
    split at h
    · cases h
    · rename_i row hrow
      obtain ⟨d', hd', h⟩ := bind_ok h
      cases h
      exact ⟨row, List.mem_of_find?_eq_some hrow, by simpa using List.find?_some hrow, hd'⟩
  · rintro ⟨row, hrow, hid, hd⟩
    unfold loadDocument
    rw [find_document t hrow hid]
    simp only [hd, ok_bind]

theorem newCanvas_eq_ok {id : K.CanvasId} {session : K.SessionId} {width height : K.Measure}
    {space : K.acceptsSpace width height = true} {layers : OrderedSet K.LayerId} {default : K.LayerId}
    {c : CanvasDescriptor K} :
    newCanvas id session space layers default = .ok c ↔
      c.canvasId = id ∧ c.sessionId = session ∧ c.width = width ∧ c.height = height ∧ c.layerIds = layers ∧
        c.defaultLayerId = default := by
  unfold newCanvas
  constructor
  · intro h
    split at h
    · cases h
      exact ⟨rfl, rfl, rfl, rfl, rfl, rfl⟩
    · cases h
  · rintro ⟨rfl, rfl, rfl, rfl, rfl, rfl⟩
    rw [dif_pos ⟨c.valid, c.length_le⟩]

theorem newDocument_eq_ok {id : K.DocumentId} {session : K.SessionId} {kind : DocumentType}
    {asset : K.AssetId} {title : String} {pages : List (Subtype (PageValid K))} {d : DocumentDescriptor K} :
    newDocument id session kind asset title pages = .ok d ↔
      d.documentId = id ∧ d.sessionId = session ∧ d.documentType = kind ∧ d.sourceAssetId = asset ∧
        d.title = title ∧ d.pages = pages.map Subtype.val := by
  unfold newDocument
  constructor
  · intro h
    split at h
    · cases h
      exact ⟨rfl, rfl, rfl, rfl, rfl, rfl⟩
    · cases h
  · rintro ⟨rfl, rfl, rfl, rfl, rfl, hpages⟩
    have hvalid := d.valid
    rw [hpages] at hvalid
    rw [dif_pos hvalid]
    cases d
    cases hpages
    rfl

/-- The fields of a Canvas row that decodes. -/
theorem decodeCanvas_eq_ok {row : CanvasRow K} {c : CanvasDescriptor K} :
    decodeCanvas t row = .ok c ↔
      K.canvasId.parse row.canvasId = some c.canvasId ∧ K.sessionId.parse row.sessionId = some c.sessionId ∧
      row.width = c.width ∧ row.height = c.height ∧ K.layerId.parse row.defaultLayerId = some c.defaultLayerId ∧
      row.layerCount = c.layerIds.elements.length ∧ loadLayers t c.canvasId = .ok c.layerIds := by
  unfold decodeCanvas
  constructor
  · intro h
    obtain ⟨id, hid, h⟩ := bind_ok h
    obtain ⟨session, hsession, h⟩ := bind_ok h
    split at h
    · obtain ⟨default, hdefault, h⟩ := bind_ok h
      obtain ⟨layers, hlayers, h⟩ := bind_ok h
      split at h
      · cases h
      · rename_i hcount
        rw [not_or, not_not, not_le] at hcount
        obtain ⟨rfl, rfl, hw, hh, rfl, rfl⟩ := newCanvas_eq_ok.mp h
        rw [okOr_eq_ok] at hid hsession hdefault
        exact ⟨hid, hsession, hw.symm, hh.symm, hdefault, by omega, hlayers⟩
    · cases h
  · rintro ⟨hid, hsession, hw, hh, hdefault, hcount, hlayers⟩
    have hpos : 0 < c.layerIds.elements.length := List.length_pos_of_mem (K.canvas_default c.valid)
    have hspace : K.acceptsSpace row.width row.height = true := by rw [hw, hh, c.space]
    simp only [hid, hsession, hdefault, okOr_some, ok_bind, hlayers]
    rw [dif_pos hspace, if_neg (by omega)]
    exact newCanvas_eq_ok.mpr ⟨rfl, rfl, hw.symm, hh.symm, rfl, rfl⟩

/-- The fields of a Document row that decodes. -/
theorem decodeDocument_eq_ok {row : DocumentRow} {d : DocumentDescriptor K} :
    decodeDocument t row = .ok d ↔
      K.documentId.parse row.documentId = some d.documentId ∧
      K.sessionId.parse row.sessionId = some d.sessionId ∧
      row.documentType = documentTypeName d.documentType ∧
      K.assetId.parse row.sourceAssetId = some d.sourceAssetId ∧ row.title = d.title ∧
      row.pageCount = d.pages.length ∧ d.pages ≠ [] ∧
      ∃ pages, loadPages t d.documentId = .ok pages ∧ d.pages = pages.map Subtype.val := by
  unfold decodeDocument
  constructor
  · intro h
    obtain ⟨id, hid, h⟩ := bind_ok h
    obtain ⟨session, hsession, h⟩ := bind_ok h
    obtain ⟨kind, hkind, h⟩ := bind_ok h
    obtain ⟨asset, hasset, h⟩ := bind_ok h
    obtain ⟨pages, hpages, h⟩ := bind_ok h
    split at h
    · cases h
    · rename_i hcount
      rw [not_or, not_not, not_le] at hcount
      obtain ⟨rfl, rfl, rfl, rfl, htitle, hd⟩ := newDocument_eq_ok.mp h
      rw [okOr_eq_ok] at hid hsession hasset
      have hlen : d.pages.length = pages.length := by rw [hd, List.length_map]
      refine ⟨hid, hsession, ?_, hasset, htitle.symm, by omega, ?_, pages, hpages, hd⟩
      · unfold parseDocumentType at hkind
        split at hkind
        · rename_i hname
          cases hkind
          exact hname
        · cases hkind
      · intro hnil
        rw [hnil] at hlen
        simp only [List.length_nil] at hlen
        omega
  · rintro ⟨hid, hsession, hkind, hasset, htitle, hcount, hne, pages, hpages, hd⟩
    have hpos : 0 < d.pages.length := List.length_pos_iff.mpr hne
    have hlen : d.pages.length = pages.length := by rw [hd, List.length_map]
    have hparse : parseDocumentType row.documentType = .ok d.documentType := by
      rw [hkind]
      cases d.documentType
      rfl
    simp only [hid, hsession, hasset, okOr_some, ok_bind, hparse, hpages]
    rw [if_neg (by omega)]
    exact newDocument_eq_ok.mpr ⟨rfl, rfl, rfl, rfl, htitle.symm, hd⟩

theorem loadCanvas_id {id : K.CanvasId} {c : CanvasDescriptor K} (h : loadCanvas t id = .ok (some c)) :
    c.canvasId = id := by
  obtain ⟨row, -, hid, hc⟩ := loadCanvas_eq_some.mp h
  exact K.canvasId.parsed_eq (decodeCanvas_eq_ok.mp hc).1 hid

theorem loadDocument_id {id : K.DocumentId} {d : DocumentDescriptor K}
    (h : loadDocument t id = .ok (some d)) : d.documentId = id := by
  obtain ⟨row, -, hid, hd⟩ := loadDocument_eq_some.mp h
  exact K.documentId.parsed_eq (decodeDocument_eq_ok.mp hd).1 hid

theorem loadCanvas_has {id : K.CanvasId} {c : CanvasDescriptor K} (h : loadCanvas t id = .ok (some c)) :
    hasCanvas t (K.canvasId.text id) = true := by
  obtain ⟨row, hrow, hid, -⟩ := loadCanvas_eq_some.mp h
  exact hasCanvas_iff.mpr ⟨row, hrow, hid⟩

/-! ## Tables that are in order -/

/-- The Canvas that a page shows. -/
def Shows (t : Tables K) (d : DocumentDescriptor K) (page : K.Page) : Prop :=
  ∃ c, loadCanvas t page.overlayCanvasId = .ok (some c) ∧ c.sessionId = d.sessionId ∧
    c.width = page.width ∧ c.height = page.height

/-- Everything but the sessions of bindings is in order. -/
structure Consistent (t : Tables K) : Prop where
  keys : foreignKeysHold t = true
  canvases : ∀ r ∈ t.canvases.rows, ∃ c : CanvasDescriptor K, K.canvasId.parse r.canvasId = some c.canvasId ∧
    loadCanvas t c.canvasId = .ok (some c)
  documents : ∀ r ∈ t.documents.rows, 0 ≤ r.publicationSequence ∧ ∃ d : DocumentDescriptor K,
    decodeDocument t r = .ok d ∧ ∀ page ∈ d.pages, Shows t d page

/-- A binding names a Canvas of its own session. -/
def Agrees (t : Tables K) (b : BindingRow) : Prop :=
  ∃ c : CanvasDescriptor K, K.canvasId.parse b.canvasId = some c.canvasId ∧
    K.sessionId.parse b.sessionId = some c.sessionId ∧ loadCanvas t c.canvasId = .ok (some c)

theorem foreignKeysHold_iff : foreignKeysHold t = true ↔
    (∀ r ∈ t.canvases.rows, hasDefaultLayer t r = true) ∧
    (∀ l ∈ t.layers.rows, hasCanvas t l.canvasId = true) ∧
    (∀ p ∈ t.pages.rows, hasDocument t p.documentId = true ∧ hasCanvas t p.overlayCanvasId = true) ∧
    ∀ b ∈ t.bindings.rows, hasCanvas t b.canvasId = true := by
  simp only [foreignKeysHold, Bool.and_eq_true, List.all_eq_true]
  tauto

/-- The pages of a Document row that decodes belong to a Document that is there. -/
theorem decodeDocument_has (hkeys : foreignKeysHold t = true) {row : DocumentRow} {d : DocumentDescriptor K}
    (h : decodeDocument t row = .ok d) : hasDocument t (K.documentId.text d.documentId) = true := by
  obtain ⟨-, -, -, -, -, -, hne, pages, hpages, hmap⟩ := decodeDocument_eq_ok.mp h
  obtain ⟨page, hpage⟩ := List.exists_mem_of_ne_nil pages (by rintro rfl; exact hne hmap)
  obtain ⟨p, hp, -⟩ := (mem_of_mapM_ok hpages page).mp hpage
  obtain ⟨hp, hid⟩ := List.mem_filter.mp ((mem_orderBy _).mp hp)
  rw [← of_decide_eq_true hid]
  exact ((foreignKeysHold_iff.mp hkeys).2.2.1 p hp).1

theorem scanPage_ok {d : DocumentDescriptor K} {page : K.Page} :
    scanPage t d page = .ok () ↔ Shows t d page := by
  unfold scanPage Shows
  constructor
  · intro h
    obtain ⟨found, hfound, h⟩ := bind_ok h
    obtain ⟨c, hc, h⟩ := bind_ok h
    rw [okOr_eq_ok] at hc
    rw [hc] at hfound
    split at h
    · cases h
    · rename_i hmatch
      rw [not_or, not_or, not_not, not_not, not_not] at hmatch
      exact ⟨c, hfound, hmatch⟩
  · rintro ⟨c, hfound, hs, hw, hh⟩
    simp [hfound, hs, hw, hh]

/-- A scanned Document is one that decodes and whose pages show their Canvases. -/
theorem scanDocument_ok {row : DocumentRow} : scanDocument t row = .ok () ↔
    ∃ d, decodeDocument t row = .ok d ∧ ∀ page ∈ d.pages, Shows t d page := by
  unfold scanDocument decodeDocument
  constructor
  · intro h
    obtain ⟨id, hid, h⟩ := bind_ok h
    obtain ⟨session, hsession, h⟩ := bind_ok h
    obtain ⟨asset, hasset, h⟩ := bind_ok h
    obtain ⟨kind, hkind, h⟩ := bind_ok h
    obtain ⟨pages, hpages, h⟩ := bind_ok h
    split at h
    · cases h
    · rename_i hcount
      obtain ⟨d, hd, h⟩ := bind_ok h
      refine ⟨d, ?_, fun page hpage => scanPage_ok.mp (forM_eq_ok.mp h page hpage)⟩
      simp only [hid, hsession, hkind, hasset, hpages, ok_bind, if_neg hcount, hd]
  · rintro ⟨d, hd, hshow⟩
    obtain ⟨id, hid, hd⟩ := bind_ok hd
    obtain ⟨session, hsession, hd⟩ := bind_ok hd
    obtain ⟨kind, hkind, hd⟩ := bind_ok hd
    obtain ⟨asset, hasset, hd⟩ := bind_ok hd
    obtain ⟨pages, hpages, hd⟩ := bind_ok hd
    split at hd
    · cases hd
    · rename_i hcount
      simp only [hid, hsession, hkind, hasset, hpages, ok_bind, if_neg hcount, hd]
      rw [forM_eq_ok]
      intro page hpage
      exact scanPage_ok.mpr (hshow page hpage)

/-- In the order of their sequence numbers the Documents never run behind. -/
theorem scanDocuments_ok (t : Tables K) {rows : List DocumentRow} {expected : Int} (hexp : 0 ≤ expected)
    (hsorted : rows.Pairwise (fun a b => a.publicationSequence < b.publicationSequence))
    (hstart : ∀ r ∈ rows, expected ≤ r.publicationSequence ∨ r.publicationSequence < 0) :
    scanDocuments t expected rows = .ok () ↔
      ∀ r ∈ rows, 0 ≤ r.publicationSequence ∧ scanDocument t r = .ok () := by
  induction rows generalizing expected with
  | nil => simp [scanDocuments]
  | cons row rows ih =>
    rw [List.pairwise_cons] at hsorted
    have hstep : ∀ r ∈ rows, min (row.publicationSequence + 1) (i64Max : Int) ≤ r.publicationSequence ∨
        r.publicationSequence < 0 := by
      intro r hr
      have hlt := hsorted.1 r hr
      left
      omega
    have hmax : (0 : Int) ≤ (i64Max : Int) := Int.natCast_nonneg _
    rw [scanDocuments]
    by_cases hneg : row.publicationSequence < 0
    · rw [if_pos (.inl hneg)]
      constructor
      · intro h
        cases h
      · intro h
        have := (h row List.mem_cons_self).1
        omega
    · have hle : expected ≤ row.publicationSequence := by
        rcases hstart row List.mem_cons_self with h | h
        · exact h
        · exact absurd h hneg
      rw [if_neg (by omega)]
      constructor
      · intro h
        obtain ⟨⟨⟩, hrow, h⟩ := bind_ok h
        intro r hr
        rcases List.mem_cons.mp hr with rfl | hr
        · exact ⟨by omega, hrow⟩
        · exact (ih (by omega) hsorted.2 hstep).mp h r hr
      · intro h
        rw [(h row List.mem_cons_self).2, ok_bind]
        refine (ih (by omega) hsorted.2 hstep).mpr ?_
        intro r hr
        exact h r (List.mem_cons_of_mem row hr)

theorem scanCanvas_ok {row : CanvasRow K} : scanCanvas t row = .ok () ↔
    ∃ c : CanvasDescriptor K, K.canvasId.parse row.canvasId = some c.canvasId ∧
      loadCanvas t c.canvasId = .ok (some c) := by
  unfold scanCanvas
  constructor
  · intro h
    obtain ⟨id, hid, h⟩ := bind_ok h
    obtain ⟨found, hfound, h⟩ := bind_ok h
    obtain ⟨c, hc, h⟩ := bind_ok h
    rw [okOr_eq_ok] at hid hc
    rw [hc] at hfound
    have hsame := loadCanvas_id hfound
    subst hsame
    exact ⟨c, hid, hfound⟩
  · rintro ⟨c, hid, hc⟩
    simp [hid, hc]

theorem scanBinding_ok {row : BindingRow} : scanBinding t row = .ok () ↔ Agrees t row := by
  unfold scanBinding Agrees
  constructor
  · intro h
    obtain ⟨session, hsession, h⟩ := bind_ok h
    obtain ⟨canvas, hcanvas, h⟩ := bind_ok h
    obtain ⟨found, hfound, h⟩ := bind_ok h
    obtain ⟨c, hc, h⟩ := bind_ok h
    rw [okOr_eq_ok] at hsession hcanvas hc
    rw [hc] at hfound
    split at h
    · cases h
    · rename_i hsame
      rw [not_not] at hsame
      have hid := loadCanvas_id hfound
      subst hid hsame
      exact ⟨c, hcanvas, hsession, hfound⟩
  · rintro ⟨c, hcanvas, hsession, hc⟩
    simp [hcanvas, hsession, hc]

theorem Consistent.canvas (ht : Consistent t) {id : K.CanvasId} (h : hasCanvas t (K.canvasId.text id) = true) :
    ∃ c, loadCanvas t id = .ok (some c) := by
  obtain ⟨r, hr, hid⟩ := hasCanvas_iff.mp h
  obtain ⟨c, hc, hload⟩ := ht.canvases r hr
  obtain rfl := K.canvasId.parsed_eq hc hid
  exact ⟨c, hload⟩

theorem Consistent.document (ht : Consistent t) {id : K.DocumentId}
    (h : hasDocument t (K.documentId.text id) = true) :
    ∃ d, loadDocument t id = .ok (some d) ∧ ∀ page ∈ d.pages, Shows t d page := by
  obtain ⟨r, hr, hid⟩ := hasDocument_iff.mp h
  obtain ⟨-, d, hd, hshow⟩ := ht.documents r hr
  exact ⟨d, loadDocument_eq_some.mpr ⟨r, hr, hid, hd⟩, hshow⟩

/-- The scan accepts exactly the tables that are in order. -/
theorem scanIntegrity_ok : scanIntegrity t = .ok () ↔
    Consistent t ∧ ∀ b ∈ t.bindings.rows, Agrees t b := by
  have hsorted : (orderBy DocumentRow.publicationSequence t.documents.rows).Pairwise
      (fun a b => a.publicationSequence < b.publicationSequence) := by
    have hne : (orderBy DocumentRow.publicationSequence t.documents.rows).Pairwise
        (fun a b => a.publicationSequence ≠ b.publicationSequence) :=
      (orderBy_perm _ t.documents.rows).symm.pairwise (sequences_unique t) (fun h => h.symm)
    exact (orderBy_sorted _ t.documents.rows).imp₂ (fun _ _ => lt_of_le_of_ne) hne
  have hdocs := scanDocuments_ok t (le_refl 0) hsorted (fun r _ => le_or_gt 0 r.publicationSequence)
  unfold scanIntegrity
  constructor
  · intro h
    split at h
    · cases h
    · rename_i hkeys
      obtain ⟨⟨⟩, h₁, h⟩ := bind_ok h
      obtain ⟨⟨⟩, h₂, h⟩ := bind_ok h
      split at h
      · cases h
      · rw [forM_eq_ok] at h₂ h
        refine ⟨⟨by simpa using hkeys, ?_, ?_⟩, fun b hb => scanBinding_ok.mp (h b hb)⟩
        · intro r hr
          exact scanCanvas_ok.mp (h₂ r ((mem_orderBy _).mpr hr))
        · intro r hr
          obtain ⟨hseq, hscan⟩ := hdocs.mp h₁ r ((mem_orderBy _).mpr hr)
          exact ⟨hseq, scanDocument_ok.mp hscan⟩
  · rintro ⟨hc, hb⟩
    have horphan : t.layers.rows.any (fun l => !hasCanvas t l.canvasId) = false := by
      rw [List.any_eq_false]
      intro l hl
      simp [(foreignKeysHold_iff.mp hc.keys).2.1 l hl]
    have h₁ : scanDocuments t 0 (orderBy DocumentRow.publicationSequence t.documents.rows) = .ok () := by
      rw [hdocs]
      intro r hr
      have hr' := (mem_orderBy _).mp hr
      exact ⟨(hc.documents r hr').1, scanDocument_ok.mpr (hc.documents r hr').2⟩
    have h₂ : (orderBy CanvasRow.canvasId t.canvases.rows).forM (scanCanvas t) = .ok () := by
      rw [forM_eq_ok]
      intro r hr
      exact scanCanvas_ok.mpr (hc.canvases r ((mem_orderBy _).mp hr))
    rw [if_neg (by simp [hc.keys]), h₁, ok_bind, h₂, ok_bind, horphan]
    rw [if_neg (by simp), forM_eq_ok]
    exact fun b hb' => scanBinding_ok.mpr (hb b hb')

end OrbitRelay.Catalog
