import OrbitRelay.CatalogDurable
import Mathlib.Data.Finset.Card
import Mathlib.Data.Finset.Range

/-!
# How `publish_document` classifies a publication

When its statements succeed, when they do not, and what it answers: which mixtures
of new and stored identities end in a conflict, and which escape as corruption or
as an error of the backend.
-/
namespace OrbitRelay.Catalog

open Codec MachineInt Relational Transition

variable {K : CatalogKernel} {t u : Tables K}

def hasPage (t : Tables K) (id : String) : Bool := t.pages.rows.any (fun p => p.pageId = id)

theorem hasPage_iff {id : String} : hasPage t id = true ↔ ∃ p ∈ t.pages.rows, p.pageId = id := by
  simp [hasPage]

/-! ## Statements that succeed -/

theorem insertLayers_exists {rows : List LayerRow} (hfresh : ∀ l ∈ rows, hasLayer t l.layerId = false)
    (hdistinct : rows.Pairwise (fun a b => a.layerId ≠ b.layerId))
    (hcanvas : ∀ l ∈ rows, hasCanvas t l.canvasId = true) : ∃ u, rows.foldlM insertLayer t = .ok u := by
  induction rows generalizing t with
  | nil => exact ⟨t, rfl⟩
  | cons row rows ih =>
    have hrow : ∀ l ∈ t.layers.rows, l.layerId ≠ row.layerId := by
      intro l hl hid
      have h := hfresh row List.mem_cons_self
      rw [← Bool.not_eq_true, hasLayer_iff] at h
      exact h ⟨l, hl, hid⟩
    obtain ⟨layers, hlayers⟩ := Table.exists_insert (t := t.layers) (r := row)
      (fun l hl => decide_eq_false (hrow l hl))
    obtain ⟨-, hrows⟩ := Table.insert_ok_iff.mp hlayers
    have hinsert : insertLayer t row = .ok { t with layers } :=
      insertLayer_eq_ok.mpr ⟨hfresh row List.mem_cons_self, hcanvas row List.mem_cons_self, hrows, rfl⟩
    rw [List.foldlM_cons, hinsert, ok_bind]
    rw [List.pairwise_cons] at hdistinct
    refine ih ?_ hdistinct.2 (fun l hl => hcanvas l (List.mem_cons_of_mem row hl))
    intro l hl
    have h := hfresh l (List.mem_cons_of_mem row hl)
    rw [← Bool.not_eq_true, hasLayer_iff] at h ⊢
    rintro ⟨r, hr, hid⟩
    have hr' : r ∈ layers.rows := hr
    rw [hrows] at hr'
    rcases List.mem_append.mp hr' with hr' | hr'
    · exact h ⟨r, hr', hid⟩
    · rw [List.mem_singleton] at hr'
      subst hr'
      exact hdistinct.1 l hl hid

theorem insertPages_exists {rows : List (PageRow K)}
    (hfresh : ∀ p ∈ rows, ∀ q ∈ t.pages.rows, ¬ (q.pageId = p.pageId ∨
      (q.documentId = p.documentId ∧ q.pageIndex = p.pageIndex) ∨
      (q.documentId = p.documentId ∧ q.overlayCanvasId = p.overlayCanvasId)))
    (hdistinct : rows.Pairwise (fun q p => ¬ (q.pageId = p.pageId ∨
      (q.documentId = p.documentId ∧ q.pageIndex = p.pageIndex) ∨
      (q.documentId = p.documentId ∧ q.overlayCanvasId = p.overlayCanvasId))))
    (hrefs : ∀ p ∈ rows, hasDocument t p.documentId = true ∧ hasCanvas t p.overlayCanvasId = true) :
    ∃ u, rows.foldlM insertPage t = .ok u := by
  induction rows generalizing t with
  | nil => exact ⟨t, rfl⟩
  | cons row rows ih =>
    obtain ⟨pages, hpages⟩ := Table.exists_insert (t := t.pages) (r := row)
      (fun p hp => decide_eq_false (hfresh row List.mem_cons_self p hp))
    obtain ⟨-, hrows⟩ := Table.insert_ok_iff.mp hpages
    have hinsert : insertPage t row = .ok { t with pages } :=
      insertPage_eq_ok.mpr ⟨hfresh row List.mem_cons_self, hrefs row List.mem_cons_self, hrows, rfl⟩
    rw [List.foldlM_cons, hinsert, ok_bind]
    rw [List.pairwise_cons] at hdistinct
    refine ih ?_ hdistinct.2 (fun p hp => hrefs p (List.mem_cons_of_mem row hp))
    intro p hp q hq
    have hq' : q ∈ pages.rows := hq
    rw [hrows] at hq'
    rcases List.mem_append.mp hq' with hq' | hq'
    · exact hfresh p (List.mem_cons_of_mem row hp) q hq'
    · rw [List.mem_singleton] at hq'
      subst hq'
      exact hdistinct.1 p hp

theorem insertCanvas_exists {c : CanvasDescriptor K} (hcanvas : hasCanvas t (K.canvasId.text c.canvasId) = false)
    (hlayers : ∀ l ∈ c.layerIds.elements, hasLayer t (K.layerId.text l) = false) :
    ∃ u, insertCanvas t c = .ok u := by
  have hrow : ∀ r ∈ t.canvases.rows, r.canvasId ≠ (canvasRow c).canvasId := by
    intro r hr hid
    rw [← Bool.not_eq_true, hasCanvas_iff] at hcanvas
    exact hcanvas ⟨r, hr, hid⟩
  obtain ⟨canvases, hcanvases⟩ := Table.exists_insert (t := t.canvases) (r := canvasRow c)
    (fun r hr => decide_eq_false (hrow r hr))
  obtain ⟨-, hrows⟩ := Table.insert_ok_iff.mp hcanvases
  unfold insertCanvas
  rw [toI64_of_le c.length_le, okOr_some, ok_bind, hcanvases]
  refine insertLayers_exists ?_ ?_ ?_
  · intro l hl
    obtain ⟨a, ha, rfl⟩ := List.mem_map.mp hl
    exact hlayers a ha
  · unfold layerRows
    rw [List.pairwise_map]
    exact c.layerIds.nodup.imp (fun hne he => hne (K.layerId.text_injective he))
  · intro l hl
    obtain ⟨a, -, rfl⟩ := List.mem_map.mp hl
    refine hasCanvas_iff.mpr ⟨canvasRow c, ?_, rfl⟩
    show canvasRow c ∈ canvases.rows
    rw [hrows]
    exact List.mem_append_right _ (List.mem_singleton_self _)

/-- No Canvas or layer of these is stored. -/
def CanvasesFresh (t : Tables K) (cs : List (CanvasDescriptor K)) : Prop :=
  ∀ c ∈ cs, hasCanvas t (K.canvasId.text c.canvasId) = false ∧
    ∀ l ∈ c.layerIds.elements, hasLayer t (K.layerId.text l) = false

theorem insertCanvases_exists {cs : List (CanvasDescriptor K)} (hfresh : CanvasesFresh t cs)
    (hids : (cs.map (·.canvasId)).Nodup) (hlayers : (cs.flatMap (·.layerIds.elements)).Nodup) :
    ∃ u, cs.foldlM insertCanvas t = .ok u := by
  induction cs generalizing t with
  | nil => exact ⟨t, rfl⟩
  | cons c cs ih =>
    obtain ⟨hcanvas, hlayer⟩ := hfresh c List.mem_cons_self
    obtain ⟨v, hv⟩ := insertCanvas_exists hcanvas hlayer
    have hadded := insertCanvas_ok hv
    rw [List.foldlM_cons, hv, ok_bind]
    rw [List.map_cons, List.nodup_cons] at hids
    rw [List.flatMap_cons, List.nodup_append] at hlayers
    refine ih ?_ hids.2 hlayers.2.1
    intro c' hc'
    obtain ⟨hcanvas', hlayer'⟩ := hfresh c' (List.mem_cons_of_mem c hc')
    rw [← Bool.not_eq_true, hasCanvas_iff] at hcanvas' ⊢
    constructor
    · rintro ⟨r, hr, hid⟩
      rw [hadded.canvases] at hr
      rcases List.mem_append.mp hr with hr | hr
      · exact hcanvas' ⟨r, hr, hid⟩
      · rw [List.map_singleton, List.mem_singleton] at hr
        subst hr
        have hid : c.canvasId = c'.canvasId := K.canvasId.text_injective hid
        exact hids.1 (List.mem_map.mpr ⟨c', hc', hid.symm⟩)
    · intro l hl
      have hlayer' := hlayer' l hl
      rw [← Bool.not_eq_true, hasLayer_iff] at hlayer' ⊢
      rintro ⟨r, hr, hid⟩
      rw [hadded.layers] at hr
      rcases List.mem_append.mp hr with hr | hr
      · exact hlayer' ⟨r, hr, hid⟩
      · rw [List.flatMap_singleton] at hr
        obtain ⟨a, ha, rfl⟩ := List.mem_map.mp hr
        have hid : a = l := K.layerId.text_injective hid
        subst hid
        exact hlayers.2.2 a ha a (List.mem_flatMap.mpr ⟨c', hc', hl⟩) rfl

/-- Page indexes are different 32-bit numbers, so there are not too many of them. -/
theorem pages_length (d : DocumentDescriptor K) : d.pages.length ≤ i64Max := by
  have hnodup : (d.pages.map (·.pageIndex)).Nodup := by
    rw [List.Nodup, List.pairwise_map]
    exact (K.document_order d.valid).imp ne_of_lt
  have hsub : (d.pages.map (·.pageIndex)).toFinset ⊆ Finset.range (u32Max + 1) := by
    intro n hn
    rw [List.mem_toFinset] at hn
    obtain ⟨p, hp, rfl⟩ := List.mem_map.mp hn
    have := (d.pages_valid p hp).1
    rw [Finset.mem_range]
    omega
  have hcard := Finset.card_le_card hsub
  rw [List.toFinset_card_of_nodup hnodup, List.length_map, Finset.card_range] at hcard
  simp only [u32Max] at hcard
  simp only [i64Max]
  omega

/-- The next sequence number, where it exists, is not in use. -/
theorem nextSequence_fresh {n : Int} (h : nextSequence t = .ok n) :
    ∀ r ∈ t.documents.rows, r.publicationSequence < n := by
  intro r hr
  unfold nextSequence at h
  dsimp only at h
  split at h
  · cases h
    have hmem : r.publicationSequence ∈ t.documents.rows.map (·.publicationSequence) :=
      List.mem_map.mpr ⟨r, hr, rfl⟩
    cases hmax : (t.documents.rows.map (·.publicationSequence)).max? with
    | none =>
      rw [List.max?_eq_none_iff] at hmax
      rw [hmax] at hmem
      cases hmem
    | some m =>
      have hle := (List.max?_le_iff hmax).mp (le_refl m) _ hmem
      simp only [Option.getD_some]
      omega
  · cases h

theorem nextSequence_exists (h : ∀ r ∈ t.documents.rows, r.publicationSequence < i64Max) :
    ∃ n, nextSequence t = .ok n := by
  unfold nextSequence
  dsimp only
  have htop : (t.documents.rows.map (·.publicationSequence)).max?.getD (-1) + 1 ≤ i64Max := by
    cases hmax : (t.documents.rows.map (·.publicationSequence)).max? with
    | none =>
      simp only [Option.getD_none]
      omega
    | some m =>
      obtain ⟨r, hr, hm⟩ := List.mem_map.mp (List.max?_mem hmax)
      have := h r hr
      simp only [Option.getD_some]
      omega
  rw [if_pos htop]
  exact ⟨_, rfl⟩

theorem nextSequence_overflow {r : DocumentRow} (hr : r ∈ t.documents.rows)
    (hmax : (i64Max : Int) ≤ r.publicationSequence) : nextSequence t = .error (.backend .other) := by
  cases h : nextSequence t with
  | ok n =>
    have hlt := nextSequence_fresh h r hr
    unfold nextSequence at h
    dsimp only at h
    split at h
    · cases h
      omega
    · cases h
  | error e =>
    unfold nextSequence at h
    dsimp only at h
    split at h
    · cases h
    · exact h.symm

/-! ## The answer -/

/-- None of the identities of a composition is stored. -/
def Fresh (t : Tables K) (c : DocumentComposition K) : Prop :=
  hasDocument t (K.documentId.text c.document.documentId) = false ∧
    (∀ p ∈ c.document.pages, hasPage t (K.pageId.text p.pageId) = false) ∧ CanvasesFresh t c.pageCanvases

/-- The whole composition is stored as it is given. -/
def Same (t : Tables K) (c : DocumentComposition K) : Prop :=
  loadDocument t c.document.documentId = .ok (some c.document) ∧
    ∀ canvas ∈ c.pageCanvases, loadCanvas t canvas.canvasId = .ok (some canvas)

/-- What `publish_document` is to answer, and that only an insertion changes the tables. -/
structure Classified (t : Tables K) (c : DocumentComposition K) : Prop where
  inserted : Fresh t c → (execute none t (.publishDocument c)).1 = .published (.ok .inserted)
  existing : Same t c → (execute none t (.publishDocument c)).1 = .published (.ok .existing)
  conflict : ¬ Fresh t c → ¬ Same t c → (execute none t (.publishDocument c)).1 = .published (.error .conflict)
  unchanged : (execute none t (.publishDocument c)).1 ≠ .published (.ok .inserted) →
    (execute none t (.publishDocument c)).2 = t

/-- A stored Document comes with every Canvas of the composition; a Document, Canvases and
layers that are all new come with new pages, and a sequence number is left for them. -/
def Classifiable (t : Tables K) (c : DocumentComposition K) : Prop :=
  (hasDocument t (K.documentId.text c.document.documentId) = true →
    ∀ canvas ∈ c.pageCanvases, hasCanvas t (K.canvasId.text canvas.canvasId) = true) ∧
  (hasDocument t (K.documentId.text c.document.documentId) = false → CanvasesFresh t c.pageCanvases →
    (∀ p ∈ c.document.pages, hasPage t (K.pageId.text p.pageId) = false) ∧
    ∀ r ∈ t.documents.rows, r.publicationSequence < i64Max)

/-- The comparison loop over Canvases that are all stored. -/
theorem compareCanvases_stored (ht : Consistent t) {cs : List (CanvasDescriptor K)}
    (h : ∀ c ∈ cs, hasCanvas t (K.canvasId.text c.canvasId) = true) (same : Bool) :
    ∃ result, compareCanvases t same cs = .ok result ∧
      (result = true ↔ same = true ∧ ∀ c ∈ cs, loadCanvas t c.canvasId = .ok (some c)) := by
  induction cs generalizing same with
  | nil => exact ⟨same, rfl, by simp⟩
  | cons c cs ih =>
    obtain ⟨existing, hexisting⟩ := ht.canvas (h c List.mem_cons_self)
    obtain ⟨result, hresult, hiff⟩ := ih (fun c' hc' => h c' (List.mem_cons_of_mem c hc'))
      (same && decide (existing = c))
    refine ⟨result, ?_, ?_⟩
    · rw [compareCanvases, hexisting, ok_bind, okOr_some, ok_bind, hresult]
    · rw [hiff, Bool.and_eq_true, decide_eq_true_eq, List.forall_mem_cons, hexisting]
      simp only [Except.ok.injEq, Option.some.injEq, and_assoc]

/-- The loop stops at the first Canvas that is not stored. -/
theorem compareCanvases_missing (ht : Consistent t) {cs : List (CanvasDescriptor K)} {c : CanvasDescriptor K}
    (hc : c ∈ cs) (h : hasCanvas t (K.canvasId.text c.canvasId) = false) (same : Bool) :
    compareCanvases t same cs = .error (.corruption "published Document is missing its Canvas") := by
  induction cs generalizing same with
  | nil => cases hc
  | cons c' cs ih =>
    rw [compareCanvases]
    cases hhas : hasCanvas t (K.canvasId.text c'.canvasId) with
    | false =>
      rw [loadCanvas_eq_none.mpr hhas]
      rfl
    | true =>
      obtain ⟨existing, hexisting⟩ := ht.canvas hhas
      rw [hexisting, ok_bind, okOr_some, ok_bind]
      rcases List.mem_cons.mp hc with rfl | hc
      · rw [h] at hhas
        cases hhas
      · exact ih hc _

theorem documentIdsCollide_iff {c : DocumentComposition K}
    (hdoc : hasDocument t (K.documentId.text c.document.documentId) = false) :
    documentIdsCollide t c = false ↔ CanvasesFresh t c.pageCanvases := by
  simp only [documentIdsCollide, hdoc, Bool.false_or, List.any_eq_false, CanvasesFresh, Bool.not_eq_true,
    Bool.or_eq_false_iff]

theorem DocumentComposition.overlay_ids (c : DocumentComposition K) :
    c.document.pages.map (·.overlayCanvasId) = c.pageCanvases.map (·.canvasId) := by
  have h := c.overlays
  generalize c.document.pages = pages at h
  generalize c.pageCanvases = canvases at h
  induction h with
  | nil => rfl
  | cons hhead _ ih => rw [List.map_cons, List.map_cons, ih, hhead.1]

/-- The page rows of one composition do not clash with each other. -/
theorem DocumentComposition.pageRows_distinct (c : DocumentComposition K) :
    (c.document.pages.map (pageRow c.document.documentId)).Pairwise (fun q p => ¬ (q.pageId = p.pageId ∨
      (q.documentId = p.documentId ∧ q.pageIndex = p.pageIndex) ∨
      (q.documentId = p.documentId ∧ q.overlayCanvasId = p.overlayCanvasId))) := by
  have hids : c.document.pages.Pairwise (fun p q => p.pageId ≠ q.pageId) := List.pairwise_map.mp c.pageIds
  have hcanvases := c.canvasIds
  rw [← c.overlay_ids] at hcanvases
  have hoverlays : c.document.pages.Pairwise (fun p q => p.overlayCanvasId ≠ q.overlayCanvasId) :=
    List.pairwise_map.mp hcanvases
  rw [List.pairwise_map]
  refine (hids.and ((K.document_order c.document.valid).and hoverlays)).imp ?_
  rintro p q ⟨hid, hindex, hcanvas⟩ (h | ⟨-, h⟩ | ⟨-, h⟩)
  · exact hid (K.pageId.text_injective h)
  · have h' : (p.pageIndex : Int) = q.pageIndex := h
    omega
  · exact hcanvas (K.canvasId.text_injective h)

theorem documentRow_inserts {d : DocumentDescriptor K} {n : Int} {v : Tables K}
    (hdoc : hasDocument t (K.documentId.text d.documentId) = false) (hn : nextSequence t = .ok n)
    (hkept : v.documents.rows = t.documents.rows) :
    ∃ documents, v.documents.insert (documentRow d n) = .ok documents ∧
      documents.rows = t.documents.rows ++ [documentRow d n] := by
  have hnew : ∀ r ∈ v.documents.rows, ¬ (r.documentId = (documentRow d n).documentId ∨
      r.publicationSequence = (documentRow d n).publicationSequence) := by
    intro r hr
    rw [hkept] at hr
    rintro (hid | hseq)
    · rw [← Bool.not_eq_true, hasDocument_iff] at hdoc
      exact hdoc ⟨r, hr, hid⟩
    · exact absurd hseq (ne_of_lt (nextSequence_fresh hn r hr))
  obtain ⟨documents, hdocuments⟩ := Table.exists_insert (t := v.documents) (r := documentRow d n)
    (fun r hr => decide_eq_false (hnew r hr))
  obtain ⟨-, hrows⟩ := Table.insert_ok_iff.mp hdocuments
  exact ⟨documents, hdocuments, by rw [hrows, hkept]⟩

/-- Once its canvases and its own row are in, so are the pages of a new document. -/
theorem pageRows_insert (ht : Consistent t) {c : DocumentComposition K} {n : Int} {v : Tables K}
    (hdoc : hasDocument t (K.documentId.text c.document.documentId) = false)
    (hpages : ∀ p ∈ c.document.pages, hasPage t (K.pageId.text p.pageId) = false)
    (hkept : v.pages.rows = t.pages.rows) (hcanvases : ∀ canvas ∈ c.pageCanvases, canvasRow canvas ∈ v.canvases.rows)
    (hdocument : documentRow c.document n ∈ v.documents.rows) :
    ∃ w, (c.document.pages.map (pageRow c.document.documentId)).foldlM insertPage v = .ok w := by
  refine insertPages_exists ?_ ?_ ?_
  · intro p hp q hq
    rw [hkept] at hq
    obtain ⟨page, hpage, rfl⟩ := List.mem_map.mp hp
    have hother : q.documentId ≠ K.documentId.text c.document.documentId := by
      intro hid
      have hparent := ((foreignKeysHold_iff.mp ht.keys).2.2.1 q hq).1
      rw [hid, hdoc] at hparent
      cases hparent
    rintro (hid | ⟨hid, -⟩ | ⟨hid, -⟩)
    · have h := hpages page hpage
      rw [← Bool.not_eq_true, hasPage_iff] at h
      exact h ⟨q, hq, hid⟩
    · exact hother hid
    · exact hother hid
  · exact c.pageRows_distinct
  · intro p hp
    obtain ⟨page, hpage, rfl⟩ := List.mem_map.mp hp
    constructor
    · exact hasDocument_iff.mpr ⟨documentRow c.document n, hdocument, rfl⟩
    · obtain ⟨canvas, hcanvas, hid, -⟩ := c.canvas_of_page hpage
      exact hasCanvas_iff.mpr ⟨canvasRow canvas, hcanvases canvas hcanvas, by rw [pageRow, ← hid]; rfl⟩

/-- A composition of nothing but new identities is inserted. -/
theorem publishDocument_fresh (ht : Consistent t) {c : DocumentComposition K} (hfresh : Fresh t c)
    (hroom : ∀ r ∈ t.documents.rows, r.publicationSequence < i64Max) :
    ∃ u, publishDocument t c = .ok (.inserted, u) := by
  obtain ⟨hdoc, hpages, hcanvases⟩ := hfresh
  obtain ⟨n, hn⟩ := nextSequence_exists hroom
  obtain ⟨v, hv⟩ := insertCanvases_exists hcanvases c.canvasIds c.layerIds
  have hv' := insertCanvases_ok hv
  have hkept : v.documents.rows = t.documents.rows := by simpa using hv'.documents
  obtain ⟨documents, hdocuments, hrows⟩ := documentRow_inserts hdoc hn hkept
  have hstored : ∀ canvas ∈ c.pageCanvases, canvasRow canvas ∈ v.canvases.rows := by
    intro canvas hcanvas
    rw [hv'.canvases]
    exact List.mem_append_right _ (List.mem_map_of_mem hcanvas)
  obtain ⟨w, hw⟩ := pageRows_insert (n := n) (v := { v with documents }) ht hdoc hpages
    (by simpa using hv'.pages) hstored (by rw [hrows]; exact List.mem_append_right _ (List.mem_singleton_self _))
  have hadded : Added t w c.pageCanvases [(c.document, n)] [] := by
    obtain ⟨hp, hw'⟩ := insertPages_ok hw
    rw [hw']
    refine ⟨hv'.canvases, hv'.layers, hrows, ?_, hv'.bindings⟩
    show w.pages.rows = _
    rw [hp, hv'.pages]
    simp
  refine ⟨w, ?_⟩
  unfold publishDocument
  rw [loadDocument_eq_none.mpr hdoc, ok_bind]
  dsimp only
  rw [if_neg (by rw [(documentIdsCollide_iff hdoc).mpr hcanvases]; simp), hn, ok_bind, hv, ok_bind,
    toI64_of_le (pages_length c.document), okOr_some, ok_bind, hdocuments]
  show (do let v ← _; commit t v CatalogPublishOutcome.inserted) = _
  rw [hw, ok_bind]
  exact commit_added hadded _

/-! ### Past the collision check no error is a conflict -/

section NoConflict

variable {α β : Type}

theorem bind_ne_conflict {x : Result α} {f : α → Result β} (hx : x ≠ .error .conflict)
    (hf : ∀ a, f a ≠ .error .conflict) : (x >>= f) ≠ .error .conflict := by
  cases x with
  | ok a => exact hf a
  | error e => exact fun h => hx (by cases h; rfl)

theorem foldlM_ne_conflict {f : β → α → Result β} (hf : ∀ b a, f b a ≠ .error .conflict) (l : List α) (b : β) :
    l.foldlM f b ≠ .error .conflict := by
  induction l generalizing b with
  | nil => exact fun h => by cases h
  | cons a l ih =>
    rw [List.foldlM_cons]
    exact bind_ne_conflict (hf b a) ih

theorem checked_ne_conflict (x : Except SqliteError α) : checked x ≠ .error .conflict := by
  cases x <;> simp [checked]

theorem references_ne_conflict (found : Bool) : references found ≠ .error .conflict := by
  cases found <;> simp [references]

theorem okOr_ne_conflict {detail : String} (x : Option α) :
    okOr (CatalogStoreError.invalidGraph detail) x ≠ .error .conflict := by
  cases x <;> simp

theorem nextSequence_ne_conflict : nextSequence t ≠ .error .conflict := by
  unfold nextSequence
  dsimp only
  split <;> simp

theorem insertCanvas_ne_conflict (t : Tables K) (c : CanvasDescriptor K) :
    insertCanvas t c ≠ .error .conflict := by
  refine bind_ne_conflict (okOr_ne_conflict _) (fun _ => bind_ne_conflict (checked_ne_conflict _) ?_)
  intro canvases
  refine foldlM_ne_conflict (fun t row => ?_) _ _
  refine bind_ne_conflict (checked_ne_conflict _) (fun _ => ?_)
  exact bind_ne_conflict (references_ne_conflict _) (fun _ h => by cases h)

theorem insertPage_ne_conflict (t : Tables K) (row : PageRow K) : insertPage t row ≠ .error .conflict := by
  refine bind_ne_conflict (checked_ne_conflict _) (fun _ => ?_)
  exact bind_ne_conflict (references_ne_conflict _) (fun _ h => by cases h)

theorem commit_ne_conflict (t u : Tables K) (value : α) : commit t u value ≠ .error .conflict :=
  bind_ne_conflict (references_ne_conflict _) (fun _ h => by cases h)

theorem publishDocument_ne_conflict {c : DocumentComposition K}
    (hdoc : hasDocument t (K.documentId.text c.document.documentId) = false)
    (hcanvases : CanvasesFresh t c.pageCanvases) : publishDocument t c ≠ .error .conflict := by
  unfold publishDocument
  rw [loadDocument_eq_none.mpr hdoc, ok_bind]
  dsimp only
  rw [if_neg (by rw [(documentIdsCollide_iff hdoc).mpr hcanvases]; simp)]
  refine bind_ne_conflict nextSequence_ne_conflict (fun n => ?_)
  refine bind_ne_conflict (foldlM_ne_conflict insertCanvas_ne_conflict _ _) (fun v => ?_)
  refine bind_ne_conflict (okOr_ne_conflict _) (fun _ => ?_)
  refine bind_ne_conflict (checked_ne_conflict _) (fun documents => ?_)
  refine bind_ne_conflict (foldlM_ne_conflict insertPage_ne_conflict _ _) (fun w => ?_)
  exact commit_ne_conflict t w _

end NoConflict

theorem execute_publishDocument {c : DocumentComposition K} :
    execute none t (.publishDocument c) =
      (.published (transact t (publishDocument t c)).1, (transact t (publishDocument t c)).2) := rfl

/-- A Document of that identity is stored. -/
theorem classified_stored (ht : Consistent t) {c : DocumentComposition K}
    (hdoc : hasDocument t (K.documentId.text c.document.documentId) = true) :
    Classified t c ↔ ∀ canvas ∈ c.pageCanvases, hasCanvas t (K.canvasId.text canvas.canvasId) = true := by
  have hnotFresh : ¬ Fresh t c := by
    rintro ⟨h, -⟩
    rw [hdoc] at h
    cases h
  obtain ⟨d, hd, -⟩ := ht.document hdoc
  constructor
  · intro h canvas hcanvas
    by_contra hmissing
    rw [Bool.not_eq_true] at hmissing
    have hnotSame : ¬ Same t c := by
      rintro ⟨-, hcs⟩
      have hhas := loadCanvas_has (hcs canvas hcanvas)
      rw [hmissing] at hhas
      cases hhas
    have hresult : publishDocument t c = .error (.corruption "published Document is missing its Canvas") := by
      unfold publishDocument
      rw [hd, ok_bind]
      dsimp only
      rw [compareCanvases_missing ht hcanvas hmissing]
      rfl
    have hconflict := h.conflict hnotFresh hnotSame
    rw [execute_publishDocument, hresult] at hconflict
    cases hconflict
  · intro hall
    obtain ⟨same, hsame, hiff⟩ := compareCanvases_stored ht hall (decide (d = c.document))
    have hiff' : same = true ↔ Same t c := by
      rw [hiff, decide_eq_true_eq, Same, hd]
      simp only [Except.ok.injEq, Option.some.injEq]
    have hresult : publishDocument t c = if same then .ok (.existing, t) else .error .conflict := by
      unfold publishDocument
      rw [hd, ok_bind]
      dsimp only
      rw [hsame, ok_bind, commit_added (Added.refl t)]
    refine ⟨fun hf => absurd hf hnotFresh, ?_, ?_, ?_⟩
    · intro hs
      rw [execute_publishDocument, hresult, if_pos (hiff'.mpr hs)]
      rfl
    · intro _ hs
      rw [execute_publishDocument, hresult, if_neg (fun h => hs (hiff'.mp h))]
      rfl
    · intro _
      rw [execute_publishDocument, hresult]
      split <;> rfl

theorem publishDocument_full {t : Tables K} {c : DocumentComposition K}
    (hdoc : hasDocument t (K.documentId.text c.document.documentId) = false)
    (hcanvases : CanvasesFresh t c.pageCanvases) {r : DocumentRow} (hr : r ∈ t.documents.rows)
    (hmax : i64Max ≤ r.publicationSequence) : publishDocument t c = .error (.backend .other) := by
  unfold publishDocument
  rw [loadDocument_eq_none.mpr hdoc, ok_bind]
  dsimp only
  rw [if_neg (by rw [(documentIdsCollide_iff hdoc).mpr hcanvases]; simp), nextSequence_overflow hr hmax]
  rfl

theorem publishDocument_collides {t : Tables K} {c : DocumentComposition K}
    (hdoc : hasDocument t (K.documentId.text c.document.documentId) = false)
    (hcanvases : ¬ CanvasesFresh t c.pageCanvases) : publishDocument t c = .error .conflict := by
  unfold publishDocument
  rw [loadDocument_eq_none.mpr hdoc, ok_bind]
  dsimp only
  rw [if_pos]
  by_contra hcollide
  rw [Bool.not_eq_true] at hcollide
  exact hcanvases ((documentIdsCollide_iff hdoc).mp hcollide)

/-- No Document of that identity is stored. -/
theorem classified_new (ht : Consistent t) {c : DocumentComposition K}
    (hdoc : hasDocument t (K.documentId.text c.document.documentId) = false) :
    Classified t c ↔ (CanvasesFresh t c.pageCanvases →
      (∀ p ∈ c.document.pages, hasPage t (K.pageId.text p.pageId) = false) ∧
      ∀ r ∈ t.documents.rows, r.publicationSequence < i64Max) := by
  have hnotSame : ¬ Same t c := by
    rintro ⟨hd, -⟩
    rw [loadDocument_eq_none.mpr hdoc] at hd
    cases hd
  constructor
  · intro h hcanvases
    have hpages : ∀ p ∈ c.document.pages, hasPage t (K.pageId.text p.pageId) = false := by
      by_contra hstored
      have hnotFresh : ¬ Fresh t c := fun hf => hstored hf.2.1
      have hconflict := h.conflict hnotFresh hnotSame
      have hne := publishDocument_ne_conflict hdoc hcanvases
      rw [execute_publishDocument] at hconflict
      have hresult : (transact t (publishDocument t c)).1 = .error .conflict := Reply.published.inj hconflict
      cases hp : publishDocument t c with
      | ok r =>
        rw [hp] at hresult
        cases hresult
      | error e =>
        rw [hp] at hresult
        cases hresult
        exact hne hp
    refine ⟨hpages, ?_⟩
    intro r hr
    by_contra hmax
    rw [not_lt] at hmax
    have hinserted := h.inserted ⟨hdoc, hpages, hcanvases⟩
    rw [execute_publishDocument, publishDocument_full hdoc hcanvases hr hmax] at hinserted
    cases hinserted
  · intro h
    by_cases hcanvases : CanvasesFresh t c.pageCanvases
    · obtain ⟨hpages, hroom⟩ := h hcanvases
      have hfresh : Fresh t c := ⟨hdoc, hpages, hcanvases⟩
      obtain ⟨u, hu⟩ := publishDocument_fresh ht hfresh hroom
      have hinserted : (execute none t (.publishDocument c)).1 = .published (.ok .inserted) := by
        rw [execute_publishDocument, hu]
        rfl
      exact ⟨fun _ => hinserted, fun hs => absurd hs hnotSame, fun hf => absurd hfresh hf,
        fun hne => absurd hinserted hne⟩
    · have hresult := publishDocument_collides hdoc hcanvases
      refine ⟨fun hf => absurd hf.2.2 hcanvases, fun hs => absurd hs hnotSame, ?_, ?_⟩
      · intro _ _
        rw [execute_publishDocument, hresult]
        rfl
      · intro _
        rw [execute_publishDocument, hresult]
        rfl

/-- In every state of every run, `publish_document` classifies a composition correctly
exactly when it is classifiable there. -/
theorem classified_iff_classifiable (s : Store K) (hs : (system (fun _ : Command K => True)).Reachable s)
    (c : DocumentComposition K) : Classified s.db.tables c ↔ Classifiable s.db.tables c := by
  have ht := (reachable_invariant hs).consistent
  unfold Classifiable
  cases hdoc : hasDocument s.db.tables (K.documentId.text c.document.documentId) with
  | true =>
    rw [classified_stored ht hdoc]
    exact ⟨fun h => ⟨fun _ => h, fun h' => Bool.noConfusion h'⟩, fun h => h.1 rfl⟩
  | false =>
    rw [classified_new ht hdoc]
    exact ⟨fun h => ⟨fun h' => Bool.noConfusion h', fun _ => h⟩, fun h => h.2 rfl⟩

theorem classified_iff_classifiable_sample :
    Fresh sampleStore.db.tables sampleComposition ∧ Classified sampleStore.db.tables sampleComposition := by
  have hcanvases : CanvasesFresh sampleStore.db.tables sampleComposition.pageCanvases :=
    fun _ _ => ⟨rfl, fun _ _ => rfl⟩
  refine ⟨⟨rfl, fun _ _ => rfl, hcanvases⟩, ?_⟩
  refine (classified_iff_classifiable sampleStore (sampleStore_reachable _) sampleComposition).mpr ⟨?_, ?_⟩
  · intro h
    cases h
  · intro _ _
    exact ⟨fun _ _ => rfl, fun r hr => by cases hr⟩

/-- A one-page Document over a Canvas of its own. -/
def sampleOther (document page canvas : String) : DocumentComposition textCatalog where
  document := ⟨document, "session-1", .pdf, "asset-1", "Other", [samplePage page 0 canvas], by
    intro p hp
    rw [List.mem_singleton] at hp
    subst hp
    exact ⟨Nat.zero_le _, rfl⟩, rfl⟩
  pageCanvases := [sampleCanvas canvas "session-1"]
  pages_ne := by simp
  pageIds := by simp
  canvasIds := by simp
  layerIds := by simpa using (sampleCanvas canvas "session-1").layerIds.nodup
  overlays := .cons ⟨rfl, rfl, rfl, rfl⟩ .nil

/-- A page identity that is in use escapes as an error of the backend, a stored Document
identity with a new Canvas as corruption. -/
theorem publish_document_misclassifies :
    let s := sampleStore.after none (.publishDocument sampleComposition)
    (system (fun _ : Command textCatalog => True)).Reachable s ∧
    (execute none s.db.tables (.publishDocument (sampleOther "document-2" "page-1" "canvas-2"))).1 =
      .published (.error (.backend .constraint)) ∧
    (execute none s.db.tables (.publishDocument (sampleOther "document-1" "page-2" "canvas-2"))).1 =
      .published (.error (.corruption "published Document is missing its Canvas")) ∧
    ¬ Classified s.db.tables (sampleOther "document-2" "page-1" "canvas-2") ∧
    ¬ Classified s.db.tables (sampleOther "document-1" "page-2" "canvas-2") := by
  intro s
  have hpage : (execute none s.db.tables (.publishDocument (sampleOther "document-2" "page-1" "canvas-2"))).1 =
      .published (.error (.backend .constraint)) := rfl
  have hcanvas : (execute none s.db.tables (.publishDocument (sampleOther "document-1" "page-2" "canvas-2"))).1 =
      .published (.error (.corruption "published Document is missing its Canvas")) := rfl
  refine ⟨(sampleStore_reachable _).next (Step.execute _ none _ rfl trivial), hpage, hcanvas, ?_, ?_⟩
  · intro h
    have hconflict := h.conflict (fun hf => by cases hf.2.1 _ List.mem_cons_self) (fun hs => by cases hs.1)
    rw [hpage] at hconflict
    cases hconflict
  · intro h
    have hconflict := h.conflict (fun hf => by cases hf.1) (fun hs => by cases hs.2 _ List.mem_cons_self)
    rw [hcanvas] at hconflict
    cases hconflict

end OrbitRelay.Catalog
