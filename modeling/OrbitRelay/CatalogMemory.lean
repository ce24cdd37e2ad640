import OrbitRelay.CatalogLinear
import Mathlib.Data.List.AList

/-!
# The Canvas catalog of a process without a catalog file

`DevelopmentCanvasCatalog`, beside the SQLite catalog to which the same Canvases are
published.
-/
namespace OrbitRelay.Catalog

open Codec Relational

variable {K : CatalogKernel}

/-- The Canvases by their identity. -/
structure DevelopmentCanvasCatalog (K : CatalogKernel) where
  descriptors : AList (fun _ : K.CanvasId => CanvasDescriptor K)

namespace DevelopmentCanvasCatalog

/-- The body of the loop in `from_descriptors`. -/
def register (descriptors : AList (fun _ : K.CanvasId => CanvasDescriptor K)) (descriptor : CanvasDescriptor K) :
    Except String (AList (fun _ : K.CanvasId => CanvasDescriptor K)) :=
  if descriptor.canvasId ∈ descriptors then .error "duplicate Canvas identity"
  else .ok (descriptors.insert descriptor.canvasId descriptor)

def fromDescriptors (descriptors : List (CanvasDescriptor K)) : Except String (DevelopmentCanvasCatalog K) := do
  let descriptors ← descriptors.foldlM register ∅
  .ok ⟨descriptors⟩

def getCanvas (catalog : DevelopmentCanvasCatalog K) (canvasId : K.CanvasId) :
    Except String (Option (CanvasDescriptor K)) :=
  .ok (catalog.descriptors.lookup canvasId)

variable {m m' : AList (fun _ : K.CanvasId => CanvasDescriptor K)} {ds : List (CanvasDescriptor K)}

/-- Registering a list ends well unless an identity is there twice. -/
theorem register_all (m : AList (fun _ : K.CanvasId => CanvasDescriptor K)) (ds : List (CanvasDescriptor K)) :
    ((∀ d ∈ ds, d.canvasId ∉ m) ∧ (ds.map (·.canvasId)).Nodup ∧ ∃ m', ds.foldlM register m = .ok m' ∧
      ∀ id, m'.lookup id = (ds.find? (fun d => d.canvasId = id)).or (m.lookup id)) ∨
    (¬ ((∀ d ∈ ds, d.canvasId ∉ m) ∧ (ds.map (·.canvasId)).Nodup) ∧
      ds.foldlM register m = .error "duplicate Canvas identity") := by
  induction ds generalizing m with
  | nil => exact .inl ⟨List.forall_mem_nil _, List.nodup_nil, m, rfl, fun id => by rw [List.find?_nil, Option.none_or]⟩
  | cons d ds ih =>
    by_cases hd : d.canvasId ∈ m
    · refine .inr ⟨fun h => h.1 d List.mem_cons_self hd, ?_⟩
      rw [List.foldlM_cons, register, if_pos hd]
      rfl
    · have hstep : (d :: ds).foldlM register m = ds.foldlM register (m.insert d.canvasId d) := by
        rw [List.foldlM_cons, register, if_neg hd]
        rfl
      rw [hstep, List.forall_mem_cons, List.map_cons, List.nodup_cons]
      have hfree : (∀ e ∈ ds, e.canvasId ∉ m.insert d.canvasId d) ↔
          (∀ e ∈ ds, e.canvasId ∉ m) ∧ d.canvasId ∉ ds.map (·.canvasId) := by
        simp only [AList.mem_insert, not_or, List.mem_map, not_exists, not_and]
        exact ⟨fun h => ⟨fun e he => (h e he).2, fun e he => (h e he).1⟩, fun h e he => ⟨h.2 e he, h.1 e he⟩⟩
      rcases ih (m.insert d.canvasId d) with ⟨hnew, hnodup, m', hfold, hlookup⟩ | ⟨hclash, hfold⟩
      · obtain ⟨hnew, hother⟩ := hfree.mp hnew
        refine .inl ⟨⟨hd, hnew⟩, ⟨hother, hnodup⟩, m', hfold, fun id => ?_⟩
        rw [hlookup, List.find?_cons]
        by_cases hid : d.canvasId = id
        · have hnone : ds.find? (fun e => e.canvasId = id) = none := by
            refine List.find?_eq_none.mpr fun e he heq => hother (List.mem_map.mpr ⟨e, he, ?_⟩)
            exact (of_decide_eq_true heq).trans hid.symm
          rw [decide_eq_true hid, hnone, Option.none_or, ← hid, AList.lookup_insert]
          rfl
        · rw [decide_eq_false hid, AList.lookup_insert_ne (Ne.symm hid)]
      · exact .inr ⟨fun h => hclash ⟨hfree.mpr ⟨h.1.2, h.2.1⟩, h.2.2⟩, hfold⟩

theorem fromDescriptors_cases (ds : List (CanvasDescriptor K)) :
    ((ds.map (·.canvasId)).Nodup ∧ ∃ catalog, fromDescriptors ds = .ok catalog ∧
      ∀ id, catalog.getCanvas id = .ok (ds.find? (fun d => d.canvasId = id))) ∨
    (¬ (ds.map (·.canvasId)).Nodup ∧ fromDescriptors ds = .error "duplicate Canvas identity") := by
  have hempty : ∀ d ∈ ds, d.canvasId ∉ (∅ : AList (fun _ : K.CanvasId => CanvasDescriptor K)) :=
    fun d _ => AList.notMem_empty _
  rcases register_all ∅ ds with ⟨-, hnodup, m, hfold, hlookup⟩ | ⟨hclash, hfold⟩
  · refine .inl ⟨hnodup, ⟨m⟩, by rw [fromDescriptors, hfold]; rfl, fun id => ?_⟩
    rw [getCanvas, hlookup, AList.lookup_empty, Option.or_none]
  · exact .inr ⟨fun h => hclash ⟨hempty, h⟩, by rw [fromDescriptors, hfold]; rfl⟩

end DevelopmentCanvasCatalog

/-! ## The same Canvases in a file -/

/-- What `initialize_with` registers without a file: the development Canvas, and those of the Document. -/
def canvasDescriptors (canvas : CanvasDescriptor K) (composition : Option (DocumentComposition K)) :
    List (CanvasDescriptor K) :=
  canvas :: composition.toList.flatMap (·.pageCanvases)

/-- What it publishes to an empty one. -/
def publications (key : String) (canvas : CanvasDescriptor K) (composition : Option (DocumentComposition K)) :
    List (Command K) :=
  .publishStandaloneWithBinding key canvas canvas.binding :: composition.toList.map .publishDocument

/-- The replies to a list of commands, and the tables that they leave. -/
def executeAll (t : Tables K) : List (Command K) → List (Reply K) × Tables K
  | [] => ([], t)
  | c :: cs =>
    let (reply, t) := execute none t c
    let (replies, t) := executeAll t cs
    (reply :: replies, t)

def Inserted (reply : Reply K) : Prop := reply = .published (.ok .inserted)

variable {t u : Tables K} {s s' : Shelf K} {key : String} {d : CanvasDescriptor K} {c : DocumentComposition K}

theorem ShelfStep.inserted_bound {reply : Reply K}
    (h : ShelfStep s (.publishStandaloneWithBinding key d d.binding) reply s') (hr : Inserted reply) :
    s' = ⟨s.documents, s.canvases ++ [d], s.bindings ++ [(key, d.binding)]⟩ := by
  subst hr
  generalize hreply : (Reply.published (.ok .inserted) : Reply K) = reply at h
  cases h with
  | publishes hpub =>
    cases hpub with
    | insertBound => rfl
    | bindCanvas => cases hreply
    | keepBound => cases hreply
  | refused => cases hreply
  | fault => cases hreply

theorem ShelfStep.inserted_document {reply : Reply K} (h : ShelfStep s (.publishDocument c) reply s')
    (hr : Inserted reply) :
    s.Admits c ∧ s' = ⟨s.documents ++ [c.document], s.canvases ++ c.pageCanvases, s.bindings⟩ := by
  subst hr
  generalize hreply : (Reply.published (.ok .inserted) : Reply K) = reply at h
  cases h with
  | publishes hpub =>
    cases hpub with
    | insertDocument hadmits => exact ⟨hadmits, rfl⟩
    | keepDocument => cases hreply
  | refused => cases hreply
  | fault => cases hreply

namespace Represents

theorem bound_inserted (h : Represents t s) (hunbound : s.Unbound key) (hadmits : s.AdmitsCanvas d) :
    Inserted (execute none t (.publishStandaloneWithBinding key d d.binding)).1 := by
  have hnone := h.unbound_iff.mp hunbound
  cases h.consistent.found d with
  | stored existing hload _ =>
    have hid := loadCanvas_id hload
    exact absurd hid (hadmits.canvas existing (h.mem_canvases.mpr (hid.symm ▸ hload)))
  | taken hload htaken _ => exact absurd hadmits (h.not_free hload htaken).2
  | fresh u hload htaken hinsert hpublish =>
    have hadded := insertCanvas_ok hinsert
    have hnone' : u.bindings.rows.find? (fun r => r.bindingKey = key) = none := by
      rw [hadded.bindings, List.append_nil]
      exact hnone
    have hcanvas : Catalog.hasCanvas u (K.canvasId.text d.canvasId) = true := by
      rw [hasCanvas_iff, hadded.canvases]
      exact ⟨canvasRow d, by simp, rfl⟩
    obtain ⟨v, hv⟩ := insertBinding_exists (b := d.binding) hnone' hcanvas
    have hp := twoSteps_ok hpublish (storeBinding_unbound hnone' hv)
    rw [← atomic_unbound h.consistent hnone (.inr htaken)] at hp
    show Reply.published (transact t (publishStandaloneWithBinding t key d d.binding)).1 = _
    rw [hp]
    rfl

theorem document_inserted (h : Represents t s) (hempty : s.documents = []) (hadmits : s.Admits c) :
    Inserted (execute none t (.publishDocument c)).1 := by
  have hroom : ∀ r ∈ t.documents.rows, r.publicationSequence < MachineInt.i64Max := by
    intro r hr
    rw [h.documentRows, hempty] at hr
    cases hr
  obtain ⟨u, hu⟩ := publishDocument_fresh h.consistent (h.fresh_iff.mpr hadmits) hroom
  rw [execute_publishDocument, hu]
  rfl

theorem document_inserted_iff (h : Represents t s) (hempty : s.documents = []) :
    Inserted (execute none t (.publishDocument c)).1 ↔ s.Admits c := by
  refine ⟨fun hinserted => ?_, h.document_inserted hempty⟩
  obtain ⟨s', hstep, -⟩ := h.publishDocument_step c
  exact (hstep.inserted_document hinserted).1

theorem after_document (h : Represents t s) (hinserted : Inserted (execute none t (.publishDocument c)).1) :
    Represents (execute none t (.publishDocument c)).2
      ⟨s.documents ++ [c.document], s.canvases ++ c.pageCanvases, s.bindings⟩ := by
  obtain ⟨s', hstep, hu⟩ := h.publishDocument_step c
  rw [(hstep.inserted_document hinserted).2] at hu
  exact hu

end Represents

/-- The shelf with the development Canvas and nothing else. -/
def Shelf.bound (key : String) (canvas : CanvasDescriptor K) : Shelf K := ⟨[], [canvas], [(key, canvas.binding)]⟩

theorem Shelf.bound_admits_iff {canvas : CanvasDescriptor K} : (Shelf.bound key canvas).Admits c ↔
    canvas.canvasId ∉ c.pageCanvases.map (·.canvasId) ∧
      ∀ page ∈ c.pageCanvases, ∀ l ∈ canvas.layerIds.elements, l ∉ page.layerIds.elements := by
  constructor
  · intro h
    constructor
    · intro hmem
      obtain ⟨page, hpage, hid⟩ := List.mem_map.mp hmem
      exact (h.canvases page hpage).canvas canvas List.mem_cons_self hid.symm
    · exact fun page hpage => (h.canvases page hpage).layers canvas List.mem_cons_self
  · rintro ⟨hid, hlayers⟩
    refine ⟨List.forall_mem_nil _, List.forall_mem_nil _, fun page hpage => ⟨?_, ?_⟩⟩
    · intro other hother heq
      rw [List.mem_singleton.mp hother] at heq
      exact hid (List.mem_map.mpr ⟨page, hpage, heq.symm⟩)
    · intro other hother
      rw [List.mem_singleton.mp hother]
      exact hlayers page hpage

/-- The development Canvas goes into an empty file in any case. -/
theorem canvas_published (key : String) (canvas : CanvasDescriptor K) :
    Inserted (execute none (Tables.empty K) (.publishStandaloneWithBinding key canvas canvas.binding)).1 ∧
      Represents (execute none (Tables.empty K) (.publishStandaloneWithBinding key canvas canvas.binding)).2
        (Shelf.bound key canvas) := by
  have hempty := represents_empty K
  have hinserted : Inserted
      (execute none (Tables.empty K) (.publishStandaloneWithBinding key canvas canvas.binding)).1 :=
    hempty.bound_inserted (List.forall_mem_nil _) ⟨List.forall_mem_nil _, List.forall_mem_nil _⟩
  obtain ⟨s', hstep, hu⟩ := hempty.publishStandaloneWithBinding_step key canvas canvas.binding
  rw [hstep.inserted_bound hinserted] at hu
  exact ⟨hinserted, hu⟩

theorem fromDescriptors_iff {descriptors : List (CanvasDescriptor K)} :
    (∃ catalog, DevelopmentCanvasCatalog.fromDescriptors descriptors = .ok catalog) ↔
      (descriptors.map (·.canvasId)).Nodup := by
  rcases DevelopmentCanvasCatalog.fromDescriptors_cases descriptors with
    ⟨hnodup, catalog, hcatalog, -⟩ | ⟨hclash, herror⟩
  · exact iff_of_true ⟨catalog, hcatalog⟩ hnodup
  · refine iff_of_false ?_ hclash
    rintro ⟨catalog, hcatalog⟩
    cases herror.symm.trans hcatalog

/-- A file with the same Canvases answers as the catalog in memory. -/
theorem Represents.answers_alike (h : Represents t s) {catalog : DevelopmentCanvasCatalog K}
    (hcatalog : DevelopmentCanvasCatalog.fromDescriptors s.canvases = .ok catalog) (id : K.CanvasId) :
    ∃ found, catalog.getCanvas id = .ok found ∧ (execute none t (.getCanvas id)).1 = .canvas (.ok found) := by
  rcases DevelopmentCanvasCatalog.fromDescriptors_cases s.canvases with
    ⟨-, other, hother, hfound⟩ | ⟨-, herror⟩
  · cases hother.symm.trans hcatalog
    refine ⟨s.canvas id, hfound id, ?_⟩
    show Reply.canvas (Catalog.loadCanvas t id) = _
    rw [h.loadCanvas]
  · cases herror.symm.trans hcatalog

/-- Both catalogs take the Canvases of a process, unless the Document has the Canvas of the development mode among its
own; only the file minds a layer that the two share. Then they answer alike. -/
theorem canvas_catalogs_agree (key : String) (canvas : CanvasDescriptor K)
    (composition : Option (DocumentComposition K)) :
    ((∀ reply ∈ (executeAll (Tables.empty K) (publications key canvas composition)).1, Inserted reply) ↔
      (∃ catalog, DevelopmentCanvasCatalog.fromDescriptors (canvasDescriptors canvas composition) = .ok catalog) ∧
        ∀ c ∈ composition, ∀ page ∈ c.pageCanvases, ∀ l ∈ canvas.layerIds.elements, l ∉ page.layerIds.elements) ∧
    ∀ catalog, DevelopmentCanvasCatalog.fromDescriptors (canvasDescriptors canvas composition) = .ok catalog →
      (∀ reply ∈ (executeAll (Tables.empty K) (publications key canvas composition)).1, Inserted reply) →
      ∀ id, ∃ found, catalog.getCanvas id = .ok found ∧
        (execute none (executeAll (Tables.empty K) (publications key canvas composition)).2 (.getCanvas id)).1 =
          .canvas (.ok found) := by
  obtain ⟨hcanvas, hbound⟩ := canvas_published key canvas
  rw [fromDescriptors_iff]
  cases composition with
  | none =>
    have hnodup : ((canvasDescriptors canvas none).map (·.canvasId)).Nodup := List.nodup_singleton _
    have hreplies : ∀ reply ∈ (executeAll (Tables.empty K) (publications key canvas none)).1, Inserted reply := by
      intro reply hreply
      rw [List.mem_singleton.mp hreply]
      exact hcanvas
    refine ⟨iff_of_true hreplies ⟨hnodup, fun c hc => by cases hc⟩, ?_⟩
    exact fun catalog hcatalog _ => hbound.answers_alike hcatalog
  | some c =>
    have hreplies : (∀ reply ∈ (executeAll (Tables.empty K) (publications key canvas (some c))).1, Inserted reply) ↔
        Inserted (execute none
          (execute none (Tables.empty K) (.publishStandaloneWithBinding key canvas canvas.binding)).2
          (.publishDocument c)).1 := by
      simp only [publications, Option.toList_some, List.map_cons, List.map_nil, executeAll, List.forall_mem_cons,
        hcanvas, true_and]
      exact and_iff_left (List.forall_mem_nil _)
    have hdescriptors : canvasDescriptors canvas (some c) = canvas :: c.pageCanvases := by
      simp only [canvasDescriptors, Option.toList_some, List.flatMap_cons, List.flatMap_nil, List.append_nil]
    have hcomposition : (∀ c' ∈ some c, ∀ page ∈ c'.pageCanvases, ∀ l ∈ canvas.layerIds.elements,
        l ∉ page.layerIds.elements) ↔
        ∀ page ∈ c.pageCanvases, ∀ l ∈ canvas.layerIds.elements, l ∉ page.layerIds.elements := by
      simp only [Option.mem_def, Option.some.injEq, forall_eq']
    rw [hreplies, hbound.document_inserted_iff rfl, Shelf.bound_admits_iff, hcomposition, hdescriptors, List.map_cons,
      List.nodup_cons, and_iff_left c.canvasIds]
    refine ⟨Iff.rfl, fun catalog hcatalog hinserted id => ?_⟩
    have hafter := hbound.after_document ((hbound.document_inserted_iff rfl).mpr (Shelf.bound_admits_iff.mpr hinserted))
    exact hafter.answers_alike hcatalog id

end OrbitRelay.Catalog
