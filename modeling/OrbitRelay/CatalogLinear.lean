import OrbitRelay.CatalogShelf
import OrbitRelay.StoreWorkers
import OrbitRelay.WorkerLinear

/-!
# The catalog is one shelf for all its callers

What a shelf of Documents, Canvases and bindings answers to each command, and that the
catalog behind its worker, called from any number of tasks at once, cannot be told
apart from it.
-/
namespace OrbitRelay.Catalog

open Codec MachineInt Relational Transition Linearization

variable {K : CatalogKernel}

/-- The publications that a shelf carries out. -/
inductive CarriesOut : Shelf K → Command K → Reply K → Shelf K → Prop
  | insertDocument {s : Shelf K} {c : DocumentComposition K} : s.Admits c →
      CarriesOut s (.publishDocument c) (.published (.ok .inserted))
        ⟨s.documents ++ [c.document], s.canvases ++ c.pageCanvases, s.bindings⟩
  | keepDocument {s : Shelf K} {c : DocumentComposition K} : s.Holds c →
      CarriesOut s (.publishDocument c) (.published (.ok .existing)) s
  | insertCanvas {s : Shelf K} {d : CanvasDescriptor K} : s.AdmitsCanvas d →
      CarriesOut s (.publishStandalone d) (.published (.ok .inserted)) ⟨s.documents, s.canvases ++ [d], s.bindings⟩
  | keepCanvas {s : Shelf K} {d : CanvasDescriptor K} : d ∈ s.canvases →
      CarriesOut s (.publishStandalone d) (.published (.ok .existing)) s
  | insertBound {s : Shelf K} {key : String} {d : CanvasDescriptor K} : s.Unbound key → s.AdmitsCanvas d →
      CarriesOut s (.publishStandaloneWithBinding key d d.binding) (.published (.ok .inserted))
        ⟨s.documents, s.canvases ++ [d], s.bindings ++ [(key, d.binding)]⟩
  | bindCanvas {s : Shelf K} {key : String} {d : CanvasDescriptor K} : s.Unbound key → d ∈ s.canvases →
      CarriesOut s (.publishStandaloneWithBinding key d d.binding) (.published (.ok .existing))
        ⟨s.documents, s.canvases, s.bindings ++ [(key, d.binding)]⟩
  | keepBound {s : Shelf K} {key : String} {d : CanvasDescriptor K} : (key, d.binding) ∈ s.bindings → d ∈ s.canvases →
      CarriesOut s (.publishStandaloneWithBinding key d d.binding) (.published (.ok .existing)) s
  | bind {s : Shelf K} {key : String} {b : BootstrapBinding K} : s.Unbound key →
      (∃ c ∈ s.canvases, c.canvasId = b.canvasId) →
      CarriesOut s (.putBinding key b) (.stored (.ok ())) ⟨s.documents, s.canvases, s.bindings ++ [(key, b)]⟩
  | keepBinding {s : Shelf K} {key : String} {b : BootstrapBinding K} : (key, b) ∈ s.bindings →
      CarriesOut s (.putBinding key b) (.stored (.ok ())) s

/-- A shelf as a sequential object. It refuses what it cannot carry out, and any command may
end with an error of the backend; neither has an effect. -/
inductive ShelfStep : Shelf K → Command K → Reply K → Shelf K → Prop
  | document {s : Shelf K} {id : K.DocumentId} : ShelfStep s (.getDocument id) (.document (.ok (s.document id))) s
  | canvas {s : Shelf K} {id : K.CanvasId} : ShelfStep s (.getCanvas id) (.canvas (.ok (s.canvas id))) s
  | binding {s : Shelf K} {key : String} : ShelfStep s (.getBinding key) (.binding (.ok (s.binding key))) s
  | documents {s : Shelf K} : ShelfStep s .listAllDocuments (.documents (.ok s.documents)) s
  | summaries {s : Shelf K} {session : K.SessionId} :
      ShelfStep s (.listDocuments session) (.summaries (s.summaries session)) s
  | publishes {s s' : Shelf K} {c : Command K} {r : Reply K} : CarriesOut s c r s' → ShelfStep s c r s'
  | refused {s : Shelf K} {c : Command K} {e : CatalogStoreError} : c.reads = false →
      (∀ r s', ¬ CarriesOut s c r s') → ShelfStep s c (c.failed e) s
  | fault {s : Shelf K} {c : Command K} {e : SqliteError} : ShelfStep s c (c.failed (.backend e)) s

variable {t u : Tables K} {s : Shelf K}

/-! ## What was admitted -/

theorem Shelf.WellFormed.admitsCanvas {cs : List (CanvasDescriptor K)} {documents : List (DocumentDescriptor K)}
    {bindings : List (String × BootstrapBinding K)}
    (h : (Shelf.mk documents (s.canvases ++ cs) bindings).WellFormed) {d : CanvasDescriptor K} (hd : d ∈ cs) :
    s.AdmitsCanvas d where
  canvas := by
    intro c hc
    have hids := h.canvasIds
    rw [List.map_append, List.nodup_append] at hids
    exact hids.2.2 _ (List.mem_map_of_mem hc) _ (List.mem_map_of_mem hd)
  layers := by
    intro c hc l hl hl'
    have hids := h.layerIds
    rw [List.flatMap_append, List.nodup_append] at hids
    exact hids.2.2 l (List.mem_flatMap.mpr ⟨c, hc, hl⟩) l (List.mem_flatMap.mpr ⟨d, hd, hl'⟩) rfl

theorem Shelf.WellFormed.admits {c : DocumentComposition K} {bindings : List (String × BootstrapBinding K)}
    (h : (Shelf.mk (s.documents ++ [c.document]) (s.canvases ++ c.pageCanvases) bindings).WellFormed) :
    s.Admits c where
  document := by
    intro d hd
    have hids := h.documentIds
    rw [List.map_append, List.nodup_append] at hids
    exact hids.2.2 _ (List.mem_map_of_mem hd) _ (List.mem_map_of_mem List.mem_cons_self)
  pages := by
    intro d hd p hp q hq
    have hids := h.pageIds
    rw [List.flatMap_append, List.nodup_append] at hids
    refine hids.2.2 _ (List.mem_flatMap.mpr ⟨d, hd, List.mem_map_of_mem hp⟩) _ ?_
    exact List.mem_flatMap.mpr ⟨c.document, List.mem_cons_self, List.mem_map_of_mem hq⟩
  canvases := fun _ hc => h.admitsCanvas hc

theorem Shelf.WellFormed.binding_unique (h : s.WellFormed) {key : String} {b b' : BootstrapBinding K}
    (hb : (key, b) ∈ s.bindings) (hb' : (key, b') ∈ s.bindings) : b = b' := by
  have hinj := List.inj_on_of_nodup_map h.keys hb hb' rfl
  exact congrArg Prod.snd hinj

/-! ## The commands -/

namespace Represents

theorem publishDocument_same (ht : Consistent t) {c : DocumentComposition K} (h : Same t c) :
    publishDocument t c = .ok (.existing, t) := by
  have hstored : ∀ canvas ∈ c.pageCanvases, Catalog.hasCanvas t (K.canvasId.text canvas.canvasId) = true :=
    fun canvas hc => loadCanvas_has (h.2 canvas hc)
  obtain ⟨result, hcompare, hresult⟩ := compareCanvases_stored ht hstored (decide (c.document = c.document))
  have htrue : result = true := hresult.mpr ⟨decide_eq_true rfl, h.2⟩
  unfold publishDocument
  rw [h.1, ok_bind]
  dsimp only
  rw [hcompare, htrue, ok_bind, if_pos rfl, commit_self]

/-- A composition that is refused is neither new nor there, or SQLite has no number left for it. -/
theorem publishDocument_error (h : Represents t s) {c : DocumentComposition K} {e : CatalogStoreError}
    (he : publishDocument t c = .error e) :
    (∃ error, e = .backend error) ∨ ∀ r s', ¬ CarriesOut s (.publishDocument c) r s' := by
  by_cases hroom : ∀ r ∈ t.documents.rows, r.publicationSequence < i64Max
  · refine .inr fun r s' hpub => ?_
    cases hpub with
    | insertDocument hadmits =>
      obtain ⟨u, hu⟩ := publishDocument_fresh h.consistent (h.fresh_iff.mpr hadmits) hroom
      cases hu.symm.trans he
    | keepDocument hholds =>
      cases (publishDocument_same h.consistent (h.same_iff.mpr hholds)).symm.trans he
  · by_cases hadmits : s.Admits c
    · simp only [not_forall, not_lt] at hroom
      obtain ⟨row, hrow, hmax⟩ := hroom
      obtain ⟨hdocument, -, hcanvases⟩ := h.fresh_iff.mpr hadmits
      rw [publishDocument_full hdocument hcanvases hrow hmax] at he
      cases he
      exact .inl ⟨_, rfl⟩
    · refine .inr fun r s' hpub => ?_
      cases hpub with
      | insertDocument h' => exact hadmits h'
      | keepDocument hholds =>
        cases (publishDocument_same h.consistent (h.same_iff.mpr hholds)).symm.trans he

theorem publishDocument_step (h : Represents t s) (c : DocumentComposition K) :
    ∃ s', ShelfStep s (.publishDocument c) (execute none t (.publishDocument c)).1 s' ∧
      Represents (execute none t (.publishDocument c)).2 s' := by
  rw [execute_publishDocument]
  cases hp : publishDocument t c with
  | error e =>
    refine ⟨s, ?_, h⟩
    rcases h.publishDocument_error hp with ⟨error, rfl⟩ | hrefused
    · exact .fault (c := .publishDocument c)
    · exact .refused (c := .publishDocument c) rfl hrefused
  | ok result =>
    obtain ⟨outcome, u⟩ := result
    have hgrown := (publishDocument_grown h.consistent hp).1
    rcases publishDocument_ok hp with ⟨rfl, rfl, hsame⟩ | ⟨rfl, n, hn, hadded⟩
    · exact ⟨s, .publishes (.keepDocument (h.same_iff.mp hsame)), h⟩
    · have hlength := nextSequence_numbered h.documentRows hn
      subst hlength
      have hu : Represents u ⟨s.documents ++ [c.document], s.canvases ++ c.pageCanvases, s.bindings⟩ :=
        h.grow hadded hgrown.consistent rfl (sequenced_append _ _ _ _ _ _) (List.append_nil _).symm
      exact ⟨_, .publishes (.insertDocument hu.wellFormed.admits), hu⟩

/-- What a key is bound to. -/
theorem bound_cases (h : Represents t s) (key : String) :
    (s.Unbound key ∧ t.bindings.rows.find? (fun r => r.bindingKey = key) = none) ∨
      ∃ b, (key, b) ∈ s.bindings ∧ t.bindings.rows.find? (fun r => r.bindingKey = key) = some (bindingRow key b) := by
  cases hfound : s.bindings.find? (fun p => p.1 = key) with
  | none =>
    have hnone : t.bindings.rows.find? (fun r => r.bindingKey = key) = none := by
      rw [h.findBinding, hfound, Option.map_none]
    exact .inl ⟨h.unbound_iff.mpr hnone, hnone⟩
  | some p =>
    have hkey : p.1 = key := by simpa using List.find?_some hfound
    subst hkey
    exact .inr ⟨p.2, List.mem_of_find?_eq_some hfound, by rw [h.findBinding, hfound, Option.map_some]⟩

theorem bind_grow (h : Represents t s) {key : String} {b : BootstrapBinding K} {cs : List (CanvasDescriptor K)}
    (hadded : Added t u cs [] [bindingRow key b]) (hu : Consistent u) :
    Represents u ⟨s.documents, s.canvases ++ cs, s.bindings ++ [(key, b)]⟩ := by
  refine h.grow hadded hu rfl (List.append_nil _).symm ?_
  simp [Shelf.boundRows]

theorem binding_of_texts {b b' : BootstrapBinding K}
    (hsession : K.sessionId.text b.sessionId = K.sessionId.text b'.sessionId)
    (hcanvas : K.canvasId.text b.canvasId = K.canvasId.text b'.canvasId) : b = b' := by
  cases b
  cases b'
  exact congr (congrArg BootstrapBinding.mk (K.sessionId.text_injective hsession)) (K.canvasId.text_injective hcanvas)

theorem storeBinding_step (h : Represents t s) (key : String) (b : BootstrapBinding K) :
    ∃ s', ShelfStep s (.putBinding key b) (execute none t (.putBinding key b)).1 s' ∧
      Represents (execute none t (.putBinding key b)).2 s' := by
  show ∃ s', ShelfStep s _ (.stored (transact t (storeBinding t key b)).1) s' ∧
    Represents (transact t (storeBinding t key b)).2 s'
  rcases h.bound_cases key with ⟨hunbound, hnone⟩ | ⟨b', hb', hrow⟩
  · by_cases hcanvas : ∃ c ∈ s.canvases, c.canvasId = b.canvasId
    · obtain ⟨u, hu⟩ := insertBinding_exists hnone (h.hasCanvas.mpr hcanvas)
      have hp := storeBinding_unbound hnone hu
      have hgrown := storeBinding_grown h.consistent hp
      have hadded : Added t u [] [] [bindingRow key b] := (Added.refl t).binding hu
      have hr := h.bind_grow hadded hgrown.consistent
      rw [List.append_nil] at hr
      rw [hp]
      exact ⟨_, .publishes (.bind hunbound hcanvas), hr⟩
    · have hrefused : ∀ r s', ¬ CarriesOut s (.putBinding key b) r s' := by
        intro r s' hpub
        cases hpub with
        | bind _ h' => exact hcanvas h'
        | keepBinding h' => exact hunbound _ h' rfl
      cases hp : storeBinding t key b with
      | error e => exact ⟨s, .refused (c := .putBinding key b) rfl hrefused, h⟩
      | ok result =>
        obtain ⟨⟨⟩, u⟩ := result
        rcases storeBinding_ok hp with ⟨-, row, hmem, rfl⟩ | ⟨-, hhas, -⟩
        · exact absurd (decide_eq_true rfl) (List.find?_eq_none.mp hnone (bindingRow key b) hmem)
        · exact absurd (h.hasCanvas.mp hhas) hcanvas
  · have hstore : storeBinding t key b =
        if (K.sessionId.text b'.sessionId, K.canvasId.text b'.canvasId) ≠
          (K.sessionId.text b.sessionId, K.canvasId.text b.canvasId) then .error .conflict else commit t t () := by
      rw [storeBinding, hrow]
      rfl
    by_cases heq : b' = b
    · subst heq
      rw [hstore, if_neg (not_not.mpr rfl), commit_self]
      exact ⟨s, .publishes (.keepBinding hb'), h⟩
    · have hne : (K.sessionId.text b'.sessionId, K.canvasId.text b'.canvasId) ≠
          (K.sessionId.text b.sessionId, K.canvasId.text b.canvasId) := by
        intro htexts
        obtain ⟨hsession, hcanvas⟩ := Prod.mk.inj htexts
        exact heq (binding_of_texts hsession hcanvas)
      rw [hstore, if_pos hne]
      refine ⟨s, .refused (c := .putBinding key b) rfl ?_, h⟩
      intro r s' hpub
      cases hpub with
      | bind h' _ => exact h' _ hb' rfl
      | keepBinding h' => exact heq (h.wellFormed.binding_unique hb' h')

section WithBinding

variable {key : String} {d : CanvasDescriptor K}

/-- The Canvas is stored, and it is another one. -/
theorem not_stored (h : Represents t s) {existing : CanvasDescriptor K}
    (hload : Catalog.loadCanvas t d.canvasId = .ok (some existing)) (hne : existing ≠ d) :
    d ∉ s.canvases ∧ ¬ s.AdmitsCanvas d := by
  constructor
  · intro hmem
    rw [h.stored_canvas hmem] at hload
    cases hload
    exact hne rfl
  · intro hadmits
    have hid := loadCanvas_id hload
    exact hadmits.canvas existing (h.mem_canvases.mpr (hid.symm ▸ hload)) hid

theorem not_free (h : Represents t s) (hload : Catalog.loadCanvas t d.canvasId = .ok none)
    (htaken : layerTaken t d = true) : d ∉ s.canvases ∧ ¬ s.AdmitsCanvas d := by
  constructor
  · intro hmem
    rw [h.stored_canvas hmem] at hload
    cases hload
  · intro hadmits
    rw [(h.admitsCanvas_iff.mp hadmits).2] at htaken
    cases htaken

theorem publishStandalone_step (h : Represents t s) (d : CanvasDescriptor K) :
    ∃ s', ShelfStep s (.publishStandalone d) (execute none t (.publishStandalone d)).1 s' ∧
      Represents (execute none t (.publishStandalone d)).2 s' := by
  have hrefused : d ∉ s.canvases ∧ ¬ s.AdmitsCanvas d → ∀ r s', ¬ CarriesOut s (.publishStandalone d) r s' := by
    rintro ⟨hmem, hadmits⟩ r s' hpub
    cases hpub with
    | insertCanvas h' => exact hadmits h'
    | keepCanvas h' => exact hmem h'
  show ∃ s', ShelfStep s _ (.published (transact t (publishStandalone t d)).1) s' ∧
    Represents (transact t (publishStandalone t d)).2 s'
  cases h.consistent.found d with
  | stored existing hload hp =>
    rw [hp]
    by_cases heq : existing = d
    · subst heq
      rw [if_pos rfl]
      exact ⟨s, .publishes (.keepCanvas (h.mem_canvases.mpr hload)), h⟩
    · rw [if_neg heq]
      exact ⟨s, .refused (c := .publishStandalone d) rfl (hrefused (h.not_stored hload heq)), h⟩
  | taken hload htaken hp =>
    rw [hp]
    exact ⟨s, .refused (c := .publishStandalone d) rfl (hrefused (h.not_free hload htaken)), h⟩
  | fresh u hload htaken hinsert hp =>
    rw [hp]
    have hgrown := (publishStandalone_grown h.consistent hp).1
    have hu : Represents u ⟨s.documents, s.canvases ++ [d], s.bindings⟩ :=
      h.grow (insertCanvas_ok hinsert) hgrown.consistent rfl (List.append_nil _).symm (List.append_nil _).symm
    exact ⟨_, .publishes (.insertCanvas (hu.wellFormed.admitsCanvas List.mem_cons_self)), hu⟩

/-- The key is not bound yet. -/
theorem publishUnbound_step (h : Represents t s) (hunbound : s.Unbound key)
    (hnone : t.bindings.rows.find? (fun r => r.bindingKey = key) = none) :
    ∃ s', ShelfStep s (.publishStandaloneWithBinding key d d.binding)
        (.published (transact t (publishStandaloneWithBinding t key d d.binding)).1) s' ∧
      Represents (transact t (publishStandaloneWithBinding t key d d.binding)).2 s' := by
  have hrefused : d ∉ s.canvases ∧ ¬ s.AdmitsCanvas d →
      ∀ r s', ¬ CarriesOut s (.publishStandaloneWithBinding key d d.binding) r s' := by
    rintro ⟨hmem, hadmits⟩ r s' hpub
    cases hpub with
    | insertBound _ h' => exact hadmits h'
    | bindCanvas _ h' => exact hmem h'
    | keepBound _ h' => exact hmem h'
  cases h.consistent.found d with
  | stored existing hload hpublish =>
    rw [atomic_unbound h.consistent hnone (.inl (loadCanvas_has hload))]
    by_cases heq : existing = d
    · subst heq
      rw [if_pos rfl] at hpublish
      obtain ⟨u, hu⟩ := insertBinding_exists (b := existing.binding) hnone (loadCanvas_has hload)
      have hstore := storeBinding_unbound hnone hu
      have hr := h.bind_grow ((Added.refl t).binding hu) (storeBinding_grown h.consistent hstore).consistent
      rw [List.append_nil] at hr
      rw [twoSteps_ok hpublish hstore]
      exact ⟨_, .publishes (.bindCanvas hunbound (h.mem_canvases.mpr hload)), hr⟩
    · rw [if_neg heq] at hpublish
      rw [twoSteps_error hpublish]
      exact ⟨s, .refused (c := .publishStandaloneWithBinding key d d.binding) rfl
        (hrefused (h.not_stored hload heq)), h⟩
  | taken hload htaken _ =>
    obtain ⟨e, he, -⟩ := overlooked_atomic ⟨find_binding_none.mp hnone, loadCanvas_eq_none.mp hload, htaken⟩
    rw [he]
    exact ⟨s, .refused (c := .publishStandaloneWithBinding key d d.binding) rfl
      (hrefused (h.not_free hload htaken)), h⟩
  | fresh u hload htaken hinsert hpublish =>
    have hadded := insertCanvas_ok hinsert
    have hu := (publishStandalone_grown h.consistent hpublish).1.consistent
    have hnone' : u.bindings.rows.find? (fun r => r.bindingKey = key) = none := by
      rw [hadded.bindings, List.append_nil]
      exact hnone
    have hcanvas : Catalog.hasCanvas u (K.canvasId.text d.canvasId) = true := by
      rw [hasCanvas_iff, hadded.canvases]
      exact ⟨canvasRow d, by simp, rfl⟩
    obtain ⟨v, hv⟩ := insertBinding_exists (b := d.binding) hnone' hcanvas
    have hstore := storeBinding_unbound hnone' hv
    have hr := h.bind_grow (hadded.binding hv) (storeBinding_grown hu hstore).consistent
    have hadmits := h.admitsCanvas_iff.mpr ⟨loadCanvas_eq_none.mp hload, htaken⟩
    rw [atomic_unbound h.consistent hnone (.inr htaken), twoSteps_ok hpublish hstore]
    exact ⟨_, .publishes (.insertBound hunbound hadmits), hr⟩

/-- The key is bound already. -/
theorem publishBound_step (h : Represents t s) {b : BootstrapBinding K} (hb : (key, b) ∈ s.bindings)
    (hrow : t.bindings.rows.find? (fun r => r.bindingKey = key) = some (bindingRow key b)) :
    ∃ s', ShelfStep s (.publishStandaloneWithBinding key d d.binding)
        (.published (transact t (publishStandaloneWithBinding t key d d.binding)).1) s' ∧
      Represents (transact t (publishStandaloneWithBinding t key d d.binding)).2 s' := by
  have hrefused : (b ≠ d.binding ∨ d ∉ s.canvases) →
      ∀ r s', ¬ CarriesOut s (.publishStandaloneWithBinding key d d.binding) r s' := by
    intro hwhy r s' hpub
    cases hpub with
    | insertBound h' _ => exact h' _ hb rfl
    | bindCanvas h' _ => exact h' _ hb rfl
    | keepBound h' hmem =>
      rcases hwhy with hne | hnot
      · exact hne (h.wellFormed.binding_unique hb h')
      · exact hnot hmem
  by_cases heq : b = d.binding
  · subst heq
    have hstore : storeBinding t key d.binding = .ok ((), t) := by
      simp [storeBinding, hrow, bindingRow, commit_self]
    rw [atomic_bound_same h.consistent hrow rfl rfl]
    cases h.consistent.found d with
    | stored existing hload hpublish =>
      by_cases hsame : existing = d
      · subst hsame
        rw [if_pos rfl] at hpublish
        rw [twoSteps_ok hpublish hstore]
        exact ⟨s, .publishes (.keepBound hb (h.mem_canvases.mpr hload)), h⟩
      · rw [if_neg hsame] at hpublish
        rw [twoSteps_error hpublish]
        exact ⟨s, .refused (c := .publishStandaloneWithBinding key d d.binding) rfl
          (hrefused (.inr (h.not_stored hload hsame).1)), h⟩
    | taken hload htaken hpublish =>
      rw [twoSteps_error hpublish]
      exact ⟨s, .refused (c := .publishStandaloneWithBinding key d d.binding) rfl
        (hrefused (.inr (h.not_free hload htaken).1)), h⟩
    | fresh u hload _ _ _ =>
      -- the Canvas that the key names is there
      obtain ⟨c, hc, hid⟩ := h.wellFormed.bound _ hb
      have hstored := h.hasCanvas.mpr ⟨c, hc, hid⟩
      rw [CanvasDescriptor.binding, loadCanvas_eq_none.mp hload] at hstored
      cases hstored
  · have hne : ¬ (K.sessionId.text b.sessionId = K.sessionId.text d.sessionId ∧
        K.canvasId.text b.canvasId = K.canvasId.text d.canvasId) := by
      rintro ⟨hsession, hcanvas⟩
      exact heq (@binding_of_texts K b d.binding hsession hcanvas)
    have hconflict : publishStandaloneWithBinding t key d d.binding = .error .conflict := by
      simp only [publishStandaloneWithBinding, CanvasDescriptor.binding, ne_eq, not_true_eq_false, or_self, if_false,
        hrow]
      exact if_pos (not_and_or.mp hne)
    rw [hconflict]
    exact ⟨s, .refused (c := .publishStandaloneWithBinding key d d.binding) rfl (hrefused (.inl heq)), h⟩

theorem publishStandaloneWithBinding_step (h : Represents t s) (key : String) (d : CanvasDescriptor K)
    (b : BootstrapBinding K) :
    ∃ s', ShelfStep s (.publishStandaloneWithBinding key d b)
        (execute none t (.publishStandaloneWithBinding key d b)).1 s' ∧
      Represents (execute none t (.publishStandaloneWithBinding key d b)).2 s' := by
  show ∃ s', ShelfStep s _ (.published (transact t (publishStandaloneWithBinding t key d b)).1) s' ∧
    Represents (transact t (publishStandaloneWithBinding t key d b)).2 s'
  by_cases heq : b = d.binding
  · subst heq
    rcases h.bound_cases key with ⟨hunbound, hnone⟩ | ⟨b, hb, hrow⟩
    · exact h.publishUnbound_step hunbound hnone
    · exact h.publishBound_step hb hrow
  · have hother : b.canvasId ≠ d.canvasId ∨ b.sessionId ≠ d.sessionId := by
      by_contra hsame
      simp only [not_or, not_not] at hsame
      refine heq ?_
      cases b
      exact congr (congrArg BootstrapBinding.mk hsame.2) hsame.1
    rw [publishStandaloneWithBinding, if_pos hother]
    refine ⟨s, .refused (c := .publishStandaloneWithBinding key d b) rfl ?_, h⟩
    intro r s' hpub
    cases hpub with
    | insertBound _ _ => exact heq rfl
    | bindCanvas _ _ => exact heq rfl
    | keepBound _ _ => exact heq rfl

end WithBinding

/-- Every command is answered as the shelf answers it, and leaves the shelf that it would leave. -/
theorem execute_step (h : Represents t s) (fault : Option SqliteError) (c : Command K) :
    ∃ s', ShelfStep s c (execute fault t c).1 s' ∧ Represents (execute fault t c).2 s' := by
  cases fault with
  | some e => exact ⟨s, .fault, h⟩
  | none =>
    cases c with
    | getDocument id =>
      refine ⟨s, ?_, h⟩
      show ShelfStep s _ (.document (Catalog.loadDocument t id)) s
      rw [h.loadDocument]
      exact .document
    | listDocuments session =>
      refine ⟨s, ?_, h⟩
      show ShelfStep s _ (.summaries (Catalog.listDocuments t session)) s
      rw [h.listDocuments]
      exact .summaries
    | listAllDocuments =>
      refine ⟨s, ?_, h⟩
      show ShelfStep s _ (.documents (Catalog.listAllDocuments t)) s
      rw [h.listAllDocuments]
      exact .documents
    | getCanvas id =>
      refine ⟨s, ?_, h⟩
      show ShelfStep s _ (.canvas (Catalog.loadCanvas t id)) s
      rw [h.loadCanvas]
      exact .canvas
    | getBinding key =>
      refine ⟨s, ?_, h⟩
      show ShelfStep s _ (.binding (Catalog.loadBinding t key)) s
      rw [h.loadBinding]
      exact .binding
    | publishDocument c => exact h.publishDocument_step c
    | publishStandalone d => exact h.publishStandalone_step d
    | publishStandaloneWithBinding key d b => exact h.publishStandaloneWithBinding_step key d b
    | putBinding key b => exact h.storeBinding_step key b

end Represents

/-! ## Callers -/

/-- The tables of a catalog file: empty when it is made, then what the sessions with it leave. -/
inductive Written (capacity : QueueCapacity) : Tables K → Prop
  | new : Written capacity (Tables.empty K)
  | reopened {db : Database K} (f : OpenFaults) (fresh : K.EntityId) (quickCheck : String) :
      Written capacity db.tables → Written capacity (initializeStorage f fresh quickCheck db).2.tables
  | session {t : Tables K} {s : Worker.State (adapter K capacity)} : Written capacity t →
      (Worker.system (adapter K capacity)).Run (Worker.opened t) s → Written capacity s.db

theorem session_linearizes {capacity : QueueCapacity} (h : Represents t s) {w : Worker.State (adapter K capacity)}
    (hrun : (Worker.system (adapter K capacity)).Run (Worker.opened t) w) :
    ∃ s', Linearizes (Worker.system (adapter K capacity)) Worker.State.view ShelfStep (Worker.opened t) w s
      w.effects s' ∧ Represents w.db s' := by
  refine (Worker.run_linearizes hrun).refine (R := Represents) ?_ h
  rintro t s c r t' hr ⟨fault, hexec⟩
  obtain ⟨s', hstep, hr'⟩ := hr.execute_step fault c
  have hboth : execute fault t c = (r, t') := hexec
  rw [hboth] at hstep hr'
  exact ⟨s', hstep, hr'⟩

theorem Written.represents {capacity : QueueCapacity} (h : Written capacity t) : ∃ s : Shelf K, Represents t s := by
  induction h with
  | new => exact ⟨Shelf.empty K, represents_empty K⟩
  | reopened f fresh quickCheck _ ih =>
    rw [initializeStorage_tables]
    exact ih
  | session _ hrun ih =>
    obtain ⟨s, hs⟩ := ih
    obtain ⟨s', -, hs'⟩ := session_linearizes hs hrun
    exact ⟨s', hs'⟩

/-- However its callers overlap, and in whatever session with the file, the catalog behind its worker is linearizable as
a shelf, and what it holds is well formed. -/
theorem catalog_linearizable (K : CatalogKernel) (capacity : QueueCapacity) {t : Tables K} (h : Written capacity t)
    {w : Worker.State (adapter K capacity)} (hrun : (Worker.system (adapter K capacity)).Run (Worker.opened t) w) :
    ∃ s s' : Shelf K, (Represents t s ∧ s.WellFormed) ∧ (Represents w.db s' ∧ s'.WellFormed) ∧
      Linearizes (Worker.system (adapter K capacity)) Worker.State.view ShelfStep (Worker.opened t) w s
        w.effects s' := by
  obtain ⟨s, hs⟩ := h.represents
  obtain ⟨s', hlin, hs'⟩ := session_linearizes hs hrun
  exact ⟨s, s', ⟨hs, hs.wellFormed⟩, ⟨hs', hs'.wellFormed⟩, hlin⟩

/-- Two callers publish the same Document; both are in the queue before either is executed. -/
theorem sampleRace : ∃ w : Worker.State (adapter textCatalog ⟨256, by decide⟩),
    (Worker.system (adapter textCatalog ⟨256, by decide⟩)).Run (Worker.opened (Tables.empty textCatalog)) w ∧
    w.view 0 = .returned (Command.publishDocument sampleComposition) (.published (.ok .existing)) ∧
    w.view 1 = .returned (Command.publishDocument sampleComposition) (.published (.ok .inserted)) := by
  have h₀ : (Worker.system (adapter textCatalog ⟨256, by decide⟩)).Run
    (Worker.opened (Tables.empty textCatalog)) _ := .refl
  have h₁ := h₀.tail (.dispatch 0 (.call (Command.publishDocument sampleComposition) rfl))
  have h₂ := h₁.tail (.dispatch 1 (.call (Command.publishDocument sampleComposition) rfl))
  have h₃ := h₂.tail (.dispatch 1 (.check rfl))
  have h₄ := h₃.tail (.dispatch 1 (.clone rfl))
  have h₅ := h₄.tail (.enqueue 1 rfl (fun h => by cases h) (by decide))
  have h₆ := h₅.tail (.dispatch 0 (.check rfl))
  have h₇ := h₆.tail (.dispatch 0 (.clone rfl))
  have h₈ := h₇.tail (.enqueue 0 rfl (fun h => by cases h) (by decide))
  have h₉ := h₈.tail (.thread (.receive rfl rfl))
  have h₁₀ := h₉.tail (.thread (.execute none rfl))
  have h₁₁ := h₁₀.tail (.thread (.answer rfl))
  have h₁₂ := h₁₁.tail (.dispatch 1 (.answered (Reply.published (.ok .inserted)) rfl))
  have h₁₃ := h₁₂.tail (.thread (.receive rfl rfl))
  have h₁₄ := h₁₃.tail (.thread (.execute none rfl))
  have h₁₅ := h₁₄.tail (.thread (.answer rfl))
  have h₁₆ := h₁₅.tail (.dispatch 0 (.answered (Reply.published (.ok .existing)) rfl))
  exact ⟨_, h₁₆, rfl, rfl⟩

theorem catalog_linearizable_sample : ∃ (w : Worker.State (adapter textCatalog ⟨256, by decide⟩))
    (s s' : Shelf textCatalog),
    w.view 0 = .returned (Command.publishDocument sampleComposition) (.published (.ok .existing)) ∧
    Linearizes (Worker.system (adapter textCatalog ⟨256, by decide⟩)) Worker.State.view ShelfStep
      (Worker.opened (Tables.empty textCatalog)) w s w.effects s' := by
  obtain ⟨w, hrun, hview, -⟩ := sampleRace
  obtain ⟨s, s', -, -, hlin⟩ := catalog_linearizable textCatalog ⟨256, by decide⟩ .new hrun
  exact ⟨w, s, s', hview, hlin⟩

/-! ## Callers that publish the same Document -/

variable {s' : Shelf K} {c c' : DocumentComposition K} {o o' : CatalogPublishOutcome}
  {order : List (Effect Nat (Command K) (Reply K))}

theorem CarriesOut.grows {command : Command K} {r : Reply K} (h : CarriesOut s command r s') :
    s.documents <+: s'.documents ∧ s.canvases <+: s'.canvases := by
  cases h with
  | insertDocument _ => exact ⟨List.prefix_append _ _, List.prefix_append _ _⟩
  | insertCanvas _ => exact ⟨List.prefix_rfl, List.prefix_append _ _⟩
  | insertBound _ _ => exact ⟨List.prefix_rfl, List.prefix_append _ _⟩
  | keepDocument _ | keepCanvas _ | bindCanvas _ _ | keepBound _ _ | bind _ _ | keepBinding _ =>
    exact ⟨List.prefix_rfl, List.prefix_rfl⟩

theorem ShelfStep.grows {command : Command K} {r : Reply K} (h : ShelfStep s command r s') :
    s.documents <+: s'.documents ∧ s.canvases <+: s'.canvases := by
  cases h with
  | publishes h => exact h.grows
  | document | canvas | binding | documents | summaries | refused _ _ | fault =>
    exact ⟨List.prefix_rfl, List.prefix_rfl⟩

theorem Shelf.Holds.kept (h : s.Holds c) (hgrows : s.documents <+: s'.documents ∧ s.canvases <+: s'.canvases) :
    s'.Holds c where
  document := hgrows.1.subset h.document
  canvases := fun canvas hc => hgrows.2.subset (h.canvases canvas hc)

theorem legal_grows (h : Legal ShelfStep s order s') :
    s.documents <+: s'.documents ∧ s.canvases <+: s'.canvases := by
  induction order generalizing s with
  | nil =>
    cases h
    exact ⟨List.prefix_rfl, List.prefix_rfl⟩
  | cons e order ih =>
    obtain ⟨s₁, hstep, hlegal⟩ := h
    obtain ⟨hdocuments, hcanvases⟩ := ih hlegal
    exact ⟨hstep.grows.1.trans hdocuments, hstep.grows.2.trans hcanvases⟩

theorem ShelfStep.published {command : Command K} {r : Reply K} (h : ShelfStep s command r s')
    (hc : command = .publishDocument c) (hr : r = .published (.ok o)) :
    CarriesOut s (.publishDocument c) (.published (.ok o)) s' := by
  cases h with
  | publishes h => exact hc ▸ hr ▸ h
  | document | canvas | binding | documents | summaries => cases hc
  | refused _ _ =>
    subst hc
    cases hr
  | fault =>
    subst hc
    cases hr

theorem CarriesOut.holds (h : CarriesOut s (.publishDocument c) (.published (.ok o)) s') :
    s'.Holds c ∧ o ≠ .conflict := by
  cases h with
  | insertDocument _ =>
    have hholds : Shelf.Holds ⟨s.documents ++ [c.document], s.canvases ++ c.pageCanvases, s.bindings⟩ c :=
      ⟨List.mem_append_right _ List.mem_cons_self, fun canvas hc => List.mem_append_right _ hc⟩
    exact ⟨hholds, by decide⟩
  | keepDocument h => exact ⟨h, by decide⟩

/-- What was published with `Ok` is there in the end. -/
theorem legal_holds (h : Legal ShelfStep s order s') {e : Effect Nat (Command K) (Reply K)} (he : e ∈ order)
    (hc : e.op = .publishDocument c) (hr : e.result = .published (.ok o)) : s'.Holds c ∧ o ≠ .conflict := by
  induction order generalizing s with
  | nil => cases he
  | cons x order ih =>
    obtain ⟨s₁, hstep, hlegal⟩ := h
    rcases List.mem_cons.mp he with rfl | he
    · obtain ⟨hholds, hne⟩ := (hstep.published hc hr).holds
      exact ⟨hholds.kept (legal_grows hlegal), hne⟩
    · exact ih hlegal he

/-- What is there already is not inserted again. -/
theorem legal_present (h : Legal ShelfStep s order s')
    (hpresent : ∃ d ∈ s.documents, d.documentId = c.document.documentId) {e : Effect Nat (Command K) (Reply K)} (he : e ∈ order) (hc : e.op = .publishDocument c) :
    e.result ≠ .published (.ok .inserted) := by
  induction order generalizing s with
  | nil => cases he
  | cons x order ih =>
    obtain ⟨s₁, hstep, hlegal⟩ := h
    obtain ⟨d, hd, hid⟩ := hpresent
    rcases List.mem_cons.mp he with rfl | he
    · intro hr
      cases hstep.published hc hr with
      | insertDocument hadmits => exact hadmits.document d hd hid
    · exact ih hlegal ⟨d, hstep.grows.1.subset hd, hid⟩ he

/-- The two effects do not both insert a Document of one identity. -/
def Apart (e e' : Effect Nat (Command K) (Reply K)) : Prop :=
  ∀ c c' : DocumentComposition K, e.op = .publishDocument c → e'.op = .publishDocument c' →
    c.document.documentId = c'.document.documentId →
    ¬ (e.result = .published (.ok .inserted) ∧ e'.result = .published (.ok .inserted))

theorem legal_apart (h : Legal ShelfStep s order s') : order.Pairwise Apart := by
  induction order generalizing s with
  | nil => exact .nil
  | cons e order ih =>
    obtain ⟨s₁, hstep, hlegal⟩ := h
    refine .cons ?_ (ih hlegal)
    rintro e' he' c c' hc hc' hid ⟨hr, hr'⟩
    have hpresent := (hstep.published hc hr).holds.1.document
    exact legal_present hlegal ⟨c.document, hpresent, hid⟩ he' hc' hr'

theorem canvases_of_ids {S : List (CanvasDescriptor K)} (hids : (S.map (·.canvasId)).Nodup)
    {cs cs' : List (CanvasDescriptor K)} (hcs : ∀ c ∈ cs, c ∈ S) (hcs' : ∀ c ∈ cs', c ∈ S)
    (h : cs.map (·.canvasId) = cs'.map (·.canvasId)) : cs = cs' := by
  induction cs generalizing cs' with
  | nil => exact (List.map_eq_nil_iff.mp h.symm).symm
  | cons c cs ih =>
    cases cs' with
    | nil => cases h
    | cons c' cs' =>
      obtain ⟨hid, hrest⟩ := List.cons.inj h
      have hc := List.inj_on_of_nodup_map hids (hcs c List.mem_cons_self) (hcs' c' List.mem_cons_self) hid
      rw [hc, ih (fun x hx => hcs x (List.mem_cons_of_mem c hx))
        (fun x hx => hcs' x (List.mem_cons_of_mem c' hx)) hrest]

/-- However many callers publish a Document of one identity, those that are told `Ok` have published the same one, and
at most one of them is told that it was inserted. -/
theorem publishers_agree {capacity : QueueCapacity} (h : Written capacity t) {w : Worker.State (adapter K capacity)}
    (hrun : (Worker.system (adapter K capacity)).Run (Worker.opened t) w) {i j : Nat}
    (hi : w.view i = .returned (Command.publishDocument c) (.published (.ok o)))
    (hj : w.view j = .returned (Command.publishDocument c') (.published (.ok o')))
    (hid : c.document.documentId = c'.document.documentId) :
    (c.document = c'.document ∧ c.pageCanvases = c'.pageCanvases) ∧ (i ≠ j → o = .inserted → o' = .existing) := by
  obtain ⟨s, hs⟩ := h.represents
  obtain ⟨s', hlin, hs'⟩ := session_linearizes hs hrun
  have hwell := hs'.wellFormed
  have hei := hlin.logged.returned i _ _ hi
  have hej := hlin.logged.returned j _ _ hj
  obtain ⟨hholds, -⟩ := legal_holds hlin.legal hei rfl rfl
  obtain ⟨hholds', hconflict⟩ := legal_holds hlin.legal hej rfl rfl
  have hsame : c.document = c'.document :=
    List.inj_on_of_nodup_map hwell.documentIds hholds.document hholds'.document hid
  refine ⟨⟨hsame, ?_⟩, fun hne hinserted => ?_⟩
  · refine canvases_of_ids hwell.canvasIds hholds.canvases hholds'.canvases ?_
    rw [← c.overlay_ids, ← c'.overlay_ids, hsame]
  · have hsymm : Std.Symm (Apart (K := K)) :=
      ⟨fun e e' h c c' hc hc' hid hr => h c' c hc' hc hid.symm ⟨hr.2, hr.1⟩⟩
    have hne' : (⟨i, Command.publishDocument c, .published (.ok o)⟩ : Effect Nat (Command K) (Reply K)) ≠
        ⟨j, Command.publishDocument c', .published (.ok o')⟩ := fun heq => hne (congrArg Effect.id heq)
    have hapart := (legal_apart hlin.legal).forall hei hej hne' c c' rfl rfl hid
    cases o' with
    | existing => rfl
    | inserted => exact absurd ⟨by rw [hinserted], rfl⟩ hapart
    | conflict => exact absurd rfl hconflict

theorem publishers_agree_sample : ∃ (w : Worker.State (adapter textCatalog ⟨256, by decide⟩))
    (c c' : DocumentComposition textCatalog) (o' : CatalogPublishOutcome),
    w.view 1 = .returned (Command.publishDocument c) (.published (.ok .inserted)) ∧
    w.view 0 = .returned (Command.publishDocument c') (.published (.ok o')) ∧
    c.document = c'.document ∧ o' = .existing := by
  obtain ⟨w, hrun, h0, h1⟩ := sampleRace
  obtain ⟨⟨hsame, -⟩, hexisting⟩ := publishers_agree .new hrun h1 h0 rfl
  exact ⟨w, _, _, _, h1, h0, hsame, hexisting (by decide) rfl⟩

end OrbitRelay.Catalog
