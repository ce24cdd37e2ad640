import OrbitRelay.CatalogClassify

/-!
# Publishing a Canvas with its binding

`publish_standalone_with_binding` against `publish_standalone` followed by
`store_binding`. The two succeed together and with the same tables; the atomic one
does not look for layers that other Canvases have, and reports the constraint that
SQLite finds instead of a conflict.
-/
namespace OrbitRelay.Catalog

open Codec MachineInt Relational Transition

variable {K : CatalogKernel} {t u : Tables K} {key : String} {d : CanvasDescriptor K}

/-- The binding that names a Canvas. -/
def CanvasDescriptor.binding (d : CanvasDescriptor K) : BootstrapBinding K := ⟨d.sessionId, d.canvasId⟩

/-- `publish_standalone` and then `store_binding`. -/
def publishInTwoSteps (t : Tables K) (key : String) (d : CanvasDescriptor K) :
    Result (CatalogPublishOutcome × Tables K) := do
  let (outcome, u) ← publishStandalone t d
  let ((), v) ← storeBinding u key d.binding
  .ok (outcome, v)

/-- Some layer of the Canvas is stored, for another Canvas. -/
def layerTaken (t : Tables K) (d : CanvasDescriptor K) : Bool :=
  d.layerIds.elements.any (fun l => hasLayer t (K.layerId.text l))

/-- The atomic publication misses the conflict that the two steps report. -/
def Overlooked (t : Tables K) (key : String) (d : CanvasDescriptor K) : Prop :=
  (∀ row ∈ t.bindings.rows, row.bindingKey ≠ key) ∧ hasCanvas t (K.canvasId.text d.canvasId) = false ∧
    layerTaken t d = true

theorem find_binding_none :
    t.bindings.rows.find? (fun r => r.bindingKey = key) = none ↔ ∀ r ∈ t.bindings.rows, r.bindingKey ≠ key := by
  simp [List.find?_eq_none]

theorem commit_self {α : Type} (t : Tables K) (value : α) : commit t t value = .ok (value, t) :=
  commit_added (Added.refl t) value

/-- What `publish_standalone` finds in tables that are in order. -/
inductive Found (t : Tables K) (d : CanvasDescriptor K) : Prop where
  | stored (existing : CanvasDescriptor K) : loadCanvas t d.canvasId = .ok (some existing) →
      publishStandalone t d = (if existing = d then .ok (.existing, t) else .error .conflict) → Found t d
  | taken : loadCanvas t d.canvasId = .ok none → layerTaken t d = true →
      publishStandalone t d = .error .conflict → Found t d
  | fresh (u : Tables K) : loadCanvas t d.canvasId = .ok none → layerTaken t d = false →
      insertCanvas t d = .ok u → publishStandalone t d = .ok (.inserted, u) → Found t d

theorem Consistent.found (ht : Consistent t) (d : CanvasDescriptor K) : Found t d := by
  cases hcanvas : hasCanvas t (K.canvasId.text d.canvasId) with
  | true =>
    obtain ⟨existing, hload⟩ := ht.canvas hcanvas
    refine .stored existing hload ?_
    simp only [publishStandalone, hload, ok_bind, commit_self]
  | false =>
    have hload := loadCanvas_eq_none.mpr hcanvas
    cases htaken : layerTaken t d with
    | true =>
      refine .taken hload htaken ?_
      simp only [publishStandalone, hload, ok_bind]
      exact if_pos htaken
    | false =>
      have hlayers : ∀ l ∈ d.layerIds.elements, hasLayer t (K.layerId.text l) = false := by
        simpa [layerTaken] using htaken
      obtain ⟨u, hu⟩ := insertCanvas_exists hcanvas hlayers
      refine .fresh u hload htaken hu ?_
      have hcommit : commit t u CatalogPublishOutcome.inserted = .ok (.inserted, u) :=
        commit_added (insertCanvas_ok hu) _
      simp only [publishStandalone, hload, ok_bind, hu, hcommit]
      exact if_neg (by rw [← layerTaken, htaken]; exact Bool.false_ne_true)

/-- A layer that is taken stops the insertion, but not with a conflict. -/
theorem insertCanvas_taken (htaken : layerTaken t d = true) :
    ∃ e, insertCanvas t d = .error e ∧ e ≠ .conflict := by
  cases hi : insertCanvas t d with
  | error e =>
    refine ⟨e, rfl, ?_⟩
    rintro rfl
    exact insertCanvas_ne_conflict t d hi
  | ok u =>
    exfalso
    obtain ⟨l, hl, hhas⟩ := List.any_eq_true.mp htaken
    obtain ⟨row, hrow, hid⟩ := hasLayer_iff.mp hhas
    have hpairwise := layers_unique u
    rw [(insertCanvas_ok hi).layers, List.pairwise_append] at hpairwise
    refine hpairwise.2.2 row hrow ⟨K.canvasId.text d.canvasId, K.layerId.text l⟩ ?_ hid
    rw [List.flatMap_singleton]
    exact List.mem_map.mpr ⟨l, hl, rfl⟩

theorem storeBinding_unbound (hkey : t.bindings.rows.find? (fun r => r.bindingKey = key) = none)
    {b : BootstrapBinding K} (hu : insertBinding t (bindingRow key b) = .ok u) :
    storeBinding t key b = .ok ((), u) := by
  have hcommit : commit t u () = .ok ((), u) := commit_added ((Added.refl t).binding hu) _
  simp only [storeBinding, hkey, hu, ok_bind, hcommit]

theorem insertBinding_exists (hkey : t.bindings.rows.find? (fun r => r.bindingKey = key) = none)
    {b : BootstrapBinding K} (hcanvas : hasCanvas t (K.canvasId.text b.canvasId) = true) :
    ∃ u, insertBinding t (bindingRow key b) = .ok u := by
  obtain ⟨bindings, hbindings⟩ := Table.exists_insert (t := t.bindings) (r := bindingRow key b)
    (fun r hr => decide_eq_false (find_binding_none.mp hkey r hr))
  refine ⟨{ t with bindings }, insertBinding_eq_ok.mpr ⟨find_binding_none.mp hkey, hcanvas, ?_, rfl⟩⟩
  exact (Table.insert_ok_iff.mp hbindings).2

/-! ## The two publications compared -/

theorem twoSteps_ok {outcome : CatalogPublishOutcome} {v : Tables K} (hp : publishStandalone t d = .ok (outcome, u))
    (hs : storeBinding u key d.binding = .ok ((), v)) : publishInTwoSteps t key d = .ok (outcome, v) := by
  simp only [publishInTwoSteps, hp, ok_bind, hs]

theorem twoSteps_error {e : CatalogStoreError} (hp : publishStandalone t d = .error e) :
    publishInTwoSteps t key d = .error e := by
  simp only [publishInTwoSteps, hp, error_bind]

theorem twoSteps_conflict {outcome : CatalogPublishOutcome} (hp : publishStandalone t d = .ok (outcome, u))
    (hs : storeBinding u key d.binding = .error .conflict) : publishInTwoSteps t key d = .error .conflict := by
  simp only [publishInTwoSteps, hp, ok_bind, hs, error_bind]

/-- The key is bound to the Canvas itself. -/
theorem atomic_bound_same (ht : Consistent t) {row : BindingRow}
    (hrow : t.bindings.rows.find? (fun r => r.bindingKey = key) = some row)
    (hsession : row.sessionId = K.sessionId.text d.sessionId) (hcanvas : row.canvasId = K.canvasId.text d.canvasId) :
    publishStandaloneWithBinding t key d d.binding = publishInTwoSteps t key d := by
  have hstored : hasCanvas t (K.canvasId.text d.canvasId) = true :=
    hcanvas ▸ (foreignKeysHold_iff.mp ht.keys).2.2.2 row (List.mem_of_find?_eq_some hrow)
  have hstore : storeBinding t key d.binding = .ok ((), t) := by
    simp [storeBinding, hrow, CanvasDescriptor.binding, hsession, hcanvas, commit_self]
  cases ht.found d with
  | stored existing hload hpublish =>
    by_cases heq : existing = d
    · rw [if_pos heq] at hpublish
      rw [twoSteps_ok hpublish hstore]
      simp [publishStandaloneWithBinding, CanvasDescriptor.binding, hrow, hsession, hcanvas, hload, heq, commit_self]
    · rw [if_neg heq] at hpublish
      rw [twoSteps_error hpublish]
      simp [publishStandaloneWithBinding, CanvasDescriptor.binding, hrow, hsession, hcanvas, hload, heq]
  | taken hload _ _ =>
    rw [loadCanvas_eq_none.mp hload] at hstored
    cases hstored
  | fresh u hload _ _ _ =>
    rw [loadCanvas_eq_none.mp hload] at hstored
    cases hstored

/-- The key is bound to something else. -/
theorem atomic_bound_other (ht : Consistent t) {row : BindingRow}
    (hrow : t.bindings.rows.find? (fun r => r.bindingKey = key) = some row)
    (hother : ¬ (row.sessionId = K.sessionId.text d.sessionId ∧ row.canvasId = K.canvasId.text d.canvasId)) :
    publishStandaloneWithBinding t key d d.binding = publishInTwoSteps t key d := by
  have hother' : row.sessionId ≠ K.sessionId.text d.sessionId ∨ row.canvasId ≠ K.canvasId.text d.canvasId :=
    not_and_or.mp hother
  have hatomic : publishStandaloneWithBinding t key d d.binding = .error .conflict := by
    simp only [publishStandaloneWithBinding, CanvasDescriptor.binding, ne_eq, not_true_eq_false, or_self, if_false,
      hrow]
    exact if_pos hother'
  have hstore : ∀ v : Tables K, v.bindings.rows = t.bindings.rows →
      storeBinding v key d.binding = .error .conflict := by
    intro v hv
    simp only [storeBinding, hv, hrow, CanvasDescriptor.binding]
    refine if_pos ?_
    rw [ne_eq, Prod.mk.injEq]
    exact hother
  rw [hatomic]
  cases ht.found d with
  | stored existing hload hpublish =>
    by_cases heq : existing = d
    · rw [if_pos heq] at hpublish
      rw [twoSteps_conflict hpublish (hstore t rfl)]
    · rw [if_neg heq] at hpublish
      rw [twoSteps_error hpublish]
  | taken hload _ hpublish => rw [twoSteps_error hpublish]
  | fresh u hload _ hinsert hpublish =>
    have hbindings : u.bindings.rows = t.bindings.rows := by
      rw [(insertCanvas_ok hinsert).bindings, List.append_nil]
    rw [twoSteps_conflict hpublish (hstore u hbindings)]

/-- The key is not bound, and no conflict is overlooked. -/
theorem atomic_unbound (ht : Consistent t)
    (hkey : t.bindings.rows.find? (fun r => r.bindingKey = key) = none)
    (hseen : hasCanvas t (K.canvasId.text d.canvasId) = true ∨ layerTaken t d = false) :
    publishStandaloneWithBinding t key d d.binding = publishInTwoSteps t key d := by
  cases ht.found d with
  | stored existing hload hpublish =>
    by_cases heq : existing = d
    · rw [if_pos heq] at hpublish
      rw [heq] at hload
      obtain ⟨u, hu⟩ := insertBinding_exists (b := d.binding) hkey (loadCanvas_has hload)
      have hcommit : commit t u CatalogPublishOutcome.existing = .ok (.existing, u) :=
        commit_added ((Added.refl t).binding hu) _
      rw [twoSteps_ok hpublish (storeBinding_unbound hkey hu)]
      simp only [CanvasDescriptor.binding] at hu
      simp [publishStandaloneWithBinding, CanvasDescriptor.binding, hkey, hload, hu, hcommit]
    · rw [if_neg heq] at hpublish
      rw [twoSteps_error hpublish]
      simp [publishStandaloneWithBinding, CanvasDescriptor.binding, hkey, hload, heq]
  | taken hload htaken _ =>
    rw [loadCanvas_eq_none.mp hload, htaken] at hseen
    simp at hseen
  | fresh u hload _ hinsert hpublish =>
    have hadded := insertCanvas_ok hinsert
    have hkey' : u.bindings.rows.find? (fun r => r.bindingKey = key) = none := by
      rw [hadded.bindings, List.append_nil]
      exact hkey
    have hcanvas : hasCanvas u (K.canvasId.text d.canvasId) = true := by
      rw [hasCanvas_iff, hadded.canvases]
      exact ⟨canvasRow d, by simp, rfl⟩
    obtain ⟨v, hv⟩ := insertBinding_exists (b := d.binding) hkey' hcanvas
    have hcommit : commit t v CatalogPublishOutcome.inserted = .ok (.inserted, v) :=
      commit_added (hadded.binding hv) _
    rw [twoSteps_ok hpublish (storeBinding_unbound hkey' hv)]
    simp only [CanvasDescriptor.binding] at hv
    simp [publishStandaloneWithBinding, CanvasDescriptor.binding, hkey, hload, hinsert, hv, hcommit]

theorem atomic_eq_twoSteps (ht : Consistent t) (hseen : ¬ Overlooked t key d) :
    publishStandaloneWithBinding t key d d.binding = publishInTwoSteps t key d := by
  cases hrow : t.bindings.rows.find? (fun r => r.bindingKey = key) with
  | some row =>
    by_cases hsame : row.sessionId = K.sessionId.text d.sessionId ∧ row.canvasId = K.canvasId.text d.canvasId
    · exact atomic_bound_same ht hrow hsame.1 hsame.2
    · exact atomic_bound_other ht hrow hsame
  | none =>
    refine atomic_unbound ht hrow ?_
    by_contra hmissed
    rw [not_or, Bool.not_eq_true, Bool.not_eq_false] at hmissed
    exact hseen ⟨find_binding_none.mp hrow, hmissed⟩

/-- An overlooked conflict is reported as something else. -/
theorem overlooked_atomic (h : Overlooked t key d) :
    ∃ e, publishStandaloneWithBinding t key d d.binding = .error e ∧ e ≠ .conflict := by
  obtain ⟨hkey, hcanvas, htaken⟩ := h
  obtain ⟨e, he, hne⟩ := insertCanvas_taken htaken
  refine ⟨e, ?_, hne⟩
  simp [publishStandaloneWithBinding, CanvasDescriptor.binding, find_binding_none.mpr hkey,
    loadCanvas_eq_none.mpr hcanvas, he]

theorem overlooked_standalone (h : Overlooked t key d) : publishStandalone t d = .error .conflict := by
  obtain ⟨-, hcanvas, htaken⟩ := h
  simp only [publishStandalone, loadCanvas_eq_none.mpr hcanvas, ok_bind]
  exact if_pos htaken

/-- The atomic publication agrees with the two steps. -/
structure AgreesWithTwoSteps (t : Tables K) (key : String) (d : CanvasDescriptor K) : Prop where
  ok : ∀ outcome v, publishStandaloneWithBinding t key d d.binding = .ok (outcome, v) ↔
    ∃ u, publishStandalone t d = .ok (outcome, u) ∧ storeBinding u key d.binding = .ok ((), v)
  conflict : (publishStandalone t d = .error .conflict ∨ ∃ outcome u, publishStandalone t d = .ok (outcome, u) ∧
      storeBinding u key d.binding = .error .conflict) →
    publishStandaloneWithBinding t key d d.binding = .error .conflict
  unchanged : ∀ e, (execute none t (.publishStandaloneWithBinding key d d.binding)).1 = .published (.error e) →
    (execute none t (.publishStandaloneWithBinding key d d.binding)).2 = t

theorem twoSteps_eq_ok {outcome : CatalogPublishOutcome} {v : Tables K} :
    publishInTwoSteps t key d = .ok (outcome, v) ↔
      ∃ u, publishStandalone t d = .ok (outcome, u) ∧ storeBinding u key d.binding = .ok ((), v) := by
  constructor
  · intro h
    obtain ⟨⟨outcome', u⟩, hp, h⟩ := bind_ok h
    obtain ⟨⟨⟨⟩, v'⟩, hs, h⟩ := bind_ok h
    cases h
    exact ⟨u, hp, hs⟩
  · rintro ⟨u, hp, hs⟩
    exact twoSteps_ok hp hs

/-- In every state of every run the two agree exactly when no conflict is overlooked. -/
theorem standalone_publications_agree_iff (s : Store K) (hs : (system (fun _ : Command K => True)).Reachable s)
    (key : String) (d : CanvasDescriptor K) :
    AgreesWithTwoSteps s.db.tables key d ↔ ¬ Overlooked s.db.tables key d := by
  have ht := (reachable_invariant hs).consistent
  constructor
  · intro hagrees hmissed
    obtain ⟨e, he, hne⟩ := overlooked_atomic hmissed
    have hconflict := hagrees.conflict (.inl (overlooked_standalone hmissed))
    rw [he] at hconflict
    cases hconflict
    exact hne rfl
  · intro hseen
    have heq := atomic_eq_twoSteps ht hseen
    refine ⟨?_, ?_, fun e he => published_error he⟩
    · intro outcome v
      rw [heq]
      exact twoSteps_eq_ok
    · rw [heq]
      rintro (hp | ⟨outcome, u, hp, hs⟩)
      · exact twoSteps_error hp
      · exact twoSteps_conflict hp hs

theorem standalone_publications_agree_sample :
    ¬ Overlooked sampleStore.db.tables "default" (sampleCanvas "canvas-1" "session-1") ∧
    AgreesWithTwoSteps sampleStore.db.tables "default" (sampleCanvas "canvas-1" "session-1") := by
  have hseen : ¬ Overlooked sampleStore.db.tables "default" (sampleCanvas "canvas-1" "session-1") :=
    fun h => Bool.noConfusion h.2.2
  exact ⟨hseen, (standalone_publications_agree_iff sampleStore (sampleStore_reachable _) "default" _).mpr hseen⟩

/-- A Canvas that claims the layer of `sampleCanvas "canvas-1"`. -/
def sampleIntruder : CanvasDescriptor textCatalog where
  canvasId := "canvas-2"
  sessionId := "session-1"
  width := (10 : Nat)
  height := (20 : Nat)
  layerIds := OrderedSet.ofList ["canvas-1-ink"]
  defaultLayerId := "canvas-1-ink"
  space := textCatalog_space
  valid := by decide
  length_le := by
    show 1 ≤ i64Max
    decide

/-- The two steps report a conflict, the atomic publication an error of the backend. -/
theorem layer_conflict_overlooked :
    let s := sampleStore.after none (.publishStandalone (sampleCanvas "canvas-1" "session-1"))
    (system (fun _ : Command textCatalog => True)).Reachable s ∧
    publishStandalone s.db.tables sampleIntruder = .error .conflict ∧
    publishStandaloneWithBinding s.db.tables "default" sampleIntruder sampleIntruder.binding =
      .error (.backend .constraint) ∧
    ¬ AgreesWithTwoSteps s.db.tables "default" sampleIntruder := by
  intro s
  have hstandalone : publishStandalone s.db.tables sampleIntruder = .error .conflict := rfl
  have hatomic : publishStandaloneWithBinding s.db.tables "default" sampleIntruder sampleIntruder.binding =
      .error (.backend .constraint) := rfl
  refine ⟨(sampleStore_reachable _).next (Step.execute _ none _ rfl trivial), hstandalone, hatomic, ?_⟩
  intro hagrees
  have hconflict := hagrees.conflict (.inl hstandalone)
  rw [hatomic] at hconflict
  cases hconflict

end OrbitRelay.Catalog
