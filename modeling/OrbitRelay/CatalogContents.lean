import OrbitRelay.CatalogAtomic
import OrbitRelay.CatalogOrder

/-!
# A catalog with one binding and one Document

What a catalog holds whose only writer binds one Canvas and publishes one Document, and
what each of its commands finds there and adds.
-/
namespace OrbitRelay.Catalog

open Codec Relational

variable {K : CatalogKernel} {t u : Tables K} {key : String} {canvas : Option (CanvasDescriptor K)}
  {document : Option (DocumentDescriptor K)}

/-- The one binding, with its Canvas, and the one Document, as far as they are written. -/
structure Contents (key : String) (t : Tables K) (canvas : Option (CanvasDescriptor K))
    (document : Option (DocumentDescriptor K)) : Prop where
  consistent : Consistent t
  bindings : t.bindings.rows = canvas.toList.map (fun c => bindingRow key c.binding)
  stored : ∀ c, canvas = some c → loadCanvas t c.canvasId = .ok (some c)
  documents : t.documents.rows = numbered document.toList
  loaded : ∀ d, document = some d → loadDocument t d.documentId = .ok (some d)

theorem Contents.empty (K : CatalogKernel) (key : String) : Contents key (Tables.empty K) none none where
  consistent := ⟨rfl, fun _ h => absurd h List.not_mem_nil, fun _ h => absurd h List.not_mem_nil⟩
  bindings := rfl
  stored := fun _ h => by cases h
  documents := rfl
  loaded := fun _ h => by cases h

theorem Contents.listed (h : Contents key t canvas document) : listAllDocuments t = .ok document.toList :=
  listAllDocuments_numbered h.documents (fun d hd => h.loaded d (Option.mem_toList.mp hd))

theorem Contents.bound (h : Contents key t canvas document) :
    loadBinding t key = .ok (canvas.map (·.binding)) := by
  unfold loadBinding
  rw [h.bindings]
  cases canvas with
  | none => rfl
  | some c =>
    simp [bindingRow, CanvasDescriptor.binding, K.sessionId.parse_text, K.canvasId.parse_text]

theorem Contents.bindings_le (h : Contents key t canvas document) : t.bindings.rows.length ≤ 1 := by
  rw [h.bindings, List.length_map]
  exact Option.length_toList_le

theorem Contents.documents_le (h : Contents key t canvas document) : t.documents.rows.length ≤ 1 := by
  rw [h.documents, numbered, List.length_map, List.length_zipIdx]
  exact Option.length_toList_le

/-! ## Commands -/

/-- The commands that only read. -/
def Command.reads : Command K → Bool
  | .getDocument _ => true
  | .listDocuments _ => true
  | .listAllDocuments => true
  | .getCanvas _ => true
  | .getBinding _ => true
  | _ => false

theorem execute_reads {c : Command K} (h : c.reads = true) (fault : Option SqliteError) :
    (execute fault t c).2 = t := by
  cases fault with
  | some e => rfl
  | none =>
    cases c with
    | getDocument id => rfl
    | listDocuments session => rfl
    | listAllDocuments => rfl
    | getCanvas id => rfl
    | getBinding key => rfl
    | publishDocument composition => cases h
    | publishStandalone d => cases h
    | publishStandaloneWithBinding key d b => cases h
    | putBinding key b => cases h

/-- A publication either fails and changes nothing, or commits. -/
inductive Publishes (fault : Option SqliteError) (t : Tables K) (c : Command K) (r : Tables K → Prop) : Prop where
  | failed (e : CatalogStoreError) : (execute fault t c).1 = .published (.error e) →
      (execute fault t c).2 = t → Publishes fault t c r
  | done (outcome : CatalogPublishOutcome) : (execute fault t c).1 = .published (.ok outcome) →
      r (execute fault t c).2 → Publishes fault t c r

/-- On a key without a binding, the binding is there afterwards. -/
theorem publishStandaloneWithBinding_rows {d : CanvasDescriptor K} {b : BootstrapBinding K}
    {outcome : CatalogPublishOutcome} (hkey : t.bindings.rows.find? (fun r => r.bindingKey = key) = none)
    (h : publishStandaloneWithBinding t key d b = .ok (outcome, u)) :
    u.bindings.rows = t.bindings.rows ++ [bindingRow key b] := by
  rcases (publishStandaloneWithBinding_ok h).2.2 with ⟨-, ⟨-, row, hrow, hbound⟩ | hadded⟩ | hadded
  · exact absurd (by simpa using hbound) (List.find?_eq_none.mp hkey row hrow)
  · exact hadded.bindings
  · exact hadded.bindings

theorem Contents.publishCanvas (h : Contents key t none document) (fault : Option SqliteError)
    (d : CanvasDescriptor K) : Publishes fault t (.publishStandaloneWithBinding key d d.binding)
      (fun u => Contents key u (some d) document) := by
  cases fault with
  | some e => exact .failed (.backend e) rfl rfl
  | none =>
    cases hp : publishStandaloneWithBinding t key d d.binding with
    | error e =>
      exact .failed e (by simp [execute, hp, transact]) (by simp [execute, hp, transact])
    | ok result =>
      obtain ⟨outcome, u⟩ := result
      obtain ⟨hgrown, hstored⟩ := publishStandaloneWithBinding_grown h.consistent hp
      have hkey : t.bindings.rows.find? (fun r => r.bindingKey = key) = none := by
        rw [h.bindings]
        rfl
      have hdocuments : u.documents.rows = t.documents.rows := by
        rcases (publishStandaloneWithBinding_ok hp).2.2 with ⟨-, ⟨rfl, -⟩ | hadded⟩ | hadded
        · rfl
        · exact hadded.same_documents
        · exact hadded.same_documents
      refine .done outcome (by simp [execute, hp, transact]) ?_
      have hu : (execute none t (.publishStandaloneWithBinding key d d.binding)).2 = u := by
        simp [execute, hp, transact]
      rw [hu]
      refine ⟨hgrown.consistent, ?_, ?_, hdocuments.trans h.documents, ?_⟩
      · rw [publishStandaloneWithBinding_rows hkey hp, h.bindings]
        rfl
      · intro c hc
        cases hc
        exact hstored
      · intro x hx
        exact hgrown.kept.loadDocument _ _ (h.loaded x hx)

theorem Contents.publishDocument (h : Contents key t canvas none) (fault : Option SqliteError)
    (c : DocumentComposition K) : Publishes fault t (.publishDocument c)
      (fun u => Contents key u canvas (some c.document)) := by
  cases fault with
  | some e => exact .failed (.backend e) rfl rfl
  | none =>
    cases hp : Catalog.publishDocument t c with
    | error e => exact .failed e (by simp [execute, hp, transact]) (by simp [execute, hp, transact])
    | ok result =>
      obtain ⟨outcome, u⟩ := result
      obtain ⟨hgrown, hloaded, -⟩ := publishDocument_grown h.consistent hp
      refine .done outcome (by simp [execute, hp, transact]) ?_
      have hu : (execute none t (.publishDocument c)).2 = u := by simp [execute, hp, transact]
      rw [hu]
      rcases publishDocument_ok hp with ⟨-, rfl, hload, -⟩ | ⟨-, n, hn, hadded⟩
      · -- no row is there, so it cannot have been found
        have hnone : loadDocument u c.document.documentId = .ok none := by
          unfold loadDocument
          rw [h.documents]
          rfl
        rw [hnone] at hload
        cases hload
      · have hlength := nextSequence_numbered h.documents hn
        subst hlength
        refine ⟨hgrown.consistent, ?_, ?_, ?_, ?_⟩
        · rw [hadded.bindings, List.append_nil, h.bindings]
        · intro x hx
          exact hgrown.kept.loadCanvas _ _ (h.stored x hx)
        · rw [hadded.documents, h.documents]
          rfl
        · intro x hx
          cases hx
          exact hloaded

end OrbitRelay.Catalog
