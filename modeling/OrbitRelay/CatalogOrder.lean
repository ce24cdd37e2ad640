import OrbitRelay.CatalogGate

/-!
# Listings follow the order of publication

Runs of the catalog, with the Documents whose publication returned `Inserted`. Their
rows are numbered from zero in that order, and the listings return it.
-/
namespace OrbitRelay.Catalog

open Codec MachineInt Relational Transition

variable {K : CatalogKernel} {t u : Tables K}

/-- The Document that a command has inserted. -/
def insertedBy (c : Command K) (reply : Reply K) : List (DocumentDescriptor K) :=
  match c, reply with
  | .publishDocument composition, .published (.ok .inserted) => [composition.document]
  | _, _ => []

/-- A store, and the Documents inserted since it was empty. -/
structure Catalogued (K : CatalogKernel) where
  store : Store K
  inserted : List (DocumentDescriptor K)

inductive Catalogued.Step : Catalogued K → Catalogued K → Prop where
  | execute (s : Catalogued K) (fault : Option SqliteError) (c : Command K) : s.store.opened.isSome = true →
      Step s ⟨s.store.after fault c, s.inserted ++ insertedBy c (execute fault s.store.db.tables c).1⟩
  | close (s : Catalogued K) : Step s ⟨{ s.store with opened := none }, s.inserted⟩
  | reopen (s : Catalogued K) (f : OpenFaults) (fresh : K.EntityId) (quickCheck : String) : s.store.opened = none →
      Step s ⟨⟨(initializeStorage f fresh quickCheck s.store.db).2,
        (initializeStorage f fresh quickCheck s.store.db).1.toOption⟩, s.inserted⟩

/-- Runs from a catalog without Documents. -/
def orderSystem (K : CatalogKernel) : System (Catalogued K) where
  init s := (system (fun _ : Command K => True)).init s.store ∧ s.store.db.tables.documents.rows = [] ∧
    s.inserted = []
  step := Catalogued.Step

theorem Catalogued.Step.store {s s' : Catalogued K} (h : Catalogued.Step s s') :
    Catalog.Step (fun _ => True) s.store s'.store := by
  cases h with
  | execute fault c hopen => exact .execute s.store fault c hopen trivial
  | close => exact .close s.store
  | reopen f fresh quickCheck hopen => exact .reopen s.store f fresh quickCheck hopen

/-- The rows of Documents that were inserted in this order. -/
def numbered (ds : List (DocumentDescriptor K)) : List DocumentRow :=
  ds.zipIdx.map (fun p => documentRow p.1 p.2)

theorem numbered_append (ds : List (DocumentDescriptor K)) (d : DocumentDescriptor K) :
    numbered (ds ++ [d]) = numbered ds ++ [documentRow d ds.length] := by
  simp [numbered, List.zipIdx_append]

theorem numbered_sequences (ds : List (DocumentDescriptor K)) :
    (numbered ds).map (·.publicationSequence) = (List.range ds.length).map (fun n : Nat => (n : Int)) := by
  induction ds using List.reverseRecOn with
  | nil => rfl
  | append_singleton ds d ih =>
    rw [numbered_append, List.map_append, ih, List.length_append, List.length_singleton, List.range_succ,
      List.map_append]
    rfl

theorem numbered_sorted (ds : List (DocumentDescriptor K)) :
    (numbered ds).Pairwise (fun a b => a.publicationSequence ≤ b.publicationSequence) := by
  have hmap : ((numbered ds).map (·.publicationSequence)).Pairwise (· ≤ ·) := by
    rw [numbered_sequences, List.pairwise_map]
    exact List.pairwise_lt_range.imp (fun h => by omega)
  exact List.pairwise_map.mp hmap

/-- The next number is the number of Documents. -/
theorem nextSequence_numbered {ds : List (DocumentDescriptor K)} (hrows : t.documents.rows = numbered ds) {n : Int}
    (h : nextSequence t = .ok n) : n = ds.length := by
  have hmax : (t.documents.rows.map (·.publicationSequence)).max?.getD (-1) + 1 = ds.length := by
    rw [hrows, numbered_sequences]
    cases hlen : ds.length with
    | zero => rfl
    | succ k =>
      have htop : ((List.range (k + 1)).map (fun n : Nat => (n : Int))).max? = some (k : Int) := by
        rw [List.max?_eq_some_iff]
        constructor
        · exact List.mem_map.mpr ⟨k, by simp, rfl⟩
        · intro b hb
          obtain ⟨j, hj, rfl⟩ := List.mem_map.mp hb
          rw [List.mem_range] at hj
          omega
      rw [htop, Option.getD_some]
      omega
  unfold nextSequence at h
  dsimp only at h
  rw [hmax] at h
  split at h
  · cases h
    rfl
  · cases h

theorem transact_documents {α : Type} {r : Result (α × Tables K)}
    (h : ∀ a u, r = .ok (a, u) → u.documents.rows = t.documents.rows) :
    (transact t r).2.documents.rows = t.documents.rows := by
  cases r with
  | error e => rfl
  | ok au => exact h au.1 au.2 rfl

theorem Added.same_documents {cs : List (CanvasDescriptor K)} {bs : List BindingRow} (h : Added t u cs [] bs) :
    u.documents.rows = t.documents.rows := by
  rw [h.documents, List.map_nil, List.append_nil]

/-- What a command does to the Documents. -/
theorem execute_documents (ht : Consistent t) (fault : Option SqliteError) (c : Command K) :
    (insertedBy c (execute fault t c).1 = [] ∧ (execute fault t c).2.documents.rows = t.documents.rows) ∨
    ∃ d n, insertedBy c (execute fault t c).1 = [d] ∧ nextSequence t = .ok n ∧
      (execute fault t c).2.documents.rows = t.documents.rows ++ [documentRow d n] ∧
      loadDocument (execute fault t c).2 d.documentId = .ok (some d) := by
  cases fault with
  | some e => exact .inl ⟨by cases c <;> rfl, rfl⟩
  | none =>
    cases c with
    | getDocument id => exact .inl ⟨rfl, rfl⟩
    | listDocuments session => exact .inl ⟨rfl, rfl⟩
    | listAllDocuments => exact .inl ⟨rfl, rfl⟩
    | getCanvas id => exact .inl ⟨rfl, rfl⟩
    | getBinding key => exact .inl ⟨rfl, rfl⟩
    | publishStandalone d =>
      refine .inl ⟨rfl, transact_documents ?_⟩
      intro outcome u hu
      rcases publishStandalone_ok hu with ⟨-, rfl, -⟩ | ⟨-, hadded⟩
      · rfl
      · exact hadded.same_documents
    | publishStandaloneWithBinding key d b =>
      refine .inl ⟨rfl, transact_documents ?_⟩
      intro outcome u hu
      rcases (publishStandaloneWithBinding_ok hu).2.2 with ⟨-, ⟨rfl, -⟩ | hadded⟩ | hadded
      · rfl
      · exact hadded.same_documents
      · exact hadded.same_documents
    | putBinding key b =>
      refine .inl ⟨rfl, transact_documents ?_⟩
      rintro ⟨⟩ u hu
      rcases storeBinding_ok hu with ⟨rfl, -⟩ | ⟨hadded, -, -⟩
      · rfl
      · exact hadded.same_documents
    | publishDocument composition =>
      cases hp : publishDocument t composition with
      | error e =>
        have hx : execute none t (.publishDocument composition) = (.published (.error e), t) := by
          simp [execute, hp, transact]
        rw [hx]
        exact .inl ⟨rfl, rfl⟩
      | ok result =>
        obtain ⟨outcome, u⟩ := result
        have hx : execute none t (.publishDocument composition) = (.published (.ok outcome), u) := by
          simp [execute, hp, transact]
        rw [hx]
        rcases publishDocument_ok hp with ⟨rfl, rfl, -, -⟩ | ⟨rfl, n, hn, hadded⟩
        · exact .inl ⟨rfl, rfl⟩
        · refine .inr ⟨composition.document, n, rfl, hn, ?_, (publishDocument_grown ht hp).2.1⟩
          rw [hadded.documents]
          rfl

/-! ## Runs -/

/-- The rows are numbered in the order of insertion, and every Document is there. -/
structure Ordered (s : Catalogued K) : Prop where
  invariant : Invariant s.store
  rows : s.store.db.tables.documents.rows = numbered s.inserted
  stored : ∀ d ∈ s.inserted, loadDocument s.store.db.tables d.documentId = .ok (some d)

theorem step_ordered {s s' : Catalogued K} (hs : Ordered s) (h : Catalogued.Step s s') : Ordered s' := by
  obtain ⟨hinvariant, hkept⟩ := step_invariant hs.invariant h.store
  have hstored : ∀ d ∈ s.inserted, loadDocument s'.store.db.tables d.documentId = .ok (some d) :=
    fun d hd => hkept.loadDocument _ _ (hs.stored d hd)
  cases h with
  | execute fault c hopen =>
    rcases execute_documents hs.invariant.consistent fault c with ⟨hnone, hrows⟩ | ⟨d, n, hone, hn, hrows, hload⟩
    · refine ⟨hinvariant, ?_, ?_⟩
      · change (execute fault s.store.db.tables c).2.documents.rows = _
        rw [hrows, hs.rows, hnone, List.append_nil]
      · rw [hnone, List.append_nil]
        exact hstored
    · have hlength := nextSequence_numbered hs.rows hn
      subst hlength
      refine ⟨hinvariant, ?_, ?_⟩
      · change (execute fault s.store.db.tables c).2.documents.rows = _
        rw [hrows, hs.rows, hone, numbered_append]
      · rw [hone]
        intro x hx
        rcases List.mem_append.mp hx with hx | hx
        · exact hstored x hx
        · rw [List.mem_singleton.mp hx]
          exact hload
  | close => exact ⟨hinvariant, hs.rows, hs.stored⟩
  | reopen f fresh quickCheck hopen =>
    refine ⟨hinvariant, ?_, hstored⟩
    change (initializeStorage f fresh quickCheck s.store.db).2.tables.documents.rows = _
    rw [initializeStorage_keeps hs.invariant.ready]
    exact hs.rows

theorem reachable_ordered {s : Catalogued K} (h : (orderSystem K).Reachable s) : Ordered s := by
  refine System.invariant (S := orderSystem K) ?_ (fun _ _ hs hst => step_ordered hs hst) h
  rintro s ⟨hinit, hrows, hnone⟩
  refine ⟨(init_invariant hinit).1, ?_, ?_⟩
  · rw [hrows, hnone]
    rfl
  · rw [hnone]
    intro d hd
    cases hd

/-! ## Listings -/

theorem loadListed_numbered {d : DocumentDescriptor K} {n : Int}
    (hd : loadDocument t d.documentId = .ok (some d)) : loadListed t (documentRow d n) = .ok d := by
  simp [loadListed, documentRow, K.documentId.parse_text, hd]

/-- A loop over some of the rows is a loop over their Documents. -/
theorem mapM_filter_rows {β : Type} {wanted : DocumentRow → Bool} {chosen : DocumentDescriptor K → Bool}
    {g : DocumentRow → Result β} {f : DocumentDescriptor K → Result β} (ds : List (DocumentDescriptor K))
    (hwanted : ∀ d ∈ ds, ∀ n, wanted (documentRow d n) = chosen d) (hg : ∀ d ∈ ds, ∀ n, g (documentRow d n) = f d)
    (k : Nat) :
    (((ds.zipIdx k).map (fun p => documentRow p.1 p.2)).filter wanted).mapM g = (ds.filter chosen).mapM f := by
  induction ds generalizing k with
  | nil => rfl
  | cons d ds ih =>
    have hrest := ih (fun x hx => hwanted x (List.mem_cons_of_mem d hx))
      (fun x hx => hg x (List.mem_cons_of_mem d hx)) (k + 1)
    rw [List.zipIdx_cons, List.map_cons, List.filter_cons, List.filter_cons,
      hwanted d List.mem_cons_self k]
    by_cases hd : chosen d = true
    · rw [if_pos hd, if_pos hd, List.mapM_cons, List.mapM_cons, hg d List.mem_cons_self k, hrest]
    · rw [if_neg hd, if_neg hd, hrest]

theorem listAllDocuments_numbered {ds : List (DocumentDescriptor K)} (hrows : t.documents.rows = numbered ds)
    (hstored : ∀ d ∈ ds, loadDocument t d.documentId = .ok (some d)) : listAllDocuments t = .ok ds := by
  have hall : (((ds.zipIdx 0).map (fun p => documentRow p.1 p.2)).filter (fun _ => true)).mapM (loadListed t) =
      (ds.filter (fun _ => true)).mapM .ok :=
    mapM_filter_rows ds (fun _ _ _ => rfl) (fun d hd n => loadListed_numbered (hstored d hd)) 0
  rw [List.filter_true, List.filter_true] at hall
  unfold listAllDocuments
  rw [hrows, orderBy_eq_self _ (numbered_sorted ds)]
  exact hall.trans (mapM_eq_ok.mpr (List.forall₂_same.mpr (fun _ _ => rfl)))

theorem listDocuments_numbered {ds : List (DocumentDescriptor K)} (hrows : t.documents.rows = numbered ds)
    (hstored : ∀ d ∈ ds, loadDocument t d.documentId = .ok (some d)) (session : K.SessionId) :
    listDocuments t session = (ds.filter (fun d => d.sessionId = session)).mapM
      (fun d => okOr (.corruption "Document page count overflowed") d.summary) := by
  unfold listDocuments
  rw [hrows, orderBy_eq_self _ ((numbered_sorted ds).filter _)]
  apply mapM_filter_rows ds
  · intro d hd n
    simp [documentRow, K.sessionId.text_inj]
  · intro d hd n
    simp [loadListed_numbered (hstored d hd)]

theorem numbered_ids (ds : List (DocumentDescriptor K)) :
    (numbered ds).map (·.documentId) = (ds.map (·.documentId)).map K.documentId.text := by
  induction ds using List.reverseRecOn with
  | nil => rfl
  | append_singleton ds d ih =>
    rw [numbered_append, List.map_append, ih, List.map_append, List.map_append]
    rfl

theorem numbered_nodup {ds : List (DocumentDescriptor K)} (hrows : t.documents.rows = numbered ds) :
    (ds.map (·.documentId)).Nodup := by
  have hclash := hrows ▸ t.documents.sound
  have hrow : ((numbered ds).map (·.documentId)).Nodup := by
    rw [List.Nodup, List.pairwise_map]
    apply hclash.imp
    intro a b hab hid
    exact of_decide_eq_false hab (.inl hid)
  rw [numbered_ids] at hrow
  exact List.Nodup.of_map _ hrow

/-- In every run from a catalog without Documents, also over failed commands and reopened files, the sequence numbers
are `0` to `n - 1` in the order of insertion, and both listings follow that order. -/
theorem listings_follow_publication (s : Catalogued K) (h : (orderSystem K).Reachable s) :
    s.store.db.tables.documents.rows = numbered s.inserted ∧
    s.store.db.tables.documents.rows.map (·.publicationSequence) =
      (List.range s.inserted.length).map (fun n : Nat => (n : Int)) ∧
    listAllDocuments s.store.db.tables = .ok s.inserted ∧
    (s.inserted.map (·.documentId)).Nodup ∧
    ∀ session, listDocuments s.store.db.tables session =
      (s.inserted.filter (fun d => d.sessionId = session)).mapM
        (fun d => okOr (.corruption "Document page count overflowed") d.summary) := by
  have hs := reachable_ordered h
  refine ⟨hs.rows, ?_, listAllDocuments_numbered hs.rows hs.stored, numbered_nodup hs.rows,
    listDocuments_numbered hs.rows hs.stored⟩
  rw [hs.rows]
  exact numbered_sequences s.inserted

/-- One Document of a new catalog. -/
theorem listings_follow_publication_sample :
    let s : Catalogued textCatalog :=
      ⟨sampleStore.after none (.publishDocument sampleComposition), [sampleDocument]⟩
    (orderSystem textCatalog).Reachable s ∧ listAllDocuments s.store.db.tables = .ok [sampleDocument] := by
  intro s
  have hstart : (orderSystem textCatalog).Reachable ⟨sampleStore, []⟩ :=
    .start ⟨⟨OpenFaults.none, "store-1", "ok", sampleFile, "store-1", rfl, rfl⟩, rfl, rfl⟩
  have hs : (orderSystem textCatalog).Reachable s :=
    hstart.next (Catalogued.Step.execute ⟨sampleStore, []⟩ none (.publishDocument sampleComposition) rfl)
  exact ⟨hs, (listings_follow_publication s hs).2.2.1⟩

end OrbitRelay.Catalog
