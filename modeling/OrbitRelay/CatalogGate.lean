import OrbitRelay.CatalogDurable

/-!
# The startup scan is enough

The readers follow identities through queries of their own and decode every row
again. On tables that an open accepted none of them comes upon a corruption.
-/
namespace OrbitRelay.Catalog

open Codec MachineInt Relational

variable {K : CatalogKernel} {t : Tables K}

/-- A Document with as many pages as its row says, each showing its Canvas. -/
def Whole (t : Tables K) (d : DocumentDescriptor K) : Prop :=
  (∃ row ∈ t.documents.rows, row.documentId = K.documentId.text d.documentId ∧
    row.pageCount = d.pages.length) ∧
  ∀ page ∈ d.pages, Shows t d page

/-- A Document with a page at every index that a `u32` has. -/
def Full (d : DocumentDescriptor K) : Prop :=
  d.pages.length = u32Max + 1

/-- Every reader returns `Ok`, and what it returns is in order. -/
structure Readable (t : Tables K) : Prop where
  canvas : ∀ id, ∃ canvas, loadCanvas t id = .ok canvas
  document : ∀ id, ∃ document, loadDocument t id = .ok document
  allDocuments : ∃ documents, listAllDocuments t = .ok documents ∧ ∀ d ∈ documents, Whole t d
  documents : ∀ session, (∀ id d, loadDocument t id = .ok (some d) → d.sessionId = session → ¬Full d) →
    ∃ summaries, listDocuments t session = .ok summaries ∧ ∀ summary ∈ summaries,
      ∃ d, Whole t d ∧ d.sessionId = session ∧ d.summary = some summary
  binding : ∀ key, ∃ binding, loadBinding t key = .ok binding ∧ ∀ b, binding = some b →
    ∃ c, loadCanvas t b.canvasId = .ok (some c) ∧ c.sessionId = b.sessionId

/-- Page indices are distinct `u32`s. -/
theorem pages_length_le (d : DocumentDescriptor K) : d.pages.length ≤ u32Max + 1 := by
  have hnodup : (d.pages.map Page.pageIndex).Nodup := by
    unfold List.Nodup
    rw [List.pairwise_map]
    exact (K.document_order d.valid).imp Nat.ne_of_lt
  have hsubset : d.pages.map Page.pageIndex ⊆ List.range (u32Max + 1) := by
    intro i hi
    obtain ⟨page, hpage, rfl⟩ := List.mem_map.mp hi
    have hle := (d.pages_valid page hpage).1
    rw [List.mem_range]
    omega
  have hlength := (List.subperm_of_subset hnodup hsubset).length_le
  rw [List.length_map, List.length_range] at hlength
  exact hlength

theorem loadDocument_whole (ht : Consistent t) {id : K.DocumentId} {d : DocumentDescriptor K}
    (h : loadDocument t id = .ok (some d)) : Whole t d := by
  obtain ⟨row, hrow, hid, hd⟩ := loadDocument_eq_some.mp h
  obtain ⟨-, d', hd', hshow⟩ := ht.documents row hrow
  rw [hd] at hd'
  cases hd'
  have hcount := (decodeDocument_eq_ok.mp hd).2.2.2.2.2.1
  have hsame := loadDocument_id h
  exact ⟨⟨row, hrow, by rw [hsame]; exact hid, hcount⟩, hshow⟩

/-- Two rows that name one Document share its pages, and with them the session. -/
theorem decodeDocument_session {row row' : DocumentRow} {d d' : DocumentDescriptor K}
    (h : decodeDocument t row = .ok d) (h' : decodeDocument t row' = .ok d') (hid : d'.documentId = d.documentId)
    (hshow : ∀ page ∈ d.pages, Shows t d page) (hshow' : ∀ page ∈ d'.pages, Shows t d' page) :
    d'.sessionId = d.sessionId := by
  obtain ⟨-, -, -, -, -, -, hne, pages, hpages, hmap⟩ := decodeDocument_eq_ok.mp h
  obtain ⟨-, -, -, -, -, -, -, pages', hpages', hmap'⟩ := decodeDocument_eq_ok.mp h'
  rw [hid, hpages] at hpages'
  cases hpages'
  obtain ⟨page, hpage⟩ := List.exists_mem_of_ne_nil d.pages hne
  obtain ⟨c, hc, hsession, -⟩ := hshow page hpage
  obtain ⟨c', hc', hsession', -⟩ := hshow' page (by rw [hmap', ← hmap]; exact hpage)
  rw [hc] at hc'
  cases hc'
  rw [← hsession, ← hsession']

/-- A row that is listed names a Document that is there, also when it spells its identity
in another way than that Document's own row. -/
theorem loadListed_ok (ht : Consistent t) {row : DocumentRow} (hrow : row ∈ t.documents.rows) :
    ∃ d, loadListed t row = .ok d ∧ loadDocument t d.documentId = .ok (some d) ∧
      K.sessionId.parse row.sessionId = some d.sessionId := by
  obtain ⟨-, d, hd, hshow⟩ := ht.documents row hrow
  obtain ⟨hparse, hsession, -⟩ := decodeDocument_eq_ok.mp hd
  obtain ⟨d', hd', hshow'⟩ := ht.document (decodeDocument_has ht.keys hd)
  have hid := loadDocument_id hd'
  obtain ⟨row', -, -, hdecode⟩ := loadDocument_eq_some.mp hd'
  refine ⟨d', ?_, by rw [hid]; exact hd', ?_⟩
  · simp only [loadListed, hparse, hd', okOr_some, ok_bind]
  · rw [decodeDocument_session hd hdecode hid hshow hshow']
    exact hsession

theorem loadBinding_ok (hagrees : ∀ b ∈ t.bindings.rows, Agrees t b) (key : String) :
    ∃ binding, loadBinding t key = .ok binding ∧ ∀ b, binding = some b →
      ∃ c, loadCanvas t b.canvasId = .ok (some c) ∧ c.sessionId = b.sessionId := by
  unfold loadBinding
  cases hrow : t.bindings.rows.find? (fun r => r.bindingKey = key) with
  | none => exact ⟨none, rfl, fun b hb => by cases hb⟩
  | some row =>
    obtain ⟨c, hcanvas, hsession, hload⟩ := hagrees row (List.mem_of_find?_eq_some hrow)
    refine ⟨some ⟨c.sessionId, c.canvasId⟩, by simp [hcanvas, hsession], ?_⟩
    intro b hb
    cases hb
    exact ⟨c, hload, rfl⟩

theorem listAllDocuments_ok (ht : Consistent t) :
    ∃ documents, listAllDocuments t = .ok documents ∧ ∀ d ∈ documents, Whole t d := by
  obtain ⟨documents, hdocuments⟩ := exists_mapM_ok
    (l := orderBy DocumentRow.publicationSequence t.documents.rows) (f := loadListed t) (by
      intro row hrow
      obtain ⟨d, hd, -⟩ := loadListed_ok ht ((mem_orderBy _).mp hrow)
      exact ⟨d, hd⟩)
  refine ⟨documents, hdocuments, ?_⟩
  intro d hd
  obtain ⟨row, hrow, hlisted⟩ := (mem_of_mapM_ok hdocuments d).mp hd
  obtain ⟨d', hd', hload, -⟩ := loadListed_ok ht ((mem_orderBy _).mp hrow)
  rw [hlisted] at hd'
  cases hd'
  exact loadDocument_whole ht hload

/-- One turn of `list_documents`. -/
theorem summarizeListed_ok (hsummary : ∀ d : DocumentDescriptor K, d.pages.length ≤ u32Max → d.summary.isSome)
    (ht : Consistent t) {session : K.SessionId}
    (hpages : ∀ id d, loadDocument t id = .ok (some d) → d.sessionId = session → ¬Full d)
    {row : DocumentRow} (hrow : row ∈ t.documents.rows) (hsession : row.sessionId = K.sessionId.text session) :
    ∃ d summary, loadListed t row = .ok d ∧ Whole t d ∧ d.sessionId = session ∧ d.summary = some summary := by
  obtain ⟨d, hd, hload, hparse⟩ := loadListed_ok ht hrow
  have hsame := K.sessionId.parsed_eq hparse hsession
  have hfull : d.pages.length ≠ u32Max + 1 := hpages _ d hload hsame
  have hle := pages_length_le d
  obtain ⟨summary, hs⟩ := Option.isSome_iff_exists.mp (hsummary d (by omega))
  exact ⟨d, summary, hd, loadDocument_whole ht hload, hsame, hs⟩

theorem listDocuments_ok (hsummary : ∀ d : DocumentDescriptor K, d.pages.length ≤ u32Max → d.summary.isSome)
    (ht : Consistent t) {session : K.SessionId}
    (hpages : ∀ id d, loadDocument t id = .ok (some d) → d.sessionId = session → ¬Full d) :
    ∃ summaries, listDocuments t session = .ok summaries ∧ ∀ summary ∈ summaries,
      ∃ d, Whole t d ∧ d.sessionId = session ∧ d.summary = some summary := by
  have hturn : ∀ row ∈ orderBy DocumentRow.publicationSequence
      (t.documents.rows.filter (fun r => r.sessionId = K.sessionId.text session)),
      ∃ d summary, loadListed t row = .ok d ∧ Whole t d ∧ d.sessionId = session ∧ d.summary = some summary := by
    intro row hrow
    obtain ⟨hrow, hsession⟩ := List.mem_filter.mp ((mem_orderBy _).mp hrow)
    exact summarizeListed_ok hsummary ht hpages hrow (of_decide_eq_true hsession)
  obtain ⟨summaries, hsummaries⟩ := exists_mapM_ok (f := fun row => do
      let document ← loadListed t row
      okOr (.corruption "Document page count overflowed") document.summary) (by
    intro row hrow
    obtain ⟨d, summary, hd, -, -, hs⟩ := hturn row hrow
    exact ⟨summary, by simp [hd, hs]⟩)
  refine ⟨summaries, hsummaries, ?_⟩
  intro summary hmem
  obtain ⟨row, hrow, hlisted⟩ := (mem_of_mapM_ok hsummaries summary).mp hmem
  obtain ⟨d, summary', hd, hwhole, hsession, hs⟩ := hturn row hrow
  simp only [hd, hs, ok_bind, okOr_some, Except.ok.injEq] at hlisted
  subst hlisted
  exact ⟨d, hwhole, hsession, hs⟩

theorem scanIntegrity_readable
    (hsummary : ∀ d : DocumentDescriptor K, d.pages.length ≤ u32Max → d.summary.isSome)
    (hscan : scanIntegrity t = .ok ()) : Readable t := by
  obtain ⟨ht, hagrees⟩ := scanIntegrity_ok.mp hscan
  refine ⟨?_, ?_, listAllDocuments_ok ht, fun session hpages => listDocuments_ok hsummary ht hpages,
    loadBinding_ok hagrees⟩
  · intro id
    cases hfound : hasCanvas t (K.canvasId.text id) with
    | false => exact ⟨none, loadCanvas_eq_none.mpr hfound⟩
    | true =>
      obtain ⟨c, hc⟩ := ht.canvas hfound
      exact ⟨some c, hc⟩
  · intro id
    cases hfound : hasDocument t (K.documentId.text id) with
    | false => exact ⟨none, loadDocument_eq_none.mpr hfound⟩
    | true =>
      obtain ⟨d, hd, -⟩ := ht.document hfound
      exact ⟨some d, hd⟩

/-- Whatever a database holds: if it opens then every reader returns `Ok` on it. -/
theorem opened_readable (hsummary : ∀ d : DocumentDescriptor K, d.pages.length ≤ u32Max → d.summary.isSome)
    (f : OpenFaults) (fresh id : K.EntityId) (quickCheck : String) (db db' : Database K)
    (h : initializeStorage f fresh quickCheck db = (.ok id, db')) :
    db'.tables = db.tables ∧ Readable db'.tables := by
  have htables := initializeStorage_tables f fresh quickCheck db
  rw [h] at htables
  refine ⟨htables, ?_⟩
  unfold initializeStorage at h
  split at h
  · cases h
  · rw [Prod.mk.injEq] at h
    obtain ⟨hverify, rfl⟩ := h
    exact scanIntegrity_readable hsummary (verifyStorage_ok hverify).2

/-- A catalog with one published Document and a binding to the Canvas of its page. -/
def boundTables : Tables textCatalog :=
  (execute none (execute none sampleStore.db.tables (.publishDocument sampleComposition)).2
    (.putBinding "default" ⟨"session-1", "canvas-1"⟩)).2

theorem opened_readable_sample :
    boundTables.documents.rows.length = 1 ∧ boundTables.bindings.rows.length = 1 ∧
      Readable boundTables := by
  have hopen : initializeStorage OpenFaults.none "store-2" "ok" ⟨sampleStore.db.metadata, boundTables⟩ =
      (.ok "store-1", ⟨sampleStore.db.metadata, boundTables⟩) := rfl
  exact ⟨rfl, rfl, (opened_readable (fun _ _ => rfl) OpenFaults.none _ _ "ok" _ _ hopen).2⟩

end OrbitRelay.Catalog
