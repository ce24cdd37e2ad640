import OrbitRelay.CatalogPublish
import OrbitRelay.Transition
import Mathlib.Data.List.AList

/-!
# Runs of the catalog store

The worker's commands, opening a database and closing it. A statement that SQLite
fails ends its command and rolls the transaction back, so one optional error for
a command stands for a failure of any of its statements.
-/
namespace OrbitRelay.Catalog

open Codec MachineInt Relational Transition

variable {K : CatalogKernel}

inductive Command (K : CatalogKernel) where
  | getDocument (id : K.DocumentId)
  | listDocuments (session : K.SessionId)
  | listAllDocuments
  | getCanvas (id : K.CanvasId)
  | publishDocument (composition : DocumentComposition K)
  | publishStandalone (descriptor : CanvasDescriptor K)
  | publishStandaloneWithBinding (key : String) (descriptor : CanvasDescriptor K) (binding : BootstrapBinding K)
  | getBinding (key : String)
  | putBinding (key : String) (binding : BootstrapBinding K)

inductive Reply (K : CatalogKernel) where
  | document (result : Result (Option (DocumentDescriptor K)))
  | summaries (result : Result (List K.Summary))
  | documents (result : Result (List (DocumentDescriptor K)))
  | canvas (result : Result (Option (CanvasDescriptor K)))
  | published (result : Result CatalogPublishOutcome)
  | binding (result : Result (Option (BootstrapBinding K)))
  | stored (result : Result Unit)

def Command.failed (e : CatalogStoreError) : Command K → Reply K
  | .getDocument _ => .document (.error e)
  | .listDocuments _ => .summaries (.error e)
  | .listAllDocuments => .documents (.error e)
  | .getCanvas _ => .canvas (.error e)
  | .publishDocument _ => .published (.error e)
  | .publishStandalone _ => .published (.error e)
  | .publishStandaloneWithBinding _ _ _ => .published (.error e)
  | .getBinding _ => .binding (.error e)
  | .putBinding _ _ => .stored (.error e)

/-- A transaction that does not commit is rolled back. -/
def transact {α : Type} (t : Tables K) : Result (α × Tables K) → Result α × Tables K
  | .ok (a, u) => (.ok a, u)
  | .error e => (.error e, t)

/-- One turn of `run_worker`. -/
def execute (fault : Option SqliteError) (t : Tables K) (c : Command K) : Reply K × Tables K :=
  match fault with
  | some e => (c.failed (.backend e), t)
  | none =>
    match c with
    | .getDocument id => (.document (loadDocument t id), t)
    | .listDocuments session => (.summaries (listDocuments t session), t)
    | .listAllDocuments => (.documents (listAllDocuments t), t)
    | .getCanvas id => (.canvas (loadCanvas t id), t)
    | .publishDocument c => (.published (transact t (publishDocument t c)).1, (transact t (publishDocument t c)).2)
    | .publishStandalone d =>
      (.published (transact t (publishStandalone t d)).1, (transact t (publishStandalone t d)).2)
    | .publishStandaloneWithBinding key d b =>
      (.published (transact t (publishStandaloneWithBinding t key d b)).1,
        (transact t (publishStandaloneWithBinding t key d b)).2)
    | .getBinding key => (.binding (loadBinding t key), t)
    | .putBinding key b => (.stored (transact t (storeBinding t key b)).1, (transact t (storeBinding t key b)).2)

/-- The database file: `storage_metadata` and the five tables. -/
structure Database (K : CatalogKernel) where
  metadata : AList (fun _ : String => String)
  tables : Tables K

/-- Places where opening a database can fail. -/
inductive OpenCall where
  | directory | connection | schema | ensureVersion | readStoreId | insertStoreId
  | readVersion | readIdentity | quickCheck | scan
  deriving DecidableEq

abbrev OpenFaults := OpenCall → Option SqliteError

def OpenFaults.none : OpenFaults := fun _ => Option.none

def openCall (f : OpenFaults) (c : OpenCall) : Result Unit :=
  match f c with
  | Option.none => .ok ()
  | some e => .error (if c = .directory then
      .unavailable "catalog database directory could not be created" else .backend e)

def supportedSchemaVersion : Int := 1

/-- `INSERT OR IGNORE` of a metadata row. -/
def ensureMetadata (db : Database K) (key value : String) : Database K :=
  match db.metadata.lookup key with
  | some _ => db
  | none => { db with metadata := db.metadata.insert key value }

/-- `create_schema` on a file that has the tables; what it inserted stays when it fails later. -/
def createSchema (f : OpenFaults) (fresh : K.EntityId) (db : Database K) : Result Unit × Database K :=
  match (do openCall f .directory; openCall f .connection; openCall f .schema; openCall f .ensureVersion) with
  | .error e => (.error e, db)
  | .ok () =>
    let db₁ := ensureMetadata db "schema_version" "1"
    match openCall f .readStoreId with
    | .error e => (.error e, db₁)
    | .ok () =>
      match db₁.metadata.lookup "physical_store_id", openCall f .insertStoreId with
      | some _, _ => (.ok (), db₁)
      | none, .error e => (.error e, db₁)
      | none, .ok () => (.ok (), ensureMetadata db₁ "physical_store_id" (K.entityId.text fresh))

/-- The checks of `initialize_storage` once the schema is there. -/
def verifyStorage (f : OpenFaults) (quickCheck : String) (db : Database K) : Result K.EntityId := do
  openCall f .readVersion
  let schema ← okOr (.corruption "missing catalog schema version") (db.metadata.lookup "schema_version")
  let version ← okOr (.corruption "malformed catalog schema version") (parseI64 schema)
  if version > supportedSchemaVersion then .error (.schema "schema version is newer than this adapter")
  else if version < supportedSchemaVersion then .error (.schema "schema migration is required")
  else do
    openCall f .readIdentity
    let physical ← okOr (.corruption "missing physical store identity") (db.metadata.lookup "physical_store_id")
    let id ← okOr (.corruption "malformed physical store identity") (K.entityId.parse physical)
    openCall f .quickCheck
    if quickCheck ≠ "ok" then .error (.corruption "SQLite quick_check failed")
    else do
      openCall f .scan
      scanIntegrity db.tables
      .ok id

def initializeStorage (f : OpenFaults) (fresh : K.EntityId) (quickCheck : String) (db : Database K) :
    Result K.EntityId × Database K :=
  match createSchema f fresh db with
  | (.error e, db') => (.error e, db')
  | (.ok (), db') => (verifyStorage f quickCheck db', db')

/-- The file, and the store identity while it is open. -/
structure Store (K : CatalogKernel) where
  db : Database K
  opened : Option K.EntityId

def Store.after (s : Store K) (fault : Option SqliteError) (c : Command K) : Store K :=
  { s with db := { s.db with tables := (execute fault s.db.tables c).2 } }

inductive Step (allowed : Command K → Prop) : Store K → Store K → Prop where
  | execute (s : Store K) (fault : Option SqliteError) (c : Command K) : s.opened.isSome = true → allowed c →
      Step allowed s (s.after fault c)
  | close (s : Store K) : Step allowed s { s with opened := none }
  | reopen (s : Store K) (f : OpenFaults) (fresh : K.EntityId) (quickCheck : String) : s.opened = none →
      Step allowed s ⟨(initializeStorage f fresh quickCheck s.db).2,
        (initializeStorage f fresh quickCheck s.db).1.toOption⟩

/-- Runs start with any database that an open accepts. -/
def system (allowed : Command K → Prop) : System (Store K) where
  init s := ∃ (f : OpenFaults) (fresh : K.EntityId) (quickCheck : String) (db : Database K) (id : K.EntityId),
    initializeStorage f fresh quickCheck db = (.ok id, s.db) ∧ s.opened = some id
  step := Step allowed

/-- The commands without `put_bootstrap_binding`. -/
def publishing : Command K → Prop
  | .putBinding _ _ => False
  | _ => True

/-! ## Opening -/

/-- Metadata that an open accepts and leaves alone. -/
def Ready (db : Database K) : Prop :=
  (∃ schema, db.metadata.lookup "schema_version" = some schema ∧ parseI64 schema = some supportedSchemaVersion) ∧
    ∃ physical id, db.metadata.lookup "physical_store_id" = some physical ∧ K.entityId.parse physical = some id

theorem ensureMetadata_tables (db : Database K) (key value : String) :
    (ensureMetadata db key value).tables = db.tables := by
  unfold ensureMetadata
  split <;> rfl

theorem ensureMetadata_of_some {db : Database K} {key value v : String} (h : db.metadata.lookup key = some v) :
    ensureMetadata db key value = db := by
  unfold ensureMetadata
  rw [h]

theorem createSchema_tables (f : OpenFaults) (fresh : K.EntityId) (db : Database K) :
    (createSchema f fresh db).2.tables = db.tables := by
  unfold createSchema
  split
  · rfl
  · dsimp only
    split
    · exact ensureMetadata_tables _ _ _
    · split
      · exact ensureMetadata_tables _ _ _
      · exact ensureMetadata_tables _ _ _
      · rw [ensureMetadata_tables, ensureMetadata_tables]

/-- Opening a database never touches its tables. -/
theorem initializeStorage_tables (f : OpenFaults) (fresh : K.EntityId) (quickCheck : String) (db : Database K) :
    (initializeStorage f fresh quickCheck db).2.tables = db.tables := by
  have h := createSchema_tables f fresh db
  unfold initializeStorage
  split
  · rename_i hs
    rw [hs] at h
    exact h
  · rename_i hs
    rw [hs] at h
    exact h

theorem verifyStorage_ok {f : OpenFaults} {quickCheck : String} {db : Database K} {id : K.EntityId}
    (h : verifyStorage f quickCheck db = .ok id) : Ready db ∧ scanIntegrity db.tables = .ok () := by
  unfold verifyStorage at h
  obtain ⟨⟨⟩, -, h⟩ := bind_ok h
  obtain ⟨schema, hschema, h⟩ := bind_ok h
  obtain ⟨version, hversion, h⟩ := bind_ok h
  split at h
  · cases h
  · rename_i hgt
    split at h
    · cases h
    · rename_i hlt
      obtain ⟨⟨⟩, -, h⟩ := bind_ok h
      obtain ⟨physical, hphysical, h⟩ := bind_ok h
      obtain ⟨id', hid, h⟩ := bind_ok h
      obtain ⟨⟨⟩, -, h⟩ := bind_ok h
      split at h
      · cases h
      · obtain ⟨⟨⟩, -, h⟩ := bind_ok h
        obtain ⟨⟨⟩, hscan, h⟩ := bind_ok h
        rw [okOr_eq_ok] at hschema hversion hphysical hid
        refine ⟨⟨⟨schema, hschema, ?_⟩, physical, id', hphysical, hid⟩, hscan⟩
        rw [hversion]
        congr 1
        omega

/-- A database that is in order opens again, and opening changes nothing. -/
theorem initializeStorage_ready {db : Database K} (hr : Ready db) (hscan : scanIntegrity db.tables = .ok ())
    (fresh : K.EntityId) : ∃ id, initializeStorage OpenFaults.none fresh "ok" db = (.ok id, db) := by
  obtain ⟨⟨schema, hschema, hversion⟩, physical, id, hphysical, hid⟩ := hr
  have hcreate : createSchema OpenFaults.none fresh db = (.ok (), db) := by
    simp only [createSchema, openCall, OpenFaults.none, ok_bind, ensureMetadata_of_some hschema, hphysical]
  have hverify : verifyStorage OpenFaults.none "ok" db = .ok id := by
    simp [verifyStorage, openCall, OpenFaults.none, hschema, hversion, hphysical, hid, hscan]
  exact ⟨id, by simp only [initializeStorage, hcreate, hverify]⟩

theorem createSchema_ready {db : Database K} (hr : Ready db) (f : OpenFaults) (fresh : K.EntityId) :
    (createSchema f fresh db).2 = db := by
  obtain ⟨⟨schema, hschema, -⟩, physical, id, hphysical, -⟩ := hr
  unfold createSchema
  split
  · rfl
  · rw [ensureMetadata_of_some hschema]
    dsimp only
    split
    · rfl
    · rw [hphysical]

theorem initializeStorage_keeps {db : Database K} (hr : Ready db) (f : OpenFaults) (fresh : K.EntityId)
    (quickCheck : String) : (initializeStorage f fresh quickCheck db).2 = db := by
  have h := createSchema_ready hr f fresh
  unfold initializeStorage
  split
  · rename_i hs
    rw [hs] at h
    exact h
  · rename_i hs
    rw [hs] at h
    exact h

/-! ## Steps -/

section Execute

variable {t u : Tables K}

/-- A transaction that ends in an error has not happened. -/
theorem transact_error {α : Type} {r : Result (α × Tables K)} {e : CatalogStoreError}
    (h : (transact t r).1 = .error e) : (transact t r).2 = t := by
  unfold transact at h ⊢
  split at h
  · cases h
  · rfl

theorem transact_ok {α : Type} {r : Result (α × Tables K)} {a : α} (h : (transact t r).1 = .ok a) :
    r = .ok (a, (transact t r).2) := by
  unfold transact at h ⊢
  split at h
  · cases h
    rfl
  · cases h

/-- Some rows were added and everything is in order; what was bound agrees with its Canvas. -/
structure Grown (t u : Tables K) (bound : Prop) : Prop where
  added : ∃ cs ds bs, Added t u cs ds bs ∧ (bound → ∀ b ∈ bs, Agrees u b)
  consistent : Consistent u

theorem Grown.refl (ht : Consistent t) (bound : Prop) : Grown t t bound :=
  ⟨⟨[], [], [], Added.refl t, fun _ _ h => by cases h⟩, ht⟩

theorem publishDocument_grown (ht : Consistent t) {c : DocumentComposition K}
    {outcome : CatalogPublishOutcome} (h : publishDocument t c = .ok (outcome, u)) : Grown t u True ∧
      loadDocument u c.document.documentId = .ok (some c.document) ∧
      ∀ canvas ∈ c.pageCanvases, loadCanvas u canvas.canvasId = .ok (some canvas) := by
  rcases publishDocument_ok h with ⟨-, rfl, hd, hcs⟩ | ⟨-, n, hn, hadded⟩
  · exact ⟨.refl ht _, hd, hcs⟩
  · refine ⟨⟨⟨_, _, _, hadded, fun _ _ h => by cases h⟩, ?_⟩, ?_, ?_⟩
    · refine hadded.consistent ht ?_ (by simp)
      intro d hd
      rw [List.mem_singleton] at hd
      subst hd
      exact ⟨nextSequence_ok ht hn, c.pages_ne, c.shows hadded ht⟩
    · exact hadded.document_added ht (List.mem_singleton_self (c.document, n)) c.pages_ne
    · intro canvas hcanvas
      exact hadded.canvas_added ht hcanvas

theorem publishStandalone_grown (ht : Consistent t) {d : CanvasDescriptor K}
    {outcome : CatalogPublishOutcome} (h : publishStandalone t d = .ok (outcome, u)) :
    Grown t u True ∧ loadCanvas u d.canvasId = .ok (some d) := by
  rcases publishStandalone_ok h with ⟨-, rfl, hd⟩ | ⟨-, hadded⟩
  · exact ⟨.refl ht _, hd⟩
  · have hd := hadded.canvas_added ht (List.mem_singleton_self d)
    exact ⟨⟨⟨_, _, _, hadded, fun _ _ h => by cases h⟩, hadded.consistent ht (by simp) (by simp)⟩, hd⟩

theorem publishStandaloneWithBinding_grown (ht : Consistent t) {key : String} {d : CanvasDescriptor K}
    {b : BootstrapBinding K} {outcome : CatalogPublishOutcome}
    (h : publishStandaloneWithBinding t key d b = .ok (outcome, u)) :
    Grown t u True ∧ loadCanvas u d.canvasId = .ok (some d) := by
  obtain ⟨hcanvas, hsession, hcase⟩ := publishStandaloneWithBinding_ok h
  have hagrees : loadCanvas u d.canvasId = .ok (some d) → Agrees u (bindingRow key b) := by
    intro hd
    exact ⟨d, by rw [bindingRow, hcanvas, K.canvasId.parse_text], by rw [bindingRow, hsession, K.sessionId.parse_text],
      hd⟩
  have hbound : ∀ {cs : List (CanvasDescriptor K)}, Added t u cs [] [bindingRow key b] →
      loadCanvas u d.canvasId = .ok (some d) → Grown t u True := by
    intro cs hadded hd
    refine ⟨⟨_, _, _, hadded, ?_⟩, hadded.consistent ht (by simp) ?_⟩
    · intro _ row hrow
      rw [List.mem_singleton] at hrow
      subst hrow
      exact hagrees hd
    · intro row hrow
      rw [List.mem_singleton] at hrow
      subst hrow
      rw [bindingRow, hcanvas]
      exact loadCanvas_has hd
  rcases hcase with ⟨hd, ⟨rfl, -⟩ | hadded⟩ | hadded
  · exact ⟨.refl ht _, hd⟩
  · have hd' := hadded.canvas_kept hd
    exact ⟨hbound hadded hd', hd'⟩
  · have hd := hadded.canvas_added ht (List.mem_singleton_self d)
    exact ⟨hbound hadded hd, hd⟩

theorem storeBinding_grown (ht : Consistent t) {key : String} {b : BootstrapBinding K}
    (h : storeBinding t key b = .ok ((), u)) : Grown t u False := by
  rcases storeBinding_ok h with ⟨rfl, -⟩ | ⟨hadded, hcanvas, -⟩
  · exact .refl ht _
  · refine ⟨⟨_, _, _, hadded, False.elim⟩, hadded.consistent ht (by simp) ?_⟩
    intro row hrow
    rw [List.mem_singleton] at hrow
    subst hrow
    exact hadded.hasCanvas_mono hcanvas

theorem Grown.transact {α : Type} {bound : Prop} (ht : Consistent t) {r : Result (α × Tables K)}
    (h : ∀ a u, r = .ok (a, u) → Grown t u bound) : Grown t (transact t r).2 bound := by
  cases r with
  | error e => exact .refl ht _
  | ok au => exact h au.1 au.2 rfl

/-- A command adds rows at most, and only `put_bootstrap_binding` may bind across sessions. -/
theorem execute_grown (ht : Consistent t) (fault : Option SqliteError) (c : Command K) :
    Grown t (execute fault t c).2 (publishing c) := by
  cases fault with
  | some e => exact .refl ht _
  | none =>
    cases c with
    | getDocument id => exact .refl ht _
    | listDocuments session => exact .refl ht _
    | listAllDocuments => exact .refl ht _
    | getCanvas id => exact .refl ht _
    | publishDocument c => exact Grown.transact ht (fun _ _ h => (publishDocument_grown ht h).1)
    | publishStandalone d => exact Grown.transact ht (fun _ _ h => (publishStandalone_grown ht h).1)
    | publishStandaloneWithBinding key d b =>
      exact Grown.transact ht (fun _ _ h => (publishStandaloneWithBinding_grown ht h).1)
    | getBinding key => exact .refl ht _
    | putBinding key b => exact Grown.transact ht (fun _ _ h => storeBinding_grown ht h)

theorem Grown.scan (h : Grown t u True) (ht : scanIntegrity t = .ok ()) : scanIntegrity u = .ok () := by
  obtain ⟨⟨cs, ds, bs, hadded, hbs⟩, hc⟩ := h
  rw [scanIntegrity_ok] at ht ⊢
  refine ⟨hc, ?_⟩
  intro b hb
  rw [hadded.bindings] at hb
  rcases List.mem_append.mp hb with hb | hb
  · exact hadded.agrees_kept (ht.2 b hb)
  · exact hbs trivial b hb

end Execute

/-- All rows are still there, in front of what was added. -/
structure Kept (t u : Tables K) : Prop where
  documents : t.documents.rows <+: u.documents.rows
  pages : t.pages.rows <+: u.pages.rows
  canvases : t.canvases.rows <+: u.canvases.rows
  layers : t.layers.rows <+: u.layers.rows
  bindings : t.bindings.rows <+: u.bindings.rows
  loadDocument : ∀ id d, loadDocument t id = .ok (some d) → Catalog.loadDocument u id = .ok (some d)
  loadCanvas : ∀ id c, loadCanvas t id = .ok (some c) → Catalog.loadCanvas u id = .ok (some c)

theorem Kept.refl (t : Tables K) : Kept t t :=
  ⟨List.prefix_rfl, List.prefix_rfl, List.prefix_rfl, List.prefix_rfl, List.prefix_rfl, fun _ _ h => h,
    fun _ _ h => h⟩

theorem Kept.trans {t u v : Tables K} (h : Kept t u) (h' : Kept u v) : Kept t v :=
  ⟨h.documents.trans h'.documents, h.pages.trans h'.pages, h.canvases.trans h'.canvases,
    h.layers.trans h'.layers, h.bindings.trans h'.bindings,
    fun id d hd => h'.loadDocument id d (h.loadDocument id d hd),
    fun id c hc => h'.loadCanvas id c (h.loadCanvas id c hc)⟩

theorem Grown.kept {t u : Tables K} {bound : Prop} (h : Grown t u bound) : Kept t u := by
  obtain ⟨⟨cs, ds, bs, hadded, -⟩, -⟩ := h
  exact ⟨⟨_, hadded.documents.symm⟩, ⟨_, hadded.pages.symm⟩, ⟨_, hadded.canvases.symm⟩,
    ⟨_, hadded.layers.symm⟩, ⟨_, hadded.bindings.symm⟩, fun _ _ => hadded.document_kept,
    fun _ _ => hadded.canvas_kept⟩

/-! ## Runs -/

/-- What every step keeps, whatever commands are allowed. -/
structure Invariant (s : Store K) : Prop where
  ready : Ready s.db
  consistent : Consistent s.db.tables

theorem init_invariant {allowed : Command K → Prop} {s : Store K} (h : (system allowed).init s) :
    Invariant s ∧ scanIntegrity s.db.tables = .ok () := by
  obtain ⟨f, fresh, quickCheck, db, id, h, -⟩ := h
  unfold initializeStorage at h
  split at h
  · cases h
  · rename_i db' hs
    cases hv : verifyStorage f quickCheck db' with
    | error e =>
      rw [hv] at h
      cases h
    | ok id' =>
      rw [hv] at h
      cases h
      obtain ⟨hready, hscan⟩ := verifyStorage_ok hv
      exact ⟨⟨hready, (scanIntegrity_ok.mp hscan).1⟩, hscan⟩

theorem after_ready {s : Store K} (h : Ready s.db) (fault : Option SqliteError) (c : Command K) :
    Ready (s.after fault c).db := h

theorem step_invariant {allowed : Command K → Prop} {s t : Store K} (hs : Invariant s)
    (h : Step allowed s t) : Invariant t ∧ Kept s.db.tables t.db.tables := by
  cases h with
  | execute fault c hopen hc =>
    have hg := execute_grown hs.consistent fault c
    exact ⟨⟨after_ready hs.ready fault c, hg.consistent⟩, hg.kept⟩
  | close => exact ⟨⟨hs.ready, hs.consistent⟩, .refl _⟩
  | reopen f fresh quickCheck hopen =>
    have hdb := initializeStorage_keeps hs.ready f fresh quickCheck
    refine ⟨⟨?_, ?_⟩, ?_⟩
    · rw [hdb]
      exact hs.ready
    · rw [hdb]
      exact hs.consistent
    · rw [hdb]
      exact .refl _

theorem reachable_invariant {allowed : Command K → Prop} {s : Store K} (h : (system allowed).Reachable s) :
    Invariant s :=
  System.invariant (S := system allowed) (fun _ h => (init_invariant h).1)
    (fun _ _ hs hst => (step_invariant hs hst).1) h

theorem run_kept {allowed : Command K → Prop} {s t : Store K} (hs : Invariant s)
    (h : (system allowed).Run s t) : Kept s.db.tables t.db.tables :=
  System.run_related (S := system allowed) (R := fun s t : Store K => Kept s.db.tables t.db.tables)
    (fun _ _ hs hst => (step_invariant hs hst).1) (fun s => .refl s.db.tables) (fun _ _ _ => Kept.trans)
    (fun _ _ hs hst => (step_invariant hs hst).2) hs h

/-- Without `put_bootstrap_binding` the scan accepts every state of a run. -/
theorem reachable_scan {s : Store K} (h : (system (publishing (K := K))).Reachable s) :
    scanIntegrity s.db.tables = .ok () := by
  have hboth : Invariant s ∧ scanIntegrity s.db.tables = .ok () := by
    refine System.invariant (S := system (publishing (K := K)))
      (P := fun s => Invariant s ∧ scanIntegrity s.db.tables = .ok ()) (fun _ => init_invariant) ?_ h
    intro s t hs hst
    refine ⟨(step_invariant hs.1 hst).1, ?_⟩
    cases hst with
    | execute fault c hopen hc =>
      have hg := execute_grown hs.1.consistent fault c
      obtain ⟨⟨cs, ds, bs, hadded, hbs⟩, hcons⟩ := hg
      have hg' : Grown s.db.tables (execute fault s.db.tables c).2 True :=
        ⟨⟨cs, ds, bs, hadded, fun _ => hbs hc⟩, hcons⟩
      exact hg'.scan hs.2
    | close => exact hs.2
    | reopen f fresh quickCheck hopen =>
      rw [initializeStorage_keeps hs.1.ready f fresh quickCheck]
      exact hs.2
  exact hboth.2

theorem published_error {t : Tables K} {fault : Option SqliteError} {c : Command K} {e : CatalogStoreError}
    (h : (execute fault t c).1 = .published (.error e)) : (execute fault t c).2 = t := by
  cases fault with
  | some e' => rfl
  | none =>
    cases c with
    | getDocument id => rfl
    | listDocuments session => rfl
    | listAllDocuments => rfl
    | getCanvas id => rfl
    | publishDocument c => exact transact_error (Reply.published.inj h)
    | publishStandalone d => exact transact_error (Reply.published.inj h)
    | publishStandaloneWithBinding key d b => exact transact_error (Reply.published.inj h)
    | getBinding key => rfl
    | putBinding key b => cases h

/-- The result of a publication that returned `Ok`. -/
theorem published_ok {t : Tables K} {fault : Option SqliteError} {c : Command K}
    {outcome : CatalogPublishOutcome} (h : (execute fault t c).1 = .published (.ok outcome)) :
    fault = none := by
  cases fault with
  | none => rfl
  | some e => cases c <;> cases h

end OrbitRelay.Catalog
