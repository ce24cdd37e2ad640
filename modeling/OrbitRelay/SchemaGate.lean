import OrbitRelay.EventStore
import OrbitRelay.CatalogRun
import OrbitRelay.Fallible
import OrbitRelay.SqliteFile

/-!
# The schema gate

How the three stores open a database file that may have been written by another version:
the batch of CREATE statements, the metadata, and the check of `schema_version`. What
follows the check is a parameter, which can fail for other reasons only.
-/
namespace OrbitRelay.SchemaGate

open Fallible MachineInt SqliteFile
open Relational (SqliteError)

inductive VersionCause where
  | malformed | newer | older
  deriving DecidableEq

inductive OpenError where
  | directory
  | sqlite (e : SqliteError)
  | schemaVersion (cause : VersionCause)
  | missingVersion
  | later (detail : String)
  deriving DecidableEq

/-- The engine's and the filesystem's own failures. -/
structure Faults where
  directory : Bool
  connection : Option SqliteError
  statement : Statement → Option SqliteError
  read : String → Option SqliteError
  insert : String → Option SqliteError

def noFaults : Faults := ⟨false, none, fun _ => none, fun _ => none, fun _ => none⟩

/-! ## Schemas -/

inductive ColumnType where
  | text | integer | real

/-- A numeric column reads a text as an integer where it is one. -/
def numericCell (s : String) : Cell :=
  match parseI64 s with
  | some n => .integer n
  | none => .text s

def ColumnType.column (name : String) : ColumnType → Column
  | .text => ⟨name, .text, fun cell s => cell == .text s, fun _ => .null⟩
  | .integer | .real => ⟨name, numericCell, fun cell s => cell == numericCell s, fun _ => .null⟩

structure ColumnDef where
  name : String
  type : ColumnType
  notNull : Bool

/-- A row that agrees with another one on a key, without NULL in it. -/
def repeats (columns : List ColumnDef) (key : List String) (row other : Row) : Bool :=
  key.all (fun name => match columns.findIdx? (fun c => c.name == name) with
    | some i => row.getD i .null == other.getD i .null && row.getD i .null != .null
    | none => false)

/-- A table with these columns, and these PRIMARY KEY and UNIQUE constraints. -/
def shapeOf (columns : List ColumnDef) (keys : List (List String)) : Shape where
  columns := columns.map (fun c => c.type.column c.name)
  judge rows row :=
    if (columns.zip row).any (fun c => c.1.notNull && c.2 == .null) = true ∨
        keys.any (fun key => rows.any (repeats columns key row)) = true then .conflict
    else .admitted

def metadataShape : Shape := shapeOf [⟨"key", .text, true⟩, ⟨"value", .text, true⟩] [["key"]]

def storageMetadata : Statement := .createTable "storage_metadata" metadataShape

/-- The batch of the event store's `initialize_connection`. -/
def eventSchema : List Statement := [
  storageMetadata,
  .createTable "events" (shapeOf [⟨"append_sequence", .integer, true⟩, ⟨"event_id", .text, true⟩,
    ⟨"session_id", .text, true⟩, ⟨"actor_id", .text, true⟩, ⟨"action_id", .text, true⟩,
    ⟨"occurred_at_json", .text, true⟩, ⟨"event_type", .text, true⟩, ⟨"payload_json", .text, true⟩,
    ⟨"metadata_json", .text, true⟩] [["append_sequence"], ["event_id"]]),
  .createIndex "events_session_type_sequence" "events" ["session_id", "event_type", "append_sequence"],
  .createIndex "events_actor_sequence" "events" ["actor_id", "append_sequence"]]

/-- The batch of the asset store's `initialize_storage`. -/
def assetSchema : List Statement := [
  storageMetadata,
  .createTable "assets" (shapeOf [⟨"asset_id", .text, true⟩, ⟨"media_type", .text, true⟩,
    ⟨"byte_length", .integer, true⟩, ⟨"content_hash", .text, true⟩, ⟨"original_filename", .text, false⟩,
    ⟨"blob_key", .text, true⟩, ⟨"publication_state", .text, true⟩] [["asset_id"]]),
  .createIndex "assets_publication_state" "assets" ["publication_state"]]

/-- The batch of the catalog's `create_schema`. -/
def catalogSchema : List Statement := [
  storageMetadata,
  .createTable "documents" (shapeOf [⟨"document_id", .text, true⟩, ⟨"session_id", .text, true⟩,
    ⟨"document_type", .text, true⟩, ⟨"source_asset_id", .text, true⟩, ⟨"title", .text, true⟩,
    ⟨"page_count", .integer, true⟩, ⟨"publication_sequence", .integer, true⟩]
    [["document_id"], ["publication_sequence"]]),
  .createTable "canvases" (shapeOf [⟨"canvas_id", .text, true⟩, ⟨"session_id", .text, true⟩,
    ⟨"width", .real, true⟩, ⟨"height", .real, true⟩, ⟨"layer_count", .integer, true⟩,
    ⟨"default_layer_id", .text, true⟩] [["canvas_id"]]),
  .createTable "layers" (shapeOf [⟨"canvas_id", .text, true⟩, ⟨"layer_id", .text, true⟩]
    [["layer_id"], ["canvas_id", "layer_id"]]),
  .createTable "document_pages" (shapeOf [⟨"page_id", .text, true⟩, ⟨"document_id", .text, true⟩,
    ⟨"page_index", .integer, true⟩, ⟨"width", .real, true⟩, ⟨"height", .real, true⟩,
    ⟨"rotation", .integer, true⟩, ⟨"overlay_canvas_id", .text, true⟩]
    [["page_id"], ["document_id", "page_index"], ["document_id", "overlay_canvas_id"]]),
  .createTable "bootstrap_bindings" (shapeOf [⟨"binding_key", .text, true⟩, ⟨"session_id", .text, true⟩,
    ⟨"canvas_id", .text, true⟩] [["binding_key"]]),
  .createIndex "documents_session_sequence" "documents" ["session_id", "publication_sequence"],
  .createIndex "pages_document_index" "document_pages" ["document_id", "page_index"],
  .createIndex "layers_canvas" "layers" ["canvas_id", "layer_id"]]

/-! ## Opening -/

abbrev Opening := Action OpenError File

/-- Up to the connection with its pragmas. -/
def connect (f : Faults) : Opening := fun file =>
  if f.directory = true then (.error .directory, file)
  else match f.connection with
    | some e => (.error (.sqlite e), file)
    | none => (.ok (), file)

def createSchema (f : Faults) (schema : List Statement) : Opening := fun file =>
  match runBatch f.statement schema file with
  | (.error e, after) => (.error (.sqlite e), after)
  | (.ok (), after) => (.ok (), after)

def metadataTable (file : File) : Except SqliteError SqliteFile.Table :=
  match file "storage_metadata" with
  | some (.table t) => .ok t
  | _ => .error .other

/-- The first column of the first row, as a `String`. -/
def metadataCell (t : SqliteFile.Table) (key : String) : Except SqliteError (Option String) :=
  match t.selectWhere "value" "key" key with
  | .error e => .error e
  | .ok none => .ok none
  | .ok (some (.text s)) => .ok (some s)
  | .ok (some _) => .error .other

def run (fault : Option SqliteError) : Except SqliteError Unit :=
  match fault with
  | some e => .error e
  | none => .ok ()

def metadataValue (f : Faults) (file : File) (key : String) : Except OpenError (Option String) :=
  match (do
    run (f.read key)
    let t ← metadataTable file
    metadataCell t key : Except SqliteError (Option String)) with
  | .error e => .error (.sqlite e)
  | .ok value => .ok value

def insertMetadata (f : Faults) (orIgnore : Bool) (key value : String) : Opening := fun file =>
  match (do
    run (f.insert key)
    let t ← metadataTable file
    t.insert orIgnore [("key", key), ("value", value)] : Except SqliteError SqliteFile.Table) with
  | .error e => (.error (.sqlite e), file)
  | .ok t => (.ok (), put file "storage_metadata" (.table t))

def supportedSchemaVersion : Int := 1

/-- Why a stored version is rejected. -/
def schemaCause (value : String) : Option VersionCause :=
  match parseI64 value with
  | none => some .malformed
  | some version =>
    if version = supportedSchemaVersion then none
    else if supportedSchemaVersion < version then some .newer
    else some .older

/-- The version check of the event store and the asset store: a missing version is written. -/
def checkSchemaVersion (f : Faults) : Opening := fun file =>
  match metadataValue f file "schema_version" with
  | .error e => (.error e, file)
  | .ok none => insertMetadata f false "schema_version" "1" file
  | .ok (some value) =>
    match schemaCause value with
    | some cause => (.error (.schemaVersion cause), file)
    | none => (.ok (), file)

/-- The version check of the catalog. -/
def verifySchemaVersion (f : Faults) : Opening := fun file =>
  match metadataValue f file "schema_version" with
  | .error e => (.error e, file)
  | .ok none => (.error .missingVersion, file)
  | .ok (some value) =>
    match schemaCause value with
    | some cause => (.error (.schemaVersion cause), file)
    | none => (.ok (), file)

/-- The catalog's `create_schema` writes the identity of a store that has none. -/
def ensureStoreId (f : Faults) (fresh : String) : Opening := fun file =>
  match metadataValue f file "physical_store_id" with
  | .error e => (.error e, file)
  | .ok (some _) => (.ok (), file)
  | .ok none => insertMetadata f false "physical_store_id" fresh file

/-- What an opening does once the version was accepted. -/
def proceed (rest : Action String File) : Opening := fun file =>
  match rest file with
  | (.error detail, after) => (.error (.later detail), after)
  | (.ok (), after) => (.ok (), after)

def initializeEventStore (f : Faults) (rest : Action String File) : Opening :=
  (connect f).andThen ((createSchema f eventSchema).andThen ((checkSchemaVersion f).andThen (proceed rest)))

def initializeAssetStore (f : Faults) (rest : Action String File) : Opening :=
  (connect f).andThen ((createSchema f assetSchema).andThen ((checkSchemaVersion f).andThen (proceed rest)))

def initializeCatalog (f : Faults) (fresh : String) (rest : Action String File) : Opening :=
  (connect f).andThen ((createSchema f catalogSchema).andThen
    ((insertMetadata f true "schema_version" "1").andThen ((ensureStoreId f fresh).andThen
      ((verifySchemaVersion f).andThen (proceed rest)))))

inductive Store where
  | eventStore | assetStore | catalog
  deriving DecidableEq

def Store.schema : Store → List Statement
  | .eventStore => eventSchema
  | .assetStore => assetSchema
  | .catalog => catalogSchema

def Store.opening (f : Faults) (fresh : String) (rest : Action String File) : Store → Opening
  | .eventStore => initializeEventStore f rest
  | .assetStore => initializeAssetStore f rest
  | .catalog => initializeCatalog f fresh rest

/-! ## What an opening that rejects the version has done -/

variable {f : Faults} {file after u : File} {cause : VersionCause} {schema : List Statement} {key value : String}

/-- An action that does not report a rejected version. -/
def Quiet (a : Opening) : Prop :=
  ∀ file after cause, a file ≠ (.error (.schemaVersion cause), after)

theorem Quiet.andThen_failed {a b : Opening} (ha : Quiet a)
    (h : a.andThen b file = (.error (.schemaVersion cause), after)) :
    ∃ u, a file = (.ok (), u) ∧ b u = (.error (.schemaVersion cause), after) :=
  (Action.andThen_failed h).resolve_left (ha file after cause)

theorem connect_quiet : Quiet (connect f) := by
  intro file after cause h
  unfold connect at h
  split at h
  · cases h
  · split at h <;> cases h

theorem connect_ok (h : connect f file = (.ok (), u)) : u = file := by
  unfold connect at h
  split at h
  · cases h
  · split at h
    · cases h
    · cases h
      rfl

theorem createSchema_quiet : Quiet (createSchema f schema) := by
  intro file after cause h
  unfold createSchema at h
  split at h <;> cases h

theorem createSchema_ok (h : createSchema f schema file = (.ok (), u)) : Completes schema file u := by
  have hbatch := runBatch_completes f.statement schema file
  unfold createSchema at h
  split at h
  · cases h
  · rename_i after hrun
    cases h
    rw [hrun] at hbatch
    exact hbatch

theorem metadataTable_ok {t : SqliteFile.Table} (h : metadataTable file = .ok t) :
    file "storage_metadata" = some (.table t) := by
  unfold metadataTable at h
  split at h
  · cases h
    assumption
  · cases h

theorem metadataValue_ok {v : Option String} (h : metadataValue f file key = .ok v) :
    ∃ t, file "storage_metadata" = some (.table t) ∧ metadataCell t key = .ok v := by
  unfold metadataValue at h
  split at h
  · cases h
  · rename_i v' hread
    cases h
    obtain ⟨-, -, hread⟩ := Codec.bind_ok hread
    obtain ⟨t, ht, hread⟩ := Codec.bind_ok hread
    exact ⟨t, metadataTable_ok ht, hread⟩

theorem metadataValue_error {e : OpenError} (h : metadataValue f file key = .error e) : e ≠ .schemaVersion cause := by
  unfold metadataValue at h
  split at h
  · cases h
    nofun
  · cases h

theorem insertMetadata_quiet {orIgnore : Bool} : Quiet (insertMetadata f orIgnore key value) := by
  intro file after cause h
  unfold insertMetadata at h
  split at h <;> cases h

theorem insertMetadata_ok {orIgnore : Bool} (h : insertMetadata f orIgnore key value file = (.ok (), u)) :
    ∃ t t', file "storage_metadata" = some (.table t) ∧ t.insert orIgnore [("key", key), ("value", value)] = .ok t' ∧
      u = put file "storage_metadata" (.table t') := by
  unfold insertMetadata at h
  split at h
  · cases h
  · rename_i t' hinsert
    cases h
    obtain ⟨-, -, hinsert⟩ := Codec.bind_ok hinsert
    obtain ⟨t, ht, hinsert⟩ := Codec.bind_ok hinsert
    exact ⟨t, t', metadataTable_ok ht, hinsert, rfl⟩

/-- The check itself writes nothing when it rejects. -/
theorem checkSchemaVersion_rejects (h : checkSchemaVersion f file = (.error (.schemaVersion cause), after)) :
    after = file ∧ ∃ value, metadataValue f file "schema_version" = .ok (some value) ∧ schemaCause value = some cause := by
  unfold checkSchemaVersion at h
  split at h
  · rename_i e hvalue
    cases h
    exact absurd rfl (metadataValue_error hvalue)
  · exact absurd h (insertMetadata_quiet _ _ _)
  · rename_i value hvalue
    split at h
    · rename_i cause' hcause
      cases h
      exact ⟨rfl, value, hvalue, hcause⟩
    · cases h

theorem verifySchemaVersion_rejects (h : verifySchemaVersion f file = (.error (.schemaVersion cause), after)) :
    after = file ∧ ∃ value, metadataValue f file "schema_version" = .ok (some value) ∧ schemaCause value = some cause := by
  unfold verifySchemaVersion at h
  split at h
  · rename_i e hvalue
    cases h
    exact absurd rfl (metadataValue_error hvalue)
  · cases h
  · rename_i value hvalue
    split at h
    · rename_i cause' hcause
      cases h
      exact ⟨rfl, value, hvalue, hcause⟩
    · cases h

theorem proceed_quiet {rest : Action String File} : Quiet (proceed rest) := by
  intro file after cause h
  unfold proceed at h
  split at h <;> cases h

theorem ensureStoreId_quiet {fresh : String} : Quiet (ensureStoreId f fresh) := by
  intro file after cause h
  unfold ensureStoreId at h
  split at h
  · rename_i e hvalue
    cases h
    exact absurd rfl (metadataValue_error hvalue)
  · cases h
  · exact insertMetadata_quiet _ _ _ h

theorem ensureStoreId_ok {fresh : String} (h : ensureStoreId f fresh file = (.ok (), u)) :
    (u = file ∧ ∃ t id, file "storage_metadata" = some (.table t) ∧ metadataCell t "physical_store_id" = .ok (some id)) ∨
    ∃ t t', file "storage_metadata" = some (.table t) ∧ metadataCell t "physical_store_id" = .ok none ∧
      t.insert false [("key", "physical_store_id"), ("value", fresh)] = .ok t' ∧
      u = put file "storage_metadata" (.table t') := by
  unfold ensureStoreId at h
  split at h
  · cases h
  · rename_i id hvalue
    cases h
    obtain ⟨t, ht, hcell⟩ := metadataValue_ok hvalue
    exact .inl ⟨rfl, t, id, ht, hcell⟩
  · rename_i hvalue
    obtain ⟨t, ht, hcell⟩ := metadataValue_ok hvalue
    obtain ⟨t₀, t', ht₀, hinsert, hu⟩ := insertMetadata_ok h
    rw [ht] at ht₀
    cases ht₀
    exact .inr ⟨t, t', ht, hcell, hinsert, hu⟩

/-- What the event store and the asset store share. -/
theorem checked_rejects {rest : Action String File}
    (h : (connect f).andThen ((createSchema f schema).andThen ((checkSchemaVersion f).andThen (proceed rest))) file =
      (.error (.schemaVersion cause), after)) : Completes schema file after := by
  obtain ⟨s, hconnect, hopened⟩ := connect_quiet.andThen_failed h
  obtain ⟨t, hcreate, hcreated⟩ := createSchema_quiet.andThen_failed hopened
  rw [connect_ok hconnect] at hcreate
  rcases Action.andThen_failed hcreated with hcheck | ⟨u, -, hrest⟩
  · rw [(checkSchemaVersion_rejects hcheck).1]
    exact createSchema_ok hcreate
  · exact absurd hrest (proceed_quiet _ _ _)

/-- A catalog's metadata that an opening leaves alone: a second version clashes with the first one, and the store has
an identity. -/
structure Furnished (t : SqliteFile.Table) : Prop where
  versioned : t.judge t.rows (t.fullRow [("key", "schema_version"), ("value", "1")]) = .conflict
  identified : metadataCell t "physical_store_id" ≠ .ok none

theorem Furnished.insert {t t' : SqliteFile.Table} (ht : Furnished t)
    (h : t.insert true [("key", "schema_version"), ("value", "1")] = .ok t') : t' = t := by
  unfold SqliteFile.Table.insert at h
  rw [ht.versioned] at h
  split at h
  · cases h
    rfl
  · cases h

/-- A new catalog has the supported version. -/
theorem new_metadata {t t' : SqliteFile.Table} (hcreated : storageMetadata.object = .table t)
    (h : t.insert true [("key", "schema_version"), ("value", "1")] = .ok t') :
    t'.selectWhere "value" "key" "schema_version" = .ok (some (.text "1")) := by
  cases hcreated
  cases h
  rfl

theorem catalog_metadata {s : Statement} (hs : s ∈ catalogSchema) (hname : s.name = "storage_metadata") :
    s = storageMetadata := by
  simp only [catalogSchema, List.mem_cons, List.not_mem_nil, or_false] at hs
  rcases hs with rfl | rfl | rfl | rfl | rfl | rfl | rfl | rfl | rfl
  · rfl
  all_goals simp [Statement.name] at hname

/-- What the catalog has done when it rejects: `u` is the file after the batch. -/
theorem initializeCatalog_rejects {fresh : String} {rest : Action String File}
    (h : initializeCatalog f fresh rest file = (.error (.schemaVersion cause), after)) :
    ∃ u t, Completes catalogSchema file u ∧ u "storage_metadata" = some (.table t) ∧
      file "storage_metadata" = some (.table t) ∧
      (∀ name, name ≠ "storage_metadata" → after name = u name) ∧ (Furnished t → after = u) := by
  obtain ⟨s, hconnect, hopened⟩ := connect_quiet.andThen_failed h
  obtain ⟨u, hcreate, hcreated⟩ := createSchema_quiet.andThen_failed hopened
  obtain ⟨v, hinsert, hversioned⟩ := insertMetadata_quiet.andThen_failed hcreated
  obtain ⟨w, hensure, hidentified⟩ := ensureStoreId_quiet.andThen_failed hversioned
  rw [connect_ok hconnect] at hcreate
  have hcompletes := createSchema_ok hcreate
  obtain ⟨t, t₁, ht, ht₁, rfl⟩ := insertMetadata_ok hinsert
  have hverify : verifySchemaVersion f w = (.error (.schemaVersion cause), after) :=
    (Action.andThen_failed hidentified).resolve_right (fun ⟨_, _, hrest⟩ => proceed_quiet _ _ _ hrest)
  obtain ⟨rfl, value, hvalue, hcause⟩ := verifySchemaVersion_rejects hverify
  obtain ⟨t₂, ht₂, hcell⟩ := metadataValue_ok hvalue
  have hput : put u "storage_metadata" (.table t₁) "storage_metadata" = some (.table t₁) := put_self _ _ _
  have hother : ∀ {o : Object} {name : String}, name ≠ "storage_metadata" → put u "storage_metadata" o name = u name :=
    fun hne => put_of_ne hne _
  have hgrown : (t₂.toShape = t₁.toShape ∧ t₁.rows <+: t₂.rows) ∧
      (∀ name, name ≠ "storage_metadata" → after name = u name) ∧
      (metadataCell t₁ "physical_store_id" ≠ .ok none → after = put u "storage_metadata" (.table t₁)) := by
    rcases ensureStoreId_ok hensure with ⟨rfl, -⟩ | ⟨t₀, t', ht₀, hnone, hadd, rfl⟩
    · rw [hput] at ht₂
      cases ht₂
      exact ⟨⟨rfl, List.prefix_rfl⟩, fun name hne => hother hne, fun _ => rfl⟩
    · rw [hput] at ht₀
      cases ht₀
      rw [put_self] at ht₂
      cases ht₂
      exact ⟨Table.insert_rows hadd, fun name hne => (put_of_ne hne _).trans (hother hne), fun hid => absurd hnone hid⟩
  obtain ⟨⟨hshape, hrows⟩, hframe, hidentity⟩ := hgrown
  refine ⟨u, t, hcompletes, ht, ?_, hframe, ?_⟩
  · cases hfile : file "storage_metadata" with
    | some o => exact (hcompletes.kept _ _ hfile).symm.trans ht
    | none =>
      -- the version that a new catalog was given is the one that was read
      obtain ⟨s, hs, hname, hobject⟩ := hcompletes.added _ _ hfile ht
      have hnew : t₂.selectWhere "value" "key" "schema_version" = .ok (some (.text "1")) :=
        Table.selectWhere_longer hshape hrows (new_metadata (catalog_metadata hs hname ▸ hobject) ht₁)
      rw [metadataCell, hnew] at hcell
      cases hcell
      cases hcause
  · intro hfurnished
    cases hfurnished.insert ht₁
    rw [hidentity hfurnished.identified, put_eq_self ht]

/-- An object that the store does not write before it has checked the version. -/
def Store.Leaves (store : Store) (name : String) (o : Object) : Prop :=
  store = .catalog → name = "storage_metadata" → ∀ t, o = .table t → Furnished t

/-- What the file had stays with its rows, what is new belongs to the store's schema and is empty, and a file that lacks
nothing is left as it was. -/
structure OnlyCompleted (store : Store) (file after : File) : Prop where
  kept : ∀ name o, file name = some o → store.Leaves name o → after name = some o
  added : ∀ name o, file name = none → after name = some o →
    (∃ s ∈ store.schema, s.name = name ∧ s.object = o) ∧ ∀ t, o = .table t → t.rows = []
  same : (∀ s ∈ store.schema, (file s.name).isSome = true) →
    (∀ name o, file name = some o → store.Leaves name o) → after = file

theorem Store.object_empty {store : Store} {name : String} {o : Object}
    (h : ∃ s ∈ store.schema, s.name = name ∧ s.object = o) :
    (∃ s ∈ store.schema, s.name = name ∧ s.object = o) ∧ ∀ t, o = .table t → t.rows = [] := by
  refine ⟨h, ?_⟩
  rintro t rfl
  obtain ⟨s, -, -, hobject⟩ := h
  exact Statement.object_rows hobject

theorem onlyCompleted_of_completes {store : Store} (h : Completes store.schema file after) :
    OnlyCompleted store file after where
  kept name o ho _ := h.kept name o ho
  added name o hnone ho := Store.object_empty (h.added name o hnone ho)
  same hall _ := h.same hall

/-- A file of a later version, which has renamed its tables. -/
def laterFile : File := fun name =>
  if name = "storage_metadata" then
    some (.table ⟨metadataShape, [[.text "schema_version", .text "2"], [.text "physical_store_id", .text "store-1"]]⟩)
  else none

def noRest : Action String File := Action.skip

theorem laterFile_rejected : Store.eventStore.opening noFaults "store-2" noRest laterFile =
    (.error (.schemaVersion .newer), (Store.eventStore.opening noFaults "store-2" noRest laterFile).2) := by
  refine Prod.ext ?_ rfl
  decide +kernel

/-- A table of the store's own shape with these entries. -/
def metadataOf (entries : List (String × String)) : SqliteFile.Table :=
  ⟨metadataShape, entries.map (fun e => [.text e.1, .text e.2])⟩

theorem metadataCell_metadataOf (entries : List (String × String)) (key : String) :
    metadataCell (metadataOf entries) key = .ok ((entries.find? (fun e => e.1 == key)).map Prod.snd) := by
  have hselect : (metadataOf entries).selectWhere "value" "key" key =
      .ok (((entries.map (fun e => [Cell.text e.1, Cell.text e.2])).find? (fun row => row.getD 0 .null == .text key)).map
        (fun row => row.getD 1 .null)) := rfl
  rw [metadataCell, hselect, List.find?_map]
  have hkey : ((fun row : Row => row.getD 0 .null == .text key) ∘ fun e : String × String => [.text e.1, .text e.2]) =
      fun e => e.1 == key := by
    funext e
    exact Bool.eq_iff_iff.mpr (by simp)
  rw [hkey]
  cases entries.find? (fun e => e.1 == key) <;> rfl

theorem metadataValue_metadataOf {entries : List (String × String)} {v : Option String}
    (hfile : file "storage_metadata" = some (.table (metadataOf entries))) (h : metadataValue f file key = .ok v) :
    v = (entries.find? (fun e => e.1 == key)).map Prod.snd := by
  obtain ⟨t, ht, hcell⟩ := metadataValue_ok h
  cases hfile.symm.trans ht
  rw [metadataCell_metadataOf] at hcell
  exact (Except.ok.inj hcell).symm

def eventStoreError {K : Storage.Kernel} (cause : VersionCause) : Storage.StorageError K :=
  match cause with
  | .malformed => EventStore.failure "SQLite schema version is malformed"
  | .newer => EventStore.failure "SQLite schema version is newer than this adapter"
  | .older => EventStore.failure "SQLite schema migration is required"

def catalogError (cause : VersionCause) : Catalog.CatalogStoreError :=
  match cause with
  | .malformed => .corruption "malformed catalog schema version"
  | .newer => .schema "schema version is newer than this adapter"
  | .older => .schema "schema migration is required"

theorem schemaCause_cases (h : schemaCause value = some cause) :
    (cause = .malformed ∧ parseI64 value = none) ∨
    (cause = .newer ∧ ∃ version, parseI64 value = some version ∧ 1 < version) ∨
    (cause = .older ∧ ∃ version, parseI64 value = some version ∧ version < 1) := by
  unfold schemaCause at h
  cases hparsed : parseI64 value with
  | none =>
    rw [hparsed] at h
    cases h
    exact .inl ⟨rfl, rfl⟩
  | some version =>
    rw [hparsed] at h
    dsimp only at h
    rcases Int.lt_trichotomy version supportedSchemaVersion with hlt | heq | hgt
    · rw [if_neg (by omega), if_neg (by omega)] at h
      cases h
      exact .inr (.inr ⟨rfl, version, rfl, hlt⟩)
    · rw [if_pos heq] at h
      cases h
    · rw [if_neg (by omega), if_pos hgt] at h
      cases h
      exact .inr (.inl ⟨rfl, version, rfl, hgt⟩)

/-- The event store's gate over decoded rows reports the cause that the gate over the file found. -/
theorem eventStore_rejects {K : Storage.Kernel} {db : EventStore.Db}
    (hfile : file "storage_metadata" = some (.table (metadataOf db.metadata.rows)))
    (h : checkSchemaVersion f file = (.error (.schemaVersion cause), after)) :
    EventStore.checkSchemaVersion (K := K) EventStore.Faults.none db = .error (eventStoreError cause) := by
  obtain ⟨-, value, hvalue, hcause⟩ := checkSchemaVersion_rejects h
  have hstored : db.metadataOf "schema_version" = some value := (metadataValue_metadataOf hfile hvalue).symm
  have hread : EventStore.metadataValue (K := K) EventStore.Faults.none db "schema_version" = .ok (some value) := by
    rw [← hstored]
    rfl
  unfold EventStore.checkSchemaVersion
  rw [hread]
  rcases schemaCause_cases hcause with ⟨rfl, hparsed⟩ | ⟨rfl, version, hparsed, hnewer⟩ | ⟨rfl, version, hparsed, holder⟩
  · simp [hparsed, eventStoreError]
  · have hne : version ≠ 1 := by omega
    simp [hparsed, eventStoreError, EventStore.supportedSchemaVersion, hne, hnewer]
  · have hne : version ≠ 1 := by omega
    have hle : ¬ 1 < version := by omega
    simp [hparsed, eventStoreError, EventStore.supportedSchemaVersion, hne, hle]

theorem dlookup_find (entries : List (Sigma (fun _ : String => String))) (key : String) :
    entries.dlookup key = ((entries.map (fun e => (e.1, e.2))).find? (fun e => e.1 == key)).map Prod.snd := by
  induction entries with
  | nil => rfl
  | cons e rest ih =>
    by_cases he : e.1 = key
    · subst he
      rw [List.dlookup_cons_eq, List.map_cons, List.find?_cons_of_pos (by simp)]
      rfl
    · rw [List.dlookup_cons_ne _ _ (Ne.symm he), ih, List.map_cons, List.find?_cons_of_neg (by simpa using he)]

/-- The catalog's checks over decoded rows report the cause that the gate over the file found. -/
theorem catalog_rejects {K : Catalog.CatalogKernel} {db : Catalog.Database K} (quickCheck : String)
    (hfile : file "storage_metadata" = some (.table (metadataOf (db.metadata.entries.map (fun e => (e.1, e.2))))))
    (h : verifySchemaVersion f file = (.error (.schemaVersion cause), after)) :
    Catalog.verifyStorage Catalog.OpenFaults.none quickCheck db = .error (catalogError cause) := by
  obtain ⟨-, value, hvalue, hcause⟩ := verifySchemaVersion_rejects h
  have hstored : db.metadata.lookup "schema_version" = some value :=
    (dlookup_find _ _).trans (metadataValue_metadataOf hfile hvalue).symm
  unfold Catalog.verifyStorage
  rw [hstored]
  rcases schemaCause_cases hcause with ⟨rfl, hparsed⟩ | ⟨rfl, version, hparsed, hnewer⟩ | ⟨rfl, version, hparsed, holder⟩
  · simp [hparsed, catalogError, Catalog.openCall, Catalog.OpenFaults.none]
  · simp [hparsed, catalogError, Catalog.openCall, Catalog.OpenFaults.none, Catalog.supportedSchemaVersion, hnewer]
  · have hle : ¬ 1 < version := by omega
    simp [hparsed, catalogError, Catalog.openCall, Catalog.OpenFaults.none, Catalog.supportedSchemaVersion, hle, holder]

end OrbitRelay.SchemaGate
