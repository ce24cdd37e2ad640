import OrbitRelay.Relational
import OrbitRelay.Storage

/-!
# The SQLite EventStore

`orbitrelay-storage-sqlite`, function by function. One connection owned by one
worker thread executes the commands one at a time, so a command is a function of
the database. Every call into SQLite may fail: the faults of one command are a
function of the call site, and a transaction that is dropped rolls back.
-/
namespace OrbitRelay.EventStore

open Codec MachineInt Relational Storage

variable {K : Kernel}

def supportedSchemaVersion : Int := 1

structure StoredRow where
  appendSequence : Int
  eventId : String
  sessionId : String
  actorId : String
  actionId : String
  occurredAtJson : String
  eventType : String
  payloadJson : String
  metadataJson : String
  deriving DecidableEq, Repr

/-- `append_sequence` is the primary key and `event_id` is UNIQUE. -/
def rowClash (a b : StoredRow) : Bool :=
  a.appendSequence == b.appendSequence || a.eventId == b.eventId

def metadataClash (a b : String × String) : Bool := a.1 == b.1

/-- SQLite's size limits stop a table long before this many rows. -/
def maxRows : Nat := i64Max

structure EventTable extends Table rowClash where
  capacity : rows.length ≤ maxRows

def EventTable.insert (t : EventTable) (r : StoredRow) : Except SqliteError EventTable :=
  if hc : t.rows.length + 1 ≤ maxRows then
    match h : t.toTable.insert r with
    | .ok u => .ok ⟨u, by rw [(Table.insert_ok_iff.mp h).2]; simpa using hc⟩
    | .error e => .error e
  else .error .full

/-- `objects` names the tables and indexes of the file. -/
structure Db where
  objects : List String
  metadata : Table metadataClash
  events : EventTable

/-- The call sites at which SQLite or the filesystem can report an error. -/
inductive Call where
  | directory | connect | foreignKeys | journalMode | synchronous | busyTimeout | schema
  | metadataRead (key : String) | metadataInsert (key : String) | quickCheck
  | integrityQuery | row (index : Nat)
  | transaction | lookup | sequenceRead | insert | commit | queryPreparation | query
  deriving DecidableEq, Repr

def unavailable (message : String) : StorageError K := .backendUnavailable message

def failure (message : String) : StorageError K := .backendFailure message

def mapSqliteError (message : String) (error : SqliteError) : StorageError K :=
  if error = .busy ∨ error = .locked then unavailable "SQLite EventStore is busy"
  else failure message

/-- The error that each call site makes of an SQLite error. -/
def Call.report (error : SqliteError) : Call → StorageError K
  | .directory => failure "SQLite database directory could not be created"
  | .connect => mapSqliteError "SQLite database open failed" error
  | .foreignKeys => mapSqliteError "SQLite foreign key configuration failed" error
  | .journalMode => mapSqliteError "SQLite WAL configuration failed" error
  | .synchronous => mapSqliteError "SQLite synchronous configuration failed" error
  | .busyTimeout => mapSqliteError "SQLite busy timeout configuration failed" error
  | .schema => mapSqliteError "SQLite schema creation failed" error
  | .metadataRead _ => mapSqliteError "SQLite metadata read failed" error
  | .metadataInsert key => mapSqliteError (if key = "schema_version" then
      "SQLite schema metadata creation failed"
      else "SQLite physical store identity creation failed") error
  | .quickCheck => failure "SQLite physical integrity check failed"
  | .integrityQuery => mapSqliteError "SQLite EventStore integrity query failed" error
  | .row _ => failure "SQLite EventStore row read failed"
  | .transaction => mapSqliteError "SQLite EventStore transaction could not start" error
  | .lookup => mapSqliteError "SQLite EventId lookup failed" error
  | .sequenceRead => mapSqliteError "SQLite EventStore sequence read failed" error
  | .insert => mapSqliteError "SQLite EventStore append failed" error
  | .commit => mapSqliteError "SQLite EventStore transaction commit failed" error
  | .queryPreparation => mapSqliteError "SQLite EventStore query preparation failed" error
  | .query => mapSqliteError "SQLite EventStore query failed" error

/-- What SQLite does at each call site while one command runs. -/
abbrev Faults := Call → Option SqliteError

def Faults.none : Faults := fun _ => Option.none

def sqlite (f : Faults) (c : Call) : Except (StorageError K) Unit :=
  match f c with
  | some e => .error (c.report e)
  | none => .ok ()

@[simp] theorem sqlite_none (c : Call) : sqlite (K := K) Faults.none c = .ok () := rfl

def decodeRow (row : StoredRow) : Except (StorageError K) (Nat × Event K) := do
  let sequence ← okOr (failure "SQLite EventStore append sequence is invalid")
    (toU64 row.appendSequence)
  let eventId ← okOr (failure "SQLite EventStore EventId is invalid") (K.eventId.parse row.eventId)
  let sessionId ← okOr (failure "SQLite EventStore SessionId is invalid")
    (K.sessionId.parse row.sessionId)
  let actorId ← okOr (failure "SQLite EventStore ActorId is invalid") (K.actorId.parse row.actorId)
  let actionId ← okOr (failure "SQLite EventStore ActionId is invalid")
    (K.actionId.parse row.actionId)
  let occurredAt ← okOr (failure "SQLite EventStore timestamp is invalid")
    (K.timestamp.read row.occurredAtJson)
  let payload ← okOr (failure "SQLite EventStore payload is invalid") (K.payload.read row.payloadJson)
  let metadata ← okOr (failure "SQLite EventStore metadata is invalid")
    (K.metadata.read row.metadataJson)
  .ok (sequence, ⟨eventId, sessionId, actorId, actionId, ⟨row.eventType⟩, occurredAt, payload, metadata⟩)

/-- The rows as `ORDER BY append_sequence ASC` returns them. -/
def EventTable.ordered (t : EventTable) : List StoredRow := orderBy StoredRow.appendSequence t.rows

/-- The loop of `verify_all_events`, with its own counter. -/
def verifyFrom (K : Kernel) (f : Faults) : Int → Nat → List StoredRow → Except (StorageError K) Unit
  | _, _, [] => .ok ()
  | expected, index, row :: rest => do
    sqlite f (.row index)
    if row.appendSequence ≠ expected then
      .error (failure "SQLite EventStore append sequence is not contiguous")
    else do
      let _ ← decodeRow (K := K) row
      let expected ← okOr (failure "SQLite EventStore append sequence overflow")
        (checkedAddI64 expected 1)
      verifyFrom K f expected (index + 1) rest

def verifyAllEvents (K : Kernel) (f : Faults) (t : EventTable) : Except (StorageError K) Unit := do
  sqlite f .integrityQuery
  verifyFrom K f 0 0 t.ordered

/-- `current_count` and `current_count_tx`: MAX plus one, or zero for an empty table. -/
def currentCount (f : Faults) (t : EventTable) : Except (StorageError K) Nat := do
  sqlite f .sequenceRead
  match (t.rows.map StoredRow.appendSequence).max? with
  | none => .ok 0
  | some value =>
    if value < 0 then .error (failure "SQLite EventStore append sequence is negative")
    else (okOr (failure "SQLite EventStore append sequence overflow")
      ((toU64 value).bind (checkedAddU64 · 1)))

structure Handle (K : Kernel) where
  physicalStoreId : K.EntityId
  continuationEpoch : K.EntityId

def storedEvent (h : Handle K) (sequence : Nat) (event : Event K) :
    Except (StorageError K) (StoredEvent K) := do
  let position ← okOr (failure "SQLite EventStore cursor overflow") (checkedAddU64 sequence 1)
  .ok ⟨K.cursorFor h.physicalStoreId h.continuationEpoch position, event⟩

def captureCheckpoint (f : Faults) (h : Handle K) (t : EventTable) :
    Except (StorageError K) K.EventStoreCheckpoint := do
  let boundary ← currentCount f t
  .ok (K.checkpointFor h.physicalStoreId h.continuationEpoch boundary)

def EventTable.lookup (t : EventTable) (eventId : String) : Option StoredRow :=
  t.rows.find? (fun row => row.eventId == eventId)

/-- The row that `append_event` writes for an event at a position. -/
def encodeRow (event : Event K) (sequence : Int) (occurredAtJson payloadJson metadataJson : String) :
    StoredRow where
  appendSequence := sequence
  eventId := K.eventId.text event.id
  sessionId := K.sessionId.text event.sessionId
  actorId := K.actorId.text event.actorId
  actionId := K.actionId.text event.actionId
  occurredAtJson := occurredAtJson
  eventType := event.eventType.asStr
  payloadJson := payloadJson
  metadataJson := metadataJson

/-- Everything `append_event` does up to and including the commit: the position
and event to report, and the committed table. -/
def appendTransaction (f : Faults) (t : EventTable) (event : Event K) :
    Except (StorageError K) (Nat × Event K × EventTable) := do
  let payloadJson ← okOr (failure "event payload serialization failed") (K.payload.print event.payload)
  let metadataJson ← okOr (failure "event metadata serialization failed")
    (K.metadata.print event.metadata)
  let occurredAtJson ← okOr (failure "event timestamp serialization failed")
    (K.timestamp.print event.occurredAt)
  sqlite f .transaction
  sqlite f .lookup
  match t.lookup (K.eventId.text event.id) with
  | some row => do
    let (sequence, existing) ← decodeRow row
    if existing = event then do
      sqlite f .commit
      .ok (sequence, existing, t)
    else .error (.eventConflict event.id)
  | none => do
    let sequence ← currentCount f t
    let sequenceI64 ← okOr (failure "SQLite EventStore append sequence overflow") (toI64 sequence)
    sqlite f .insert
    match t.insert (encodeRow event sequenceI64 occurredAtJson payloadJson metadataJson) with
    | .error e => .error (Call.insert.report e)
    | .ok u => do
      sqlite f .commit
      .ok (sequence, event, u)

/-- A failed transaction leaves the table alone; after the commit only the
cursor is computed, and an error there would come too late to undo it. -/
def appendEvent (f : Faults) (h : Handle K) (event : Event K) (t : EventTable) :
    Except (StorageError K) (StoredEvent K) × EventTable :=
  match appendTransaction f t event with
  | .error e => (.error e, t)
  | .ok (sequence, stored, u) => (storedEvent h sequence stored, u)

def getEvent (f : Faults) (h : Handle K) (eventId : K.EventId) (t : EventTable) :
    Except (StorageError K) (Option (StoredEvent K)) := do
  sqlite f .lookup
  match t.lookup (K.eventId.text eventId) with
  | none => .ok none
  | some row => do
    let (sequence, event) ← decodeRow row
    let stored ← storedEvent h sequence event
    .ok (some stored)

/-- The exclusive bound of a query: its checkpoint, or the current end. -/
def queryUpperBound (h : Handle K) (count : Nat) :
    Option K.EventStoreCheckpoint → Except (StorageError K) Nat
  | none => .ok count
  | some checkpoint =>
    okOr (.invalidCheckpoint "checkpoint does not belong to this SQLite store epoch")
      (K.checkpointPosition checkpoint h.physicalStoreId h.continuationEpoch)

/-- The first sequence a query may return: cursors are one-based. -/
def queryStart (h : Handle K) : Option K.EventCursor → Except (StorageError K) Nat
  | none => .ok 0
  | some cursor => do
    let position ← okOr (.invalidCursor "cursor does not belong to this SQLite store epoch")
      (K.cursorPosition cursor h.physicalStoreId h.continuationEpoch)
    if position = 0 then .error (.invalidCursor "cursor position must be greater than zero")
    else .ok position

/-- The WHERE clause of the generated SQL. -/
def rowSelected (q : EventFilter K) (start upper : Int) (row : StoredRow) : Bool :=
  decide (start ≤ row.appendSequence) && decide (row.appendSequence < upper) &&
    q.sessionId.all (fun s => row.sessionId == K.sessionId.text s) &&
    q.actorId.all (fun a => row.actorId == K.actorId.text a) &&
    (q.eventTypes.isEmpty || (q.eventTypes.map EventType.asStr).contains row.eventType)

/-- The row loop of `query_events`; the flag is `has_more`. -/
def scanRows (f : Faults) (h : Handle K) (q : EventFilter K) (limit : Nat) :
    Nat → List StoredRow → List (StoredEvent K) →
      Except (StorageError K) (List (StoredEvent K) × Bool)
  | _, [], events => .ok (events, false)
  | index, row :: rest, events => do
    sqlite f (.row index)
    let (sequence, event) ← decodeRow row
    if K.matchesEvent q event = false then scanRows f h q limit (index + 1) rest events
    else if events.length = limit then .ok (events, true)
    else do
      let stored ← storedEvent h sequence event
      scanRows f h q limit (index + 1) rest (events ++ [stored])

def queryEvents (f : Faults) (h : Handle K) (q : EventQuery K) (t : EventTable) :
    Except (StorageError K) (EventPage K) := do
  K.validate q.filter q.limit
  let count ← currentCount f t
  let upper ← queryUpperBound h count q.upperBound
  if count < upper then
    .error (.invalidCheckpoint "checkpoint is beyond the stored event range")
  else do
    let start ← queryStart h q.afterCursor
    if upper < start ∨ (0 < start ∧ count < start) then
      .error (.invalidCursor "cursor is beyond the query checkpoint")
    else do
      let startI64 ← okOr (failure "query cursor overflow") (toI64 start)
      let upperI64 ← okOr (failure "query bound overflow") (toI64 upper)
      sqlite f .queryPreparation
      sqlite f .query
      let rows := t.ordered.filter (rowSelected q.filter startI64 upperI64)
      let (events, hasMore) ← scanRows f h q.filter q.limit 0 rows []
      .ok ⟨events, if hasMore then events.getLast?.map StoredEvent.cursor else none⟩

def Db.metadataOf (db : Db) (key : String) : Option String :=
  (db.metadata.rows.find? (fun row => row.1 == key)).map Prod.snd

def metadataValue (f : Faults) (db : Db) (key : String) : Except (StorageError K) (Option String) := do
  sqlite f (.metadataRead key)
  .ok (db.metadataOf key)

/-- An INSERT into `storage_metadata` outside a transaction. -/
def insertMetadata (f : Faults) (db : Db) (key value : String) : Except (StorageError K) Db := do
  sqlite f (.metadataInsert key)
  match db.metadata.insert (key, value) with
  | .error e => .error ((Call.metadataInsert key).report e)
  | .ok metadata => .ok { db with metadata }

/-- Create the directory, open the file, configure the connection. -/
def openConnection (f : Faults) : Except (StorageError K) Unit := do
  sqlite f .directory
  sqlite f .connect
  sqlite f .foreignKeys
  sqlite f .journalMode
  sqlite f .synchronous
  sqlite f .busyTimeout
  sqlite f .schema

/-- The effect of the `CREATE ... IF NOT EXISTS` batch. -/
def createSchema (db : Db) : Db :=
  { db with objects := db.objects ∪ ["storage_metadata", "events", "events_session_type_sequence",
      "events_actor_sequence"] }

/-- The schema gate: a missing version is written, another one is refused. -/
def checkSchemaVersion (f : Faults) (db : Db) : Except (StorageError K) Db := do
  match ← metadataValue f db "schema_version" with
  | none => insertMetadata f db "schema_version" "1"
  | some value => do
    let parsed ← okOr (failure "SQLite schema version is malformed") (parseI64 value)
    if parsed = supportedSchemaVersion then .ok db
    else .error (failure (if supportedSchemaVersion < parsed then
      "SQLite schema version is newer than this adapter"
      else "SQLite schema migration is required"))

/-- The stored identity, or a new one that is written before it is used. -/
def physicalStoreId (f : Faults) (fresh : K.EntityId) (db : Db) :
    Except (StorageError K) (K.EntityId × Db) := do
  match ← metadataValue f db "physical_store_id" with
  | some value => do
    let id ← okOr (failure "SQLite physical store identity is malformed") (K.entityId.parse value)
    .ok (id, db)
  | none => do
    let db ← insertMetadata f db "physical_store_id" (K.entityId.text fresh)
    .ok (fresh, db)

/-- The statements run outside a transaction, so what they wrote stays written
when a later one fails. -/
def initializeConnection (f : Faults) (fresh : K.EntityId) (db : Db) :
    Except (StorageError K) K.EntityId × Db :=
  match openConnection f with
  | .error e => (.error e, db)
  | .ok () =>
    match checkSchemaVersion f (createSchema db) with
    | .error e => (.error e, createSchema db)
    | .ok db₁ =>
      match physicalStoreId f fresh db₁ with
      | .error e => (.error e, db₁)
      | .ok (id, db₂) =>
        match (do sqlite f .quickCheck; verifyAllEvents K f db₂.events) with
        | .error e => (.error e, db₂)
        | .ok () => (.ok id, db₂)

inductive Command (K : Kernel) where
  | captureCheckpoint
  | append (event : Event K)
  | get (eventId : K.EventId)
  | query (query : EventQuery K)

inductive Reply (K : Kernel) where
  | checkpoint (result : Except (StorageError K) K.EventStoreCheckpoint)
  | stored (result : Except (StorageError K) (StoredEvent K))
  | found (result : Except (StorageError K) (Option (StoredEvent K)))
  | page (result : Except (StorageError K) (EventPage K))

/-- The body of the `run_worker` loop: one command, one reply. -/
def execute (f : Faults) (h : Handle K) (db : Db) : Command K → Reply K × Db
  | .captureCheckpoint => (.checkpoint (captureCheckpoint f h db.events), db)
  | .append event =>
    let (result, events) := appendEvent f h event db.events
    (.stored result, { db with events })
  | .get eventId => (.found (getEvent f h eventId db.events), db)
  | .query query => (.page (queryEvents f h query db.events), db)

end OrbitRelay.EventStore
