import OrbitRelay.Codec
import OrbitRelay.MachineInt

/-!
# The kernel's storage port

Types of the released kernel crates (`orbitrelay-core`, `-protocol`, `-storage`)
as the server sees them. Their sources are not part of this repository, so a
`Kernel` is a parameter: the identities with their text forms, the JSON forms of
the opaque event parts, the opaque continuation tokens and the two methods of
`EventQuery` that the adapters call. The laws among its fields are exactly what
the adapters rely on.
-/
namespace OrbitRelay.Storage

open Codec MachineInt

structure EventType where
  asStr : String
  deriving DecidableEq, Repr

structure Types where
  EntityId : Type
  EventId : Type
  SessionId : Type
  ActorId : Type
  ActionId : Type
  Timestamp : Type
  Payload : Type
  Metadata : Type
  EventCursor : Type
  EventStoreCheckpoint : Type
  [decEntityId : DecidableEq EntityId]
  [decEventId : DecidableEq EventId]
  [decSessionId : DecidableEq SessionId]
  [decActorId : DecidableEq ActorId]
  [decActionId : DecidableEq ActionId]
  [decTimestamp : DecidableEq Timestamp]
  [decPayload : DecidableEq Payload]
  [decMetadata : DecidableEq Metadata]
  [decEventCursor : DecidableEq EventCursor]
  [decEventStoreCheckpoint : DecidableEq EventStoreCheckpoint]

attribute [instance] Types.decEntityId Types.decEventId Types.decSessionId Types.decActorId
  Types.decActionId Types.decTimestamp Types.decPayload Types.decMetadata
  Types.decEventCursor Types.decEventStoreCheckpoint

structure Event (T : Types) where
  id : T.EventId
  sessionId : T.SessionId
  actorId : T.ActorId
  actionId : T.ActionId
  eventType : EventType
  occurredAt : T.Timestamp
  payload : T.Payload
  metadata : T.Metadata
  deriving DecidableEq

inductive StorageError (T : Types) where
  | eventConflict (eventId : T.EventId)
  | invalidQuery (reason : String)
  | invalidCursor (reason : String)
  | invalidCheckpoint (reason : String)
  | backendUnavailable (message : String)
  | backendFailure (message : String)
  deriving DecidableEq

structure StoredEvent (T : Types) where
  cursor : T.EventCursor
  event : Event T

structure EventPage (T : Types) where
  events : List (StoredEvent T)
  nextCursor : Option T.EventCursor

/-- The filter part of an `EventQuery`. -/
structure EventFilter (T : Types) where
  sessionId : Option T.SessionId
  actorId : Option T.ActorId
  eventTypes : List EventType
  timeRange : Option (T.Timestamp × T.Timestamp)

structure EventQuery (T : Types) where
  filter : EventFilter T
  limit : Nat
  upperBound : Option T.EventStoreCheckpoint
  afterCursor : Option T.EventCursor

structure Kernel extends Types where
  entityId : TextForm EntityId
  eventId : TextForm EventId
  sessionId : TextForm SessionId
  actorId : TextForm ActorId
  actionId : TextForm ActionId
  timestamp : SerialForm Timestamp
  payload : SerialForm Payload
  metadata : SerialForm Metadata
  /-- `EventCursor::for_storage(store_id, epoch, position)`. -/
  cursorFor : EntityId → EntityId → Nat → EventCursor
  /-- `EventCursor::storage_position(store_id, epoch)`. -/
  cursorPosition : EventCursor → EntityId → EntityId → Option Nat
  cursorPosition_for : ∀ s e s' e' p, p ≤ u64Max →
    cursorPosition (cursorFor s e p) s' e' = if s = s' ∧ e = e' then some p else none
  /-- `EventStoreCheckpoint::for_storage(store_id, epoch, boundary)`. -/
  checkpointFor : EntityId → EntityId → Nat → EventStoreCheckpoint
  /-- `EventStoreCheckpoint::storage_position(store_id, epoch)`. -/
  checkpointPosition : EventStoreCheckpoint → EntityId → EntityId → Option Nat
  checkpointPosition_for : ∀ s e s' e' p, p ≤ u64Max →
    checkpointPosition (checkpointFor s e p) s' e' = if s = s' ∧ e = e' then some p else none
  /-- Whether an occurrence time lies in a requested time range. -/
  inTimeRange : Timestamp × Timestamp → Timestamp → Bool
  /-- `EventQuery::matches`, which looks at the filter only. -/
  matchesEvent : EventFilter toTypes → Event toTypes → Bool
  matchesEvent_iff : ∀ q e, matchesEvent q e = true ↔
    (∀ s, q.sessionId = some s → e.sessionId = s) ∧ (∀ a, q.actorId = some a → e.actorId = a) ∧
    (q.eventTypes = [] ∨ e.eventType ∈ q.eventTypes) ∧
    (∀ r, q.timeRange = some r → inTimeRange r e.occurredAt = true)
  /-- `EventQuery::validate`, which looks at the filter and the limit. -/
  validate : EventFilter toTypes → Nat → Except (StorageError toTypes) Unit
  validate_limit : ∀ q n, validate q n = .ok () → 1 ≤ n
  validate_untimed : ∀ q n, q.timeRange = none → 1 ≤ n → validate q n = .ok ()

instance : CoeOut Kernel Types := ⟨Kernel.toTypes⟩

/-- A kernel whose values are their own texts, for concrete runs. -/
def textKernel : Kernel where
  EntityId := String
  EventId := String
  SessionId := String
  ActorId := String
  ActionId := String
  Timestamp := String
  Payload := String
  Metadata := String
  EventCursor := String × String × Nat
  EventStoreCheckpoint := String × String × Nat
  entityId := TextForm.self
  eventId := TextForm.self
  sessionId := TextForm.self
  actorId := TextForm.self
  actionId := TextForm.self
  timestamp := SerialForm.self
  payload := SerialForm.self
  metadata := SerialForm.self
  cursorFor s e p := (s, e, p)
  cursorPosition c s e := if c.1 = s ∧ c.2.1 = e then some c.2.2 else none
  cursorPosition_for _ _ _ _ _ _ := rfl
  checkpointFor s e p := (s, e, p)
  checkpointPosition c s e := if c.1 = s ∧ c.2.1 = e then some c.2.2 else none
  checkpointPosition_for _ _ _ _ _ _ := rfl
  inTimeRange r t := decide (r.1 ≤ t ∧ t ≤ r.2)
  matchesEvent q e := q.sessionId.all (e.sessionId == ·) && q.actorId.all (e.actorId == ·) &&
    (q.eventTypes.isEmpty || q.eventTypes.contains e.eventType) &&
    q.timeRange.all (fun r => decide (r.1 ≤ e.occurredAt ∧ e.occurredAt ≤ r.2))
  matchesEvent_iff q e := by
    simp only [Bool.and_eq_true, Option.all_eq_true, beq_iff_eq, Bool.or_eq_true, List.isEmpty_iff,
      List.contains_iff_mem, and_assoc]
  validate _ n := if n = 0 then .error (.invalidQuery "limit must be greater than zero") else .ok ()
  validate_limit _ n h := by
    by_contra hn
    have h0 : n = 0 := by omega
    simp [h0] at h
  validate_untimed _ n _ h := by
    have h0 : n ≠ 0 := by omega
    simp [h0]

end OrbitRelay.Storage
