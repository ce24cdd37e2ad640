import OrbitRelay.Canvas

/-!
# Canvas history pages

`CanvasHistoryQueryHandler::execute`. The handler reads the store twice, once
for the checkpoint of a first request and once for the page, and the store may
change in between; the two readings are the two halves of `execute`.
-/
namespace OrbitRelay.CanvasHistory

open Codec MachineInt Storage EventStore Canvas

variable {C : CanvasKernel}

def canvasHistoryPageQueryType : String := "canvas.history.page"

def maxHistoryStoreScanLimit : Nat := 256

inductive CanvasHistoryReadAuthorizationError where
  | unauthorized | unavailable | internal
  deriving DecidableEq, Repr

inductive QueryHandlerError where
  | invalidQuery | unauthorized | notFound | unavailable | internal
  deriving DecidableEq, Repr

structure HistoryEventDto (C : CanvasKernel) where
  eventId : C.EventId
  sessionId : C.SessionId
  actorId : C.ActorId
  actionId : C.ActionId
  eventType : EventType
  occurredAt : C.Timestamp
  payload : C.Payload
  metadata : C.Metadata
  deriving DecidableEq

def HistoryEventDto.fromEvent (event : Event C) : HistoryEventDto C :=
  ⟨event.id, event.sessionId, event.actorId, event.actionId, event.eventType, event.occurredAt,
    event.payload, event.metadata⟩

/-- The event a client rebuilds from the fields. -/
def HistoryEventDto.event (dto : HistoryEventDto C) : Event C :=
  ⟨dto.eventId, dto.sessionId, dto.actorId, dto.actionId, dto.eventType, dto.occurredAt,
    dto.payload, dto.metadata⟩

@[simp] theorem event_fromEvent (e : Event C) : (HistoryEventDto.fromEvent e).event = e := rfl

structure CanvasHistoryPageDto (C : CanvasKernel) where
  canvasId : C.CanvasId
  checkpoint : C.EventStoreCheckpoint
  events : List (HistoryEventDto C)
  nextCursor : Option C.EventCursor
  complete : Bool
  deriving DecidableEq

inductive CanvasHistoryRequest (C : CanvasKernel) where
  | first (canvasId : C.CanvasId)
  | continuation (canvasId : C.CanvasId) (checkpoint : C.EventStoreCheckpoint) (cursor : C.EventCursor)

/-- The JSON forms of requests and pages, and the size of an encoded response. -/
structure Wire (C : CanvasKernel) where
  MessageId : Type
  decodeRequest : C.Payload → Option (CanvasHistoryRequest C)
  encodePage : CanvasHistoryPageDto C → Option C.Payload
  decodePage : C.Payload → Option (CanvasHistoryPageDto C)
  decodePage_encodePage : ∀ page payload, encodePage page = some payload → decodePage payload = some page
  encodedSize : MessageId → String → C.Payload → Option Nat

structure QueryRequest (W : Wire C) where
  requestId : W.MessageId
  queryType : String
  payload : C.Payload

/-- The handler, with the catalog's sessions and the authorizer's answers for the
actor at hand; `new` accepts only these limits. -/
structure CanvasHistoryQueryHandler (C : CanvasKernel) where
  getCanvas : C.CanvasId → Except String (Option C.SessionId)
  authorizeSessionRead : C.SessionId → Except CanvasHistoryReadAuthorizationError Unit
  storeScanLimit : Nat
  maxMessageBytes : Nat
  scan_pos : 1 ≤ storeScanLimit
  scan_le : storeScanLimit ≤ maxHistoryStoreScanLimit
  message_pos : 0 < maxMessageBytes

def CanvasHistoryQueryHandler.new (getCanvas : C.CanvasId → Except String (Option C.SessionId))
    (authorizeSessionRead : C.SessionId → Except CanvasHistoryReadAuthorizationError Unit)
    (storeScanLimit maxMessageBytes : Nat) : Except QueryHandlerError (CanvasHistoryQueryHandler C) :=
  if h : 1 ≤ storeScanLimit ∧ storeScanLimit ≤ maxHistoryStoreScanLimit ∧ 0 < maxMessageBytes then
    .ok ⟨getCanvas, authorizeSessionRead, storeScanLimit, maxMessageBytes, h.1, h.2.1, h.2.2⟩
  else .error .internal

def mapAuthorizationError : CanvasHistoryReadAuthorizationError → QueryHandlerError
  | .unauthorized => .unauthorized
  | .unavailable => .unavailable
  | .internal => .internal

def mapCaptureError : StorageError C → QueryHandlerError
  | .backendUnavailable _ => .unavailable
  | _ => .internal

def mapQueryError : StorageError C → QueryHandlerError
  | .invalidQuery _ | .invalidCursor _ | .invalidCheckpoint _ => .invalidQuery
  | .backendUnavailable _ => .unavailable
  | _ => .internal

def canvasEventTypes (C : CanvasKernel) : List EventType :=
  [C.eventTypeOf .strokeBegan, C.eventTypeOf .strokePointsAppended, C.eventTypeOf .strokeCompleted,
    C.eventTypeOf .strokeCancelled, C.eventTypeOf .strokeRemoved]

/-- The filter of `canvas_event_query`. -/
def canvasEventFilter (sessionId : C.SessionId) : EventFilter C :=
  ⟨some sessionId, none, canvasEventTypes C, none⟩

def canvasIdFor (data : CanvasEventData C.CanvasId C.StrokeId) : Option C.CanvasId :=
  match data with
  | .strokeBegan payload => some payload.canvasId
  | .strokePointsAppended payload => some payload.canvasId
  | .strokeCompleted payload => some payload.canvasId
  | .strokeCancelled payload => some payload.canvasId
  | .strokeRemoved payload => some payload.canvasId

/-- The event loop: one event that does not decode fails the whole page. -/
def collectEvents (canvasId : C.CanvasId) :
    List (Event C) → Except QueryHandlerError (List (HistoryEventDto C))
  | [] => .ok []
  | event :: rest =>
    match C.tryFrom event with
    | .error _ => .error .internal
    | .ok data =>
      match canvasIdFor data with
      | none => .error .internal
      | some id => do
        let events ← collectEvents canvasId rest
        .ok (if id = canvasId then HistoryEventDto.fromEvent event :: events else events)

def guardResponseSize (W : Wire C) (request : QueryRequest W) (payload : C.Payload)
    (maxMessageBytes : Nat) : Except QueryHandlerError Unit :=
  match W.encodedSize request.requestId request.queryType payload with
  | none => .error .internal
  | some size => if maxMessageBytes < size then .error .internal else .ok ()

/-- What the first half of `execute` has found out. -/
structure Prepared (C : CanvasKernel) where
  canvasId : C.CanvasId
  sessionId : C.SessionId
  checkpoint : C.EventStoreCheckpoint
  cursor : Option C.EventCursor

/-- Decode, resolve the Canvas, authorize, and fix the checkpoint. -/
def prepare (H : CanvasHistoryQueryHandler C) (W : Wire C) (f : Faults) (h : Handle C)
    (request : QueryRequest W) (t : EventTable) : Except QueryHandlerError (Prepared C) :=
  match W.decodeRequest request.payload with
  | none => .error .invalidQuery
  | some decoded =>
    let canvasId := match decoded with
      | .first canvasId => canvasId
      | .continuation canvasId _ _ => canvasId
    match H.getCanvas canvasId with
    | .error _ => .error .unavailable
    | .ok none => .error .notFound
    | .ok (some sessionId) =>
      match H.authorizeSessionRead sessionId with
      | .error e => .error (mapAuthorizationError e)
      | .ok () =>
        match decoded with
        | .continuation _ checkpoint cursor => .ok ⟨canvasId, sessionId, checkpoint, some cursor⟩
        | .first _ =>
          match captureCheckpoint f h t with
          | .error e => .error (mapCaptureError e)
          | .ok checkpoint => .ok ⟨canvasId, sessionId, checkpoint, none⟩

/-- Query one page, keep the Canvas's events, encode, check the size. -/
def answer (H : CanvasHistoryQueryHandler C) (W : Wire C) (f : Faults) (h : Handle C)
    (request : QueryRequest W) (p : Prepared C) (t : EventTable) : Except QueryHandlerError C.Payload :=
  match queryEvents f h ⟨canvasEventFilter p.sessionId, H.storeScanLimit, some p.checkpoint, p.cursor⟩ t with
  | .error e => .error (mapQueryError e)
  | .ok page => do
    let events ← collectEvents p.canvasId (page.events.map StoredEvent.event)
    let response : CanvasHistoryPageDto C :=
      ⟨p.canvasId, p.checkpoint, events, page.nextCursor, page.nextCursor.isNone⟩
    let payload ← okOr .internal (W.encodePage response)
    guardResponseSize W request payload H.maxMessageBytes
    .ok payload

/-- `execute`, with the table and SQLite's faults as they are at the capture and
as they are at the query. -/
def execute (H : CanvasHistoryQueryHandler C) (W : Wire C) (h : Handle C) (request : QueryRequest W)
    (atCapture atQuery : Faults × EventTable) : Except QueryHandlerError C.Payload := do
  let p ← prepare H W atCapture.1 h request atCapture.2
  answer H W atQuery.1 h request p atQuery.2

/-- The Canvas and stroke that a decodable event names. -/
def strokeOf (e : Event C) : Option (StrokePayload C.CanvasId C.StrokeId) :=
  match C.tryFrom e with
  | .error _ => none
  | .ok data => some data.payload

/-- The stroke that an event of the five types belongs to, with its Session. -/
def strokeKey (e : Event C) : Option (C.SessionId × StrokePayload C.CanvasId C.StrokeId) :=
  if e.eventType ∈ canvasEventTypes C then (strokeOf e).map (Prod.mk e.sessionId) else none

/-- Events of one Canvas, in its Session. -/
def ofCanvas (sessionId : C.SessionId) (canvasId : C.CanvasId) (e : Event C) : Bool :=
  (strokeKey e).any (fun k => decide (k.1 = sessionId ∧ k.2.canvasId = canvasId))

theorem canvasIdFor_eq (data : CanvasEventData C.CanvasId C.StrokeId) :
    canvasIdFor data = some data.payload.canvasId := by
  cases data <;> rfl

/-- A page that decodes keeps exactly the events of its Canvas. -/
theorem collectEvents_ok {canvasId : C.CanvasId} {events : List (Event C)}
    {dtos : List (HistoryEventDto C)} (h : collectEvents canvasId events = .ok dtos) :
    dtos.map HistoryEventDto.event =
      events.filter (fun e => (strokeOf e).any (fun p => decide (p.canvasId = canvasId))) := by
  induction events generalizing dtos with
  | nil =>
    cases h
    rfl
  | cons e events ih =>
    rw [collectEvents] at h
    cases hd : C.tryFrom e with
    | error err =>
      rw [hd] at h
      cases h
    | ok data =>
      simp only [hd, canvasIdFor_eq] at h
      obtain ⟨rest, hrest, h⟩ := bind_ok h
      cases h
      have hs : strokeOf e = some data.payload := by simp [strokeOf, hd]
      by_cases hc : data.payload.canvasId = canvasId
      · simp [hs, hc, ih hrest]
      · simp [hs, hc, ih hrest]

theorem mem_canvasEventTypes {t : EventType} :
    t ∈ canvasEventTypes C ↔ ∃ kind, C.eventTypeOf kind = t := by
  constructor
  · intro h
    simp only [canvasEventTypes, List.mem_cons, List.not_mem_nil, or_false] at h
    rcases h with rfl | rfl | rfl | rfl | rfl
    all_goals exact ⟨_, rfl⟩
  · rintro ⟨kind, rfl⟩
    cases kind <;> simp [canvasEventTypes]

theorem matches_canvasEventFilter (sessionId : C.SessionId) (e : Event C) :
    C.matchesEvent (canvasEventFilter sessionId) e = true ↔
      e.sessionId = sessionId ∧ e.eventType ∈ canvasEventTypes C := by
  rw [C.matchesEvent_iff]
  simp [canvasEventFilter, canvasEventTypes]

/-- The Canvas's events are the matching events that name it. -/
theorem filter_ofCanvas (sessionId : C.SessionId) (canvasId : C.CanvasId) (log : List (Event C)) :
    (log.filter (C.matchesEvent (canvasEventFilter sessionId))).filter
        (fun e => (strokeOf e).any (fun p => decide (p.canvasId = canvasId))) =
      log.filter (ofCanvas sessionId canvasId) := by
  rw [List.filter_filter]
  refine List.filter_congr ?_
  intro e _
  rw [Bool.eq_iff_iff]
  simp only [Bool.and_eq_true, matches_canvasEventFilter, ofCanvas, strokeKey]
  by_cases ht : e.eventType ∈ canvasEventTypes C
  · cases hs : strokeOf e with
    | none => simp [ht]
    | some p => simp [ht, and_comm]
  · simp [ht]

/-- A prepared first request carries the checkpoint of the current end. -/
theorem prepare_first {H : CanvasHistoryQueryHandler C} {W : Wire C} {f : Faults} {h : Handle C}
    {request : QueryRequest W} {t : EventTable} {p : Prepared C} {canvasId : C.CanvasId}
    {sessionId : C.SessionId} {log : List (Event C)} (hr : Represents t log)
    (hsession : H.getCanvas canvasId = .ok (some sessionId))
    (hd : W.decodeRequest request.payload = some (.first canvasId))
    (hok : prepare H W f h request t = .ok p) :
    p = ⟨canvasId, sessionId, C.checkpointFor h.physicalStoreId h.continuationEpoch log.length, none⟩ := by
  simp only [prepare, hd, hsession] at hok
  cases ha : H.authorizeSessionRead sessionId with
  | error e => simp [ha] at hok
  | ok u =>
    cases hc : captureCheckpoint f h t with
    | error e => simp [ha, hc] at hok
    | ok checkpoint =>
      simp only [ha, hc, Except.ok.injEq] at hok
      rw [← hok, hr.captureCheckpoint_ok hc]

theorem prepare_continuation {H : CanvasHistoryQueryHandler C} {W : Wire C} {f : Faults} {h : Handle C}
    {request : QueryRequest W} {t : EventTable} {p : Prepared C} {canvasId : C.CanvasId}
    {sessionId : C.SessionId} {checkpoint : C.EventStoreCheckpoint} {cursor : C.EventCursor}
    (hsession : H.getCanvas canvasId = .ok (some sessionId))
    (hd : W.decodeRequest request.payload = some (.continuation canvasId checkpoint cursor))
    (hok : prepare H W f h request t = .ok p) :
    p = ⟨canvasId, sessionId, checkpoint, some cursor⟩ := by
  simp only [prepare, hd, hsession] at hok
  cases ha : H.authorizeSessionRead sessionId with
  | error e => simp [ha] at hok
  | ok u =>
    simp only [ha, Except.ok.injEq] at hok
    exact hok.symm

/-- What a response holds, in terms of the page that the store returned. -/
theorem answer_ok {H : CanvasHistoryQueryHandler C} {W : Wire C} {f : Faults} {h : Handle C}
    {request : QueryRequest W} {p : Prepared C} {t : EventTable} {payload : C.Payload}
    {page : CanvasHistoryPageDto C} (hok : answer H W f h request p t = .ok payload)
    (hd : W.decodePage payload = some page) :
    ∃ stored dtos, queryEvents f h
        ⟨canvasEventFilter p.sessionId, H.storeScanLimit, some p.checkpoint, p.cursor⟩ t = .ok stored ∧
      collectEvents p.canvasId (stored.events.map StoredEvent.event) = .ok dtos ∧
      page = ⟨p.canvasId, p.checkpoint, dtos, stored.nextCursor, stored.nextCursor.isNone⟩ := by
  unfold answer at hok
  cases hq : queryEvents f h
      ⟨canvasEventFilter p.sessionId, H.storeScanLimit, some p.checkpoint, p.cursor⟩ t with
  | error e =>
    rw [hq] at hok
    cases hok
  | ok stored =>
    rw [hq] at hok
    obtain ⟨dtos, hdtos, hok⟩ := bind_ok hok
    obtain ⟨encoded, henc, hok⟩ := bind_ok hok
    obtain ⟨-, -, hok⟩ := bind_ok hok
    cases hok
    have hpage := W.decodePage_encodePage _ _ (okOr_eq_ok.mp henc)
    exact ⟨stored, dtos, rfl, hdtos, Option.some.inj (hd.symm.trans hpage)⟩

end OrbitRelay.CanvasHistory
