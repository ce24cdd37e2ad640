import OrbitRelay.EventStorePaging

/-!
# Canvas events and the stroke reader

The part of the Canvas kernel that the server calls, as a parameter, and
`EventStoreCanvasStateReader`, which rebuilds one stroke from the pages of a
session query.
-/
namespace OrbitRelay.Canvas

open MachineInt Storage EventStore

inductive CanvasEventKind where
  | strokeBegan | strokePointsAppended | strokeCompleted | strokeCancelled | strokeRemoved
  deriving DecidableEq, Repr

/-- What the server reads of the five payload types. -/
structure StrokePayload (CanvasId StrokeId : Type) where
  canvasId : CanvasId
  strokeId : StrokeId
  deriving DecidableEq

inductive CanvasEventData (CanvasId StrokeId : Type) where
  | strokeBegan (payload : StrokePayload CanvasId StrokeId)
  | strokePointsAppended (payload : StrokePayload CanvasId StrokeId)
  | strokeCompleted (payload : StrokePayload CanvasId StrokeId)
  | strokeCancelled (payload : StrokePayload CanvasId StrokeId)
  | strokeRemoved (payload : StrokePayload CanvasId StrokeId)
  deriving DecidableEq

def CanvasEventData.payload {CanvasId StrokeId : Type} :
    CanvasEventData CanvasId StrokeId → StrokePayload CanvasId StrokeId
  | .strokeBegan p | .strokePointsAppended p | .strokeCompleted p | .strokeCancelled p
  | .strokeRemoved p => p

structure CanvasKernel extends Kernel where
  CanvasId : Type
  StrokeId : Type
  StrokeProjection : Type
  CanvasError : Type
  [decCanvasId : DecidableEq CanvasId]
  [decStrokeId : DecidableEq StrokeId]
  /-- The five `STROKE_…_EVENT_TYPE` constants. -/
  eventTypeOf : CanvasEventKind → EventType
  /-- `CanvasEventKind::from_event_type`. -/
  fromEventType : EventType → Option CanvasEventKind
  fromEventType_iff : ∀ t k, fromEventType t = some k ↔ eventTypeOf k = t
  /-- `CanvasEventData::try_from`. -/
  tryFrom : Event toTypes → Except CanvasError (CanvasEventData CanvasId StrokeId)
  /-- `StrokeProjector::apply`. -/
  apply : Option StrokeProjection → Event toTypes → Except CanvasError StrokeProjection
  /-- The page size of a query that sets none. -/
  defaultLimit : Nat
  defaultLimit_pos : 1 ≤ defaultLimit

attribute [instance] CanvasKernel.decCanvasId CanvasKernel.decStrokeId

instance : CoeOut CanvasKernel Kernel := ⟨CanvasKernel.toKernel⟩

variable {C : CanvasKernel}

inductive CanvasStateReadError (C : CanvasKernel) where
  | unavailable (detail : String)
  | projectionCorrupted (source : C.CanvasError)

def mapStorageError : StorageError C → CanvasStateReadError C
  | .backendUnavailable message | .backendFailure message => .unavailable message
  | _ => .unavailable "event store query failed"

/-- `EventQuery::for_session`. -/
def forSession (sessionId : C.SessionId) : EventFilter C := ⟨some sessionId, none, [], none⟩

/-- The body of the event loop in `load_stroke`. -/
def replayEvent (canvasId : C.CanvasId) (strokeId : C.StrokeId) (projection : Option C.StrokeProjection)
    (event : Event C) : Except (CanvasStateReadError C) (Option C.StrokeProjection) :=
  match C.fromEventType event.eventType with
  | none => .ok projection
  | some _ =>
    match C.tryFrom event with
    | .error source => .error (.projectionCorrupted source)
    | .ok data =>
      if data.payload.canvasId ≠ canvasId ∨ data.payload.strokeId ≠ strokeId then .ok projection
      else match C.apply projection event with
        | .error source => .error (.projectionCorrupted source)
        | .ok next => .ok (some next)

def replay (canvasId : C.CanvasId) (strokeId : C.StrokeId) :
    Option C.StrokeProjection → List (Event C) →
      Except (CanvasStateReadError C) (Option C.StrokeProjection)
  | projection, [] => .ok projection
  | projection, event :: rest =>
    match replayEvent canvasId strokeId projection event with
    | .error e => .error e
    | .ok next => replay canvasId strokeId next rest

/-- `load_stroke`: one page after the other, each folded into the projection.
Before the `k`-th request the worker serves `between k`; fuel bounds the requests. -/
def loadStroke (f : Nat → Faults) (h : Handle C) (sessionId : C.SessionId) (canvasId : C.CanvasId)
    (strokeId : C.StrokeId) (between : Nat → Traffic C) :
    Nat → Nat → Db → Option C.EventCursor → Option C.StrokeProjection →
      Option (Except (CanvasStateReadError C) (Option C.StrokeProjection))
  | 0, _, _, _, _ => none
  | fuel + 1, k, db, cursor, projection =>
    let db := serve h db (between k)
    match queryEvents (f k) h ⟨forSession sessionId, C.defaultLimit, none, cursor⟩ db.events with
    | .error e => some (.error (mapStorageError e))
    | .ok page =>
      match replay canvasId strokeId projection (page.events.map StoredEvent.event) with
      | .error e => some (.error e)
      | .ok projection =>
        match page.nextCursor with
        | none => some (.ok projection)
        | some next => loadStroke f h sessionId canvasId strokeId between fuel (k + 1) db (some next) projection

/-- The fold of `StrokeProjector::apply` over the events of one stroke. -/
def project : Option C.StrokeProjection → List (Event C) → Except C.CanvasError (Option C.StrokeProjection)
  | projection, [] => .ok projection
  | projection, event :: rest =>
    match C.apply projection event with
    | .error source => .error source
    | .ok next => project (some next) rest

theorem replay_append (canvasId : C.CanvasId) (strokeId : C.StrokeId)
    (projection : Option C.StrokeProjection) (xs ys : List (Event C)) :
    replay canvasId strokeId projection (xs ++ ys) =
      match replay canvasId strokeId projection xs with
      | .error e => .error e
      | .ok next => replay canvasId strokeId next ys := by
  induction xs generalizing projection with
  | nil => rfl
  | cons x xs ih =>
    simp only [List.cons_append, replay]
    cases replayEvent canvasId strokeId projection x with
    | error e => rfl
    | ok next => exact ih next

/-- With no writer in between, the reader ends and has replayed the session once. -/
theorem loadStroke_quiet {h : Handle C} {sessionId : C.SessionId} {canvasId : C.CanvasId}
    {strokeId : C.StrokeId} {db : Db} {log : List (Event C)} (hr : Represents db.events log)
    (fuel k : Nat) {cursor : Option C.EventCursor} {n : Nat} (projection : Option C.StrokeProjection)
    (hcursor : queryStart h cursor = .ok n) (hn : n ≤ log.length)
    (hfuel : (window (forSession sessionId) n log.length log).length < fuel) :
    loadStroke (fun _ => Faults.none) h sessionId canvasId strokeId (fun _ => []) fuel k db cursor
        projection =
      some (replay canvasId strokeId projection
        ((window (forSession sessionId) n log.length log).map Prod.fst)) := by
  induction fuel generalizing k cursor n projection with
  | zero => omega
  | succ fuel ih =>
    have hv : C.validate (forSession sessionId) C.defaultLimit = .ok () :=
      C.validate_untimed _ _ rfl C.defaultLimit_pos
    have hpage := hr.queryEvents_eq (q := ⟨forSession sessionId, C.defaultLimit, none, cursor⟩)
      hv rfl (Nat.le_refl _) hcursor hn
    simp only [loadStroke, serve, List.foldl_nil, hpage, pageOf_events]
    by_cases hmore : C.defaultLimit < (window (forSession sessionId) n log.length log).length
    · obtain ⟨before, p, hsplit, hnext⟩ := pageOf_more h C.defaultLimit_pos hmore
      have hplt : p.2 < log.length := (mem_window (by rw [hsplit]; simp)).2
      have hp : p.2 ≤ i64Max := Nat.le_trans (Nat.le_of_lt hplt) hr.length_le
      have hrest := window_after hsplit
      have hsplit' := List.take_append_drop C.defaultLimit (window (forSession sessionId) n log.length log)
      conv_rhs => rw [← hsplit', List.map_append, replay_append]
      cases replay canvasId strokeId projection
        (((window (forSession sessionId) n log.length log).take C.defaultLimit).map Prod.fst) with
      | error e => rfl
      | ok next =>
        simp only [hnext]
        have hdrop : (window (forSession sessionId) (p.2 + 1) log.length log).length < fuel := by
          have := C.defaultLimit_pos
          rw [hrest, List.length_drop]
          omega
        rw [ih (k + 1) next (queryStart_own h hp) hplt hdrop, hrest]
    · have hlast : (pageOf h C.defaultLimit (window (forSession sessionId) n log.length log)).nextCursor =
        none := if_neg hmore
      rw [List.take_of_length_le (by omega)]
      simp only [hlast]
      cases replay canvasId strokeId projection
        ((window (forSession sessionId) n log.length log).map Prod.fst) with
      | error e => rfl
      | ok next => rfl

/-- A Canvas kernel over texts that knows one stroke, for concrete runs. -/
def textCanvas : CanvasKernel where
  toKernel := textKernel
  CanvasId := String
  StrokeId := String
  StrokeProjection := List textKernel.EventId
  CanvasError := String
  eventTypeOf
    | .strokeBegan => ⟨"canvas.stroke.began"⟩
    | .strokePointsAppended => ⟨"canvas.stroke.points_appended"⟩
    | .strokeCompleted => ⟨"canvas.stroke.completed"⟩
    | .strokeCancelled => ⟨"canvas.stroke.cancelled"⟩
    | .strokeRemoved => ⟨"canvas.stroke.removed"⟩
  fromEventType t :=
    if t = ⟨"canvas.stroke.began"⟩ then some .strokeBegan
    else if t = ⟨"canvas.stroke.points_appended"⟩ then some .strokePointsAppended
    else if t = ⟨"canvas.stroke.completed"⟩ then some .strokeCompleted
    else if t = ⟨"canvas.stroke.cancelled"⟩ then some .strokeCancelled
    else if t = ⟨"canvas.stroke.removed"⟩ then some .strokeRemoved
    else none
  fromEventType_iff t k := by
    cases k <;> split_ifs <;> simp_all [eq_comm]
  tryFrom e :=
    if e.payload = (sampleEvent "").payload then
      .ok (if e.eventType = ⟨"canvas.stroke.began"⟩ then .strokeBegan ⟨"cccccccc", "55555555"⟩
        else .strokePointsAppended ⟨"cccccccc", "55555555"⟩)
    else .error "invalid payload"
  apply projection e :=
    match projection, e.eventType.asStr with
    | none, "canvas.stroke.began" => .ok [e.id]
    | some events, "canvas.stroke.points_appended" => .ok (events ++ [e.id])
    | _, _ => .error "unexpected event"
  defaultLimit := 100
  defaultLimit_pos := by decide

end OrbitRelay.Canvas
