import OrbitRelay.CanvasHistory

/-!
# Walks through the history of a Canvas

A client asks for the first page of a Canvas and follows `next_cursor` until a page
is complete. The store may grow and SQLite may fail meanwhile; what a page shows is
a matter of the Session's events before the checkpoint alone.
-/
namespace OrbitRelay.CanvasHistory

open Codec MachineInt Storage EventStore Canvas

variable {C : CanvasKernel}

/-- The checkpoint and the cursor that a continuation carries. -/
abbrev Bounds (C : CanvasKernel) := Option (C.EventStoreCheckpoint × C.EventCursor)

def requestOf (canvasId : C.CanvasId) : Bounds C → CanvasHistoryRequest C
  | none => .first canvasId
  | some (checkpoint, cursor) => .continuation canvasId checkpoint cursor

/-- A request with these bounds got this page, from a store that held `log` at the
capture of the checkpoint and at least that at the query. -/
def Answered (H : CanvasHistoryQueryHandler C) (W : Wire C) (h : Handle C) (canvasId : C.CanvasId)
    (log : List (Event C)) (bounds : Bounds C) (page : CanvasHistoryPageDto C) : Prop :=
  ∃ request atCapture atQuery payload later, W.decodeRequest request.payload = some (requestOf canvasId bounds) ∧
    (bounds = none → Represents atCapture.2 log) ∧ Represents atQuery.2 (log ++ later) ∧
    execute H W h request atCapture atQuery = .ok payload ∧ W.decodePage payload = some page

/-- A walk that ended with a complete page. -/
inductive FullWalk (H : CanvasHistoryQueryHandler C) (W : Wire C) (h : Handle C) (canvasId : C.CanvasId)
    (log : List (Event C)) : Bounds C → List (CanvasHistoryPageDto C) → Prop where
  | last (bounds : Bounds C) (page : CanvasHistoryPageDto C) : Answered H W h canvasId log bounds page →
      page.complete = true → FullWalk H W h canvasId log bounds [page]
  | more (bounds : Bounds C) (page : CanvasHistoryPageDto C) (cursor : C.EventCursor)
      (pages : List (CanvasHistoryPageDto C)) : Answered H W h canvasId log bounds page →
      page.complete = false → page.nextCursor = some cursor →
      FullWalk H W h canvasId log (some (page.checkpoint, cursor)) pages →
      FullWalk H W h canvasId log bounds (page :: pages)

/-- The bounds point at a position of the log. -/
structure PointsAt (h : Handle C) (log : List (Event C)) (bounds : Bounds C) (start : Nat) : Prop where
  first : bounds = none → start = 0
  next : ∀ checkpoint cursor, bounds = some (checkpoint, cursor) →
    checkpoint = C.checkpointFor h.physicalStoreId h.continuationEpoch log.length ∧
      queryStart h (some cursor) = .ok start
  le : start ≤ log.length

/-- What a walk has still to scan. -/
def remaining (sessionId : C.SessionId) (log : List (Event C)) (start : Nat) : List (Event C) :=
  (window (canvasEventFilter sessionId) start log.length log).map Prod.fst

theorem remaining_all (sessionId : C.SessionId) (log : List (Event C)) :
    remaining sessionId log 0 = log.filter (C.matchesEvent (canvasEventFilter sessionId)) := window_all _ log

variable {H : CanvasHistoryQueryHandler C} {W : Wire C} {h : Handle C} {canvasId : C.CanvasId}
  {sessionId : C.SessionId} {log : List (Event C)} {bounds : Bounds C} {page : CanvasHistoryPageDto C}
  {start : Nat}

theorem PointsAt.begin (h : Handle C) (log : List (Event C)) : PointsAt h log none 0 :=
  ⟨fun _ => rfl, fun _ _ => nofun, Nat.zero_le _⟩

theorem validate_canvasEventFilter (H : CanvasHistoryQueryHandler C) (sessionId : C.SessionId) :
    C.validate (canvasEventFilter sessionId) H.storeScanLimit = .ok () :=
  C.validate_untimed _ _ rfl H.scan_pos

/-- What a request with these bounds has found out before it queries the store. -/
theorem prepare_bounds {f : Faults} {request : QueryRequest W} {t : EventTable} {p : Prepared C}
    (hsession : H.getCanvas canvasId = .ok (some sessionId))
    (hd : W.decodeRequest request.payload = some (requestOf canvasId bounds))
    (hr : bounds = none → Represents t log) (hpoints : PointsAt h log bounds start)
    (hok : prepare H W f h request t = .ok p) :
    p.canvasId = canvasId ∧ p.sessionId = sessionId ∧
      p.checkpoint = C.checkpointFor h.physicalStoreId h.continuationEpoch log.length ∧
      queryStart h p.cursor = .ok start := by
  cases bounds with
  | none =>
    rw [prepare_first (hr rfl) hsession hd hok]
    refine ⟨rfl, rfl, rfl, ?_⟩
    rw [hpoints.first rfl]
    rfl
  | some b =>
    obtain ⟨checkpoint, cursor⟩ := b
    obtain ⟨hcheckpoint, hstart⟩ := hpoints.next checkpoint cursor rfl
    rw [prepare_continuation hsession hd hok]
    exact ⟨rfl, rfl, hcheckpoint, hstart⟩

/-- The page that the store returns under the checkpoint, whatever it has stored since. -/
theorem query_window {t : EventTable} {later : List (Event C)} (hr : Represents t (log ++ later))
    {cursor : Option C.EventCursor} (hstart : queryStart h cursor = .ok start) (hle : start ≤ log.length) :
    queryEvents Faults.none h ⟨canvasEventFilter sessionId, H.storeScanLimit,
        some (C.checkpointFor h.physicalStoreId h.continuationEpoch log.length), cursor⟩ t =
      .ok (pageOf h H.storeScanLimit (window (canvasEventFilter sessionId) start log.length log)) := by
  have hlen : log.length ≤ i64Max := by
    have := hr.length_le
    simp only [List.length_append] at this
    omega
  have hupper := queryUpperBound_own h (n := (log ++ later).length) hlen
  rw [hr.queryEvents_eq (validate_canvasEventFilter H sessionId) hupper (by simp) hstart hle]
  simp only [window_append]

/-- A page that is not the last one hands out a cursor to what it left over. -/
theorem pageOf_points (hle : log.length ≤ i64Max) {limit : Nat} (hlimit : 1 ≤ limit)
    (hmore : limit < (remaining sessionId log start).length) :
    ∃ cursor start', (pageOf h limit (window (canvasEventFilter sessionId) start log.length log)).nextCursor =
        some cursor ∧
      PointsAt h log (some (C.checkpointFor h.physicalStoreId h.continuationEpoch log.length, cursor)) start' ∧
      remaining sessionId log start' = (remaining sessionId log start).drop limit := by
  have hmore' : limit < (window (canvasEventFilter sessionId) start log.length log).length := by
    simpa [remaining] using hmore
  obtain ⟨before, p, hsplit, hnext⟩ := pageOf_more h hlimit hmore'
  have hplt : p.2 < log.length := (mem_window (by rw [hsplit]; simp)).2
  refine ⟨_, p.2 + 1, hnext, ⟨nofun, ?_, hplt⟩, ?_⟩
  · intro checkpoint cursor he
    cases he
    exact ⟨rfl, queryStart_own h (by omega)⟩
  · rw [remaining, window_after hsplit, remaining, List.map_drop]

theorem pageOf_isNone {limit : Nat} (hlimit : 1 ≤ limit) {events : List (Event C × Nat)} :
    (pageOf h limit events).nextCursor.isNone = decide (events.length ≤ limit) := by
  by_cases hmore : limit < events.length
  · obtain ⟨before, p, -, hnext⟩ := pageOf_more h hlimit hmore
    rw [hnext]
    simp [hmore]
  · have hlast : (pageOf h limit events).nextCursor = none := if_neg hmore
    rw [hlast]
    simpa using hmore

/-- What a page shows: a stretch of what remained, and a cursor to the rest of it. -/
structure Shows (H : CanvasHistoryQueryHandler C) (h : Handle C) (canvasId : C.CanvasId)
    (sessionId : C.SessionId) (log : List (Event C)) (start : Nat) (page : CanvasHistoryPageDto C) : Prop where
  canvas : page.canvasId = canvasId
  checkpoint : page.checkpoint = C.checkpointFor h.physicalStoreId h.continuationEpoch log.length
  events : collectEvents canvasId ((remaining sessionId log start).take H.storeScanLimit) = .ok page.events
  complete : page.complete = decide ((remaining sessionId log start).length ≤ H.storeScanLimit)
  next : page.complete = false → ∃ cursor start', page.nextCursor = some cursor ∧
    PointsAt h log (some (page.checkpoint, cursor)) start' ∧
    remaining sessionId log start' = (remaining sessionId log start).drop H.storeScanLimit

theorem Answered.shows (hsession : H.getCanvas canvasId = .ok (some sessionId))
    (hpoints : PointsAt h log bounds start) (ha : Answered H W h canvasId log bounds page) :
    Shows H h canvasId sessionId log start page := by
  obtain ⟨request, atCapture, atQuery, payload, later, hd, hcapture, hquery, hok, hpage⟩ := ha
  obtain ⟨p, hprepare, hanswer⟩ := bind_ok hok
  obtain ⟨hcanvas, hsid, hcheckpoint, hstart⟩ := prepare_bounds hsession hd hcapture hpoints hprepare
  obtain ⟨stored, dtos, hstored, hdtos, rfl⟩ := answer_ok hanswer hpage
  have hstored' := hquery.queryEvents_faultless hstored
  rw [hsid, hcheckpoint, query_window hquery hstart hpoints.le] at hstored'
  cases hstored'
  rw [pageOf_events, List.map_take, hcanvas] at hdtos
  have hlen : log.length ≤ i64Max := by
    have := hquery.length_le
    simp only [List.length_append] at this
    omega
  have hcomplete : (pageOf h H.storeScanLimit
      (window (canvasEventFilter sessionId) start log.length log)).nextCursor.isNone =
      decide ((remaining sessionId log start).length ≤ H.storeScanLimit) := by
    rw [pageOf_isNone H.scan_pos, remaining, List.length_map]
  refine ⟨hcanvas, hcheckpoint, hdtos, hcomplete, ?_⟩
  intro hfalse
  have hmore : H.storeScanLimit < (remaining sessionId log start).length := by
    rw [hcomplete] at hfalse
    simpa using hfalse
  obtain ⟨cursor, start', hnext, hpoints', hrest⟩ := pageOf_points hlen H.scan_pos hmore
  refine ⟨cursor, start', hnext, ?_, hrest⟩
  rw [show (⟨p.canvasId, p.checkpoint, dtos, _, _⟩ : CanvasHistoryPageDto C).checkpoint = p.checkpoint from rfl,
    hcheckpoint]
  exact hpoints'

end OrbitRelay.CanvasHistory
