import OrbitRelay.HistoryText
import Mathlib.Tactic.IntervalCases

/-!
# Page sizes of a history walk

Pages are cut by a count of scanned events and checked by the size of their encoding.
A walk ends with a complete page exactly if every page that the scan limit cuts passes
that check; one that does not is refused again and again.
-/
namespace OrbitRelay.CanvasHistory

open Codec MachineInt Storage EventStore Canvas

variable {C : CanvasKernel}

/-- The page that starts at a position of the log, before it is encoded. -/
def pageAt (H : CanvasHistoryQueryHandler C) (h : Handle C) (canvasId : C.CanvasId) (sessionId : C.SessionId)
    (log : List (Event C)) (start : Nat) : Except QueryHandlerError (CanvasHistoryPageDto C) := do
  let stored := pageOf h H.storeScanLimit (window (canvasEventFilter sessionId) start log.length log)
  let events ← collectEvents canvasId (stored.events.map StoredEvent.event)
  .ok ⟨canvasId, C.checkpointFor h.physicalStoreId h.continuationEpoch log.length, events, stored.nextCursor,
    stored.nextCursor.isNone⟩

/-- Encode a page and check its size. -/
def respond (H : CanvasHistoryQueryHandler C) (W : Wire C) (request : QueryRequest W)
    (page : CanvasHistoryPageDto C) : Except QueryHandlerError C.Payload := do
  let payload ← okOr .internal (W.encodePage page)
  guardResponseSize W request payload H.maxMessageBytes
  .ok payload

variable {H : CanvasHistoryQueryHandler C} {W : Wire C} {h : Handle C} {canvasId : C.CanvasId}
  {sessionId : C.SessionId} {log : List (Event C)} {bounds : Bounds C} {page : CanvasHistoryPageDto C}
  {start : Nat}

/-- Without a fault of SQLite a request is answered with the page at its position, if that passes. -/
theorem execute_pageAt (hsession : H.getCanvas canvasId = .ok (some sessionId))
    (hauth : H.authorizeSessionRead sessionId = .ok ()) {request : QueryRequest W}
    (hd : W.decodeRequest request.payload = some (requestOf canvasId bounds)) {atCapture atQuery : EventTable}
    {later : List (Event C)} (hcapture : bounds = none → Represents atCapture log)
    (hquery : Represents atQuery (log ++ later)) (hpoints : PointsAt h log bounds start) :
    execute H W h request (Faults.none, atCapture) (Faults.none, atQuery) =
      pageAt H h canvasId sessionId log start >>= respond H W request := by
  obtain ⟨p, hprepare⟩ : ∃ p, prepare H W Faults.none h request atCapture = .ok p := by
    cases bounds with
    | none =>
      refine ⟨⟨canvasId, sessionId, C.checkpointFor h.physicalStoreId h.continuationEpoch log.length, none⟩, ?_⟩
      simp [prepare, hd, requestOf, hsession, hauth, (hcapture rfl).captureCheckpoint_eq h]
    | some b =>
      refine ⟨⟨canvasId, sessionId, b.1, some b.2⟩, ?_⟩
      simp [prepare, hd, requestOf, hsession, hauth]
  obtain ⟨hcanvas, hsid, hcheckpoint, hstart⟩ := prepare_bounds hsession hd hcapture hpoints hprepare
  simp only [execute, hprepare, ok_bind, answer, hsid, hcheckpoint, query_window hquery hstart hpoints.le, hcanvas]
  cases hc : collectEvents canvasId ((pageOf h H.storeScanLimit
      (window (canvasEventFilter sessionId) start log.length log)).events.map StoredEvent.event) with
  | error e => simp only [pageAt, hc, error_bind]
  | ok events =>
    simp only [pageAt, hc, ok_bind]
    rfl

/-- The walk of a client that sends its `k`-th request for the bounds it has reached, while
the store is as given at the capture and the query of each request; fuel bounds the requests. -/
def historyWalk (H : CanvasHistoryQueryHandler C) (W : Wire C) (h : Handle C)
    (request : Nat → Bounds C → QueryRequest W) (store : Nat → EventTable × EventTable) :
    Nat → Nat → Bounds C → Option (Except QueryHandlerError (List (CanvasHistoryPageDto C)))
  | 0, _, _ => none
  | fuel + 1, k, bounds =>
    match execute H W h (request k bounds) (Faults.none, (store k).1) (Faults.none, (store k).2) with
    | .error e => some (.error e)
    | .ok payload =>
      match W.decodePage payload with
      | none => none
      | some page =>
        match page.nextCursor with
        | none => some (.ok [page])
        | some cursor =>
          match historyWalk H W h request store fuel (k + 1) (some (page.checkpoint, cursor)) with
          | some (.ok pages) => some (.ok (page :: pages))
          | other => other

/-- The position where the `k`-th page starts. -/
def cut (limit : Nat) (sessionId : C.SessionId) (log : List (Event C)) : Nat → Nat
  | 0 => 0
  | k + 1 =>
    match ((window (canvasEventFilter sessionId) (cut limit sessionId log k) log.length log).take limit).getLast? with
    | none => log.length
    | some p => p.2 + 1

/-- The bounds that the `k`-th request of a walk carries. -/
def boundsAt (H : CanvasHistoryQueryHandler C) (h : Handle C) (sessionId : C.SessionId) (log : List (Event C)) :
    Nat → Bounds C
  | 0 => none
  | k + 1 => some (C.checkpointFor h.physicalStoreId h.continuationEpoch log.length,
      C.cursorFor h.physicalStoreId h.continuationEpoch (cut H.storeScanLimit sessionId log (k + 1)))

/-- The scan limit cuts a page with this number. -/
def IsPage (H : CanvasHistoryQueryHandler C) (sessionId : C.SessionId) (log : List (Event C)) (k : Nat) : Prop :=
  k = 0 ∨ k * H.storeScanLimit < (remaining sessionId log 0).length

/-- The page with this number decodes and passes the size check of its response. -/
def PagePasses (H : CanvasHistoryQueryHandler C) (W : Wire C) (h : Handle C) (canvasId : C.CanvasId)
    (sessionId : C.SessionId) (log : List (Event C)) (request : QueryRequest W) (k : Nat) : Prop :=
  ∃ page payload, pageAt H h canvasId sessionId log (cut H.storeScanLimit sessionId log k) = .ok page ∧
    respond H W request page = .ok payload

theorem cut_succ {k : Nat}
    (hmore : H.storeScanLimit < (remaining sessionId log (cut H.storeScanLimit sessionId log k)).length) :
    ∃ before p, window (canvasEventFilter sessionId) (cut H.storeScanLimit sessionId log k) log.length log =
        before ++ p :: (window (canvasEventFilter sessionId) (cut H.storeScanLimit sessionId log k) log.length
          log).drop H.storeScanLimit ∧
      cut H.storeScanLimit sessionId log (k + 1) = p.2 + 1 ∧
      (pageOf h H.storeScanLimit (window (canvasEventFilter sessionId) (cut H.storeScanLimit sessionId log k)
        log.length log)).nextCursor = some (C.cursorFor h.physicalStoreId h.continuationEpoch (p.2 + 1)) := by
  generalize hw : window (canvasEventFilter sessionId) (cut H.storeScanLimit sessionId log k) log.length log = events
  have hmore' : H.storeScanLimit < events.length := by
    rw [remaining, hw] at hmore
    simpa using hmore
  obtain ⟨before, p, hsplit, hnext⟩ := pageOf_more h H.scan_pos hmore'
  refine ⟨before, p, hsplit, ?_, hnext⟩
  have htake : events.take H.storeScanLimit = before ++ [p] := by
    have heq : events.take H.storeScanLimit ++ events.drop H.storeScanLimit =
        (before ++ [p]) ++ events.drop H.storeScanLimit := by
      rw [List.take_append_drop, List.append_assoc]
      exact hsplit
    exact List.append_cancel_right heq
  rw [cut, hw, htake]
  simp

/-- Where the walk is before its `k`-th page, and what is left then. -/
theorem page_points (H : CanvasHistoryQueryHandler C) (h : Handle C) (hlen : log.length ≤ i64Max) {k : Nat}
    (hk : IsPage H sessionId log k) :
    PointsAt h log (boundsAt H h sessionId log k) (cut H.storeScanLimit sessionId log k) ∧
      remaining sessionId log (cut H.storeScanLimit sessionId log k) =
        (remaining sessionId log 0).drop (k * H.storeScanLimit) := by
  induction k with
  | zero => exact ⟨.begin h log, by simp [cut]⟩
  | succ k ih =>
    have hlt : (k + 1) * H.storeScanLimit < (remaining sessionId log 0).length :=
      hk.resolve_left (Nat.succ_ne_zero k)
    have hsucc : (k + 1) * H.storeScanLimit = k * H.storeScanLimit + H.storeScanLimit := Nat.succ_mul _ _
    obtain ⟨-, hrest⟩ := ih (.inr (by omega))
    have hmore : H.storeScanLimit < (remaining sessionId log (cut H.storeScanLimit sessionId log k)).length := by
      rw [hrest, List.length_drop]
      omega
    obtain ⟨before, p, hsplit, hcut, -⟩ := cut_succ (h := h) hmore
    have hplt : p.2 < log.length := (mem_window (by rw [hsplit]; simp)).2
    constructor
    · refine ⟨nofun, ?_, by omega⟩
      intro checkpoint cursor he
      cases he
      rw [hcut]
      exact ⟨rfl, queryStart_own h (by omega)⟩
    · rw [hcut, remaining, window_after hsplit, List.map_drop]
      change (remaining sessionId log (cut H.storeScanLimit sessionId log k)).drop _ = _
      rw [hrest, List.drop_drop, hsucc]

theorem collectEvents_error {events : List (Event C)} {e : QueryHandlerError}
    (herror : collectEvents canvasId events = .error e) : e = .internal := by
  induction events with
  | nil => cases herror
  | cons event events ih =>
    rw [collectEvents] at herror
    split at herror
    · cases herror
      rfl
    · split at herror
      · cases herror
        rfl
      · cases hrest : collectEvents canvasId events with
        | error e' =>
          rw [hrest] at herror
          cases herror
          exact ih hrest
        | ok rest =>
          rw [hrest] at herror
          cases herror

theorem respond_eq {request : QueryRequest W} {payload : C.Payload} {size : Nat}
    (hpayload : W.encodePage page = some payload)
    (hsize : W.encodedSize request.requestId request.queryType payload = some size) :
    respond H W request page = if H.maxMessageBytes < size then .error .internal else .ok payload := by
  rw [respond, hpayload, okOr_some, ok_bind, guardResponseSize, hsize]
  by_cases hlt : H.maxMessageBytes < size
  · simp only [if_pos hlt, error_bind]
  · simp only [if_neg hlt, ok_bind]

theorem respond_error {request : QueryRequest W} {e : QueryHandlerError}
    (herror : respond H W request page = .error e) : e = .internal := by
  unfold respond at herror
  cases hp : W.encodePage page with
  | none =>
    rw [hp] at herror
    cases herror
    rfl
  | some payload =>
    rw [hp, okOr_some, ok_bind] at herror
    unfold guardResponseSize at herror
    split at herror
    · cases herror
      rfl
    · split at herror
      · cases herror
        rfl
      · cases herror

/-- A page that does not pass is refused with an internal error. -/
theorem refused_internal {request : QueryRequest W} {k : Nat}
    (hrefused : ¬ PagePasses H W h canvasId sessionId log request k) :
    pageAt H h canvasId sessionId log (cut H.storeScanLimit sessionId log k) >>= respond H W request =
      .error .internal := by
  cases hp : pageAt H h canvasId sessionId log (cut H.storeScanLimit sessionId log k) with
  | error e =>
    rw [error_bind]
    unfold pageAt at hp
    cases hc : collectEvents canvasId ((pageOf h H.storeScanLimit (window (canvasEventFilter sessionId)
        (cut H.storeScanLimit sessionId log k) log.length log)).events.map StoredEvent.event) with
    | error e' =>
      simp only [hc, error_bind] at hp
      cases hp
      rw [collectEvents_error hc]
    | ok events =>
      simp only [hc, ok_bind] at hp
      cases hp
  | ok page =>
    rw [ok_bind]
    cases hr : respond H W request page with
    | error e => rw [respond_error hr]
    | ok payload => exact absurd ⟨page, payload, hp, hr⟩ hrefused

theorem respond_ok {request : QueryRequest W} {payload : C.Payload} (hok : respond H W request page = .ok payload) :
    W.decodePage payload = some page := by
  obtain ⟨encoded, henc, hok⟩ := bind_ok hok
  obtain ⟨-, -, hok⟩ := bind_ok hok
  cases hok
  exact W.decodePage_encodePage _ _ (okOr_eq_ok.mp henc)

/-- Whether a page that passed is the last one, and where the client goes on. -/
theorem pageAt_next {k : Nat} (hlen : log.length ≤ i64Max) (hk : IsPage H sessionId log k)
    (hp : pageAt H h canvasId sessionId log (cut H.storeScanLimit sessionId log k) = .ok page) :
    (IsPage H sessionId log (k + 1) → page.complete = false ∧ ∃ cursor, page.nextCursor = some cursor ∧
      some (page.checkpoint, cursor) = boundsAt H h sessionId log (k + 1)) ∧
    (¬ IsPage H sessionId log (k + 1) → page.complete = true ∧ page.nextCursor = none) := by
  obtain ⟨-, hrest⟩ := page_points H h hlen hk
  have hsucc : (k + 1) * H.storeScanLimit = k * H.storeScanLimit + H.storeScanLimit := Nat.succ_mul _ _
  obtain ⟨events, -, hp⟩ := bind_ok hp
  cases hp
  have hiff : IsPage H sessionId log (k + 1) ↔
      H.storeScanLimit < (remaining sessionId log (cut H.storeScanLimit sessionId log k)).length := by
    rw [hrest, List.length_drop, IsPage, hsucc]
    omega
  rw [hiff]
  constructor
  · intro hmore
    obtain ⟨before, p, -, hcut, hnext⟩ := cut_succ (h := h) hmore
    refine ⟨by rw [hnext]; rfl, _, hnext, ?_⟩
    rw [boundsAt, hcut]
  · intro hmore
    have hlast : (pageOf h H.storeScanLimit (window (canvasEventFilter sessionId)
        (cut H.storeScanLimit sessionId log k) log.length log)).nextCursor = none := by
      refine if_neg ?_
      simpa [remaining] using hmore
    exact ⟨by rw [hlast]; rfl, hlast⟩

/-- A client that may read the Canvas, and the store that it walks through: `log` is stored
when its first request captures the checkpoint, and nothing of it is lost later. -/
structure Visit (H : CanvasHistoryQueryHandler C) (W : Wire C) (canvasId : C.CanvasId)
    (sessionId : C.SessionId) (log : List (Event C)) (request : Nat → Bounds C → QueryRequest W)
    (store : Nat → EventTable × EventTable) : Prop where
  found : H.getCanvas canvasId = .ok (some sessionId)
  authorized : H.authorizeSessionRead sessionId = .ok ()
  requests : ∀ k bounds, W.decodeRequest (request k bounds).payload = some (requestOf canvasId bounds)
  captured : Represents (store 0).1 log
  stored : ∀ k, ∃ later, Represents (store k).2 (log ++ later)

section Visit

variable {request : Nat → Bounds C → QueryRequest W} {store : Nat → EventTable × EventTable}

theorem Visit.length_le (hv : Visit H W canvasId sessionId log request store) : log.length ≤ i64Max :=
  hv.captured.length_le

theorem Visit.captured_first (hv : Visit H W canvasId sessionId log request store) (h : Handle C) {k : Nat}
    (hnone : boundsAt H h sessionId log k = none) : Represents (store k).1 log := by
  cases k with
  | zero => exact hv.captured
  | succ k => cases hnone

theorem Visit.execute (hv : Visit H W canvasId sessionId log request store) {k : Nat}
    (hk : IsPage H sessionId log k) :
    CanvasHistory.execute H W h (request k (boundsAt H h sessionId log k)) (Faults.none, (store k).1)
        (Faults.none, (store k).2) =
      pageAt H h canvasId sessionId log (cut H.storeScanLimit sessionId log k) >>=
        respond H W (request k (boundsAt H h sessionId log k)) := by
  obtain ⟨later, hlater⟩ := hv.stored k
  exact execute_pageAt hv.found hv.authorized (hv.requests k _) (hv.captured_first h) hlater
    (page_points H h hv.length_le hk).1

theorem Visit.answered (hv : Visit H W canvasId sessionId log request store) {k : Nat} {payload : C.Payload}
    (hok : CanvasHistory.execute H W h (request k (boundsAt H h sessionId log k)) (Faults.none, (store k).1)
      (Faults.none, (store k).2) = .ok payload) (hpage : W.decodePage payload = some page) :
    Answered H W h canvasId log (boundsAt H h sessionId log k) page := by
  obtain ⟨later, hlater⟩ := hv.stored k
  exact ⟨_, _, _, payload, later, hv.requests k _, hv.captured_first h, hlater, hok, hpage⟩

/-- The pages from the `k`-th one on all pass. -/
def AllPass (H : CanvasHistoryQueryHandler C) (W : Wire C) (h : Handle C) (canvasId : C.CanvasId)
    (sessionId : C.SessionId) (log : List (Event C)) (request : Nat → Bounds C → QueryRequest W) (k : Nat) : Prop :=
  ∀ j, k ≤ j → IsPage H sessionId log j →
    PagePasses H W h canvasId sessionId log (request j (boundsAt H h sessionId log j)) j

/-- Incomplete pages and then a complete one. -/
inductive Completed : List (CanvasHistoryPageDto C) → Prop where
  | last (page : CanvasHistoryPageDto C) : page.complete = true → Completed [page]
  | more (page : CanvasHistoryPageDto C) (pages : List (CanvasHistoryPageDto C)) : page.complete = false →
      Completed pages → Completed (page :: pages)

theorem IsPage.of_le {j k : Nat} (hj : IsPage H sessionId log j) (hkj : k ≤ j) : IsPage H sessionId log k := by
  rcases hj with rfl | hj
  · exact .inl (Nat.le_zero.mp hkj)
  · exact .inr (lt_of_le_of_lt (Nat.mul_le_mul_right _ hkj) hj)

theorem allPass_iff {k : Nat}
    (hpass : PagePasses H W h canvasId sessionId log (request k (boundsAt H h sessionId log k)) k) :
    AllPass H W h canvasId sessionId log request k ↔ AllPass H W h canvasId sessionId log request (k + 1) := by
  constructor
  · intro hall j hj
    exact hall j (by omega)
  · intro hall j hj hpage
    by_cases hjk : j = k
    · subst hjk
      exact hpass
    · exact hall j (by omega) hpage

/-- A page that does not pass ends the walk. -/
theorem walk_refused (hv : Visit H W canvasId sessionId log request store) (fuel : Nat) {k : Nat}
    (hk : IsPage H sessionId log k)
    (hrefused : ¬ PagePasses H W h canvasId sessionId log (request k (boundsAt H h sessionId log k)) k) :
    historyWalk H W h request store (fuel + 1) k (boundsAt H h sessionId log k) = some (.error .internal) := by
  have hexecute := hv.execute (h := h) hk
  rw [refused_internal hrefused] at hexecute
  rw [historyWalk, hexecute]

/-- A walk from its `k`-th page on: induction on what is left to scan. -/
theorem walk_from (hv : Visit H W canvasId sessionId log request store) (fuel : Nat) {k : Nat}
    (hk : IsPage H sessionId log k) (hfuel : (remaining sessionId log 0).length < k * H.storeScanLimit + fuel) :
    (AllPass H W h canvasId sessionId log request k → ∃ pages, Completed pages ∧
      FullWalk H W h canvasId log (boundsAt H h sessionId log k) pages ∧
      historyWalk H W h request store fuel k (boundsAt H h sessionId log k) = some (.ok pages)) ∧
    (¬ AllPass H W h canvasId sessionId log request k →
      historyWalk H W h request store fuel k (boundsAt H h sessionId log k) = some (.error .internal)) := by
  induction fuel generalizing k with
  | zero =>
    rcases hk with rfl | hk
    · omega
    · omega
  | succ fuel ih =>
    by_cases hpass : PagePasses H W h canvasId sessionId log (request k (boundsAt H h sessionId log k)) k
    · have hexecute := hv.execute (h := h) hk
      rw [allPass_iff hpass]
      obtain ⟨page, payload, hp, hr⟩ := hpass
      rw [hp, ok_bind, hr] at hexecute
      have hanswered := hv.answered hexecute (respond_ok hr)
      obtain ⟨hmore, hlast⟩ := pageAt_next hv.length_le hk hp
      rw [historyWalk, hexecute]
      simp only [respond_ok hr]
      by_cases hnext : IsPage H sessionId log (k + 1)
      · obtain ⟨hcomplete, cursor, hcursor, hbounds⟩ := hmore hnext
        have hsucc : (k + 1) * H.storeScanLimit = k * H.storeScanLimit + H.storeScanLimit := Nat.succ_mul _ _
        have hpos := H.scan_pos
        obtain ⟨hall, hnot⟩ := ih hnext (by omega)
        simp only [hcursor, hbounds]
        constructor
        · intro hpass
          obtain ⟨pages, hpages, hfull, hwalk⟩ := hall hpass
          refine ⟨page :: pages, .more page pages hcomplete hpages, ?_, by simp only [hwalk]⟩
          rw [← hbounds] at hfull
          exact .more _ page cursor pages hanswered hcomplete hcursor hfull
        · intro hfail
          simp only [hnot hfail]
      · obtain ⟨hcomplete, hnone⟩ := hlast hnext
        simp only [hnone]
        refine ⟨fun _ => ⟨[page], .last page hcomplete, .last _ page hanswered hcomplete, rfl⟩, ?_⟩
        intro hfail
        exact absurd (fun j hj hpage => absurd (hpage.of_le hj) hnext) hfail
    · have hfail : ¬ AllPass H W h canvasId sessionId log request k := fun hall => hpass (hall k (le_refl k) hk)
      exact ⟨fun hall => absurd hall hfail, fun _ => walk_refused hv fuel hk hpass⟩

/-- With fuel for every event a walk reaches a complete page, or fails at a page that does
not pass. -/
theorem history_walk_complete (H : CanvasHistoryQueryHandler C) (W : Wire C) (h : Handle C)
    (canvasId : C.CanvasId) (sessionId : C.SessionId) (log : List (Event C))
    (request : Nat → Bounds C → QueryRequest W) (store : Nat → EventTable × EventTable)
    (hv : Visit H W canvasId sessionId log request store) (fuel : Nat)
    (hfuel : (remaining sessionId log 0).length < fuel) :
    ((∀ k, IsPage H sessionId log k →
        PagePasses H W h canvasId sessionId log (request k (boundsAt H h sessionId log k)) k) →
      ∃ pages, Completed pages ∧ historyWalk H W h request store fuel 0 none = some (.ok pages)) ∧
    ((∃ k, IsPage H sessionId log k ∧
        ¬ PagePasses H W h canvasId sessionId log (request k (boundsAt H h sessionId log k)) k) →
      historyWalk H W h request store fuel 0 none = some (.error .internal)) := by
  obtain ⟨hall, hfail⟩ := walk_from (h := h) hv fuel (.inl rfl) (by omega)
  constructor
  · intro hpass
    obtain ⟨pages, hpages, -, hwalk⟩ := hall (fun j _ hpage => hpass j hpage)
    exact ⟨pages, hpages, hwalk⟩
  · rintro ⟨k, hk, hnot⟩
    exact hfail (fun hpass => hnot (hpass k (Nat.zero_le k) hk))

end Visit

/-- The stroke of `sampleStore` goes on. -/
def appendedEvent : Event textCanvas :=
  { sampleEvent "88888888-event" with eventType := ⟨"canvas.stroke.points_appended"⟩ }

def sampleHistory : List (Event textCanvas) := [sampleEvent "99999999-event", appendedEvent]

def sampleTable : EventTable :=
  (EventStore.execute Faults.none sampleHandle sampleStore.db (.append appendedEvent)).2.events

/-- A handler that knows one Canvas and takes responses of at most 400 bytes. -/
def sampleReader (storeScanLimit : Nat) (hpos : 1 ≤ storeScanLimit)
    (hle : storeScanLimit ≤ maxHistoryStoreScanLimit) : CanvasHistoryQueryHandler textCanvas where
  getCanvas := fun (canvasId : String) => .ok (if canvasId = "cccccccc" then some "22222222-session" else none)
  authorizeSessionRead := fun (sessionId : String) =>
    if sessionId = "22222222-session" then .ok () else .error .unauthorized
  storeScanLimit := storeScanLimit
  maxMessageBytes := 400
  scan_pos := hpos
  scan_le := hle
  message_pos := by decide

theorem sampleReader_visit {n : Nat} (hpos : 1 ≤ n) (hle : n ≤ maxHistoryStoreScanLimit)
    {t : EventTable} {log : List (Event textCanvas)} (hr : Represents t log) :
    Visit (sampleReader n hpos hle) textWire "cccccccc" "22222222-session" log (textRequest "cccccccc")
      (fun _ => (t, t)) where
  found := rfl
  authorized := rfl
  requests := decodeRequest_textRequest "cccccccc"
  captured := hr
  stored := fun _ => ⟨[], by simpa using hr⟩

theorem sampleTable_represents : Represents (K := textKernel) sampleTable sampleHistory := ⟨rfl, rfl, trivial⟩

theorem respond_textRequest {H : CanvasHistoryQueryHandler textCanvas} {canvasId : String} {k : Nat}
    {bounds : Bounds textCanvas} {page : CanvasHistoryPageDto textCanvas} :
    respond H textWire (textRequest canvasId k bounds) page =
      if H.maxMessageBytes < 119 + (textOf (pageFields page)).utf8ByteSize then .error .internal
      else .ok (textOf (pageFields page)) :=
  respond_eq rfl rfl

/-- The tokens that a page of `sampleHistory` may hand out. -/
def sampleNext : List (Option textCanvas.EventCursor) :=
  [none, some (textCanvas.cursorFor sampleHandle.physicalStoreId sampleHandle.continuationEpoch 1),
    some (textCanvas.cursorFor sampleHandle.physicalStoreId sampleHandle.continuationEpoch 2)]

def sampleCheckpoint (position : Nat) : textCanvas.EventStoreCheckpoint :=
  textCanvas.checkpointFor sampleHandle.physicalStoreId sampleHandle.continuationEpoch position

theorem sampleEvent_size : (textOf (dtoFields (.fromEvent (sampleEvent "99999999-event")))).utf8ByteSize = 145 := by
  decide +kernel

theorem appendedEvent_size : (textOf (dtoFields (.fromEvent appendedEvent))).utf8ByteSize = 155 := by
  decide +kernel

theorem sampleNext_size : ∀ position ∈ [2, 3], ∀ next ∈ sampleNext,
    (textOf (headFields "cccccccc" (sampleCheckpoint position) next next.isNone)).utf8ByteSize ≤ 80 ∧
      49 ≤ (textOf (headFields "cccccccc" (sampleCheckpoint position) next next.isNone)).utf8ByteSize := by
  decide +kernel

/-- A page that holds one of the events passes. -/
theorem sampleReader_single {n : Nat} (hpos : 1 ≤ n) (hle : n ≤ maxHistoryStoreScanLimit) {event : Event textCanvas}
    (hevent : event ∈ sampleHistory) {position : Nat} (hposition : position ∈ [2, 3])
    {next : Option textCanvas.EventCursor} (hnext : next ∈ sampleNext) (k : Nat) (bounds : Bounds textCanvas) :
    ∃ payload, respond (sampleReader n hpos hle) textWire (textRequest "cccccccc" k bounds)
      ⟨"cccccccc", sampleCheckpoint position, [.fromEvent event], next, next.isNone⟩ = .ok payload := by
  refine ⟨_, respond_textRequest.trans (if_neg ?_)⟩
  have hsize : (textOf (dtoFields (.fromEvent event))).utf8ByteSize ≤ 155 := by
    rcases List.mem_pair.mp hevent with rfl | rfl
    · exact le_of_eq_of_le sampleEvent_size (by decide)
    · exact appendedEvent_size.le
  have hhead := (sampleNext_size position hposition next hnext).1
  have htotal := pageFields_size "cccccccc" (sampleCheckpoint position) [.fromEvent event] next next.isNone
  rw [List.map_singleton, List.sum_singleton] at htotal
  refine Nat.not_lt.mpr (le_trans (Nat.add_le_add_left htotal.le 119) ?_)
  change _ ≤ 400
  omega

/-- Two events that pass one by one and not together: the walk fails at its first request. -/
theorem history_walk_stuck :
    Visit (sampleReader 2 (by decide) (by decide)) textWire "cccccccc" "22222222-session" sampleHistory
      (textRequest "cccccccc") (fun _ => (sampleTable, sampleTable)) ∧
    (∀ event ∈ sampleHistory, ∀ next ∈ sampleNext, ∀ k bounds, ∃ payload,
      respond (sampleReader 2 (by decide) (by decide)) textWire (textRequest "cccccccc" k bounds)
        ⟨"cccccccc", sampleCheckpoint 2, [.fromEvent event], next, next.isNone⟩ = .ok payload) ∧
    ∀ fuel, historyWalk (sampleReader 2 (by decide) (by decide)) textWire sampleHandle (textRequest "cccccccc")
      (fun _ => (sampleTable, sampleTable)) (fuel + 1) 0 none = some (.error .internal) := by
  have hv := sampleReader_visit (n := 2) (by decide) (by decide) sampleTable_represents
  refine ⟨hv, fun event hevent next hnext => sampleReader_single _ _ hevent (.head _) hnext, ?_⟩
  intro fuel
  refine walk_refused hv fuel (.inl rfl) ?_
  rintro ⟨page, payload, hp, hr⟩
  have hpage : page = ⟨"cccccccc", sampleCheckpoint 2,
      [.fromEvent (sampleEvent "99999999-event"), .fromEvent appendedEvent], none, true⟩ :=
    (Except.ok.inj hp).symm
  have hfirst := sampleEvent_size
  have hsecond := appendedEvent_size
  have hhead : 49 ≤ (textOf (headFields "cccccccc" (sampleCheckpoint 2) none true)).utf8ByteSize :=
    (sampleNext_size 2 (.head _) none (.head _)).2
  have htotal : (textOf (pageFields page)).utf8ByteSize =
      (textOf (headFields "cccccccc" (sampleCheckpoint 2) none true)).utf8ByteSize +
        ((textOf (dtoFields (.fromEvent (sampleEvent "99999999-event")))).utf8ByteSize +
          (textOf (dtoFields (.fromEvent appendedEvent))).utf8ByteSize) := by
    rw [hpage]
    refine (pageFields_size "cccccccc" (sampleCheckpoint 2) _ none true).trans ?_
    rw [List.map_cons, List.map_singleton, List.sum_cons, List.sum_singleton]
  have hmax : (sampleReader 2 (by decide) (by decide)).maxMessageBytes = 400 := rfl
  rw [respond_textRequest, if_pos (by omega)] at hr
  cases hr

theorem sampleHistory_passes {k : Nat}
    (hk : IsPage (sampleReader 1 (by decide) (by decide)) "22222222-session" sampleHistory k) :
    PagePasses (sampleReader 1 (by decide) (by decide)) textWire sampleHandle "cccccccc" "22222222-session"
      sampleHistory (textRequest "cccccccc" k (boundsAt (sampleReader 1 (by decide) (by decide)) sampleHandle
        "22222222-session" sampleHistory k)) k := by
  have hlt : k < 2 := by
    rcases hk with rfl | hk
    · decide
    · exact Nat.lt_of_mul_lt_mul_right hk
  interval_cases k
  · obtain ⟨payload, hpayload⟩ := sampleReader_single (n := 1) (by decide) (by decide) (.head _) (.head _)
      (.tail _ (.head _)) 0 none
    exact ⟨_, payload, rfl, hpayload⟩
  · obtain ⟨payload, hpayload⟩ := sampleReader_single (n := 1) (by decide) (by decide) (.tail _ (.head _))
      (.head _) (.head _) 1 _
    exact ⟨_, payload, rfl, hpayload⟩

/-- With one event a page the same walk is completed. -/
theorem history_walk_complete_sample :
    (remaining (C := textCanvas) "22222222-session" sampleHistory 0).length = 2 ∧
    ∃ pages, Completed pages ∧ historyWalk (sampleReader 1 (by decide) (by decide)) textWire sampleHandle
      (textRequest "cccccccc") (fun _ => (sampleTable, sampleTable)) 3 0 none = some (.ok pages) :=
  ⟨rfl, (history_walk_complete _ textWire sampleHandle "cccccccc" "22222222-session" sampleHistory _ _
    (sampleReader_visit (by decide) (by decide) sampleTable_represents) 3 (by decide)).1
      (fun _ hk => sampleHistory_passes hk)⟩

end OrbitRelay.CanvasHistory
