import OrbitRelay.Canvas

/-!
# A stroke read is one replay

`load_stroke` takes no checkpoint: the log may grow between two of its requests.
Each page that is not the last one moves the cursor, and the log has at most
`i64::MAX` positions, so the reader ends, and the pages it has seen are the events
of the session at its last request.
-/
namespace OrbitRelay.Canvas

open MachineInt Storage EventStore

variable {C : CanvasKernel}

/-- The store at the `j`-th request from the `k`-th on. -/
def storeAt (h : Handle C) (between : Nat → Traffic C) : Nat → Nat → Db → Db
  | k, 0, db => serve h db (between k)
  | k, j + 1, db => storeAt h between (k + 1) j (serve h db (between k))

/-- The events of the session among those stored. -/
def sessionEvents (sessionId : C.SessionId) (log : List (Event C)) : List (Event C) :=
  log.filter (C.matchesEvent (forSession sessionId))

theorem replay_error {canvasId : C.CanvasId} {strokeId : C.StrokeId} {projection : Option C.StrokeProjection}
    {events : List (Event C)} {e : CanvasStateReadError C}
    (h : replay canvasId strokeId projection events = .error e) :
    ∃ before event after reached, events = before ++ event :: after ∧
      replay canvasId strokeId projection before = .ok reached ∧
      replayEvent canvasId strokeId reached event = .error e := by
  induction events generalizing projection with
  | nil => cases h
  | cons event rest ih =>
    rw [replay] at h
    cases hstep : replayEvent canvasId strokeId projection event with
    | error e' =>
      rw [hstep] at h
      cases h
      exact ⟨[], event, rest, projection, rfl, rfl, hstep⟩
    | ok next =>
      rw [hstep] at h
      obtain ⟨before, x, after, reached, hsplit, hreached, hx⟩ := ih h
      refine ⟨event :: before, x, after, reached, ?_, ?_, hx⟩
      · rw [hsplit, List.cons_append]
      · rw [replay, hstep]
        exact hreached

/-- Events that come later only add to a window that was open. -/
theorem window_grows (q : EventFilter C) (start : Nat) (log later : List (Event C)) :
    ∃ extra, window q start (log ++ later).length (log ++ later) =
      window q start log.length log ++ extra := by
  unfold window
  rw [List.zipIdx_append, List.filter_append]
  refine ⟨_, congrArg (· ++ _) (List.filter_congr ?_)⟩
  intro p hp
  have hlt := List.snd_lt_of_mem_zipIdx hp
  have hshort : p.2 < log.length := by omega
  have hlong : p.2 < log.length + later.length := by omega
  simp [hshort, hlong]

/-- What follows a page, also after the log has grown. -/
theorem window_resume {q : EventFilter C} {start limit : Nat} {log : List (Event C)}
    {before : List (Event C × Nat)} {p : Event C × Nat}
    (h : window q start log.length log = before ++ p :: (window q start log.length log).drop limit)
    (later : List (Event C)) :
    window q start (log ++ later).length (log ++ later) =
      (window q start log.length log).take limit ++ window q (p.2 + 1) (log ++ later).length (log ++ later) := by
  obtain ⟨extra, hextra⟩ := window_grows q start log later
  have htake : (window q start log.length log).take limit = before ++ [p] := by
    have hsame : (window q start log.length log).take limit ++ (window q start log.length log).drop limit =
        before ++ [p] ++ (window q start log.length log).drop limit := by
      rw [List.take_append_drop, List.append_assoc, List.singleton_append]
      exact h
    exact List.append_cancel_right hsame
  have hlong : window q start (log ++ later).length (log ++ later) =
      before ++ p :: ((window q start log.length log).drop limit ++ extra) := by
    rw [← List.cons_append, ← List.append_assoc, ← h]
    exact hextra
  rw [window_after hlong, hlong, htake]
  simp

theorem storeAt_represents (h : Handle C) (between : Nat → Traffic C) (j k : Nat) {db : Db}
    {log : List (Event C)} (hr : Represents db.events log) :
    ∃ later, Represents (storeAt h between k j db).events (log ++ later) := by
  induction j generalizing k db log with
  | zero => exact serve_represents h (between k) hr
  | succ j ih =>
    obtain ⟨later, hlater⟩ := serve_represents h (between k) hr
    obtain ⟨more, hmore⟩ := ih (k + 1) hlater
    rw [List.append_assoc] at hmore
    exact ⟨later ++ more, hmore⟩

/-- What the reader has done after its last request. -/
inductive Outcome (f : Nat → Faults) (h : Handle C) (sessionId : C.SessionId) (canvasId : C.CanvasId)
    (strokeId : C.StrokeId) (k : Nat) (db : Db) (n : Nat) (projection : Option C.StrokeProjection) :
    Except (CanvasStateReadError C) (Option C.StrokeProjection) → Prop where
  | failed (cursor : Option C.EventCursor) (page : EventPage C) (e : StorageError C) :
      queryEvents Faults.none h ⟨forSession sessionId, C.defaultLimit, none, cursor⟩ db.events = .ok page →
      queryEvents (f k) h ⟨forSession sessionId, C.defaultLimit, none, cursor⟩ db.events = .error e →
      Outcome f h sessionId canvasId strokeId k db n projection (.error (mapStorageError e))
  | replayed (log : List (Event C)) : Represents db.events log →
      Outcome f h sessionId canvasId strokeId k db n projection
        (replay canvasId strokeId projection ((window (forSession sessionId) n log.length log).map Prod.fst))

theorem Outcome.after_page {f : Nat → Faults} {h : Handle C} {sessionId : C.SessionId} {canvasId : C.CanvasId}
    {strokeId : C.StrokeId} {k n : Nat} {db : Db} {projection reached : Option C.StrokeProjection}
    {log : List (Event C)} {before : List (Event C × Nat)} {p : Event C × Nat}
    {r : Except (CanvasStateReadError C) (Option C.StrokeProjection)}
    (hr : Outcome f h sessionId canvasId strokeId k db (p.2 + 1) reached r)
    (hlater : ∃ later, Represents db.events (log ++ later))
    (hsplit : window (forSession sessionId) n log.length log =
      before ++ p :: (window (forSession sessionId) n log.length log).drop C.defaultLimit)
    (hpage : replay canvasId strokeId projection
      (((window (forSession sessionId) n log.length log).take C.defaultLimit).map Prod.fst) = .ok reached) :
    Outcome f h sessionId canvasId strokeId k db n projection r := by
  cases hr with
  | failed cursor page e hpage hq => exact .failed cursor page e hpage hq
  | replayed log' hlog' =>
    obtain ⟨later, hlater⟩ := hlater
    cases hlog'.unique hlater
    have hwhole : Outcome f h sessionId canvasId strokeId k db n projection _ := .replayed _ hlater
    rw [window_resume hsplit later, List.map_append, replay_append, hpage] at hwhole
    exact hwhole

section reader

variable {f : Nat → Faults} {h : Handle C} {sessionId : C.SessionId} {canvasId : C.CanvasId}
  {strokeId : C.StrokeId} {between : Nat → Traffic C}

/-- A request that fails ends the read. -/
theorem loadStroke_failed {fuel k : Nat} {db : Db} {cursor : Option C.EventCursor}
    {projection : Option C.StrokeProjection} {e : StorageError C}
    (hq : queryEvents (f k) h ⟨forSession sessionId, C.defaultLimit, none, cursor⟩
      (serve h db (between k)).events = .error e) :
    loadStroke f h sessionId canvasId strokeId between (fuel + 1) k db cursor projection =
      some (.error (mapStorageError e)) := by
  simp only [loadStroke, hq]

section page

variable {fuel k : Nat} {db : Db} {cursor : Option C.EventCursor}
  {projection reached : Option C.StrokeProjection} {page : EventPage C}
  (hq : queryEvents (f k) h ⟨forSession sessionId, C.defaultLimit, none, cursor⟩
    (serve h db (between k)).events = .ok page)

include hq

theorem loadStroke_corrupted {e : CanvasStateReadError C}
    (hpage : replay canvasId strokeId projection (page.events.map StoredEvent.event) = .error e) :
    loadStroke f h sessionId canvasId strokeId between (fuel + 1) k db cursor projection =
      some (.error e) := by
  simp only [loadStroke, hq, hpage]

theorem loadStroke_last
    (hpage : replay canvasId strokeId projection (page.events.map StoredEvent.event) = .ok reached)
    (hcursor : page.nextCursor = none) :
    loadStroke f h sessionId canvasId strokeId between (fuel + 1) k db cursor projection =
      some (.ok reached) := by
  simp only [loadStroke, hq, hpage, hcursor]

theorem loadStroke_next {next : C.EventCursor}
    (hpage : replay canvasId strokeId projection (page.events.map StoredEvent.event) = .ok reached)
    (hcursor : page.nextCursor = some next) :
    loadStroke f h sessionId canvasId strokeId between (fuel + 1) k db cursor projection =
      loadStroke f h sessionId canvasId strokeId between fuel (k + 1) (serve h db (between k)) (some next)
        reached := by
  simp only [loadStroke, hq, hpage, hcursor]

end page

theorem loadStroke_ends {k : Nat} {db : Db} {cursor : Option C.EventCursor}
    {projection : Option C.StrokeProjection} {r : Except (CanvasStateReadError C) (Option C.StrokeProjection)}
    (hr : ∀ fuel, loadStroke f h sessionId canvasId strokeId between (fuel + 1) k db cursor projection = some r)
    (fuel : Nat) :
    loadStroke f h sessionId canvasId strokeId between fuel k db cursor projection =
      if 0 < fuel then some r else none := by
  cases fuel with
  | zero => rfl
  | succ fuel => rw [hr, if_pos (Nat.succ_pos fuel)]

/-- The read from one cursor on: induction on the positions that are left. -/
theorem loadStroke_outcome (f : Nat → Faults) (h : Handle C) (sessionId : C.SessionId) (canvasId : C.CanvasId)
    (strokeId : C.StrokeId) (between : Nat → Traffic C) (k : Nat) {n : Nat} {db : Db} {log : List (Event C)}
    {cursor : Option C.EventCursor} (projection : Option C.StrokeProjection) (hr : Represents db.events log)
    (hcursor : queryStart h cursor = .ok n) (hn : n ≤ log.length) :
    ∃ j r, (∀ fuel, loadStroke f h sessionId canvasId strokeId between fuel k db cursor projection =
        if j < fuel then some r else none) ∧
      Outcome f h sessionId canvasId strokeId (k + j) (storeAt h between k j db) n projection r := by
  induction hd : i64Max - n using Nat.strong_induction_on generalizing k n db log cursor projection with
  | h d ih =>
    obtain ⟨later, hr'⟩ := serve_represents h (between k) hr
    have hlong := hr'.length_le
    have hn' : n ≤ (log ++ later).length := by
      rw [List.length_append]
      omega
    have hv : C.validate (forSession sessionId) C.defaultLimit = .ok () :=
      C.validate_untimed _ _ rfl C.defaultLimit_pos
    have hshown := hr'.queryEvents_eq (q := ⟨forSession sessionId, C.defaultLimit, none, cursor⟩)
      hv rfl (Nat.le_refl _) hcursor hn'
    cases hq : queryEvents (f k) h ⟨forSession sessionId, C.defaultLimit, none, cursor⟩
        (serve h db (between k)).events with
    | error e => exact ⟨0, _, loadStroke_ends (fun fuel => loadStroke_failed hq), .failed cursor _ e hshown hq⟩
    | ok page =>
      have hpage := hr'.queryEvents_faultless hq
      rw [hshown] at hpage
      cases hpage
      have hevents := pageOf_events h C.defaultLimit
        (window (forSession sessionId) n (log ++ later).length (log ++ later))
      by_cases hmore : C.defaultLimit <
          (window (forSession sessionId) n (log ++ later).length (log ++ later)).length
      · obtain ⟨before, p, hsplit, hnext⟩ := pageOf_more h C.defaultLimit_pos hmore
        obtain ⟨hnp, hplt⟩ := mem_window
          (show p ∈ window (forSession sessionId) n (log ++ later).length (log ++ later) by rw [hsplit]; simp)
        cases hreplay : replay canvasId strokeId projection
            (((window (forSession sessionId) n (log ++ later).length (log ++ later)).take C.defaultLimit).map
              Prod.fst) with
        | error e =>
          have hall : Outcome f h sessionId canvasId strokeId k (serve h db (between k)) n projection _ :=
            .replayed _ hr'
          rw [← List.take_append_drop C.defaultLimit (window (forSession sessionId) n _ _), List.map_append,
            replay_append, hreplay] at hall
          exact ⟨0, _, loadStroke_ends (fun fuel => loadStroke_corrupted hq (hevents ▸ hreplay)), hall⟩
        | ok reached =>
          obtain ⟨j, r, hj, hout⟩ := ih (i64Max - (p.2 + 1)) (by omega) (k + 1) reached hr'
            (queryStart_own h (show p.2 ≤ i64Max by omega)) hplt rfl
          refine ⟨j + 1, r, ?_, ?_⟩
          · intro fuel
            cases fuel with
            | zero => rfl
            | succ fuel =>
              rw [loadStroke_next hq (hevents ▸ hreplay) hnext, hj fuel]
              simp only [Nat.add_lt_add_iff_right]
          · rw [← Nat.add_assoc, Nat.add_right_comm]
            exact hout.after_page (storeAt_represents h between j (k + 1) hr') hsplit hreplay
      · have hlast : (pageOf h C.defaultLimit (window (forSession sessionId) n (log ++ later).length
            (log ++ later))).nextCursor = none := if_neg hmore
        rw [List.take_of_length_le (by omega)] at hevents
        refine ⟨0, _, loadStroke_ends (fun fuel => ?_), .replayed _ hr'⟩
        cases hreplay : replay canvasId strokeId projection
            ((window (forSession sessionId) n (log ++ later).length (log ++ later)).map Prod.fst) with
        | error e => exact loadStroke_corrupted hq (hevents ▸ hreplay)
        | ok reached => exact loadStroke_last hq (hevents ▸ hreplay) hlast

/-- From every reachable store, for every page size and whatever others store between the requests: the reader ends
with its `k`-th request, and if no request failed its answer is one replay of the events of the session at that
moment. A replay that fails has stopped at the first event that is refused. -/
theorem loadStroke_is_one_replay (f : Nat → Faults) (h : Handle C) (sessionId : C.SessionId)
    (canvasId : C.CanvasId) (strokeId : C.StrokeId) (between : Nat → Traffic C) (s : Store C)
    (hs : (EventStore.system C).Reachable s) :
    ∃ k r log, (∀ fuel, loadStroke f h sessionId canvasId strokeId between fuel 0 s.db none none =
        if k < fuel then some r else none) ∧
      Represents (storeAt h between 0 k s.db).events log ∧
      ((∃ cursor page e,
          queryEvents Faults.none h ⟨forSession sessionId, C.defaultLimit, none, cursor⟩
            (storeAt h between 0 k s.db).events = .ok page ∧
          queryEvents (f k) h ⟨forSession sessionId, C.defaultLimit, none, cursor⟩
            (storeAt h between 0 k s.db).events = .error e ∧ r = .error (mapStorageError e)) ∨
        (r = replay canvasId strokeId none (sessionEvents sessionId log) ∧
          ∀ e, r = .error e → ∃ before event after reached,
            sessionEvents sessionId log = before ++ event :: after ∧
            replay canvasId strokeId none before = .ok reached ∧
            replayEvent canvasId strokeId reached event = .error e)) := by
  obtain ⟨log, -, hr, -⟩ := reachable_invariant hs
  obtain ⟨k, r, hk, hout⟩ := loadStroke_outcome f h sessionId canvasId strokeId between 0 none hr
    (show queryStart h none = .ok 0 from rfl) (Nat.zero_le _)
  rw [Nat.zero_add] at hout
  cases hout with
  | failed cursor page e hpage hq =>
    obtain ⟨later, hlater⟩ := storeAt_represents h between k 0 hr
    exact ⟨k, _, _, hk, hlater, .inl ⟨cursor, page, e, hpage, hq, rfl⟩⟩
  | replayed log' hlog' =>
    refine ⟨k, _, log', hk, hlog', .inr ⟨?_, ?_⟩⟩
    · rw [window_all]
      rfl
    · rw [window_all]
      intro e he
      exact replay_error he

/-- A stroke read while another caller stores an event before each of its requests. -/
theorem loadStroke_is_one_replay_sample :
    (EventStore.system textCanvas).Reachable sampleStore ∧
    ∃ k r log, (∀ fuel, loadStroke (C := textCanvas) (fun _ => Faults.none) sampleHandle "22222222-session" "cccccccc"
        "55555555" (fun _ => [(Faults.none, .append (sampleEvent "88888888-event"))]) fuel 0 sampleStore.db none
        none = if k < fuel then some r else none) ∧
      r = replay (C := textCanvas) "cccccccc" "55555555" none (sessionEvents "22222222-session" log) := by
  have hs : (EventStore.system textCanvas).Reachable sampleStore := sampleStore_reachable
  obtain ⟨k, r, log, hk, -, ⟨cursor, page, e, hpage, hq, -⟩ | ⟨hreplay, -⟩⟩ := loadStroke_is_one_replay
    (C := textCanvas) (fun _ => Faults.none) sampleHandle "22222222-session" "cccccccc" "55555555"
    (fun _ => [(Faults.none, .append (sampleEvent "88888888-event"))]) sampleStore hs
  · rw [hpage] at hq
    cases hq
  · exact ⟨hs, k, r, log, hk, hreplay⟩

end reader

end OrbitRelay.Canvas
