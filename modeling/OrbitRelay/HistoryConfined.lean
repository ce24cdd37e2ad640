import OrbitRelay.HistorySize

/-!
# Canvas history is confined to its Session

`execute` once more, with the calls of the store that it makes. Without a Canvas
and an authorized Session there is none; a page shows events of its Session and its
Canvas; and what other Sessions have stored cannot be told from the pages of a walk.
-/
namespace OrbitRelay.CanvasHistory

open Codec MachineInt Storage EventStore Canvas

variable {C : CanvasKernel}

/-- A call of the `EventStore` port. -/
inductive StoreCall (C : CanvasKernel) where
  | captureCheckpoint
  | query (query : EventQuery C)

/-- `prepare`, and the calls on its way. -/
def prepareTraced (H : CanvasHistoryQueryHandler C) (W : Wire C) (f : Faults) (h : Handle C)
    (request : QueryRequest W) (t : EventTable) :
    List (StoreCall C) × Except QueryHandlerError (Prepared C) :=
  match W.decodeRequest request.payload with
  | none => ([], .error .invalidQuery)
  | some decoded =>
    let canvasId := match decoded with
      | .first canvasId => canvasId
      | .continuation canvasId _ _ => canvasId
    match H.getCanvas canvasId with
    | .error _ => ([], .error .unavailable)
    | .ok none => ([], .error .notFound)
    | .ok (some sessionId) =>
      match H.authorizeSessionRead sessionId with
      | .error e => ([], .error (mapAuthorizationError e))
      | .ok () =>
        match decoded with
        | .continuation _ checkpoint cursor => ([], .ok ⟨canvasId, sessionId, checkpoint, some cursor⟩)
        | .first _ => ([.captureCheckpoint],
          match captureCheckpoint f h t with
          | .error e => .error (mapCaptureError e)
          | .ok checkpoint => .ok ⟨canvasId, sessionId, checkpoint, none⟩)

/-- `execute`, and the calls on its way. -/
def executeTraced (H : CanvasHistoryQueryHandler C) (W : Wire C) (h : Handle C) (request : QueryRequest W)
    (atCapture atQuery : Faults × EventTable) : List (StoreCall C) × Except QueryHandlerError C.Payload :=
  match prepareTraced H W atCapture.1 h request atCapture.2 with
  | (calls, .error e) => (calls, .error e)
  | (calls, .ok p) =>
    (calls ++ [.query ⟨canvasEventFilter p.sessionId, H.storeScanLimit, some p.checkpoint, p.cursor⟩],
      answer H W atQuery.1 h request p atQuery.2)

variable {H : CanvasHistoryQueryHandler C} {W : Wire C} {h : Handle C} {request : QueryRequest W}
  {atCapture atQuery : Faults × EventTable} {f : Faults} {t : EventTable}

/-- The Canvas that a request names, and the Session in which its actor may read it. -/
structure Authorized (H : CanvasHistoryQueryHandler C) (W : Wire C) (request : QueryRequest W)
    (canvasId : C.CanvasId) (sessionId : C.SessionId) : Prop where
  requested : ∃ bounds, W.decodeRequest request.payload = some (requestOf canvasId bounds)
  found : H.getCanvas canvasId = .ok (some sessionId)
  authorized : H.authorizeSessionRead sessionId = .ok ()

/-- Up to the authorization no call is made. -/
theorem prepareTraced_cases (H : CanvasHistoryQueryHandler C) (W : Wire C) (f : Faults) (h : Handle C)
    (request : QueryRequest W) (t : EventTable) :
    (∃ e, prepareTraced H W f h request t = ([], .error e) ∧ prepare H W f h request t = .error e) ∨
    ∃ canvasId sessionId calls r, Authorized H W request canvasId sessionId ∧
      prepareTraced H W f h request t = (calls, r) ∧ prepare H W f h request t = r ∧
      ∀ p, r = .ok p → p.canvasId = canvasId ∧ p.sessionId = sessionId := by
  cases hd : W.decodeRequest request.payload with
  | none => exact .inl ⟨.invalidQuery, by simp [prepareTraced, hd], by simp [prepare, hd]⟩
  | some decoded =>
    obtain ⟨canvasId, bounds, rfl⟩ : ∃ canvasId bounds, decoded = requestOf canvasId bounds := by
      cases decoded with
      | first canvasId => exact ⟨canvasId, none, rfl⟩
      | continuation canvasId checkpoint cursor => exact ⟨canvasId, some (checkpoint, cursor), rfl⟩
    cases hg : H.getCanvas canvasId with
    | error e =>
      refine .inl ⟨.unavailable, ?_, ?_⟩
      · cases bounds <;> simp [prepareTraced, hd, requestOf, hg]
      · cases bounds <;> simp [prepare, hd, requestOf, hg]
    | ok found =>
      cases found with
      | none =>
        refine .inl ⟨.notFound, ?_, ?_⟩
        · cases bounds <;> simp [prepareTraced, hd, requestOf, hg]
        · cases bounds <;> simp [prepare, hd, requestOf, hg]
      | some sessionId =>
        cases ha : H.authorizeSessionRead sessionId with
        | error e =>
          refine .inl ⟨mapAuthorizationError e, ?_, ?_⟩
          · cases bounds <;> simp [prepareTraced, hd, requestOf, hg, ha]
          · cases bounds <;> simp [prepare, hd, requestOf, hg, ha]
        | ok u =>
          have hauth : Authorized H W request canvasId sessionId := ⟨⟨bounds, hd⟩, hg, ha⟩
          refine .inr ⟨canvasId, sessionId, (prepareTraced H W f h request t).1, prepare H W f h request t, hauth,
            ?_, rfl, ?_⟩
          · cases bounds with
            | none =>
              cases hc : captureCheckpoint f h t <;> simp [prepareTraced, prepare, hd, requestOf, hg, ha, hc]
            | some b => simp [prepareTraced, prepare, hd, requestOf, hg, ha]
          · intro p hp
            cases bounds with
            | none =>
              simp only [prepare, hd, requestOf, hg, ha] at hp
              split at hp
              · cases hp
              · cases hp
                exact ⟨rfl, rfl⟩
            | some b =>
              simp only [prepare, hd, requestOf, hg, ha] at hp
              cases hp
              exact ⟨rfl, rfl⟩

theorem executeTraced_result :
    (executeTraced H W h request atCapture atQuery).2 = execute H W h request atCapture atQuery := by
  unfold executeTraced execute
  rcases prepareTraced_cases H W atCapture.1 h request atCapture.2 with
    ⟨e, htraced, hprepare⟩ | ⟨canvasId, sessionId, calls, r, -, htraced, hprepare, -⟩
  · rw [htraced, hprepare]
    rfl
  · rw [htraced, hprepare]
    cases r <;> rfl

/-- The store is called for an authorized Session only. -/
theorem executeTraced_authorized (hcalls : (executeTraced H W h request atCapture atQuery).1 ≠ []) :
    ∃ canvasId sessionId, Authorized H W request canvasId sessionId := by
  unfold executeTraced at hcalls
  rcases prepareTraced_cases H W atCapture.1 h request atCapture.2 with
    ⟨e, htraced, -⟩ | ⟨canvasId, sessionId, calls, r, hauth, -⟩
  · rw [htraced] at hcalls
    exact absurd rfl hcalls
  · exact ⟨canvasId, sessionId, hauth⟩

/-! ## What a page shows -/

/-- Whatever rows there are, the scan keeps matching events only. -/
theorem scanRows_matches {q : EventFilter C} {limit j : Nat} {rows : List StoredRow}
    {acc : List (StoredEvent C)} {r : List (StoredEvent C) × Bool}
    (hok : scanRows f h q limit j rows acc = .ok r) (hacc : ∀ x ∈ acc, C.matchesEvent q x.event = true) :
    ∀ x ∈ r.1, C.matchesEvent q x.event = true := by
  induction rows generalizing j acc with
  | nil =>
    cases hok
    exact hacc
  | cons row rows ih =>
    rw [scanRows] at hok
    obtain ⟨-, -, hok⟩ := bind_ok hok
    obtain ⟨⟨sequence, event⟩, -, hok⟩ := bind_ok hok
    dsimp only at hok
    split at hok
    · exact ih hok hacc
    · rename_i hm
      split at hok
      · cases hok
        exact hacc
      · obtain ⟨stored, hstored, hok⟩ := bind_ok hok
        refine ih hok ?_
        intro x hx
        rcases List.mem_append.mp hx with hold | hnew
        · exact hacc x hold
        · obtain ⟨position, -, hstored⟩ := bind_ok hstored
          cases hstored
          rw [List.mem_singleton.mp hnew]
          simpa using hm

theorem queryEvents_matches {q : EventQuery C} {page : EventPage C} (hok : queryEvents f h q t = .ok page) :
    ∀ x ∈ page.events, C.matchesEvent q.filter x.event = true := by
  unfold queryEvents at hok
  obtain ⟨-, -, hok⟩ := bind_ok hok
  obtain ⟨count, -, hok⟩ := bind_ok hok
  obtain ⟨upper, -, hok⟩ := bind_ok hok
  split at hok
  · cases hok
  · obtain ⟨start, -, hok⟩ := bind_ok hok
    split at hok
    · cases hok
    · obtain ⟨a, -, hok⟩ := bind_ok hok
      obtain ⟨b, -, hok⟩ := bind_ok hok
      obtain ⟨-, -, hok⟩ := bind_ok hok
      obtain ⟨-, -, hok⟩ := bind_ok hok
      obtain ⟨⟨events, hasMore⟩, hscan, hok⟩ := bind_ok hok
      cases hok
      exact scanRows_matches hscan (by simp)

/-- An event of a page is one of the Session and of the Canvas. -/
theorem execute_events {payload : C.Payload} {page : CanvasHistoryPageDto C}
    (hok : execute H W h request atCapture atQuery = .ok payload) (hd : W.decodePage payload = some page) :
    ∃ canvasId sessionId, Authorized H W request canvasId sessionId ∧ page.canvasId = canvasId ∧
      ∀ dto ∈ page.events, dto.sessionId = sessionId ∧ ofCanvas sessionId canvasId dto.event = true := by
  obtain ⟨p, hprepare, hanswer⟩ := bind_ok hok
  rcases prepareTraced_cases H W atCapture.1 h request atCapture.2 with
    ⟨e, -, herror⟩ | ⟨canvasId, sessionId, calls, r, hauth, -, hr, hp⟩
  · rw [herror] at hprepare
    cases hprepare
  · obtain ⟨rfl, rfl⟩ := hp p (hr.symm.trans hprepare)
    obtain ⟨stored, dtos, hstored, hdtos, rfl⟩ := answer_ok hanswer hd
    refine ⟨p.canvasId, p.sessionId, hauth, rfl, ?_⟩
    intro dto hdto
    have hmem : dto.event ∈ dtos.map HistoryEventDto.event := List.mem_map_of_mem hdto
    rw [collectEvents_ok hdtos, List.mem_filter] at hmem
    obtain ⟨hevent, hcanvas⟩ := hmem
    obtain ⟨x, hx, hxe⟩ := List.mem_map.mp hevent
    have hmatches := queryEvents_matches hstored x hx
    rw [hxe, matches_canvasEventFilter] at hmatches
    refine ⟨hmatches.1, ?_⟩
    rw [ofCanvas, strokeKey, if_pos hmatches.2, hmatches.1]
    cases hs : strokeOf dto.event with
    | none => simp [hs] at hcanvas
    | some stroke =>
      rw [hs] at hcanvas
      simpa using hcanvas

/-! ## Two stores -/

/-- What a client sees of a page besides the opaque tokens. -/
def CanvasHistoryPageDto.shown (page : CanvasHistoryPageDto C) : C.CanvasId × List (HistoryEventDto C) × Bool :=
  (page.canvasId, page.events, page.complete)

variable {canvasId : C.CanvasId} {sessionId : C.SessionId}

/-- Paging over the log is paging over what the Session has stored. -/
theorem remaining_session (log : List (Event C)) : remaining sessionId log 0 =
    (log.filter (fun e => decide (e.sessionId = sessionId))).filter
      (C.matchesEvent (canvasEventFilter sessionId)) := by
  rw [remaining_all, List.filter_filter]
  refine List.filter_congr ?_
  intro e _
  rw [Bool.eq_iff_iff]
  simp only [Bool.and_eq_true, decide_eq_true_eq, matches_canvasEventFilter]
  tauto

theorem shown_eq {h₁ h₂ : Handle C} {log₁ log₂ : List (Event C)} {start₁ start₂ : Nat}
    {page₁ page₂ : CanvasHistoryPageDto C}
    (hsame : remaining sessionId log₁ start₁ = remaining sessionId log₂ start₂)
    (hp₁ : Shows H h₁ canvasId sessionId log₁ start₁ page₁)
    (hp₂ : Shows H h₂ canvasId sessionId log₂ start₂ page₂) : page₁.shown = page₂.shown := by
  have hevents : page₁.events = page₂.events := by
    have h := hp₁.events
    rw [hsame, hp₂.events] at h
    exact (Except.ok.inj h).symm
  have hcomplete : page₁.complete = page₂.complete := by rw [hp₁.complete, hp₂.complete, hsame]
  rw [CanvasHistoryPageDto.shown, CanvasHistoryPageDto.shown, hp₁.canvas, hp₂.canvas, hevents, hcomplete]

/-- Walks over what is the same for the Session show the same pages. -/
theorem fullWalk_shown {h₁ h₂ : Handle C} {log₁ log₂ : List (Event C)} {bounds₁ bounds₂ : Bounds C}
    {pages₁ pages₂ : List (CanvasHistoryPageDto C)} {start₁ start₂ : Nat}
    (hsession : H.getCanvas canvasId = .ok (some sessionId))
    (hsame : remaining sessionId log₁ start₁ = remaining sessionId log₂ start₂)
    (hpoints₁ : PointsAt h₁ log₁ bounds₁ start₁) (hpoints₂ : PointsAt h₂ log₂ bounds₂ start₂)
    (hwalk₁ : FullWalk H W h₁ canvasId log₁ bounds₁ pages₁)
    (hwalk₂ : FullWalk H W h₂ canvasId log₂ bounds₂ pages₂) :
    pages₁.map CanvasHistoryPageDto.shown = pages₂.map CanvasHistoryPageDto.shown := by
  induction hwalk₁ generalizing bounds₂ pages₂ start₁ start₂ with
  | last bounds₁ page₁ ha₁ hc₁ =>
    have hp₁ := ha₁.shows hsession hpoints₁
    cases hwalk₂ with
    | last _ page₂ ha₂ hc₂ =>
      simp [shown_eq hsame hp₁ (ha₂.shows hsession hpoints₂)]
    | more _ page₂ cursor₂ pages₂ ha₂ hc₂ _ _ =>
      have hp₂ := ha₂.shows hsession hpoints₂
      rw [hp₂.complete, ← hsame, ← hp₁.complete, hc₁] at hc₂
      cases hc₂
  | more bounds₁ page₁ cursor₁ pages₁ ha₁ hc₁ hnext₁ _ ih =>
    have hp₁ := ha₁.shows hsession hpoints₁
    cases hwalk₂ with
    | last _ page₂ ha₂ hc₂ =>
      have hp₂ := ha₂.shows hsession hpoints₂
      rw [hp₂.complete, ← hsame, ← hp₁.complete, hc₁] at hc₂
      cases hc₂
    | more _ page₂ cursor₂ pages₂ ha₂ hc₂ hnext₂ hrest₂ =>
      have hp₂ := ha₂.shows hsession hpoints₂
      obtain ⟨c₁, s₁, hcursor₁, hpoints₁', hrest₁'⟩ := hp₁.next hc₁
      obtain ⟨c₂, s₂, hcursor₂, hpoints₂', hrest₂'⟩ := hp₂.next hc₂
      rw [hnext₁] at hcursor₁
      rw [hnext₂] at hcursor₂
      cases hcursor₁
      cases hcursor₂
      rw [List.map_cons, List.map_cons, shown_eq hsame hp₁ hp₂]
      rw [ih (by rw [hrest₁', hrest₂', hsame]) hpoints₁' hpoints₂' hrest₂]

/-- Reads of a Canvas's history are confined to its Session. -/
theorem history_confined (H : CanvasHistoryQueryHandler C) (W : Wire C) :
    (∀ h request atCapture atQuery,
      (executeTraced H W h request atCapture atQuery).2 = execute H W h request atCapture atQuery ∧
      ((¬ ∃ canvasId sessionId, Authorized H W request canvasId sessionId) →
        (executeTraced H W h request atCapture atQuery).1 = []) ∧
      ∀ payload page, execute H W h request atCapture atQuery = .ok payload → W.decodePage payload = some page →
        ∃ canvasId sessionId, Authorized H W request canvasId sessionId ∧ page.canvasId = canvasId ∧
          ∀ dto ∈ page.events, dto.sessionId = sessionId ∧ ofCanvas sessionId canvasId dto.event = true) ∧
    ∀ h₁ h₂ canvasId sessionId log₁ log₂ pages₁ pages₂, H.getCanvas canvasId = .ok (some sessionId) →
      log₁.filter (fun e => decide (e.sessionId = sessionId)) =
        log₂.filter (fun e => decide (e.sessionId = sessionId)) →
      FullWalk H W h₁ canvasId log₁ none pages₁ → FullWalk H W h₂ canvasId log₂ none pages₂ →
      pages₁.map CanvasHistoryPageDto.shown = pages₂.map CanvasHistoryPageDto.shown := by
  constructor
  · intro h request atCapture atQuery
    refine ⟨executeTraced_result, ?_, fun payload page => execute_events⟩
    intro hnone
    by_contra hcalls
    exact hnone (executeTraced_authorized hcalls)
  · intro h₁ h₂ canvasId sessionId log₁ log₂ pages₁ pages₂ hsession hsame hwalk₁ hwalk₂
    refine fullWalk_shown hsession ?_ (.begin h₁ log₁) (.begin h₂ log₂) hwalk₁ hwalk₂
    rw [remaining_session, remaining_session, hsame]

def foreignEvent : Event textCanvas := { sampleEvent "77777777-event" with sessionId := "33333333-session" }

/-- The events of `sampleHistory` with one of another Session between them. -/
def sharedHistory : List (Event textCanvas) := [sampleEvent "99999999-event", foreignEvent, appendedEvent]

def sharedTable : EventTable :=
  (EventStore.execute Faults.none sampleHandle
    (EventStore.execute Faults.none sampleHandle sampleStore.db (.append foreignEvent)).2
    (.append appendedEvent)).2.events

theorem sharedTable_represents : Represents (K := textKernel) sharedTable sharedHistory := ⟨rfl, rfl, rfl, trivial⟩

theorem sharedHistory_passes {k : Nat}
    (hk : IsPage (sampleReader 1 (by decide) (by decide)) "22222222-session" sharedHistory k) :
    PagePasses (sampleReader 1 (by decide) (by decide)) textWire sampleHandle "cccccccc" "22222222-session"
      sharedHistory (textRequest "cccccccc" k (boundsAt (sampleReader 1 (by decide) (by decide)) sampleHandle
        "22222222-session" sharedHistory k)) k := by
  have hlt : k < 2 := by
    rcases hk with rfl | hk
    · decide
    · exact Nat.lt_of_mul_lt_mul_right hk
  interval_cases k
  · obtain ⟨payload, hpayload⟩ := sampleReader_single (n := 1) (by decide) (by decide) (.head _)
      (.tail _ (.head _)) (.tail _ (.head _)) 0 none
    exact ⟨_, payload, rfl, hpayload⟩
  · obtain ⟨payload, hpayload⟩ := sampleReader_single (n := 1) (by decide) (by decide) (.tail _ (.head _))
      (.tail _ (.head _)) (.head _) 1 _
    exact ⟨_, payload, rfl, hpayload⟩

theorem history_confined_sample :
    ∃ pages₁ pages₂,
      FullWalk (sampleReader 1 (by decide) (by decide)) textWire sampleHandle "cccccccc" sampleHistory none pages₁ ∧
      FullWalk (sampleReader 1 (by decide) (by decide)) textWire sampleHandle "cccccccc" sharedHistory none pages₂ ∧
      pages₁.map CanvasHistoryPageDto.shown = pages₂.map CanvasHistoryPageDto.shown := by
  have hv₁ := sampleReader_visit (n := 1) (by decide) (by decide) sampleTable_represents
  have hv₂ := sampleReader_visit (n := 1) (by decide) (by decide) sharedTable_represents
  obtain ⟨pages₁, -, hwalk₁, -⟩ := (walk_from (h := sampleHandle) hv₁ 3 (.inl rfl) (by decide)).1
    (fun _ _ hk => sampleHistory_passes hk)
  obtain ⟨pages₂, -, hwalk₂, -⟩ := (walk_from (h := sampleHandle) hv₂ 3 (.inl rfl) (by decide)).1
    (fun _ _ hk => sharedHistory_passes hk)
  exact ⟨pages₁, pages₂, hwalk₁, hwalk₂,
    (history_confined (sampleReader 1 (by decide) (by decide)) textWire).2 sampleHandle sampleHandle "cccccccc"
      "22222222-session" sampleHistory sharedHistory pages₁ pages₂ rfl (by decide) hwalk₁ hwalk₂⟩

end OrbitRelay.CanvasHistory
