import OrbitRelay.Handoff

/-!
# The handoff loses and repeats nothing

At the end of a run in which every dispatch succeeded and the walk completed,
the history and the buffer together are the store, stroke by stroke in append
order, so a client projects every stroke as the server does.
-/
namespace OrbitRelay.Handoff

open Codec MachineInt Storage EventStore Canvas CanvasHistory Dedup
open OrbitRelay.Pipeline (Dispatch Persisted)

variable {C : CanvasKernel} {X : Setup C}

theorem recognised_iff (t : EventType) :
    (∃ kind, C.fromEventType t = some kind) ↔ t ∈ canvasEventTypes C := by
  rw [mem_canvasEventTypes]
  constructor
  · rintro ⟨kind, h⟩
    exact ⟨kind, (C.fromEventType_iff t kind).mp h⟩
  · rintro ⟨kind, h⟩
    exact ⟨kind, (C.fromEventType_iff t kind).mpr h⟩

/-- What the reader does with one event of the Session: apply it, skip it, or stop at a
recognised event that does not decode. -/
theorem replayEvent_cases {sessionId : C.SessionId} {canvasId : C.CanvasId} {strokeId : C.StrokeId}
    {e : Event C} (he : e.sessionId = sessionId) (projection : Option C.StrokeProjection) :
    (ofStroke sessionId ⟨canvasId, strokeId⟩ e = true ∧ replayEvent canvasId strokeId projection e =
      match C.apply projection e with
      | .error source => .error (.projectionCorrupted source)
      | .ok next => .ok (some next)) ∨
    (ofStroke sessionId ⟨canvasId, strokeId⟩ e = false ∧
      (replayEvent canvasId strokeId projection e = .ok projection ∨
        (e.eventType ∈ canvasEventTypes C ∧ strokeOf e = none ∧
          ∃ source, replayEvent canvasId strokeId projection e = .error (.projectionCorrupted source)))) := by
  unfold replayEvent
  cases ht : C.fromEventType e.eventType with
  | none =>
    have hn : e.eventType ∉ canvasEventTypes C := by
      rw [← recognised_iff, ht]
      simp
    exact .inr ⟨by simp [ofStroke, strokeKey, hn], .inl rfl⟩
  | some kind =>
    have hmem : e.eventType ∈ canvasEventTypes C := (recognised_iff _).mp ⟨kind, ht⟩
    cases hd : C.tryFrom e with
    | error source =>
      have hs : strokeOf e = none := by simp [strokeOf, hd]
      exact .inr ⟨by simp [ofStroke, strokeKey, hs], .inr ⟨hmem, hs, source, rfl⟩⟩
    | ok data =>
      have hs : strokeOf e = some data.payload := by simp [strokeOf, hd]
      by_cases hother : data.payload.canvasId ≠ canvasId ∨ data.payload.strokeId ≠ strokeId
      · refine .inr ⟨?_, .inl (if_pos hother)⟩
        rw [Bool.eq_false_iff, ne_eq, ofStroke_iff, strokeKey, if_pos hmem, hs]
        simp only [Option.map_some, Option.some.injEq, Prod.mk.injEq]
        rintro ⟨-, hp⟩
        rw [hp] at hother
        simp at hother
      · refine .inl ⟨?_, if_neg hother⟩
        rw [not_or, not_not, not_not] at hother
        rw [ofStroke_iff, strokeKey, if_pos hmem, hs, he]
        simp only [Option.map_some, Option.some.injEq, Prod.mk.injEq, true_and]
        cases hp : data.payload with
        | mk c st =>
          rw [hp] at hother
          rw [← hother.1, ← hother.2]

/-- A replay that succeeds is the fold over the events of the stroke. -/
theorem replay_project {sessionId : C.SessionId} {canvasId : C.CanvasId} {strokeId : C.StrokeId}
    {events : List (Event C)} (hsession : ∀ e ∈ events, e.sessionId = sessionId)
    {projection result : Option C.StrokeProjection} :
    (replay canvasId strokeId projection events = .ok result →
      project projection (events.filter (ofStroke sessionId ⟨canvasId, strokeId⟩)) = .ok result) ∧
    ((∀ e ∈ events, e.eventType ∈ canvasEventTypes C → (strokeOf e).isSome = true) →
      project projection (events.filter (ofStroke sessionId ⟨canvasId, strokeId⟩)) = .ok result →
      replay canvasId strokeId projection events = .ok result) := by
  induction events generalizing projection with
  | nil => simp [replay, project]
  | cons e events ih =>
    have hrest := fun x hx => hsession x (List.mem_cons_of_mem e hx)
    rw [replay]
    rcases replayEvent_cases (hsession e List.mem_cons_self) projection with
      ⟨hof, heq⟩ | ⟨hof, heq | ⟨hmem, hnone, source, heq⟩⟩
    · rw [heq, List.filter_cons_of_pos hof, project]
      cases C.apply projection e with
      | error source => simp
      | ok next => exact ⟨(ih hrest).1, fun hall => (ih hrest).2 (fun x hx => hall x (List.mem_cons_of_mem e hx))⟩
    · rw [heq, List.filter_cons_of_neg (by simp [hof])]
      exact ⟨(ih hrest).1, fun hall => (ih hrest).2 (fun x hx => hall x (List.mem_cons_of_mem e hx))⟩
    · rw [heq]
      constructor
      · simp
      · intro hall
        have := hall e List.mem_cons_self hmem
        simp [hnone] at this

theorem matches_forSession (sessionId : C.SessionId) (e : Event C) :
    C.matchesEvent (forSession sessionId) e = true ↔ e.sessionId = sessionId := by
  rw [C.matchesEvent_iff]
  simp [forSession]

theorem filter_forSession (sessionId : C.SessionId) (stroke : StrokePayload C.CanvasId C.StrokeId)
    (log : List (Event C)) : (log.filter (C.matchesEvent (forSession sessionId))).filter
      (ofStroke sessionId stroke) = log.filter (ofStroke sessionId stroke) := by
  rw [List.filter_filter]
  refine List.filter_congr ?_
  intro e _
  cases hof : ofStroke sessionId stroke e with
  | false => rfl
  | true =>
    have hs : e.sessionId = sessionId := by
      rw [ofStroke_iff, strokeKey] at hof
      by_cases ht : e.eventType ∈ canvasEventTypes C
      · rw [if_pos ht, Option.map_eq_some_iff] at hof
        obtain ⟨p, -, hp⟩ := hof
        exact congrArg Prod.fst hp
      · rw [if_neg ht] at hof
        cases hof
    rw [Bool.true_and, (matches_forSession sessionId e).mpr hs]

/-- The stroke that the server loads from a quiet store, against the fold over its events. -/
theorem loadStroke_project {h : Handle C} {db : Db} {log : List (Event C)} (hr : Represents db.events log)
    (sessionId : C.SessionId) (stroke : StrokePayload C.CanvasId C.StrokeId) :
    ∃ fuel result, loadStroke (fun _ => Faults.none) h sessionId stroke.canvasId stroke.strokeId
        (fun _ => []) fuel 0 db none none = some result ∧
      (∀ projection, result = .ok projection →
        project none (log.filter (ofStroke sessionId stroke)) = .ok projection) ∧
      ((∀ e ∈ log, e.sessionId = sessionId → e.eventType ∈ canvasEventTypes C →
          (strokeOf e).isSome = true) → ∀ projection,
        project none (log.filter (ofStroke sessionId stroke)) = .ok projection →
        result = .ok projection) := by
  have hstart : queryStart h none = .ok 0 := rfl
  have hload : loadStroke (fun _ => Faults.none) h sessionId stroke.canvasId stroke.strokeId
      (fun _ => []) ((window (forSession sessionId) 0 log.length log).length + 1) 0 db none none = _ :=
    loadStroke_quiet hr _ 0 none hstart (Nat.zero_le _) (by omega)
  rw [window_all] at hload
  have hsession : ∀ e ∈ log.filter (C.matchesEvent (forSession sessionId)), e.sessionId = sessionId :=
    fun e he => (matches_forSession sessionId e).mp (List.mem_filter.mp he).2
  refine ⟨_, _, hload, ?_, ?_⟩
  · intro projection hp
    have := (replay_project hsession).1 hp
    rwa [filter_forSession] at this
  · intro hall projection hp
    rw [← filter_forSession] at hp
    refine (replay_project hsession).2 ?_ hp
    intro e he
    exact hall e (List.mem_filter.mp he).1 (hsession e he)

theorem ofCanvas_iff {sessionId : C.SessionId} {canvasId : C.CanvasId} {e : Event C} :
    ofCanvas sessionId canvasId e = true ↔
      ∃ strokeId, ofStroke sessionId ⟨canvasId, strokeId⟩ e = true := by
  simp only [ofStroke_iff, ofCanvas]
  cases hk : strokeKey e with
  | none => simp
  | some k =>
    obtain ⟨session, canvas, stroke⟩ := k
    constructor
    · intro h
      simp only [Option.any_some, decide_eq_true_eq] at h
      exact ⟨stroke, by rw [h.1, h.2]⟩
    · rintro ⟨strokeId, h⟩
      simp only [Option.some.injEq, Prod.mk.injEq, StrokePayload.mk.injEq] at h
      simp [h.1, h.2.1]

theorem filter_ofStroke {sessionId : C.SessionId} {stroke : StrokePayload C.CanvasId C.StrokeId}
    (events : List (Event C)) :
    (events.filter (ofCanvas sessionId stroke.canvasId)).filter (ofStroke sessionId stroke) =
      events.filter (ofStroke sessionId stroke) := by
  rw [List.filter_filter]
  refine List.filter_congr ?_
  intro e _
  cases hof : ofStroke sessionId stroke e with
  | false => rfl
  | true => rw [Bool.true_and, ofCanvas_iff.mpr ⟨stroke.strokeId, hof⟩]

/-- Events of one log that share an identity are the same event. -/
theorem same_event {t : EventTable} {log : List (Event C)} (hr : Represents t log) {a b : Event C}
    (ha : a ∈ log) (hb : b ∈ log) (hid : a.id = b.id) : a = b := by
  obtain ⟨i, hi⟩ := List.getElem?_of_mem ha
  obtain ⟨j, hj⟩ := List.getElem?_of_mem hb
  exact (hr.same_entry hi hj hid).2

theorem buffer_subset {s : State X} {log : List (Event C)} (hp : Persisted s.pipeline log) :
    s.buffer ⊆ log := by
  intro e he
  unfold State.buffer at he
  cases hsub : s.client.subscribed with
  | none => simp [hsub] at he
  | some n =>
    rw [hsub] at he
    exact hp.published (List.mem_of_mem_drop (List.mem_filter.mp he).1)

/-- The applied events of one stroke of the Canvas are the stored ones, in append order. -/
theorem applied_stroke {s : State X} {log base cut : List (Event C)} (hp : Persisted s.pipeline log)
    (hd : Delivered s log base) (hidle : ∀ i, (s.pipeline.dispatch i).held = [])
    (hw : Walked s.client.pages X base log cut []) {stroke : StrokePayload C.CanvasId C.StrokeId}
    (hc : stroke.canvasId = X.canvasId) :
    s.applied.filter (ofStroke X.sessionId stroke) = log.filter (ofStroke X.sessionId stroke) := by
  have hhistory : s.history = cut.filter (ofCanvas X.sessionId X.canvasId) := by
    simpa [State.history] using hw.history
  have hsub : s.history ⊆ log := by
    rw [hhistory]
    exact fun e he => hw.stored.subset (List.mem_filter.mp he).1
  have hids : (s.history.map Event.id).Nodup := by
    have hlist : s.history.Sublist log := by
      rw [hhistory]
      exact List.filter_sublist.trans hw.stored.sublist
    exact hp.represents.ids_nodup.sublist (hlist.map Event.id)
  have hboth : ∀ e ∈ s.history ++ s.buffer, e ∈ log := by
    intro e he
    exact (List.mem_append.mp he).elim (fun h => hsub h) (fun h => buffer_subset hp h)
  have hcaught := hd stroke 0 (by simp [hidle])
  have hempty : (s.pipeline.dispatch 0).inFlight = [] :=
    List.subset_nil.mp (hidle 0 ▸ Dispatch.inFlight_subset _)
  rw [CaughtUp, hempty, List.append_nil] at hcaught
  have hkeys : ∀ x ∈ s.history ++ s.buffer, ∀ y ∈ s.history ++ s.buffer, x.id = y.id →
      ofStroke X.sessionId stroke x = ofStroke X.sessionId stroke y := by
    intro x hx y hy hid
    rw [same_event hp.represents (hboth x hx) (hboth y hy) hid]
  calc s.applied.filter (ofStroke X.sessionId stroke)
      = (merge Event.id s.history s.buffer).filter (ofStroke X.sessionId stroke) := by
        rw [State.applied, dedup_append_of_nodup hids]
    _ = merge Event.id (s.history.filter (ofStroke X.sessionId stroke))
          (s.buffer.filter (ofStroke X.sessionId stroke)) := filter_merge hkeys
    _ = merge Event.id (cut.filter (ofStroke X.sessionId stroke))
          (s.buffer.filter (ofStroke X.sessionId stroke)) := by
        rw [hhistory, ← hc, filter_ofStroke]
    _ = log.filter (ofStroke X.sessionId stroke) :=
        merge_of_prefix hcaught (hw.subscribed.filter _) (hw.stored.filter _)

/-- After any run in which every dispatch returned and none failed, and the client
read its history to the end: the pages agree on one checkpoint, the history is the
Canvas's part of what was stored before it, and history then buffer, each identity
once, is the Canvas's part of the store; stroke by stroke it is in append order, so
it projects to what `load_stroke` returns. -/
theorem subscribe_first_handoff_gapless {s : State X} (hs : (system X).Reachable s)
    (hdispatched : ∀ i, s.pipeline.dispatch i = .idle ∨ ∃ batch, s.pipeline.dispatch i = .ok batch)
    (hcomplete : s.client.phase = .complete) :
    ∃ log cut later, Represents s.pipeline.db.events log ∧ log = cut ++ later ∧
      (∀ page ∈ s.client.pages, page.checkpoint = X.checkpointAt cut.length) ∧
      s.history = cut.filter (ofCanvas X.sessionId X.canvasId) ∧
      (s.applied.map Event.id).Nodup ∧
      (∀ e ∈ log, ofCanvas X.sessionId X.canvasId e = true → s.applied.count e = 1) ∧
      ∀ stroke : StrokePayload C.CanvasId C.StrokeId, stroke.canvasId = X.canvasId →
        s.applied.filter (ofStroke X.sessionId stroke) = log.filter (ofStroke X.sessionId stroke) ∧
        ∃ fuel result, loadStroke (fun _ => Faults.none) X.handle X.sessionId stroke.canvasId
            stroke.strokeId (fun _ => []) fuel 0 s.pipeline.db none none = some result ∧
          (∀ projection, result = .ok projection →
            project none (s.applied.filter (ofStroke X.sessionId stroke)) = .ok projection) ∧
          ((∀ e ∈ log, e.sessionId = X.sessionId → e.eventType ∈ canvasEventTypes C →
              (strokeOf e).isSome = true) → ∀ projection,
            project none (s.applied.filter (ofStroke X.sessionId stroke)) = .ok projection →
            result = .ok projection) := by
  obtain ⟨log, hp, -, hclient⟩ := reachable_invariant hs
  cases hsub : s.client.subscribed with
  | none =>
    simp only [hsub, hcomplete] at hclient
    exact absurd hclient.1 (by simp)
  | some n =>
    simp only [hsub] at hclient
    obtain ⟨-, base, -, hw, hd⟩ := hclient
    simp only [WalkInvariant, hcomplete] at hw
    obtain ⟨cut, hw⟩ := hw
    obtain ⟨later, hlater⟩ := hw.stored
    have hidle : ∀ i, (s.pipeline.dispatch i).held = [] := by
      intro i
      rcases hdispatched i with hi | ⟨batch, hi⟩
      · rw [hi]
        rfl
      · rw [hi]
        rfl
    have hnofail : ∀ i m, s.pipeline.dispatch i ≠ .failed m := by
      intro i m hi
      rcases hdispatched i with h | ⟨batch, h⟩
      · rw [h] at hi
        cases hi
      · rw [h] at hi
        cases hi
    have hstroke : ∀ stroke : StrokePayload C.CanvasId C.StrokeId, stroke.canvasId = X.canvasId →
        s.applied.filter (ofStroke X.sessionId stroke) = log.filter (ofStroke X.sessionId stroke) :=
      fun _ hc => applied_stroke hp (hd hnofail) hidle hw hc
    have hnodup : (s.applied.map Event.id).Nodup := nodup_merge (by simp) _
    refine ⟨log, cut, later, hp.represents, hlater.symm, hw.echoes,
      by simpa [State.history] using hw.history, hnodup, ?_, ?_⟩
    · intro e he hcanvas
      obtain ⟨strokeId, hof⟩ := ofCanvas_iff.mp hcanvas
      have hmem : e ∈ s.applied.filter (ofStroke X.sessionId ⟨X.canvasId, strokeId⟩) := by
        rw [hstroke ⟨X.canvasId, strokeId⟩ rfl]
        exact List.mem_filter.mpr ⟨he, hof⟩
      exact List.count_eq_one_of_mem (List.Nodup.of_map _ hnodup) (List.mem_filter.mp hmem).1
    · intro stroke hc
      refine ⟨hstroke stroke hc, ?_⟩
      rw [hstroke stroke hc]
      exact loadStroke_project hp.represents X.sessionId stroke

/-- A continuation of the stroke that `sampleStore` already has. -/
def sampleAppend : Event textCanvas :=
  { sampleEvent "88888888-event" with eventType := ⟨"canvas.stroke.points_appended"⟩ }

def samplePage : CanvasHistoryPageDto textCanvas where
  canvasId := "cccccccc"
  checkpoint := textKernel.checkpointFor sampleHandle.physicalStoreId sampleHandle.continuationEpoch 1
  events := [HistoryEventDto.fromEvent (sampleEvent "99999999-event")]
  nextCursor := none
  complete := true

/-- Requests and pages of one short exchange. -/
def sampleWire : Wire textCanvas where
  MessageId := Nat
  decodeRequest := fun (payload : String) => if payload = "first" then some (.first "cccccccc") else none
  encodePage page := if page = samplePage then some "page" else none
  decodePage := fun (payload : String) => if payload = "page" then some samplePage else none
  decodePage_encodePage page payload h := by
    split at h
    · rename_i hp
      cases h
      simp [hp]
    · cases h
  encodedSize _ _ _ := some 512

def sampleSetup : Setup textCanvas where
  handler := ⟨fun (c : String) => .ok (if c = "cccccccc" then some "22222222-session" else none),
    fun _ => .ok (), 64, 1048576, by decide, by decide, by decide⟩
  wire := sampleWire
  handle := sampleHandle
  canvasId := "cccccccc"
  sessionId := "22222222-session"
  session_eq := rfl
  eventTypes := []
  covers := .inl rfl

def sampleRequest : QueryRequest sampleWire := ⟨(1 : Nat), canvasHistoryPageQueryType, "first"⟩

def samplePrepared : Prepared textCanvas :=
  ⟨"cccccccc", "22222222-session", samplePage.checkpoint, none⟩

/-- The dispatch of `sampleAppend` at one of its phases, everything else at rest. -/
def samplePipeline (db : Db) (d : Dispatch textCanvas) (published : List (Event textCanvas)) :
    Pipeline.State textCanvas := ⟨db, Function.update (fun _ => .idle) 0 d, published⟩

theorem samplePipeline_exclusive (db : Db) (d : Dispatch textCanvas) (published : List (Event textCanvas)) :
    Exclusive (samplePipeline db d published) := by
  intro i j hij a ha b hb
  by_cases hi : i = 0
  · have hj : j ≠ 0 := fun hj => hij (hi.trans hj.symm)
    simp [samplePipeline, hj, Dispatch.held] at hb
  · simp [samplePipeline, hi, Dispatch.held] at ha

theorem samplePipeline_set (db : Db) (d d' : Dispatch textCanvas) (published : List (Event textCanvas)) :
    (samplePipeline db d published).set 0 d' = samplePipeline db d' published := by
  simp [samplePipeline, Pipeline.State.set]

def sampleDb : Db := (EventStore.execute Faults.none sampleHandle sampleStore.db (.append sampleAppend)).2

def sampleEnd : State sampleSetup :=
  ⟨samplePipeline sampleDb (.ok [sampleAppend]) [sampleAppend], ⟨some 0, .complete, [samplePage]⟩⟩

theorem sampleProduce {p q : Pipeline.State textCanvas} (c : Client sampleSetup) {db : Db}
    {d : Dispatch textCanvas} {published : List (Event textCanvas)}
    (hs : (system sampleSetup).Reachable ⟨p, c⟩) (hstep : Pipeline.Step sampleHandle p q)
    (hq : q = samplePipeline db d published) :
    (system sampleSetup).Reachable ⟨samplePipeline db d published, c⟩ := by
  subst hq
  exact hs.next (Step.produce ⟨p, c⟩ _ hstep (samplePipeline_exclusive _ _ _))

/-- The event is stored between the capture of the checkpoint and the only page. -/
theorem sampleEnd_reachable : (system sampleSetup).Reachable sampleEnd := by
  have h₀ : (system sampleSetup).Reachable
      ⟨samplePipeline sampleStore.db .idle [], ⟨none, .idle, []⟩⟩ :=
    .start ⟨⟨sampleStore, sampleStore_reachable, rfl, rfl⟩, by simp [samplePipeline], rfl, rfl⟩
  have h₁ := sampleProduce _ h₀ (.start _ 0 [sampleAppend] rfl) (samplePipeline_set _ _ _ _)
  have h₂ := h₁.next (Step.subscribe _ rfl)
  have h₃ := h₂.next (Step.first _ Faults.none 0 sampleRequest samplePrepared rfl rfl rfl rfl)
  have h₄ : (system sampleSetup).Reachable
      ⟨samplePipeline sampleDb (.appending [sampleAppend] []) [], _⟩ :=
    sampleProduce _ h₃ (.append _ Faults.none 0 [] [] sampleAppend _ _ rfl rfl)
      (by rw [samplePipeline_set]; rfl)
  have h₅ := h₄.next (Step.page _ Faults.none sampleRequest samplePrepared "page" samplePage rfl rfl rfl)
  have h₆ := sampleProduce _ h₅ (.appended _ 0 [sampleAppend] rfl) (samplePipeline_set _ _ _ _)
  have h₇ := sampleProduce _ h₆ (.publish _ 0 [] [] sampleAppend rfl)
    (by rw [samplePipeline_set]; rfl)
  exact sampleProduce _ h₇ (.finish _ 0 [sampleAppend] rfl) (samplePipeline_set _ _ _ _)

theorem subscribe_first_handoff_gapless_sample :
    sampleEnd.applied.map Event.id = ["99999999-event", "88888888-event"] ∧
    ∃ log cut later, Represents sampleEnd.pipeline.db.events log ∧ log = cut ++ later ∧
      (∀ page ∈ sampleEnd.client.pages, page.checkpoint = sampleSetup.checkpointAt cut.length) ∧
      sampleEnd.history = cut.filter (ofCanvas sampleSetup.sessionId sampleSetup.canvasId) ∧
      (sampleEnd.applied.map Event.id).Nodup ∧
      (∀ e ∈ log, ofCanvas sampleSetup.sessionId sampleSetup.canvasId e = true →
        sampleEnd.applied.count e = 1) := by
  have hdispatched : ∀ i, sampleEnd.pipeline.dispatch i = .idle ∨
      ∃ batch, sampleEnd.pipeline.dispatch i = .ok batch := by
    intro i
    by_cases hi : i = 0
    · exact .inr ⟨[sampleAppend], by simp [sampleEnd, samplePipeline, hi]⟩
    · exact .inl (by simp [sampleEnd, samplePipeline, hi])
  obtain ⟨log, cut, later, hr, hlog, hecho, hhistory, hnodup, hcount, -⟩ :=
    subscribe_first_handoff_gapless sampleEnd_reachable hdispatched rfl
  exact ⟨rfl, log, cut, later, hr, hlog, hecho, hhistory, hnodup, hcount⟩

end OrbitRelay.Handoff
