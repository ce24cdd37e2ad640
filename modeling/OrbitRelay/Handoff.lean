import OrbitRelay.CanvasHistory
import OrbitRelay.Dedup
import OrbitRelay.Pipeline

/-!
# Subscribe-first handoff

A client subscribes to a Session, reads the history of one Canvas page by page
and buffers what the bus delivers meanwhile, while any number of producers run
`dispatch`. The execution lease keeps dispatches of one stroke apart.
-/
namespace OrbitRelay.Handoff

open Codec MachineInt Storage EventStore Canvas CanvasHistory Dedup
open OrbitRelay.Pipeline (Dispatch Persisted)

/-- The handler, the open store, and a client's choice of Canvas and subscription:
the Canvas's Session, and all event types or at least the five. -/
structure Setup (C : CanvasKernel) where
  handler : CanvasHistoryQueryHandler C
  wire : Wire C
  handle : Handle C
  canvasId : C.CanvasId
  sessionId : C.SessionId
  session_eq : handler.getCanvas canvasId = .ok (some sessionId)
  eventTypes : List EventType
  covers : eventTypes = [] ∨ canvasEventTypes C ⊆ eventTypes

variable {C : CanvasKernel} {X : Setup C}

/-- Whether the subscription wants an event. -/
def Setup.accepts (X : Setup C) (e : Event C) : Bool :=
  decide (e.sessionId = X.sessionId) && (X.eventTypes.isEmpty || decide (e.eventType ∈ X.eventTypes))

inductive Phase (X : Setup C) where
  | idle
  | fetching (request : QueryRequest X.wire) (prepared : Prepared C)
  | following (checkpoint : C.EventStoreCheckpoint) (cursor : C.EventCursor)
  | complete
  | failed (error : QueryHandlerError)

/-- The client: how much had been published when it subscribed, its outstanding
request, and the pages it has received. -/
structure Client (X : Setup C) where
  subscribed : Option Nat
  phase : Phase X
  pages : List (CanvasHistoryPageDto C)

structure State (X : Setup C) where
  pipeline : Pipeline.State C
  client : Client X

/-- What the client does after a page. -/
def afterPage (X : Setup C) (page : CanvasHistoryPageDto C) : Phase X :=
  match page.complete, page.nextCursor with
  | false, some cursor => .following page.checkpoint cursor
  | _, _ => .complete

/-- The lease: no two running dispatches have events of one stroke. -/
def Exclusive (p : Pipeline.State C) : Prop :=
  ∀ i j, i ≠ j → ∀ a ∈ (p.dispatch i).held, ∀ b ∈ (p.dispatch j).held, ∀ k,
    strokeKey a = some k → strokeKey b ≠ some k

inductive Step (X : Setup C) : State X → State X → Prop where
  | produce (s : State X) (p : Pipeline.State C) :
      Pipeline.Step X.handle s.pipeline p → Exclusive p → Step X s { s with pipeline := p }
  | subscribe (s : State X) : s.client.subscribed = none →
      Step X s ⟨s.pipeline, { s.client with subscribed := some s.pipeline.published.length }⟩
  | first (s : State X) (f : Faults) (n : Nat) (request : QueryRequest X.wire) (prepared : Prepared C) :
      s.client.subscribed = some n → s.client.phase = .idle →
      X.wire.decodeRequest request.payload = some (.first X.canvasId) →
      prepare X.handler X.wire f X.handle request s.pipeline.db.events = .ok prepared →
      Step X s ⟨s.pipeline, { s.client with phase := .fetching request prepared }⟩
  | next (s : State X) (f : Faults) (checkpoint : C.EventStoreCheckpoint) (cursor : C.EventCursor)
      (request : QueryRequest X.wire) (prepared : Prepared C) :
      s.client.phase = .following checkpoint cursor →
      X.wire.decodeRequest request.payload = some (.continuation X.canvasId checkpoint cursor) →
      prepare X.handler X.wire f X.handle request s.pipeline.db.events = .ok prepared →
      Step X s ⟨s.pipeline, { s.client with phase := .fetching request prepared }⟩
  | page (s : State X) (f : Faults) (request : QueryRequest X.wire) (prepared : Prepared C)
      (payload : C.Payload) (page : CanvasHistoryPageDto C) :
      s.client.phase = .fetching request prepared →
      answer X.handler X.wire f X.handle request prepared s.pipeline.db.events = .ok payload →
      X.wire.decodePage payload = some page →
      Step X s ⟨s.pipeline, { s.client with
        phase := afterPage X page, pages := s.client.pages ++ [page] }⟩
  | refused (s : State X) (f : Faults) (n : Nat) (request : QueryRequest X.wire)
      (error : QueryHandlerError) : s.client.subscribed = some n →
      (s.client.phase = .idle ∨ ∃ checkpoint cursor, s.client.phase = .following checkpoint cursor) →
      prepare X.handler X.wire f X.handle request s.pipeline.db.events = .error error →
      Step X s ⟨s.pipeline, { s.client with phase := .failed error }⟩
  | pageFailed (s : State X) (f : Faults) (request : QueryRequest X.wire) (prepared : Prepared C)
      (error : QueryHandlerError) : s.client.phase = .fetching request prepared →
      answer X.handler X.wire f X.handle request prepared s.pipeline.db.events = .error error →
      Step X s ⟨s.pipeline, { s.client with phase := .failed error }⟩

/-- Runs start at any reachable open store, before any dispatch and any client. -/
def system (X : Setup C) : Transition.System (State X) where
  init s := (∃ store : Store C, (EventStore.system C).Reachable store ∧ store.handle = some X.handle ∧
      s.pipeline.db = store.db) ∧ (∀ i, s.pipeline.dispatch i = .idle) ∧ s.pipeline.published = [] ∧
    s.client = ⟨none, .idle, []⟩
  step := Step X

/-- What the bus has delivered: everything wanted and published after the
subscription, in publication order. -/
def State.buffer (s : State X) : List (Event C) :=
  match s.client.subscribed with
  | none => []
  | some n => (s.pipeline.published.drop n).filter X.accepts

def State.history (s : State X) : List (Event C) :=
  s.client.pages.flatMap (fun page => page.events.map HistoryEventDto.event)

/-- History, then the buffer, each event identity once. -/
def State.applied (s : State X) : List (Event C) := dedup Event.id (s.history ++ s.buffer)

def ofStroke (sessionId : C.SessionId) (stroke : StrokePayload C.CanvasId C.StrokeId) (e : Event C) : Bool :=
  decide (strokeKey e = some (sessionId, stroke))

/-! One stroke, seen from the subscription on. -/

/-- Everything stored of a part `q` of the events is what was there at the subscription,
then the buffer, then what one dispatch has stored and will publish. -/
def CaughtUp (q : Event C → Bool) (base buffer inFlight log : List (Event C)) : Prop :=
  merge Event.id (base.filter q) ((buffer ++ inFlight).filter q) = log.filter q

section CaughtUp

variable {q : Event C → Bool} {base buffer inFlight log : List (Event C)} {e : Event C}

theorem CaughtUp.of_subset (h : inFlight ⊆ log) : CaughtUp q log [] inFlight log := by
  refine merge_seen ?_
  intro x hx
  rw [List.nil_append, List.mem_filter] at hx
  exact List.mem_map_of_mem (List.mem_filter.mpr ⟨h hx.1, hx.2⟩)

theorem CaughtUp.stored_again (h : CaughtUp q base buffer inFlight log) (he : e ∈ log) :
    CaughtUp q base buffer (inFlight ++ [e]) log := by
  unfold CaughtUp at h ⊢
  rw [← List.append_assoc, List.filter_append, merge_append, h]
  refine merge_seen ?_
  intro x hx
  obtain ⟨hxe, hq⟩ := List.mem_filter.mp hx
  rw [List.mem_singleton.mp hxe] at hq ⊢
  exact List.mem_map_of_mem (List.mem_filter.mpr ⟨he, hq⟩)

theorem CaughtUp.stored_new (h : CaughtUp q base buffer inFlight log)
    (hnew : ∀ x ∈ log, x.id ≠ e.id) : CaughtUp q base buffer (inFlight ++ [e]) (log ++ [e]) := by
  unfold CaughtUp at h ⊢
  rw [← List.append_assoc, List.filter_append, merge_append, h, List.filter_append]
  cases hq : q e with
  | false => simp [hq]
  | true =>
    have hid : e.id ∉ (log.filter q).map Event.id := by
      intro hmem
      obtain ⟨x, hx, hxe⟩ := List.mem_map.mp hmem
      exact hnew x (List.mem_filter.mp hx).1 hxe
    simp only [hq, List.filter_cons_of_pos, List.filter_nil]
    rw [merge_cons_new hid, merge_nil]

theorem CaughtUp.stored_other (h : CaughtUp q base buffer inFlight log) (hq : q e = false) :
    CaughtUp q base buffer inFlight (log ++ [e]) := by
  unfold CaughtUp at h ⊢
  rw [h, List.filter_append]
  simp [hq]

theorem CaughtUp.published (h : CaughtUp q base buffer (e :: inFlight) log) :
    CaughtUp q base (buffer ++ [e]) inFlight log := by
  unfold CaughtUp at h ⊢
  rw [← h]
  simp

theorem CaughtUp.published_other (h : CaughtUp q base buffer inFlight log) (hq : q e = false) :
    CaughtUp q base (buffer ++ [e]) inFlight log := by
  unfold CaughtUp at h ⊢
  rw [← h]
  simp [hq]

theorem CaughtUp.unwanted (h : CaughtUp q base buffer (e :: inFlight) log) (hq : q e = false) :
    CaughtUp q base buffer inFlight log := by
  unfold CaughtUp at h ⊢
  rw [← h]
  simp [hq]

/-- Events of other parts in flight do not matter. -/
theorem CaughtUp.exchange {inFlight' : List (Event C)} (h : CaughtUp q base buffer inFlight log)
    (hq : inFlight.filter q = inFlight'.filter q) : CaughtUp q base buffer inFlight' log := by
  unfold CaughtUp at h ⊢
  rw [← h, List.filter_append, List.filter_append, hq]

end CaughtUp

theorem ofStroke_iff {sessionId : C.SessionId} {stroke : StrokePayload C.CanvasId C.StrokeId} {e : Event C} :
    ofStroke sessionId stroke e = true ↔ strokeKey e = some (sessionId, stroke) := decide_eq_true_iff

/-- The subscription wants every event of every stroke of its Session. -/
theorem accepts_of_ofStroke {stroke : StrokePayload C.CanvasId C.StrokeId} {e : Event C}
    (h : ofStroke X.sessionId stroke e = true) : X.accepts e = true := by
  rw [ofStroke_iff, strokeKey] at h
  by_cases ht : e.eventType ∈ canvasEventTypes C
  · rw [if_pos ht] at h
    have hsession : e.sessionId = X.sessionId := by
      cases hs : strokeOf e with
      | none => simp [hs] at h
      | some p =>
        simp only [hs, Option.map_some, Option.some.injEq, Prod.mk.injEq] at h
        exact h.1
    rcases X.covers with hall | hsub
    · simp [Setup.accepts, hsession, hall]
    · simp [Setup.accepts, hsession, hsub ht]
  · rw [if_neg ht] at h
    cases h

@[simp] theorem buffer_set (s : State X) (i : Nat) (d : Dispatch C) :
    State.buffer { s with pipeline := s.pipeline.set i d } = s.buffer := rfl

/-- For every stroke and every dispatch that no other one interferes with. -/
def Delivered (s : State X) (log base : List (Event C)) : Prop :=
  ∀ (stroke : StrokePayload C.CanvasId C.StrokeId) (i : Nat),
    (∀ j, j ≠ i → ∀ e ∈ (s.pipeline.dispatch j).held, ofStroke X.sessionId stroke e = false) →
    CaughtUp (ofStroke X.sessionId stroke) base s.buffer (s.pipeline.dispatch i).inFlight log

theorem held_of_set {p : Pipeline.State C} {i : Nat} {d : Dispatch C} {q : Event C → Bool}
    (hd : (p.dispatch i).held ⊆ d.held) {k : Nat}
    (h : ∀ j, j ≠ k → ∀ e ∈ ((p.set i d).dispatch j).held, q e = false) :
    ∀ j, j ≠ k → ∀ e ∈ (p.dispatch j).held, q e = false := by
  intro j hj e he
  by_cases hji : j = i
  · subst hji
    refine h j hj e ?_
    rw [Pipeline.State.set_same]
    exact hd he
  · refine h j hj e ?_
    rwa [Pipeline.State.set_other p d hji]

/-- A dispatch that starts has nothing in flight, and one that stops publishing has nothing left. -/
theorem Delivered.relabel {s : State X} {log base : List (Event C)} (h : Delivered s log base)
    {i : Nat} {d : Dispatch C} (hheld : (s.pipeline.dispatch i).held ⊆ d.held)
    (hflight : d.inFlight = (s.pipeline.dispatch i).inFlight) :
    Delivered { s with pipeline := s.pipeline.set i d } log base := by
  intro stroke k hother
  have hcaught := h stroke k (held_of_set hheld hother)
  by_cases hk : k = i
  · subst hk
    simpa only [buffer_set, Pipeline.State.set_same, hflight] using hcaught
  · simpa only [buffer_set, Pipeline.State.set_other _ d hk] using hcaught

theorem Delivered.finish {s : State X} {log base batch : List (Event C)} (h : Delivered s log base)
    (hex : Exclusive s.pipeline) {i : Nat} (hi : s.pipeline.dispatch i = .publishing batch []) :
    Delivered { s with pipeline := s.pipeline.set i (.ok batch) } log base := by
  intro stroke k hother
  have hrest : ∀ j, j ≠ k → j ≠ i → ∀ e ∈ (s.pipeline.dispatch j).held,
      ofStroke X.sessionId stroke e = false := by
    intro j hj hji e he
    refine hother j hj e ?_
    rwa [Pipeline.State.set_other _ _ hji]
  by_cases hk : k = i
  · subst hk
    have hcaught := h stroke k (fun j hj => hrest j hj hj)
    simpa only [buffer_set, Pipeline.State.set_same, hi, Dispatch.inFlight] using hcaught
  · have hsame := Pipeline.State.set_other s.pipeline (.ok batch) hk
    change CaughtUp _ base s.buffer ((s.pipeline.set i (.ok batch)).dispatch k).inFlight log
    rw [hsame]
    by_cases hbatch : ∃ a ∈ (s.pipeline.dispatch i).held, ofStroke X.sessionId stroke a = true
    · -- The finished dispatch was the one that could touch this stroke.
      obtain ⟨a, ha, hsa⟩ := hbatch
      have hclear : ∀ j, j ≠ i → ∀ e ∈ (s.pipeline.dispatch j).held,
          ofStroke X.sessionId stroke e = false := by
        intro j hj e he
        rw [Bool.eq_false_iff, ne_eq, ofStroke_iff]
        exact hex i j (Ne.symm hj) a ha e he _ (ofStroke_iff.mp hsa)
      refine (h stroke i hclear).exchange ?_
      have hnone : (s.pipeline.dispatch k).inFlight.filter (ofStroke X.sessionId stroke) = [] := by
        rw [List.filter_eq_nil_iff]
        intro e he
        rw [hclear k hk e (Dispatch.inFlight_subset _ he)]
        exact Bool.false_ne_true
      rw [hnone, hi]
      rfl
    · refine h stroke k ?_
      intro j hj e he
      by_cases hji : j = i
      · subst hji
        rw [Bool.eq_false_iff]
        exact fun hs => hbatch ⟨e, he, hs⟩
      · exact hrest j hj hji e he

theorem Delivered.append {s : State X} {log base stored rest : List (Event C)} {e : Event C}
    (h : Delivered s log base) {i : Nat} {db : Db}
    (hi : s.pipeline.dispatch i = .appending stored (e :: rest)) :
    (e ∈ log → Delivered { s with
        pipeline := { s.pipeline.set i (.appending (stored ++ [e]) rest) with db } } log base) ∧
    ((∀ x ∈ log, x.id ≠ e.id) → Delivered { s with
        pipeline := { s.pipeline.set i (.appending (stored ++ [e]) rest) with db } } (log ++ [e]) base) := by
  have hheld : (s.pipeline.dispatch i).held ⊆ (Dispatch.appending (stored ++ [e]) rest).held := by
    simp [hi, Dispatch.held]
  have hmem : e ∈ (Dispatch.appending (stored ++ [e]) rest).held := by simp [Dispatch.held]
  constructor
  · intro he stroke k hother
    have hcaught := h stroke k (held_of_set hheld hother)
    change CaughtUp _ base s.buffer ((s.pipeline.set i _).dispatch k).inFlight log
    by_cases hk : k = i
    · subst hk
      rw [hi] at hcaught
      rw [Pipeline.State.set_same]
      exact hcaught.stored_again he
    · rwa [Pipeline.State.set_other _ _ hk]
  · intro hnew stroke k hother
    have hcaught := h stroke k (held_of_set hheld hother)
    change CaughtUp _ base s.buffer ((s.pipeline.set i _).dispatch k).inFlight (log ++ [e])
    by_cases hk : k = i
    · subst hk
      rw [hi] at hcaught
      rw [Pipeline.State.set_same]
      exact hcaught.stored_new hnew
    · rw [Pipeline.State.set_other _ _ hk]
      refine hcaught.stored_other (hother i (Ne.symm hk) e ?_)
      change e ∈ ((s.pipeline.set i _).dispatch i).held
      rwa [Pipeline.State.set_same]

theorem buffer_publish {s : State X} {n : Nat} (hsub : s.client.subscribed = some n)
    (hn : n ≤ s.pipeline.published.length) (i : Nat) (d : Dispatch C) (e : Event C) :
    State.buffer { s with pipeline :=
        { s.pipeline.set i d with published := s.pipeline.published ++ [e] } } =
      s.buffer ++ [e].filter X.accepts := by
  simp only [State.buffer, hsub, List.drop_append_of_le_length hn, List.filter_append]

theorem Delivered.publish {s : State X} {log base sent rest : List (Event C)} {e : Event C}
    (h : Delivered s log base) {n i : Nat} (hsub : s.client.subscribed = some n)
    (hn : n ≤ s.pipeline.published.length)
    (hi : s.pipeline.dispatch i = .publishing sent (e :: rest)) :
    Delivered { s with pipeline := { s.pipeline.set i (.publishing (sent ++ [e]) rest) with
      published := s.pipeline.published ++ [e] } } log base := by
  intro stroke k hother
  have hheld : (s.pipeline.dispatch i).held ⊆ (Dispatch.publishing (sent ++ [e]) rest).held := by
    simp [hi, Dispatch.held]
  have hcaught := h stroke k (held_of_set hheld hother)
  rw [buffer_publish hsub hn]
  change CaughtUp _ base _ ((s.pipeline.set i _).dispatch k).inFlight log
  by_cases hk : k = i
  · subst hk
    rw [hi] at hcaught
    rw [Pipeline.State.set_same]
    cases ha : X.accepts e with
    | true =>
      simp only [ha, List.filter_cons_of_pos, List.filter_nil]
      exact CaughtUp.published hcaught
    | false =>
      have hq : ofStroke X.sessionId stroke e = false := by
        rw [Bool.eq_false_iff]
        intro hs
        rw [accepts_of_ofStroke hs] at ha
        cases ha
      simp only [ha, Bool.false_eq_true, not_false_eq_true, List.filter_cons_of_neg, List.filter_nil,
        List.append_nil]
      exact CaughtUp.unwanted hcaught hq
  · have hq : ofStroke X.sessionId stroke e = false := by
      refine hother i (Ne.symm hk) e ?_
      change e ∈ ((s.pipeline.set i _).dispatch i).held
      rw [Pipeline.State.set_same]
      simp [Dispatch.held]
    rw [Pipeline.State.set_other _ _ hk]
    cases ha : X.accepts e with
    | true =>
      simp only [ha, List.filter_cons_of_pos, List.filter_nil]
      exact hcaught.published_other hq
    | false =>
      simpa [ha] using hcaught

/-- One await of a producer, when every dispatch goes well. -/
theorem step_delivered {s : State X} {p : Pipeline.State C} {log log' base : List (Event C)} {n : Nat}
    (hp : Persisted s.pipeline log) (hp' : Persisted p log') (hex : Exclusive s.pipeline)
    (hsub : s.client.subscribed = some n) (hn : n ≤ s.pipeline.published.length)
    (hs : Pipeline.Step X.handle s.pipeline p) (hok : ∀ i m, p.dispatch i ≠ .failed m)
    (hd : Delivered s log base) : Delivered { s with pipeline := p } log' base := by
  cases hs with
  | start i batch hi =>
    rw [hp'.represents.unique hp.represents]
    exact hd.relabel (by simp [hi, Dispatch.held]) (by simp [hi, Dispatch.inFlight])
  | append f i stored rest e record db hi hx =>
    rcases Pipeline.execute_append_ok hp.represents hx with ⟨he, hr⟩ | ⟨hnew, hr⟩
    · rw [hp'.represents.unique hr]
      exact (hd.append hi).1 he
    · rw [hp'.represents.unique hr]
      exact (hd.append hi).2 hnew
  | appendFailed f i stored rest e error db hi hx =>
    exact absurd (Pipeline.State.set_same s.pipeline i _) (hok i _)
  | appended i batch hi =>
    rw [hp'.represents.unique hp.represents]
    exact hd.relabel (by simp [hi, Dispatch.held]) (by simp [hi, Dispatch.inFlight])
  | publish i sent rest e hi =>
    rw [hp'.represents.unique hp.represents]
    exact hd.publish hsub hn hi
  | publishFailed i sent rest e hi => exact absurd (Pipeline.State.set_same s.pipeline i _) (hok i _)
  | finish i batch hi =>
    rw [hp'.represents.unique hp.represents]
    exact hd.finish hex hi

/-- A failed dispatch stays failed. -/
theorem step_failed {h : Handle C} {p q : Pipeline.State C} (hs : Pipeline.Step h p q) {i : Nat}
    {m : String} (hi : p.dispatch i = .failed m) : q.dispatch i = .failed m := by
  have hset : ∀ (j : Nat) (d : Dispatch C), p.dispatch j ≠ .failed m → (p.set j d).dispatch i = .failed m := by
    intro j d hj
    have hij : i ≠ j := fun hij => hj (hij ▸ hi)
    rw [Pipeline.State.set_other p d hij, hi]
  cases hs with
  | start j batch hj => exact hset j _ (by simp [hj])
  | append f j stored rest e record db hj hx => exact hset j _ (by simp [hj])
  | appendFailed f j stored rest e error db hj hx => exact hset j _ (by simp [hj])
  | appended j batch hj => exact hset j _ (by simp [hj])
  | publish j sent rest e hj => exact hset j _ (by simp [hj])
  | publishFailed j sent rest e hj => exact hset j _ (by simp [hj])
  | finish j batch hj => exact hset j _ (by simp [hj])

theorem step_published {h : Handle C} {p q : Pipeline.State C} (hs : Pipeline.Step h p q) :
    p.published.length ≤ q.published.length := by
  cases hs <;> simp

/-! The walk through the pages. -/

def Setup.checkpointAt (X : Setup C) (n : Nat) : C.EventStoreCheckpoint :=
  C.checkpointFor X.handle.physicalStoreId X.handle.continuationEpoch n

/-- The Canvas's events among the first ones, from a position on. -/
def Setup.remaining (X : Setup C) (cut : List (Event C)) (start : Nat) : List (Event C) :=
  ((window (canvasEventFilter X.sessionId) start cut.length cut).map Prod.fst).filter
    (fun e => (strokeOf e).any (fun p => decide (p.canvasId = X.canvasId)))

/-- The pages so far, under the checkpoint at the end of `cut`, when `rest` is left to read. -/
structure Walked (pages : List (CanvasHistoryPageDto C)) (X : Setup C) (base log cut rest : List (Event C)) :
    Prop where
  subscribed : base <+: cut
  stored : cut <+: log
  echoes : ∀ page ∈ pages, page.checkpoint = X.checkpointAt cut.length
  history : pages.flatMap (fun page => page.events.map HistoryEventDto.event) ++ rest =
    cut.filter (ofCanvas X.sessionId X.canvasId)

theorem Walked.mono {pages : List (CanvasHistoryPageDto C)} {base log cut rest later : List (Event C)}
    (h : Walked pages X base log cut rest) : Walked pages X base (log ++ later) cut rest :=
  ⟨h.subscribed, h.stored.trans (List.prefix_append log later), h.echoes, h.history⟩

/-- A page under the same checkpoint takes its events off what is left. -/
theorem Walked.page {pages : List (CanvasHistoryPageDto C)} {base log cut rest left : List (Event C)}
    (h : Walked pages X base log cut rest) {page : CanvasHistoryPageDto C}
    (hcp : page.checkpoint = X.checkpointAt cut.length)
    (hleft : page.events.map HistoryEventDto.event ++ left = rest) :
    Walked (pages ++ [page]) X base log cut left where
  subscribed := h.subscribed
  stored := h.stored
  echoes := by
    intro x hx
    rcases List.mem_append.mp hx with hx | hx
    · exact h.echoes x hx
    · rw [List.mem_singleton.mp hx, hcp]
  history := by
    rw [← h.history, ← hleft]
    simp

/-- The request in hand continues the walk where it stands. -/
def Continues (X : Setup C) (pages : List (CanvasHistoryPageDto C)) (base log : List (Event C))
    (checkpoint : C.EventStoreCheckpoint) (cursor : Option C.EventCursor) : Prop :=
  ∃ cut start, checkpoint = X.checkpointAt cut.length ∧ queryStart X.handle cursor = .ok start ∧
    start ≤ cut.length ∧ Walked pages X base log cut (X.remaining cut start)

def WalkInvariant (c : Client X) (base log : List (Event C)) : Prop :=
  match c.phase with
  | .idle => c.pages = []
  | .fetching _ p => p.canvasId = X.canvasId ∧ p.sessionId = X.sessionId ∧
      Continues X c.pages base log p.checkpoint p.cursor
  | .following checkpoint cursor => Continues X c.pages base log checkpoint (some cursor)
  | .complete => ∃ cut, Walked c.pages X base log cut []
  | .failed _ => True

theorem WalkInvariant.mono {c : Client X} {base log later : List (Event C)}
    (h : WalkInvariant c base log) : WalkInvariant c base (log ++ later) := by
  unfold WalkInvariant at h ⊢
  cases hp : c.phase with
  | idle =>
    rw [hp] at h
    exact h
  | fetching request p =>
    rw [hp] at h
    obtain ⟨hc, hs, ⟨cut, start, hcp, hstart, hle, hw⟩⟩ := h
    exact ⟨hc, hs, ⟨cut, start, hcp, hstart, hle, hw.mono⟩⟩
  | following checkpoint cursor =>
    rw [hp] at h
    obtain ⟨cut, start, hcp, hstart, hle, hw⟩ := h
    exact ⟨cut, start, hcp, hstart, hle, hw.mono⟩
  | complete =>
    rw [hp] at h
    obtain ⟨cut, hw⟩ := h
    exact ⟨cut, hw.mono⟩
  | failed error => exact trivial

theorem remaining_all (X : Setup C) (cut : List (Event C)) :
    X.remaining cut 0 = cut.filter (ofCanvas X.sessionId X.canvasId) := by
  rw [Setup.remaining, window_all, filter_ofCanvas]

/-- The walk begins at the checkpoint that the first request captures. -/
theorem first_continues {s : State X} {f : Faults} {request : QueryRequest X.wire} {p : Prepared C}
    {base log : List (Event C)} (hr : Represents s.pipeline.db.events log) (hbase : base <+: log)
    (hpages : s.client.pages = [])
    (hd : X.wire.decodeRequest request.payload = some (.first X.canvasId))
    (hok : prepare X.handler X.wire f X.handle request s.pipeline.db.events = .ok p) :
    WalkInvariant { s.client with phase := .fetching request p } base log := by
  have hp := prepare_first hr X.session_eq hd hok
  subst hp
  refine ⟨rfl, rfl, log, 0, rfl, rfl, Nat.zero_le _, hbase, List.prefix_refl log, ?_, ?_⟩
  · simp [hpages]
  · simp [hpages, remaining_all]

/-- One page moves the walk on, or ends it. -/
theorem page_walked {s : State X} {f : Faults} {request : QueryRequest X.wire} {p : Prepared C}
    {payload : C.Payload} {page : CanvasHistoryPageDto C} {base log : List (Event C)}
    (hr : Represents s.pipeline.db.events log) (hphase : s.client.phase = .fetching request p)
    (hw : WalkInvariant s.client base log)
    (hok : answer X.handler X.wire f X.handle request p s.pipeline.db.events = .ok payload)
    (hd : X.wire.decodePage payload = some page) :
    WalkInvariant { s.client with phase := afterPage X page, pages := s.client.pages ++ [page] }
      base log := by
  obtain ⟨stored, dtos, hquery, hdtos, rfl⟩ := answer_ok hok hd
  simp only [WalkInvariant, hphase] at hw
  obtain ⟨hcanvas, hsession, cut, start, hcp, hstart, hle, hwalk⟩ := hw
  obtain ⟨later, hlater⟩ := hwalk.stored
  have hlen : cut.length ≤ i64Max := by
    have := hr.length_le
    rw [← hlater, List.length_append] at this
    omega
  have hv : C.validate (canvasEventFilter X.sessionId) X.handler.storeScanLimit = .ok () :=
    C.validate_untimed _ _ rfl X.handler.scan_pos
  have hupper : queryUpperBound X.handle log.length (some (X.checkpointAt cut.length)) = .ok cut.length :=
    queryUpperBound_own X.handle hlen
  have hcount : cut.length ≤ log.length := hwalk.stored.length_le
  have hpage := hr.queryEvents_eq (q := ⟨canvasEventFilter X.sessionId, X.handler.storeScanLimit,
    some (X.checkpointAt cut.length), p.cursor⟩) hv hupper hcount hstart hle
  rw [hsession, hcp] at hquery
  rw [hr.queryEvents_faultless hquery, ← hlater, window_append] at hpage
  obtain rfl := Except.ok.inj hpage
  have hevents := collectEvents_ok hdtos
  rw [pageOf_events, hcanvas] at hevents
  by_cases hmore : X.handler.storeScanLimit <
      (window (canvasEventFilter X.sessionId) start cut.length cut).length
  · obtain ⟨before, e, hsplit, hnext⟩ := pageOf_more X.handle X.handler.scan_pos hmore
    have helt : e.2 < cut.length := (mem_window (by rw [hsplit]; simp)).2
    simp only [WalkInvariant, afterPage, hnext, Option.isNone_some]
    refine ⟨cut, e.2 + 1, hcp, queryStart_own X.handle (by omega), helt, hwalk.page hcp ?_⟩
    simp only [hevents, Setup.remaining, window_after hsplit]
    rw [← List.filter_append, ← List.map_append, List.take_append_drop]
  · have hlast : (pageOf X.handle X.handler.storeScanLimit
        (window (canvasEventFilter X.sessionId) start cut.length cut)).nextCursor = none := if_neg hmore
    simp only [WalkInvariant, afterPage, hlast, Option.isNone_none]
    refine ⟨cut, hwalk.page hcp ?_⟩
    simp only [hevents, Setup.remaining, List.append_nil]
    rw [List.take_of_length_le (by omega)]

/-- What holds along every run: the store is ahead of the bus, and a subscribed
client has read the history up to where its walk stands. -/
def HandoffInvariant (s : State X) : Prop :=
  ∃ log, Persisted s.pipeline log ∧ Exclusive s.pipeline ∧
    match s.client.subscribed with
    | none => s.client.phase = .idle ∧ s.client.pages = []
    | some n => n ≤ s.pipeline.published.length ∧ ∃ base, base <+: log ∧
        WalkInvariant s.client base log ∧
        ((∀ i m, s.pipeline.dispatch i ≠ .failed m) → Delivered s log base)

theorem start_invariant (s : State X) (h : (system X).init s) : HandoffInvariant s := by
  obtain ⟨⟨store, hstore, -, hdb⟩, hidle, hpub, hclient⟩ := h
  obtain ⟨log, -, hr, -⟩ := EventStore.reachable_invariant hstore
  refine ⟨log, ⟨hdb ▸ hr, ?_, by simp [hpub]⟩, ?_, ?_⟩
  · intro i
    simp [hidle i, Dispatch.inFlight]
  · intro i j _ a ha
    simp [hidle i, Dispatch.held] at ha
  · simp [hclient]

theorem HandoffInvariant.subscribed {s : State X} (hs : HandoffInvariant s) (hphase : s.client.phase ≠ .idle) :
    ∃ n, s.client.subscribed = some n := by
  obtain ⟨log, -, -, hclient⟩ := hs
  cases hsub : s.client.subscribed with
  | none =>
    simp only [hsub] at hclient
    exact absurd hclient.1 hphase
  | some n => exact ⟨n, rfl⟩

/-- A step of the client alone, when it keeps its subscription. -/
theorem HandoffInvariant.client {s : State X} (hs : HandoffInvariant s) {n : Nat}
    (hsub : s.client.subscribed = some n) {c : Client X} (hc : c.subscribed = some n)
    (hwalk : ∀ base log, Represents s.pipeline.db.events log → base <+: log →
      WalkInvariant s.client base log → WalkInvariant c base log) : HandoffInvariant ⟨s.pipeline, c⟩ := by
  obtain ⟨log, hp, hex, hclient⟩ := hs
  simp only [hsub] at hclient
  obtain ⟨hn, base, hbase, hw, hd⟩ := hclient
  refine ⟨log, hp, hex, ?_⟩
  simp only [hc]
  refine ⟨hn, base, hbase, hwalk base log hp.represents hbase hw, ?_⟩
  intro hok stroke i hother
  have hcaught := hd hok stroke i hother
  have hbuffer : State.buffer (⟨s.pipeline, c⟩ : State X) = s.buffer := by
    simp only [State.buffer, hc, hsub]
  rwa [hbuffer]

theorem step_invariant (s t : State X) (hs : HandoffInvariant s) (h : Step X s t) : HandoffInvariant t := by
  cases h with
  | produce p hstep hex' =>
    obtain ⟨log, hp, hex, hclient⟩ := hs
    obtain ⟨later, hp'⟩ := Pipeline.step_persisted hp hstep
    refine ⟨log ++ later, hp', hex', ?_⟩
    cases hsub : s.client.subscribed with
    | none =>
      rw [hsub] at hclient
      simpa only [hsub] using hclient
    | some n =>
      simp only [hsub] at hclient
      obtain ⟨hn, base, hbase, hw, hd⟩ := hclient
      refine ⟨Nat.le_trans hn (step_published hstep), base, hbase.trans (List.prefix_append log later),
        hw.mono, ?_⟩
      intro hok
      have hok' : ∀ i m, s.pipeline.dispatch i ≠ .failed m :=
        fun i m hi => hok i m (step_failed hstep hi)
      exact step_delivered hp hp' hex hsub hn hstep hok (hd hok')
  | subscribe hnone =>
    obtain ⟨log, hp, hex, hclient⟩ := hs
    simp only [hnone] at hclient
    refine ⟨log, hp, hex, Nat.le_refl _, log, List.prefix_refl log, ?_, ?_⟩
    · simp only [WalkInvariant, hclient.1]
      exact hclient.2
    · intro _ stroke i _
      have hbuffer : State.buffer (⟨s.pipeline, { s.client with
          subscribed := some s.pipeline.published.length }⟩ : State X) = [] := by
        simp [State.buffer]
      rw [hbuffer]
      exact .of_subset (hp.inFlight i)
  | first f n request prepared hsub hphase hd hok =>
    refine hs.client hsub hsub ?_
    intro base log hr hbase hw
    simp only [WalkInvariant, hphase] at hw
    exact first_continues hr hbase hw hd hok
  | next f checkpoint cursor request prepared hphase hd hok =>
    obtain ⟨n, hsub⟩ := hs.subscribed (by simp [hphase])
    refine hs.client hsub hsub ?_
    intro base log _ _ hw
    simp only [WalkInvariant, hphase] at hw
    have hprepared := prepare_continuation X.session_eq hd hok
    subst hprepared
    exact ⟨rfl, rfl, hw⟩
  | page f request prepared payload page hphase hok hd =>
    obtain ⟨n, hsub⟩ := hs.subscribed (by simp [hphase])
    exact hs.client hsub hsub (fun _ _ hr _ hw => page_walked hr hphase hw hok hd)
  | refused f n request error hsub hphase hok => exact hs.client hsub hsub (fun _ _ _ _ _ => trivial)
  | pageFailed f request prepared error hphase hok =>
    obtain ⟨n, hsub⟩ := hs.subscribed (by simp [hphase])
    exact hs.client hsub hsub (fun _ _ _ _ _ => trivial)

theorem reachable_invariant {s : State X} (h : (system X).Reachable s) : HandoffInvariant s :=
  Transition.System.invariant start_invariant step_invariant h

end OrbitRelay.Handoff
