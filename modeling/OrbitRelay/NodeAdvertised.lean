import OrbitRelay.ServerLifecycle
import Mathlib.Data.List.Induction

/-!
# When a stopped node is advertised again

A context that has stopped is offline and has no entry in the registry. The shutdown
calls check the lifecycle first and keep it so. `mark_ready` registers the node before
it checks the lifecycle.
-/
namespace OrbitRelay.Server

open Fallible

variable {N : NodeKernel} {ι : Type} [DecidableEq ι]

def ServerContext.Running (c : ServerContext N) : Prop := c.lifecycle.state ≠ .stopped

/-- A context that has stopped and is not advertised. -/
structure ServerContext.Retired (c : ServerContext N) : Prop where
  stopped : c.lifecycle.state = .stopped
  unlisted : c.nodeRegistry c.nodeId = none
  offline : c.nodeState = .offline

def ServerContext.Settled (c : ServerContext N) : Prop := c.Running ∨ c.Retired

@[simp] theorem enter_nodeRegistry (c : ServerContext N) (entry : Option (Node N)) :
    (c.enter entry).nodeRegistry c.nodeId = entry := Function.update_self _ _ _

/-! ## The parts of a call -/

theorem closeStore_keeps (P : ServerContext N → Prop) (closed : Bool) (message : String) :
    Ensures P (closeStore closed message) P P := fun _ hc => ⟨fun _ => hc, fun _ _ => hc⟩

theorem closeStore_onlyIf_keeps (P : ServerContext N → Prop) (guard : ServerContext N → Bool) (closed : Bool)
    (message : String) : Ensures P ((closeStore closed message).onlyIf guard) P P :=
  ((closeStore_keeps P closed message).weaken (fun _ h => h.1) (fun _ h => h) (fun _ h => h)).onlyIf
    (fun _ hc _ => hc)

theorem registerNodeState_running (o : Outcomes) (state : NodeState) :
    Ensures (ServerContext.Running (N := N)) (registerNodeState o state)
      (fun c => c.Running ∧ c.nodeState = state) ServerContext.Running := by
  intro c hc
  unfold registerNodeState
  cases o.register state with
  | ok => exact ⟨fun _ => ⟨hc, rfl⟩, nofun⟩
  | failed applied =>
    refine ⟨nofun, fun _ _ => ?_⟩
    cases applied with
    | false => exact hc
    | true => exact hc

theorem unregisterNode_running (o : Outcomes) :
    Ensures (fun c : ServerContext N => c.Running ∧ c.nodeState = .offline) (unregisterNode o)
      (fun c => c.Running ∧ c.nodeState = .offline ∧ c.nodeRegistry c.nodeId = none) ServerContext.Settled := by
  intro c hc
  unfold unregisterNode
  cases o.unregister with
  | ok => exact ⟨fun _ => ⟨hc.1, hc.2, enter_nodeRegistry c none⟩, nofun⟩
  | failed applied =>
    refine ⟨nofun, fun _ _ => .inl ?_⟩
    cases applied with
    | false => exact hc.1
    | true => exact hc.1

theorem unregisterNode_retired (o : Outcomes) :
    Ensures (ServerContext.Retired (N := N)) (unregisterNode o) ServerContext.Retired ServerContext.Retired := by
  intro c hc
  have hentered : (c.enter none).Retired := ⟨hc.stopped, enter_nodeRegistry c none, hc.offline⟩
  unfold unregisterNode
  cases o.unregister with
  | ok => exact ⟨fun _ => hentered, nofun⟩
  | failed applied =>
    refine ⟨nofun, fun _ _ => ?_⟩
    cases applied with
    | false => exact hc
    | true => exact hentered

theorem onLifecycle_running {allowed : List LifecycleState} {target : LifecycleState} (htarget : target ≠ .stopped) :
    Ensures (ServerContext.Running (N := N)) (onLifecycle (ServerLifecycle.transition allowed target))
      ServerContext.Running ServerContext.Running := by
  intro c hc
  unfold onLifecycle ServerLifecycle.transition
  by_cases hallowed : c.lifecycle.state ∈ allowed
  · rw [if_pos hallowed]
    exact ⟨fun _ => htarget, nofun⟩
  · rw [if_neg hallowed]
    exact ⟨nofun, fun _ _ => hc⟩

/-- The last step of a shutdown. -/
theorem onLifecycle_stop :
    Ensures (fun c : ServerContext N => c.Running ∧ c.nodeState = .offline ∧ c.nodeRegistry c.nodeId = none)
      (onLifecycle ServerLifecycle.stop) ServerContext.Settled ServerContext.Settled := by
  intro c hc
  unfold onLifecycle ServerLifecycle.stop ServerLifecycle.transition
  by_cases hallowed : c.lifecycle.state ∈ [LifecycleState.draining]
  · rw [if_pos hallowed]
    exact ⟨fun _ => .inr ⟨rfl, hc.2.2, hc.2.1⟩, nofun⟩
  · rw [if_neg hallowed]
    exact ⟨nofun, fun _ _ => .inl hc.1⟩

/-! ## The calls of a context -/

theorem markReady_running (o : Outcomes) :
    Ensures (ServerContext.Running (N := N)) (markReady o) ServerContext.Running ServerContext.Running :=
  (registerNodeState_running o .ready).andThen
    ((onLifecycle_running (by decide)).weaken (fun _ h => h.1) (fun _ h => h) (fun _ h => h))

theorem beginShutdown_running (o : Outcomes) :
    Ensures (ServerContext.Running (N := N)) (beginShutdown o) ServerContext.Running ServerContext.Running := by
  apply Ensures.andThen
  · exact ((onLifecycle_running (by decide)).weaken (fun _ h => h.1) (fun _ h => h) (fun _ h => h)).onlyIf
      (fun _ hc _ => hc)
  · exact ((registerNodeState_running o .draining).weaken (fun _ h => h.1) (fun _ h => h.1) (fun _ h => h)).onlyIf
      (fun _ hc _ => hc)

theorem beginShutdown_stopped (o : Outcomes) {c : ServerContext N} (hc : c.lifecycle.state = .stopped) :
    beginShutdown o c = (.error (.lifecycle .stopped .draining), c) := by
  simp [beginShutdown, Action.andThen, Action.onlyIf, onLifecycle, ServerLifecycle.beginShutdown,
    ServerLifecycle.transition, hc]

theorem finishShutdown_running (o : Outcomes) :
    Ensures (ServerContext.Running (N := N)) (finishShutdown o) ServerContext.Settled ServerContext.Settled := by
  have hclose := fun guard closed message =>
    (closeStore_onlyIf_keeps (ServerContext.Running (N := N)) guard closed message).weaken (fun _ h => h)
      (fun _ h => h) (fun c (h : c.Running) => (Or.inl h : c.Settled))
  apply Ensures.andThen
  · exact (closeStore_keeps ServerContext.Running _ _).weaken (fun _ h => h) (fun _ h => h) (fun _ h => .inl h)
  apply Ensures.andThen
  · exact hclose _ _ _
  apply Ensures.andThen
  · exact hclose _ _ _
  apply Ensures.andThen (R := fun c => c.Running ∧ c.nodeState = .offline)
  · apply Ensures.onlyIf
    · exact (registerNodeState_running o .offline).weaken (fun _ h => h.1) (fun _ h => h) (fun _ h => .inl h)
    · intro c hc hguard
      exact ⟨hc, of_not_not (of_decide_eq_false hguard)⟩
  apply Ensures.andThen
  · exact unregisterNode_running o
  apply Ensures.onlyIf
  · exact onLifecycle_stop.weaken (fun _ h => h.1) (fun _ h => h) (fun _ h => h)
  · intro c hc _
    exact .inl hc.1

theorem finishShutdown_retired (o : Outcomes) :
    Ensures (ServerContext.Retired (N := N)) (finishShutdown o) ServerContext.Retired ServerContext.Retired := by
  apply Ensures.andThen (R := ServerContext.Retired)
  · exact closeStore_keeps ServerContext.Retired _ _
  apply Ensures.andThen (R := ServerContext.Retired)
  · exact closeStore_onlyIf_keeps ServerContext.Retired _ _ _
  apply Ensures.andThen (R := ServerContext.Retired)
  · exact closeStore_onlyIf_keeps ServerContext.Retired _ _ _
  apply Ensures.andThen (R := ServerContext.Retired)
  · intro c hc
    simp [Action.onlyIf, hc.offline, hc]
  apply Ensures.andThen (R := ServerContext.Retired)
  · exact unregisterNode_retired o
  intro c hc
  simp [Action.onlyIf, hc.stopped, hc]

theorem beginShutdown_settled (o : Outcomes) {c : ServerContext N} (hc : c.Settled) :
    (beginShutdown o c).2.Settled := by
  rcases hc with hc | hc
  · exact .inl ((beginShutdown_running o).after hc)
  · rw [beginShutdown_stopped o hc.stopped]
    exact .inr hc

theorem finishShutdown_settled (o : Outcomes) {c : ServerContext N} (hc : c.Settled) :
    (finishShutdown o c).2.Settled := by
  rcases hc with hc | hc
  · exact (finishShutdown_running o).after hc
  · exact .inr ((finishShutdown_retired o).after hc)

theorem shutdown_running (o : Outcomes) :
    Ensures (ServerContext.Running (N := N)) (shutdown o) ServerContext.Settled ServerContext.Settled :=
  ((beginShutdown_running o).weaken (fun _ h => h) (fun _ h => h) (fun _ h => .inl h)).andThen
    (finishShutdown_running o)

theorem shutdown_stopped (o : Outcomes) {c : ServerContext N} (hc : c.lifecycle.state = .stopped) :
    shutdown o c = (.error (.lifecycle .stopped .draining), c) := by
  simp [shutdown, Action.andThen, beginShutdown_stopped o hc]

theorem markReady_refused {o : Outcomes} (ho : o.register .ready = .failed false) (c : ServerContext N) :
    markReady o c = (.error (.nodeLifecycle "node state registration failed"), c) := by
  simp [markReady, Action.andThen, registerNodeState, ho]

/-- A stopped context that registers its node stays stopped. -/
theorem markReady_stopped {o : Outcomes} (ho : o.register .ready ≠ .failed false) {c : ServerContext N}
    (hc : c.lifecycle.state = .stopped) :
    ∃ e, (markReady o c).1 = .error e ∧ (markReady o c).2.lifecycle.state = .stopped ∧
      (markReady o c).2.nodeRegistry (markReady o c).2.nodeId = some (c.node .ready) := by
  cases hr : o.register .ready with
  | ok =>
    refine ⟨.lifecycle .stopped .ready, ?_, ?_, ?_⟩
    all_goals simp [markReady, Action.andThen, registerNodeState, hr, onLifecycle, ServerLifecycle.ready,
      ServerLifecycle.transition, hc, ServerContext.enter]
  | failed applied =>
    cases applied with
    | false => exact absurd hr ho
    | true =>
      refine ⟨.nodeLifecycle "node state registration failed", ?_, ?_, ?_⟩
      all_goals simp [markReady, Action.andThen, registerNodeState, hr, hc, ServerContext.enter]

/-! ## The calls of an application -/

theorem rollbackStartup_settled (o : Outcomes) {c : ServerContext N} (hc : c.Settled) :
    (rollbackStartup o c).Settled := by
  unfold rollbackStartup
  split
  · exact finishShutdown_settled o (beginShutdown_settled o hc)
  · exact hc

theorem rollbackStartup_stopped (o : Outcomes) {c : ServerContext N} (hc : c.lifecycle.state = .stopped) :
    rollbackStartup o c = c := if_neg (fun h => h hc)

/-- A start that binds its listeners and goes on to `mark_ready`. -/
structure ReachesReady (o : Outcomes) (s : Started N) : Prop where
  unbound : s.application.listener = false
  valid : s.application.validate = .ok ()
  bound : o.bindWebSocket = .ok ()
  assets : s.application.assetDeliveryEnabled = true → s.context.assetDelivery = true ∧ o.bindAssets = .ok ()

/-- What a start leaves of the context. -/
inductive StartLeaves (o : Outcomes) (s : Started N) : ServerContext N → Prop where
  | unchanged : ¬ ReachesReady o s → StartLeaves o s s.context
  | rolledBack : ¬ ReachesReady o s → StartLeaves o s (rollbackStartup o s.context)
  | ready : ReachesReady o s → (markReady o s.context).1 = .ok () → StartLeaves o s (markReady o s.context).2
  | notReady (e : ServerError) : ReachesReady o s → (markReady o s.context).1 = .error e →
      StartLeaves o s (rollbackStartup o (markReady o s.context).2)

theorem announce_leaves {o : Outcomes} {s b : Started N} (hb : b.context = s.context) (h : ReachesReady o s) :
    StartLeaves o s (announce o b).2.context := by
  unfold announce
  rw [hb]
  cases hm : markReady o s.context with
  | mk result c =>
    cases result with
    | error e =>
      have hleaves := StartLeaves.notReady e h (by rw [hm])
      rw [hm] at hleaves
      exact hleaves
    | ok _ =>
      have hleaves := StartLeaves.ready h (by rw [hm])
      rw [hm] at hleaves
      exact hleaves

theorem start_leaves (o : Outcomes) (s : Started N) : StartLeaves o s (start o s).2.context := by
  unfold start
  by_cases hlistener : s.application.listener = true
  · rw [if_pos hlistener]
    exact .unchanged (fun h => by simp [h.unbound] at hlistener)
  rw [if_neg hlistener]
  cases hvalid : s.application.validate with
  | error e => exact .rolledBack (fun h => by simp [h.valid] at hvalid)
  | ok _ =>
    cases hbind : o.bindWebSocket with
    | error e => exact .rolledBack (fun h => by simp [h.bound] at hbind)
    | ok _ =>
      dsimp only
      by_cases henabled : s.application.assetDeliveryEnabled = true
      · rw [if_pos henabled]
        by_cases hdelivery : s.context.assetDelivery = true
        · rw [if_pos hdelivery]
          cases hassets : o.bindAssets with
          | error e => exact .rolledBack (fun h => by simp [(h.assets henabled).2] at hassets)
          | ok _ =>
            exact announce_leaves rfl ⟨by simpa using hlistener, hvalid, hbind, fun _ => ⟨hdelivery, hassets⟩⟩
        · rw [if_neg hdelivery]
          exact .rolledBack (fun h => hdelivery (h.assets henabled).1)
      · rw [if_neg henabled]
        exact announce_leaves rfl ⟨by simpa using hlistener, hvalid, hbind, fun h => absurd h henabled⟩

theorem start_running (o : Outcomes) {s : Started N} (hs : s.context.Running) : (start o s).2.context.Settled := by
  have hmark := (markReady_running o).after hs
  have hleaves := start_leaves o s
  generalize (start o s).2.context = c at hleaves ⊢
  cases hleaves with
  | unchanged h => exact .inl hs
  | rolledBack h => exact rollbackStartup_settled o (.inl hs)
  | ready h hok => exact .inl hmark
  | notReady e h herror => exact rollbackStartup_settled o (.inl hmark)

theorem start_retired {o : Outcomes} {s : Started N} (hs : s.context.Retired)
    (h : ReachesReady o s → o.register .ready = .failed false) : (start o s).2.context.Retired := by
  have hleaves := start_leaves o s
  generalize (start o s).2.context = c at hleaves ⊢
  cases hleaves with
  | unchanged _ => exact hs
  | rolledBack _ =>
    rw [rollbackStartup_stopped o hs.stopped]
    exact hs
  | ready hreach hok =>
    rw [markReady_refused (h hreach)]
    exact hs
  | notReady e hreach herror =>
    rw [markReady_refused (h hreach), rollbackStartup_stopped o hs.stopped]
    exact hs

theorem start_readvertises {o : Outcomes} {s : Started N} (hs : s.context.lifecycle.state = .stopped)
    (hreach : ReachesReady o s) (ho : o.register .ready ≠ .failed false) :
    (start o s).2.context.nodeRegistry (start o s).2.context.nodeId = some (s.context.node .ready) := by
  obtain ⟨-, -, hstopped, hlisted⟩ := markReady_stopped ho hs
  have hleaves := start_leaves o s
  generalize (start o s).2.context = c at hleaves ⊢
  cases hleaves with
  | unchanged h => exact absurd hreach h
  | rolledBack h => exact absurd hreach h
  | ready h hok => exact hlisted
  | notReady e h _ =>
    rw [rollbackStartup_stopped o hstopped]
    exact hlisted

theorem stopApplication_running (o : Outcomes) {s : Started N} (hs : s.context.Running) :
    (stopApplication o s).2.context.Settled := by
  have hbegin := (beginShutdown_running o).after hs
  unfold stopApplication
  rw [if_neg hs]
  cases hb : beginShutdown o s.context with
  | mk result c =>
    rw [hb] at hbegin
    cases result with
    | error e => exact .inl hbegin
    | ok _ => exact (finishShutdown_running o).after hbegin

theorem stopApplication_stopped (o : Outcomes) {s : Started N} (hs : s.context.lifecycle.state = .stopped) :
    stopApplication o s = (.ok (), s) := if_pos hs

/-! ## Sequences of calls -/

/-- The call goes on to `mark_ready`. -/
def RequestsReady (o : Outcomes) (w : Server N ι) : Call ι → Prop
  | .markReady => True
  | .start i => ReachesReady o ⟨w.applications i, w.context⟩
  | _ => False

/-- The call makes the registry record the node of a context that has stopped. -/
structure Readvertises (w : Server N ι) (x : Outcomes × Call ι) : Prop where
  stopped : w.context.lifecycle.state = .stopped
  requests : RequestsReady x.1 w x.2
  recorded : x.1.register .ready ≠ .failed false

theorem perform_running (o : Outcomes) (call : Call ι) {w : Server N ι} (hw : w.context.Running) :
    (Server.perform o call w).2.context.Settled := by
  cases call with
  | markReady => exact .inl ((markReady_running o).after hw)
  | beginShutdown => exact .inl ((beginShutdown_running o).after hw)
  | finishShutdown => exact (finishShutdown_running o).after hw
  | shutdown => exact (shutdown_running o).after hw
  | start i => exact start_running o hw
  | stopApplication i => exact stopApplication_running o hw

theorem perform_retired {w : Server N ι} {x : Outcomes × Call ι} (hw : w.context.Retired)
    (hx : ¬ Readvertises w x) : (Server.perform x.1 x.2 w).2.context.Retired := by
  obtain ⟨o, call⟩ := x
  have hrefused : RequestsReady o w call → o.register .ready = .failed false := by
    intro hrequests
    by_contra hrecorded
    exact hx ⟨hw.stopped, hrequests, hrecorded⟩
  cases call with
  | markReady =>
    change (markReady o w.context).2.Retired
    rw [markReady_refused (hrefused trivial)]
    exact hw
  | beginShutdown =>
    change (beginShutdown o w.context).2.Retired
    rw [beginShutdown_stopped o hw.stopped]
    exact hw
  | finishShutdown => exact (finishShutdown_retired o).after hw
  | shutdown =>
    change (shutdown o w.context).2.Retired
    rw [shutdown_stopped o hw.stopped]
    exact hw
  | start i => exact start_retired hw hrefused
  | stopApplication i =>
    change (stopApplication o ⟨w.applications i, w.context⟩).2.context.Retired
    rw [stopApplication_stopped o hw.stopped]
    exact hw

theorem perform_readvertises {w : Server N ι} {x : Outcomes × Call ι} (hx : Readvertises w x) :
    (Server.perform x.1 x.2 w).2.context.nodeRegistry (Server.perform x.1 x.2 w).2.context.nodeId ≠ none := by
  obtain ⟨o, call⟩ := x
  obtain ⟨hstopped, hrequests, hrecorded⟩ := hx
  cases call with
  | markReady =>
    obtain ⟨e, -, -, hlisted⟩ := markReady_stopped hrecorded hstopped
    exact ne_of_eq_of_ne hlisted nofun
  | start i => exact ne_of_eq_of_ne (start_readvertises hstopped hrequests hrecorded) nofun
  | _ => cases hrequests

theorem after_append (w : Server N ι) (before later : List (Outcomes × Call ι)) :
    w.after (before ++ later) = (w.after before).after later := List.foldl_append

theorem after_concat (w : Server N ι) (before : List (Outcomes × Call ι)) (x : Outcomes × Call ι) :
    w.after (before ++ [x]) = (Server.perform x.1 x.2 (w.after before)).2 := after_append w before [x]

/-- Once stopped, and without an entry after every later call. -/
def StaysUnadvertised (w : Server N ι) (calls : List (Outcomes × Call ι)) : Prop :=
  ∀ before later, before ++ later <+: calls → (w.after before).context.lifecycle.state = .stopped →
    (w.after (before ++ later)).context.nodeRegistry (w.after (before ++ later)).context.nodeId = none

/-- No call makes the registry record a stopped node. -/
def NeverReadvertised (w : Server N ι) (calls : List (Outcomes × Call ι)) : Prop :=
  ∀ before x, before ++ [x] <+: calls → ¬ Readvertises (w.after before) x

theorem after_settled {w : Server N ι} {calls : List (Outcomes × Call ι)} (hw : w.context.Running)
    (h : NeverReadvertised w calls) (before : List (Outcomes × Call ι)) (hbefore : before <+: calls) :
    (w.after before).context.Settled := by
  induction before using List.reverseRecOn with
  | nil => exact .inl hw
  | append_singleton before x ih =>
    have hx := h before x hbefore
    rw [after_concat]
    rcases ih ((List.prefix_append before [x]).trans hbefore) with hrunning | hretired
    · exact perform_running x.1 x.2 hrunning
    · exact .inr (perform_retired hretired hx)

theorem after_retired {w : Server N ι} {calls : List (Outcomes × Call ι)} (h : NeverReadvertised w calls)
    (before later : List (Outcomes × Call ι)) (hpart : before ++ later <+: calls)
    (hretired : (w.after before).context.Retired) : (w.after (before ++ later)).context.Retired := by
  induction later using List.reverseRecOn with
  | nil =>
    rw [List.append_nil]
    exact hretired
  | append_singleton later x ih =>
    rw [← List.append_assoc] at hpart ⊢
    rw [after_concat]
    exact perform_retired (ih ((List.prefix_append _ [x]).trans hpart)) (h _ x hpart)

/-- A context that runs, any sequence of calls, any answers from outside: the stopped node is never advertised again
exactly if no call made after the stop gets the registry to record it as ready. -/
theorem stopped_node_unadvertised_iff (w : Server N ι) (hw : w.context.Running) (calls : List (Outcomes × Call ι)) :
    StaysUnadvertised w calls ↔ NeverReadvertised w calls := by
  constructor
  · intro h before x hx hreadvertised
    have hunlisted := h before [x] hx hreadvertised.stopped
    rw [after_concat] at hunlisted
    exact perform_readvertises hreadvertised hunlisted
  · intro h before later hpart hstopped
    rcases after_settled hw h before ((List.prefix_append before later).trans hpart) with hrunning | hretired
    · exact absurd hstopped hrunning
    · exact (after_retired h before later hpart hretired).unlisted

/-! ## A node of a server that starts -/

def sampleKernel : NodeKernel := ⟨String, Unit, String⟩

def sampleContext : ServerContext sampleKernel where
  nodeId := "node-1"
  nodeMetadata := ()
  nodeCapabilities := []
  nodeState := .starting
  lifecycle := .fromState .starting
  nodeRegistry := Function.update (fun _ => none) "node-1" (some ⟨"node-1", (), .starting, []⟩)
  assetDelivery := false
  assetStore := false
  catalogStore := false

def sampleServer : Server sampleKernel (Fin 1) := ⟨sampleContext, fun _ => ⟨.ok (), false, false, false, false⟩⟩

/-- Everything succeeds. -/
def sampleOutcomes : Outcomes := ⟨fun _ => .ok, .ok, true, true, true, .ok (), .ok ()⟩

theorem stopped_node_unadvertised_sample :
    (sampleServer.after [(sampleOutcomes, .start 0), (sampleOutcomes, .shutdown)]).context.lifecycle.state = .stopped ∧
    StaysUnadvertised sampleServer [(sampleOutcomes, .start 0), (sampleOutcomes, .shutdown)] := by
  refine ⟨rfl, (stopped_node_unadvertised_iff sampleServer (by simp [ServerContext.Running, sampleServer,
    sampleContext, ServerLifecycle.fromState]) _).mpr ?_⟩
  intro before x hx hreadvertised
  obtain ⟨rest, hrest⟩ := hx
  match before with
  | [] =>
    cases hrest
    cases hreadvertised.stopped
  | [y] =>
    cases hrest
    cases hreadvertised.requests
  | y :: z :: before => simp at hrest

/-- A server that is stopped through its context and started again by its application. -/
theorem stopped_node_advertised_again :
    ¬ StaysUnadvertised sampleServer
      [(sampleOutcomes, .shutdown), (sampleOutcomes, .start 0)] := by
  intro h
  have hunlisted := h [(sampleOutcomes, .shutdown)] [(sampleOutcomes, .start 0)] (List.prefix_refl _) rfl
  cases hunlisted

end OrbitRelay.Server
