import OrbitRelay.Listener
import OrbitRelay.NodeAdvertised

/-!
# What every run of a process keeps

The permits of a listener are with its tasks or available, a listener that is not bound
has no task, and the stores are only closed when none is bound and none will be again.
-/
namespace OrbitRelay.Server

open Fallible Transition

variable {N : NodeKernel} {s t : Process N} {l l' : Listener}

/-! ## The permits of one listener -/

def Listener.live (l : Listener) : Nat := l.tasks.countP Connection.live

def Listener.downloading (l : Listener) : Nat := l.tasks.countP Connection.downloads

structure Listener.Sound (l : Listener) : Prop where
  connections : Permits.Balanced Connection.live l.maxConnections l.connections l.tasks
  downloads : Permits.Balanced Connection.downloads l.maxActiveDownloads l.downloads l.tasks

theorem Listener.Sound.bind (maxConnections maxActiveDownloads : Nat) :
    (Listener.bind maxConnections maxActiveDownloads).Sound := ⟨.start, .start⟩

theorem Listener.Sound.task (h : l.Sound) (hst : l.TaskStep l') : l'.Sound := by
  obtain ⟨hconnections, hdownloads⟩ := h
  cases hst with
  | download htasks havailable =>
    rw [htasks] at hconnections hdownloads
    rw [havailable] at hdownloads
    exact ⟨hconnections.keep rfl, hdownloads.acquire rfl rfl⟩
  | downloaded htasks =>
    rw [htasks] at hconnections hdownloads
    exact ⟨hconnections.keep rfl, hdownloads.release rfl rfl⟩
  | finish hc htasks =>
    rw [htasks] at hconnections hdownloads
    obtain rfl | rfl := hc
    · exact ⟨hconnections.release rfl rfl, hdownloads.keep rfl⟩
    · exact ⟨hconnections.release rfl rfl, hdownloads.keep rfl⟩

theorem Listener.Sound.accept (h : l.Sound) (hst : l.Accepts l') : l'.Sound := by
  obtain ⟨hconnections, hdownloads⟩ := h
  cases hst with
  | spawn havailable =>
    rw [havailable] at hconnections
    refine ⟨hconnections.spawn rfl, ?_⟩
    unfold Permits.Balanced at hdownloads ⊢
    rw [List.countP_append]
    exact hdownloads

theorem Listener.Sound.join (h : l.Sound) (hst : l.Joins l') : l'.Sound := by
  obtain ⟨hconnections, hdownloads⟩ := h
  cases hst with
  | join htasks =>
    rw [htasks] at hconnections hdownloads
    exact ⟨hconnections.remove rfl, hdownloads.remove rfl⟩

theorem Listener.TaskStep.nonempty (h : l.TaskStep l') : l.tasks ≠ [] := by
  cases h with
  | download htasks _ | downloaded htasks | finish _ htasks =>
    rw [htasks]
    exact List.append_ne_nil_of_right_ne_nil _ (List.cons_ne_nil _ _)

theorem Listener.Joins.nonempty (h : l.Joins l') : l.tasks ≠ [] := by
  cases h with
  | join htasks =>
    rw [htasks]
    exact List.append_ne_nil_of_right_ne_nil _ (List.cons_ne_nil _ _)

/-- `l'` has the limits of `l`. -/
def Listener.SameLimits (l l' : Listener) : Prop :=
  l'.maxConnections = l.maxConnections ∧ l'.maxActiveDownloads = l.maxActiveDownloads

theorem Listener.TaskStep.sameLimits (h : l.TaskStep l') : l.SameLimits l' := by
  cases h with
  | download _ _ | downloaded _ | finish _ _ => exact ⟨rfl, rfl⟩

theorem Listener.Accepts.sameLimits (h : l.Accepts l') : l.SameLimits l' := by
  cases h with
  | spawn _ => exact ⟨rfl, rfl⟩

theorem Listener.Joins.sameLimits (h : l.Joins l') : l.SameLimits l' := by
  cases h with
  | join _ => exact ⟨rfl, rfl⟩

theorem Listener.sameLimits_rebind (l : Listener) (bound : Bool) : l.SameLimits (l.rebind bound) := by
  cases bound with
  | true => exact ⟨rfl, rfl⟩
  | false => exact ⟨rfl, rfl⟩

/-- A connection is turned away exactly when as many tasks as the limit have not ended. -/
theorem Listener.Sound.full_iff (h : l.Sound) : (¬ ∃ l', l.Accepts l') ↔ l.live = l.maxConnections := by
  rw [Listener.live, ← h.connections.exhausted_iff]
  constructor
  · intro hnone
    by_contra hne
    obtain ⟨available, havailable⟩ := Nat.exists_eq_succ_of_ne_zero hne
    exact hnone ⟨_, .spawn havailable⟩
  · rintro hzero ⟨l', hl'⟩
    cases hl' with
    | spawn havailable =>
      rw [hzero] at havailable
      cases havailable

/-! ## The lifecycle under the calls of an application -/

theorem registerNodeState_lifecycle (o : Outcomes) (state : NodeState) (c : ServerContext N) :
    (registerNodeState o state c).2.lifecycle = c.lifecycle := by
  unfold registerNodeState
  cases o.register state with
  | ok => rfl
  | failed applied => cases applied <;> rfl

theorem unregisterNode_lifecycle (o : Outcomes) (c : ServerContext N) :
    (unregisterNode o c).2.lifecycle = c.lifecycle := by
  unfold unregisterNode
  cases o.unregister with
  | ok => rfl
  | failed applied => cases applied <;> rfl

/-- An action that leaves the lifecycle alone keeps what is said about it. -/
theorem keeps_lifecycle {action : Action ServerError (ServerContext N)}
    (h : ∀ c, (action c).2.lifecycle = c.lifecycle) (P : ServerLifecycle → Prop) :
    Ensures (fun c => P c.lifecycle) action (fun c => P c.lifecycle) (fun c => P c.lifecycle) := by
  intro c hc
  have hkept : P (action c).2.lifecycle := by
    rw [h c]
    exact hc
  exact ⟨fun _ => hkept, fun _ _ => hkept⟩

theorem beginShutdown_draining (o : Outcomes) {c : ServerContext N} (hc : c.lifecycle.state ≠ .stopped) :
    (beginShutdown o c).2.lifecycle.state = .draining := by
  have hbegin : Ensures (fun c : ServerContext N => c.lifecycle.state ≠ .stopped) (beginShutdown o)
      (fun c => c.lifecycle.state = .draining) (fun c => c.lifecycle.state = .draining) := by
    refine Ensures.andThen (R := fun c => c.lifecycle.state = .draining) ?_ ?_
    · apply Ensures.onlyIf
      · rintro c ⟨hrunning, hguard⟩
        have hne : c.lifecycle.state ≠ .draining := of_decide_eq_true hguard
        have hallowed : c.lifecycle.state ∈ [LifecycleState.starting, .ready] := by
          cases hstate : c.lifecycle.state with
          | starting => decide
          | ready => decide
          | draining => exact absurd hstate hne
          | stopped => exact absurd hstate hrunning
        unfold onLifecycle ServerLifecycle.beginShutdown ServerLifecycle.transition
        rw [if_pos hallowed]
        exact ⟨fun _ => rfl, fun _ h => by cases h⟩
      · intro c _ hguard
        exact of_not_not (of_decide_eq_false hguard)
    · apply Ensures.onlyIf
      · exact (keeps_lifecycle (registerNodeState_lifecycle o .draining) (fun l => l.state = .draining)).weaken
          (fun _ h => h.1) (fun _ h => h) (fun _ h => h)
      · exact fun _ h _ => h
  exact hbegin.after hc

/-- From a draining context the end of a shutdown leaves it stopped, or fails and leaves it draining. -/
theorem finishShutdown_lifecycle (o : Outcomes) :
    Ensures (fun c : ServerContext N => c.lifecycle.state = .draining) (finishShutdown o)
      (fun c => c.lifecycle.state = .stopped) (fun c => c.lifecycle.state = .draining) := by
  have hguarded : ∀ (guard : ServerContext N → Bool) {action : Action ServerError (ServerContext N)},
      (∀ c, (action c).2.lifecycle = c.lifecycle) → Ensures (fun c => c.lifecycle.state = .draining)
        (action.onlyIf guard) (fun c => c.lifecycle.state = .draining) (fun c => c.lifecycle.state = .draining) :=
    fun guard _ h => ((keeps_lifecycle h (fun l => l.state = .draining)).weaken (fun _ h => h.1) (fun _ h => h)
      (fun _ h => h)).onlyIf (fun _ h _ => h)
  apply Ensures.andThen
  · exact keeps_lifecycle (fun _ => rfl) (fun l => l.state = .draining)
  apply Ensures.andThen
  · exact hguarded _ (fun _ => rfl)
  apply Ensures.andThen
  · exact hguarded _ (fun _ => rfl)
  apply Ensures.andThen
  · exact hguarded _ (registerNodeState_lifecycle o .offline)
  apply Ensures.andThen
  · exact keeps_lifecycle (unregisterNode_lifecycle o) (fun l => l.state = .draining)
  apply Ensures.onlyIf
  · rintro c ⟨hc, -⟩
    have hallowed : c.lifecycle.state ∈ [LifecycleState.draining] := by
      rw [hc]
      decide
    unfold onLifecycle ServerLifecycle.stop ServerLifecycle.transition
    rw [if_pos hallowed]
    exact ⟨fun _ => rfl, fun _ h => by cases h⟩
  · intro c hc hguard
    exact absurd hc (of_decide_eq_false hguard)

theorem finishShutdown_over (o : Outcomes) {c : ServerContext N} (hc : c.lifecycle.state = .draining) :
    (finishShutdown o c).2.lifecycle.state = .draining ∨ (finishShutdown o c).2.lifecycle.state = .stopped :=
  ((finishShutdown_lifecycle o).weaken (fun _ h => h) (fun _ h => Or.inr h) (fun _ h => Or.inl h)).after hc

theorem rollbackStartup_over (o : Outcomes) (c : ServerContext N) :
    (rollbackStartup o c).lifecycle.state = .draining ∨ (rollbackStartup o c).lifecycle.state = .stopped := by
  unfold rollbackStartup
  split
  · rename_i hrunning
    exact finishShutdown_over o (beginShutdown_draining o hrunning)
  · rename_i hstopped
    exact .inr (of_not_not hstopped)

theorem markReady_lifecycle (o : Outcomes) (c : ServerContext N) :
    ((markReady o c).1 = .ok () ∧ c.lifecycle.state = .starting ∧ (markReady o c).2.lifecycle.state = .ready) ∨
      ∃ e, (markReady o c).1 = .error e ∧ (markReady o c).2.lifecycle = c.lifecycle := by
  have hkept := registerNodeState_lifecycle o .ready c
  unfold markReady Action.andThen
  cases hregister : registerNodeState o .ready c with
  | mk result u =>
    rw [hregister] at hkept
    cases result with
    | error e => exact .inr ⟨e, rfl, hkept⟩
    | ok _ =>
      unfold onLifecycle ServerLifecycle.ready ServerLifecycle.transition
      dsimp only
      by_cases hallowed : u.lifecycle.state ∈ [LifecycleState.starting]
      · rw [if_pos hallowed]
        refine .inl ⟨rfl, ?_, rfl⟩
        rw [← hkept]
        exact List.mem_singleton.mp hallowed
      · rw [if_neg hallowed]
        exact .inr ⟨_, rfl, hkept⟩

/-- How a start from an unbound application ends. -/
inductive Starts (s : Started N) : Except ServerError Unit × Started N → Prop
  | ready {u : Started N} : s.context.lifecycle.state = .starting → u.context.lifecycle.state = .ready →
      u.application.listener = true → Starts s (.ok (), u)
  | failed {u : Started N} (e : ServerError) : u.application.listener = false → u.application.assetListener = false →
      u.context.lifecycle.state = .draining ∨ u.context.lifecycle.state = .stopped → Starts s (.error e, u)

theorem announce_starts (o : Outcomes) {s b : Started N} (hb : b.context = s.context)
    (hbound : b.application.listener = true) : Starts s (announce o b) := by
  unfold announce
  rw [hb]
  have hmark := markReady_lifecycle o s.context
  cases hm : markReady o s.context with
  | mk result c =>
    rw [hm] at hmark
    obtain ⟨hok, hstarting, hready⟩ | ⟨e, herror, -⟩ := hmark
    · cases hok
      exact .ready hstarting hready hbound
    · cases herror
      exact .failed e rfl rfl (rollbackStartup_over o c)

theorem start_starts (o : Outcomes) {s : Started N} (hlistener : s.application.listener = false)
    (hasset : s.application.assetListener = false) : Starts s (Server.start o s) := by
  unfold start
  rw [if_neg (by rw [hlistener]; exact Bool.false_ne_true)]
  cases s.application.validate with
  | error e => exact .failed e hlistener hasset (rollbackStartup_over o s.context)
  | ok _ =>
    cases o.bindWebSocket with
    | error e => exact .failed e hlistener hasset (rollbackStartup_over o s.context)
    | ok _ =>
      dsimp only
      by_cases henabled : s.application.assetDeliveryEnabled = true
      · rw [if_pos henabled]
        by_cases hdelivery : s.context.assetDelivery = true
        · rw [if_pos hdelivery]
          cases o.bindAssets with
          | error e => exact .failed e rfl hasset (rollbackStartup_over o s.context)
          | ok _ => exact announce_starts o rfl rfl
        · rw [if_neg hdelivery]
          exact .failed _ rfl hasset (rollbackStartup_over o s.context)
      · rw [if_neg henabled]
        exact announce_starts o rfl rfl

theorem start_bound (o : Outcomes) {s : Started N} (h : s.application.listener = true) :
    Server.start o s = (.ok (), s) := if_pos h

/-! ## Runs of a process -/

/-- What each phase knows about the rest of the process. -/
def Phase.Allowed (s : Process N) : Phase → Prop
  | .idle | .stopping _ => True
  | .serving _ => s.application.listener = true
  | .draining _ _ => s.context.lifecycle.state = .draining
  | .drainingAssets _ _ => s.context.lifecycle.state = .draining ∧ s.listener.tasks = []
  | .finishing _ => s.context.lifecycle.state = .draining ∧ s.storesClosed = true

theorem Phase.Allowed.congr {phase : Phase} (h : phase.Allowed s)
    (happlication : t.application.listener = s.application.listener)
    (hcontext : t.context.lifecycle.state = s.context.lifecycle.state)
    (htasks : t.listener.tasks = s.listener.tasks) (hclosed : t.storesClosed = s.storesClosed) : phase.Allowed t := by
  cases phase with
  | idle | stopping _ => trivial
  | serving _ => exact happlication.trans h
  | draining _ _ => exact hcontext.trans h
  | drainingAssets _ _ => exact ⟨hcontext.trans h.1, htasks.trans h.2⟩
  | finishing _ => exact ⟨hcontext.trans h.1, hclosed.trans h.2⟩

structure Process.Invariant (s : Process N) : Prop where
  sound : s.listener.Sound
  assetSound : s.assetListener.Sound
  /-- A listener that is not bound has left no task behind. -/
  unbound : s.application.listener = false → s.listener.tasks = []
  assetUnbound : s.application.assetListener = false → s.assetListener.tasks = []
  together : s.application.assetListener = true → s.application.listener = true
  stopped : s.context.lifecycle.state = .stopped → s.storesClosed = true
  closed : s.storesClosed = true → s.application.listener = false ∧
    (s.context.lifecycle.state = .draining ∨ s.context.lifecycle.state = .stopped)
  phase : s.phase.Allowed s
  returned : s.returned = some (.ok ()) → s.context.lifecycle.state = .stopped

theorem Process.Invariant.start {s : Process N} (h : s.Initial) : s.Invariant where
  sound := by
    obtain ⟨max, hmax⟩ := h.listener
    rw [hmax]
    exact .bind max 0
  assetSound := by
    obtain ⟨max, downloads, hmax⟩ := h.assetListener
    rw [hmax]
    exact .bind max downloads
  unbound := by
    obtain ⟨max, hmax⟩ := h.listener
    rw [hmax]
    exact fun _ => rfl
  assetUnbound := by
    obtain ⟨max, downloads, hmax⟩ := h.assetListener
    rw [hmax]
    exact fun _ => rfl
  together := fun hasset => by
    rw [h.unbound.2] at hasset
    cases hasset
  stopped := fun hstopped => by
    obtain hstate | hstate := h.context <;> rw [hstopped] at hstate <;> cases hstate
  closed := fun hclosed => by
    rw [h.storesOpen] at hclosed
    cases hclosed
  phase := by
    rw [h.idle]
    trivial
  returned := fun hreturned => by
    rw [h.returned] at hreturned
    cases hreturned

theorem Process.Invariant.assetClosed (h : s.Invariant) (hclosed : s.application.listener = false) :
    s.application.assetListener = false := by
  cases hasset : s.application.assetListener with
  | false => rfl
  | true =>
    rw [h.together hasset] at hclosed
    cases hclosed

theorem Process.Invariant.startStep (h : s.Invariant) (o : Outcomes) : (s.start o).Invariant := by
  cases hlistener : s.application.listener with
  | true =>
    have hstart := start_bound o hlistener
    have hsame : s.start o = { s with phase := .idle, rejecting := false, returned := none } := by
      unfold Process.start
      rw [hstart, hlistener]
      simp [Listener.rebind, Except.isOk, Except.toBool]
    rw [hsame]
    exact ⟨h.sound, h.assetSound, h.unbound, h.assetUnbound, h.together, h.stopped, h.closed, trivial,
      fun hr => by cases hr⟩
  | false =>
    have hasset := h.assetClosed hlistener
    have hstarts := start_starts o hlistener hasset
    unfold Process.start
    rw [hlistener]
    generalize Server.start o s.toStarted = out at hstarts
    cases hstarts with
    | @ready u hstarting hready hbound =>
      have hopen : s.storesClosed = false := by
        cases hclosed : s.storesClosed with
        | false => rfl
        | true =>
          obtain ⟨-, hstate | hstate⟩ := h.closed hclosed
          · rw [hstarting] at hstate
            cases hstate
          · rw [hstarting] at hstate
            cases hstate
      have hstill : (s.storesClosed || (!(Except.ok () : Except ServerError Unit).isOk &&
          decide (s.context.lifecycle.state ≠ .stopped))) = false := by
        rw [hopen]
        rfl
      refine ⟨.bind _ _, .bind _ _, fun _ => rfl, fun _ => rfl, fun _ => hbound, ?_, ?_, trivial, fun hr => by cases hr⟩
      · intro hstopped
        rw [hready] at hstopped
        cases hstopped
      · intro hclosed
        rw [hstill] at hclosed
        cases hclosed
    | @failed u e hunbound hassetUnbound hover =>
      have hclosed : (s.storesClosed || (!(Except.error e : Except ServerError Unit).isOk &&
          decide (s.context.lifecycle.state ≠ .stopped))) = true := by
        by_cases hstate : s.context.lifecycle.state = .stopped
        · rw [h.stopped hstate]
          rfl
        · rw [decide_eq_true hstate]
          exact Bool.or_true _
      refine ⟨.bind _ _, .bind _ _, fun _ => rfl, fun _ => rfl, ?_, fun _ => hclosed, fun _ => ⟨hunbound, hover⟩,
        trivial, fun hr => by cases hr⟩
      intro hbound
      rw [hassetUnbound] at hbound
      cases hbound

/-- The application goes from one await to another. -/
theorem Process.Invariant.turn (h : s.Invariant) (phase : Phase) {rejecting : Bool}
    {returned : Option (Except ServerError Unit)} (hphase : phase.Allowed s)
    (hreturned : returned = some (.ok ()) → s.context.lifecycle.state = .stopped) :
    Process.Invariant { s with phase := phase, rejecting := rejecting, returned := returned } where
  sound := h.sound
  assetSound := h.assetSound
  unbound := h.unbound
  assetUnbound := h.assetUnbound
  together := h.together
  stopped := h.stopped
  closed := h.closed
  phase := hphase.congr rfl rfl rfl rfl
  returned := hreturned

/-- The task set of the WebSocket listener changes while the listener is bound. -/
theorem Process.Invariant.tasks (h : s.Invariant) (hl : l.Sound) (hbound : s.listener.tasks ≠ []) :
    Process.Invariant { s with listener := l } where
  sound := hl
  assetSound := h.assetSound
  unbound := fun hunbound => absurd (h.unbound hunbound) hbound
  assetUnbound := h.assetUnbound
  together := h.together
  stopped := h.stopped
  closed := h.closed
  phase := by
    have hphase := h.phase
    show Phase.Allowed _ s.phase
    cases hs : s.phase with
    | drainingAssets result aborting =>
      rw [hs] at hphase
      exact absurd hphase.2 hbound
    | idle | serving _ | stopping _ | draining _ _ | finishing _ =>
      rw [hs] at hphase
      exact hphase
  returned := h.returned

theorem Process.Invariant.assetTasks (h : s.Invariant) (hl : l.Sound)
    (hunbound : s.application.assetListener = false → l.tasks = []) :
    Process.Invariant { s with assetListener := l } where
  sound := h.sound
  assetSound := hl
  unbound := h.unbound
  assetUnbound := hunbound
  together := h.together
  stopped := h.stopped
  closed := h.closed
  phase := h.phase.congr rfl rfl rfl rfl
  returned := h.returned

theorem Process.Invariant.phase_of (h : s.Invariant) {phase : Phase} (hs : s.phase = phase) : phase.Allowed s :=
  hs ▸ h.phase

/-- Tasks that the asset listener still has to join show that it is bound. -/
theorem Process.Invariant.assetBound (h : s.Invariant) (hne : s.assetListener.tasks ≠ []) {P : Prop}
    (hunbound : s.application.assetListener = false) : P := absurd (h.assetUnbound hunbound) hne

theorem Process.Invariant.loop (h : s.Invariant) {method : Method} (hphase : s.phase = .serving method)
    (hst : LoopStep s t) : t.Invariant := by
  have hserving : s.application.listener = true := h.phase_of hphase
  have hreturned := h.returned
  cases hst with
  | @accept l hl =>
    refine ⟨h.sound.accept hl, h.assetSound, ?_, h.assetUnbound, h.together, h.stopped, h.closed, ?_, h.returned⟩
    · intro hunbound
      exact absurd (hserving.symm.trans hunbound) Bool.noConfusion
    · show Phase.Allowed _ s.phase
      rw [hphase]
      exact hserving
  | join hl => exact h.tasks (h.sound.join hl) hl.nonempty
  | acceptAsset hasset _ hl =>
    exact h.assetTasks (h.assetSound.accept hl) fun hunbound => absurd (hasset.symm.trans hunbound) Bool.noConfusion
  | joinAsset _ _ hl => exact h.assetTasks (h.assetSound.join hl) fun hunbound => h.assetBound hl.nonempty hunbound
  | reject _ _ _ => exact h.turn _ (h.phase_of rfl) h.returned
  | rejected _ => exact h.turn _ (h.phase_of rfl) h.returned

theorem Process.Invariant.drain (h : s.Invariant) (hst : DrainStep s t) : t.Invariant := by
  cases hst with
  | join _ hl => exact h.tasks (h.sound.join hl) hl.nonempty
  | deadline hphase =>
    have hdraining : s.context.lifecycle.state = .draining := h.phase_of hphase
    exact h.turn (.draining _ true) hdraining h.returned
  | drained hphase hempty => exact h.turn _ ⟨h.phase_of hphase, hempty.elim h.unbound id⟩ h.returned
  | joinAsset _ hl => exact h.assetTasks (h.assetSound.join hl) fun hunbound => h.assetBound hl.nonempty hunbound
  | assetDeadline hphase =>
    have hdraining : s.context.lifecycle.state = .draining ∧ s.listener.tasks = [] := h.phase_of hphase
    exact h.turn (.drainingAssets _ true) hdraining h.returned
  | assetDrained hphase hempty =>
    obtain ⟨hdraining, hnone⟩ := h.phase_of hphase
    exact ⟨h.sound, h.assetSound, fun _ => hnone, fun _ => hempty.elim h.assetUnbound id,
      fun hbound => Bool.noConfusion hbound, fun _ => rfl, fun _ => ⟨rfl, .inl hdraining⟩, ⟨hdraining, rfl⟩, h.returned⟩

/-- `begin_shutdown` has been called on a context that is not stopped. -/
theorem Process.Invariant.begun (h : s.Invariant) {c : ServerContext N} (hc : c.lifecycle.state = .draining)
    (cancelled : Bool) {phase : Phase}
    (hphase : (∃ result, phase = .draining result false) ∨ phase = .idle)
    {returned : Option (Except ServerError Unit)} (hreturned : returned ≠ some (.ok ())) :
    Process.Invariant { s with
      context := c
      application := { s.application with cancelled := cancelled }
      phase := phase
      returned := returned } where
  sound := h.sound
  assetSound := h.assetSound
  unbound := h.unbound
  assetUnbound := h.assetUnbound
  together := h.together
  stopped := fun hstopped => absurd (hc.symm.trans hstopped) (by decide)
  closed := fun hclosed => ⟨(h.closed hclosed).1, .inl hc⟩
  phase := by
    obtain ⟨result, rfl⟩ | rfl := hphase
    · exact hc
    · trivial
  returned := fun hr => absurd hr hreturned

/-- `finish_shutdown` has been called on a draining context whose listeners are gone. -/
theorem Process.Invariant.finished (h : s.Invariant) (hclosed : s.storesClosed = true) {c : ServerContext N}
    (hc : c.lifecycle.state = .draining ∨ c.lifecycle.state = .stopped)
    {returned : Option (Except ServerError Unit)}
    (hreturned : returned = some (.ok ()) → c.lifecycle.state = .stopped) :
    Process.Invariant { s with context := c, phase := .idle, returned := returned } where
  sound := h.sound
  assetSound := h.assetSound
  unbound := h.unbound
  assetUnbound := h.assetUnbound
  together := h.together
  stopped := fun _ => hclosed
  closed := fun _ => ⟨(h.closed hclosed).1, hc⟩
  phase := trivial
  returned := hreturned

theorem first_ok {result next : Except ServerError Unit} (h : first result next = .ok ()) : next = .ok () := by
  cases result with
  | ok _ => exact h
  | error e => cases h

theorem Process.Invariant.step (h : s.Invariant) (hst : Process.Step s t) : t.Invariant := by
  cases hst with
  | start o _ => exact h.startStep o
  | serve method _ hbound => exact h.turn (.serving method) hbound (fun hr => by cases hr)
  | loop hphase hloop => exact h.loop hphase hloop
  | loopEnds _ _ => exact h.turn (.stopping _) trivial h.returned
  | signal _ _ => exact h.turn (.stopping _) trivial h.returned
  | inputFailed _ => exact h.turn (.stopping _) trivial h.returned
  | signalFailed _ => exact h.turn .idle trivial (fun hr => by cases hr)
  | shutdown _ => exact h.turn (.stopping _) trivial (fun hr => by cases hr)
  | alreadyStopped _ hstopped => exact h.turn .idle trivial (fun _ => hstopped)
  | begin o _ hrunning hok =>
    refine h.begun (beginShutdown_draining o hrunning) true (.inl ⟨_, rfl⟩) ?_
    intro hr
    exact hrunning (h.returned hr)
  | @beginFailed result e o _ hrunning _ =>
    refine h.begun (beginShutdown_draining o hrunning) _ (.inr rfl) ?_
    intro hr
    cases first_ok (Option.some.inj hr)
  | drain hdrain => exact h.drain hdrain
  | finish o hphase =>
    obtain ⟨hdraining, hclosed⟩ := h.phase_of hphase
    refine h.finished hclosed (finishShutdown_over o hdraining) ?_
    intro hr
    exact (finishShutdown_lifecycle o _ hdraining).1 (first_ok (Option.some.inj hr))
  | task hl => exact h.tasks (h.sound.task hl) hl.nonempty
  | assetTask hl => exact h.assetTasks (h.assetSound.task hl) fun hunbound => h.assetBound hl.nonempty hunbound
  | cancel =>
    exact ⟨h.sound, h.assetSound, h.unbound, h.assetUnbound, h.together, h.stopped, h.closed,
      h.phase.congr rfl rfl rfl rfl, h.returned⟩
  | dropped => exact h.turn .idle trivial (fun hr => by cases hr)
  | beginDropped o _ hrunning =>
    exact h.begun (beginShutdown_draining o hrunning) _ (.inr rfl) (fun hr => by cases hr)
  | finishDropped o hphase =>
    obtain ⟨hdraining, hclosed⟩ := h.phase_of hphase
    exact h.finished hclosed (finishShutdown_over o hdraining) (fun hr => by cases hr)

end OrbitRelay.Server
