import OrbitRelay.ListenerInvariant

/-!
# Connections end before the stores close

No listener ever has more connections or downloads than its limits. A shutdown gets past
its drains whatever the connections do, and once it may have begun to close the stores no
connection task is left, nor is one ever started again.
-/
namespace OrbitRelay.Server

open Fallible Transition

variable {N : NodeKernel} {s t : Process N} {l l' : Listener}

theorem Process.reachable_invariant (h : (Process.system N).Reachable s) : s.Invariant :=
  System.invariant (fun _ h => .start h) (fun _ _ hs hst => hs.step hst) h

/-- Both listeners keep the limits they were configured with. -/
def Process.SameLimits (s t : Process N) : Prop :=
  s.listener.SameLimits t.listener ∧ s.assetListener.SameLimits t.assetListener

theorem Listener.SameLimits.refl (l : Listener) : l.SameLimits l := ⟨rfl, rfl⟩

theorem Listener.SameLimits.trans {l'' : Listener} (h : l.SameLimits l') (h' : l'.SameLimits l'') :
    l.SameLimits l'' := ⟨h'.1.trans h.1, h'.2.trans h.2⟩

theorem Process.Step.sameLimits (hst : Process.Step s t) : s.SameLimits t := by
  have hsame : s.SameLimits s := ⟨.refl _, .refl _⟩
  cases hst with
  | start o _ => exact ⟨Listener.sameLimits_rebind _ _, Listener.sameLimits_rebind _ _⟩
  | loop _ hloop =>
    cases hloop with
    | accept hl => exact ⟨hl.sameLimits, .refl _⟩
    | join hl => exact ⟨hl.sameLimits, .refl _⟩
    | acceptAsset _ _ hl => exact ⟨.refl _, hl.sameLimits⟩
    | joinAsset _ _ hl => exact ⟨.refl _, hl.sameLimits⟩
    | reject _ _ _ | rejected _ => exact hsame
  | drain hdrain =>
    cases hdrain with
    | join _ hl => exact ⟨hl.sameLimits, .refl _⟩
    | joinAsset _ hl => exact ⟨.refl _, hl.sameLimits⟩
    | deadline _ | drained _ _ | assetDeadline _ | assetDrained _ _ => exact hsame
  | task hl => exact ⟨hl.sameLimits, .refl _⟩
  | assetTask hl => exact ⟨.refl _, hl.sameLimits⟩
  | serve _ _ _ | loopEnds _ _ | signal _ _ | inputFailed _ | signalFailed _ | shutdown _ | alreadyStopped _ _
  | begin _ _ _ _ | beginFailed _ _ _ _ | finish _ _ | cancel | dropped | beginDropped _ _ _ | finishDropped _ _ =>
    exact hsame

theorem Process.run_sameLimits (hrun : (Process.system N).Run s t) : s.SameLimits t :=
  System.run_related (P := fun _ => True) (R := Process.SameLimits) (fun _ _ _ _ => trivial) (fun _ => ⟨.refl _, .refl _⟩)
    (fun _ _ _ h h' => ⟨h.1.trans h'.1, h.2.trans h'.2⟩) (fun _ _ _ hst => Step.sameLimits hst) trivial hrun

/-- What the limits of `limits` mean for `l`. -/
structure Listener.Within (limits l : Listener) : Prop where
  live : l.live ≤ limits.maxConnections
  downloading : l.downloading ≤ limits.maxActiveDownloads
  /-- A connection is turned away exactly when the limit is reached. -/
  refuses_iff : (¬ ∃ l', l.Accepts l') ↔ l.live = limits.maxConnections
  /-- An accepted connection is told that the server is busy exactly when it is. -/
  busy_iff : l.downloads = 0 ↔ l.downloading = limits.maxActiveDownloads
  /-- Every permit comes back. -/
  returned : l.tasks = [] → l.connections = limits.maxConnections ∧ l.downloads = limits.maxActiveDownloads

theorem Listener.Sound.within (h : l.Sound) {limits : Listener} (hsame : limits.SameLimits l) :
    limits.Within l where
  live := by
    rw [← hsame.1]
    exact h.connections.owners_le
  downloading := by
    rw [← hsame.2]
    exact h.downloads.owners_le
  refuses_iff := by
    rw [← hsame.1]
    exact h.full_iff
  busy_iff := by
    rw [← hsame.2]
    exact h.downloads.exhausted_iff
  returned := by
    intro hnone
    have hconnections := h.connections
    have hdownloads := h.downloads
    unfold Permits.Balanced at hconnections hdownloads
    rw [hnone, List.countP_nil, Nat.add_zero] at hconnections hdownloads
    exact ⟨hconnections.trans hsame.1, hdownloads.trans hsame.2⟩

/-! ## A process that serves one connection on each listener -/

def sampleProcess : Process sampleKernel where
  application := ⟨.ok (), true, false, false, false⟩
  context := { sampleContext with assetDelivery := true }
  listener := .bind 1024 0
  assetListener := .bind 128 32
  phase := .idle
  rejecting := false
  storesClosed := false
  returned := none

theorem sampleProcess_initial : sampleProcess.Initial :=
  ⟨.inl rfl, ⟨rfl, rfl⟩, ⟨1024, rfl⟩, ⟨128, 32, rfl⟩, rfl, rfl, rfl, rfl⟩

def sampleServing : Process sampleKernel where
  application := ⟨.ok (), true, true, true, false⟩
  context := (markReady sampleOutcomes sampleProcess.context).2
  listener := ⟨1024, 0, 1023, 0, [.accepted]⟩
  assetListener := ⟨128, 32, 127, 31, [.downloading]⟩
  phase := .serving .run
  rejecting := false
  storesClosed := false
  returned := none

theorem sampleServing_run : (Process.system sampleKernel).Run sampleProcess sampleServing := by
  have h₁ : (Process.system sampleKernel).Run sampleProcess _ := .single (.start sampleOutcomes rfl)
  have h₂ := h₁.tail (.serve .run rfl rfl)
  have h₃ := h₂.tail (.loop rfl (.accept (.spawn rfl)))
  have h₄ := h₃.tail (.loop rfl (.acceptAsset rfl rfl (.spawn rfl)))
  exact h₄.tail (.assetTask (@Listener.TaskStep.download _ [] _ _ rfl rfl))

/-- The process signal comes while both connections are open. -/
theorem sampleProcess_stops : ∃ s t, (Process.system sampleKernel).Run sampleProcess s ∧ s.storesClosed = true ∧
    (Process.system sampleKernel).Run s t ∧ t.returned = some (.ok ()) := by
  have h₁ := sampleServing_run.tail (.signal rfl (by decide))
  have h₂ := h₁.tail (.begin sampleOutcomes rfl (by decide) rfl)
  have h₃ := h₂.tail (.task (@Listener.TaskStep.finish _ [] _ _ (.inl rfl) rfl))
  have h₄ := h₃.tail (.drain (.join rfl (@Listener.Joins.join _ [] _ rfl)))
  have h₅ := h₄.tail (.drain (.drained rfl (.inr rfl)))
  have h₆ := h₅.tail (.drain (.assetDeadline rfl))
  have h₇ := h₆.tail (.assetTask (@Listener.TaskStep.downloaded _ [] _ rfl))
  have h₈ := h₇.tail (.assetTask (@Listener.TaskStep.finish _ [] _ _ (.inr rfl) rfl))
  have h₉ := h₈.tail (.drain (.joinAsset rfl (@Listener.Joins.join _ [] _ rfl)))
  have h₁₀ := h₉.tail (.drain (.assetDrained rfl (.inr rfl)))
  exact ⟨_, _, h₁₀, rfl, .single (.finish sampleOutcomes rfl), rfl⟩

/-! ## The limits of the listeners -/

/-- However connections come, go, are aborted or outlive the call that accepted them, both
listeners stay within their limits and turn nobody away below them. -/
theorem connections_within_limits {s₀ s : Process N} (h₀ : s₀.Initial) (hrun : (Process.system N).Run s₀ s) :
    s₀.listener.Within s.listener ∧ s₀.assetListener.Within s.assetListener := by
  have hs := Process.reachable_invariant ⟨s₀, h₀, hrun⟩
  obtain ⟨hlistener, hasset⟩ := Process.run_sameLimits hrun
  exact ⟨hs.sound.within hlistener, hs.assetSound.within hasset⟩

theorem connections_within_limits_sample :
    sampleProcess.listener.Within sampleServing.listener ∧
      sampleProcess.assetListener.Within sampleServing.assetListener :=
  connections_within_limits sampleProcess_initial sampleServing_run

/-! ## The stores close last -/

/-- No listener is bound and no connection task is left. -/
structure Process.Quiet (s : Process N) : Prop where
  listener : s.application.listener = false
  assetListener : s.application.assetListener = false
  tasks : s.listener.tasks = []
  assetTasks : s.assetListener.tasks = []

theorem Process.Invariant.quiet (h : s.Invariant) (hclosed : s.storesClosed = true) : s.Quiet := by
  have hlistener := (h.closed hclosed).1
  have hasset := h.assetClosed hlistener
  exact ⟨hlistener, hasset, h.unbound hlistener, h.assetUnbound hasset⟩

theorem Process.Step.storesClosed (hst : Process.Step s t) (h : s.storesClosed = true) : t.storesClosed = true := by
  cases hst with
  | start o _ =>
    show (s.storesClosed || _) = true
    rw [h]
    rfl
  | loop _ hloop => cases hloop <;> exact h
  | drain hdrain =>
    cases hdrain with
    | assetDrained _ _ => rfl
    | join _ _ | deadline _ | drained _ _ | joinAsset _ _ | assetDeadline _ => exact h
  | serve _ _ _ | loopEnds _ _ | signal _ _ | inputFailed _ | signalFailed _ | shutdown _ | alreadyStopped _ _
  | begin _ _ _ _ | beginFailed _ _ _ _ | finish _ _ | task _ | assetTask _ | cancel | dropped | beginDropped _ _ _
  | finishDropped _ _ => exact h

/-- The shutdown that answers with `result` is draining a listener. -/
def Phase.Drains (result : Except ServerError Unit) : Phase → Prop
  | .draining r _ | .drainingAssets r _ => r = result
  | _ => False

/-- What a drain waits for: its own steps, and once the grace period is over the ends of
the aborted tasks. -/
inductive DrainWork (s : Process N) : Process N → Prop
  | owner {t : Process N} : DrainStep s t → DrainWork s t
  | aborted {result : Except ServerError Unit} {l : Listener} : s.phase = .draining result true →
      s.listener.TaskStep l → DrainWork s { s with listener := l }
  | assetAborted {result : Except ServerError Unit} {l : Listener} : s.phase = .drainingAssets result true →
      s.assetListener.TaskStep l → DrainWork s { s with assetListener := l }

def Connection.stepsLeft : Connection → Nat
  | .accepted => 4
  | .downloading => 3
  | .answered => 2
  | .ended => 1

def Listener.stepsLeft (l : Listener) : Nat := (l.tasks.map Connection.stepsLeft).sum

def Phase.stepsLeft : Phase → Nat
  | .draining _ false => 4
  | .draining _ true => 3
  | .drainingAssets _ false => 2
  | .drainingAssets _ true => 1
  | _ => 0

def Process.stepsLeft (s : Process N) : Nat :=
  s.listener.stepsLeft + s.assetListener.stepsLeft + s.phase.stepsLeft

theorem sum_moved (before after : List Connection) (c : Connection) :
    ((before ++ c :: after).map Connection.stepsLeft).sum =
      ((before ++ after).map Connection.stepsLeft).sum + c.stepsLeft := by
  simp only [List.map_append, List.map_cons, List.sum_append, List.sum_cons]
  omega

theorem Listener.TaskStep.fewer (h : l.TaskStep l') : l'.stepsLeft < l.stepsLeft := by
  cases h with
  | download htasks _ | downloaded htasks =>
    simp only [Listener.stepsLeft, htasks, sum_moved, Connection.stepsLeft]
    omega
  | finish hc htasks =>
    obtain rfl | rfl := hc
    · simp only [Listener.stepsLeft, htasks, sum_moved, Connection.stepsLeft]
      omega
    · simp only [Listener.stepsLeft, htasks, sum_moved, Connection.stepsLeft]
      omega

theorem Listener.Joins.fewer (h : l.Joins l') : l'.stepsLeft < l.stepsLeft := by
  cases h with
  | join htasks =>
    simp only [Listener.stepsLeft, htasks, sum_moved, Connection.stepsLeft]
    omega

theorem DrainStep.fewer (h : DrainStep s t) : t.stepsLeft < s.stepsLeft := by
  cases h with
  | join _ hl =>
    have hfewer := hl.fewer
    simp only [Process.stepsLeft]
    omega
  | joinAsset _ hl =>
    have hfewer := hl.fewer
    simp only [Process.stepsLeft]
    omega
  | deadline hphase | assetDeadline hphase =>
    simp only [Process.stepsLeft, hphase, Phase.stepsLeft]
    omega
  | @drained result aborting hphase _ | @assetDrained result aborting hphase _ =>
    cases aborting with
    | false =>
      simp only [Process.stepsLeft, hphase, Phase.stepsLeft]
      omega
    | true =>
      simp only [Process.stepsLeft, hphase, Phase.stepsLeft]
      omega

theorem DrainWork.fewer (h : DrainWork s t) : t.stepsLeft < s.stepsLeft := by
  cases h with
  | owner hdrain => exact hdrain.fewer
  | aborted _ hl | assetAborted _ hl =>
    have hfewer := hl.fewer
    simp only [Process.stepsLeft]
    omega

/-- An aborted task that has not ended goes on towards its end. -/
theorem Listener.next {c : Connection} {rest : List Connection} (h : l.tasks = c :: rest) :
    (∃ l', l.Joins l') ∨ ∃ l', l.TaskStep l' := by
  have hhead : l.tasks = [] ++ c :: rest := h
  cases c with
  | accepted => exact .inr ⟨_, .finish (.inl rfl) hhead⟩
  | downloading => exact .inr ⟨_, .downloaded hhead⟩
  | answered => exact .inr ⟨_, .finish (.inr rfl) hhead⟩
  | ended => exact .inl ⟨_, .join hhead⟩

/-- No listener is draining for `result`. -/
def Process.Drained (result : Except ServerError Unit) (s : Process N) : Prop := ¬ s.phase.Drains result

theorem drainWork_enabled {result : Except ServerError Unit} (h : ¬ s.Drained result) : ∃ t, DrainWork s t := by
  have hdrains := not_not.mp h
  cases hphase : s.phase with
  | draining r aborting =>
    cases htasks : s.listener.tasks with
    | nil => exact ⟨_, .owner (.drained hphase (.inr htasks))⟩
    | cons c rest =>
      cases aborting with
      | false => exact ⟨_, .owner (.deadline hphase)⟩
      | true =>
        obtain ⟨l, hl⟩ | ⟨l, hl⟩ := Listener.next htasks
        · exact ⟨_, .owner (.join hphase hl)⟩
        · exact ⟨_, .aborted hphase hl⟩
  | drainingAssets r aborting =>
    cases htasks : s.assetListener.tasks with
    | nil => exact ⟨_, .owner (.assetDrained hphase (.inr htasks))⟩
    | cons c rest =>
      cases aborting with
      | false => exact ⟨_, .owner (.assetDeadline hphase)⟩
      | true =>
        obtain ⟨l, hl⟩ | ⟨l, hl⟩ := Listener.next htasks
        · exact ⟨_, .owner (.joinAsset hphase hl)⟩
        · exact ⟨_, .assetAborted hphase hl⟩
  | idle | serving _ | stopping _ | finishing _ =>
    rw [hphase] at hdrains
    exact hdrains.elim

/-- One step of a process that is draining: it goes on, nearer to the end, or it is done
with it, or its caller has dropped it. -/
theorem Process.Step.drains {result : Except ServerError Unit} (h : s.phase.Drains result)
    (hst : Process.Step s t) : t.stepsLeft ≤ s.stepsLeft ∧
      (t.phase.Drains result ∨ t.phase = .finishing result ∨ t.phase = .idle) := by
  have hother : ∀ {phase : Phase}, s.phase = phase → phase.Drains result := fun hphase => hphase ▸ h
  cases hst with
  | drain hdrain =>
    refine ⟨Nat.le_of_lt hdrain.fewer, ?_⟩
    cases hdrain with
    | join _ _ | joinAsset _ _ => exact .inl h
    | deadline hphase | drained hphase _ | assetDeadline hphase =>
      have hresult : _ = result := hother hphase
      exact .inl hresult
    | assetDrained hphase _ =>
      have hresult : _ = result := hother hphase
      rw [← hresult]
      exact .inr (.inl rfl)
  | task hl | assetTask hl =>
    have hfewer := hl.fewer
    refine ⟨?_, .inl h⟩
    simp only [Process.stepsLeft]
    omega
  | cancel => exact ⟨Nat.le_refl _, .inl h⟩
  | dropped => exact ⟨Nat.le_add_right _ _, .inr (.inr rfl)⟩
  | start o hphase | serve method hphase _ | shutdown hphase => exact (hother hphase).elim
  | loop hphase _ | loopEnds hphase _ | signal hphase _ | inputFailed hphase | signalFailed hphase
  | alreadyStopped hphase _ | begin o hphase _ _ | beginFailed o hphase _ _ | finish o hphase
  | beginDropped o hphase _ | finishDropped o hphase => exact (hother hphase).elim

/-- However the connections behave, a fair schedule takes a shutdown past its drains: it
comes to `finish_shutdown` with the answer of the accept loops, unless its caller drops it. -/
theorem shutdown_drains {f : Nat → Process N} (hf : (Process.system N).Execution f) (hfair : Fair DrainWork f)
    {result : Except ServerError Unit} (h : (f 0).phase.Drains result) :
    ∃ n, (f n).phase = .finishing result ∨ (f n).phase = .idle := by
  have hends : ∃ n, (f n).Drained result := by
    refine hf.eventually Process.stepsLeft hfair (P := fun _ => True) (fun _ _ _ _ => trivial) ?_ ?_ ?_ trivial
    · exact fun s _ hgoal => drainWork_enabled hgoal
    · exact fun s t _ hgoal hst => (Process.Step.drains (not_not.mp hgoal) hst).1
    · exact fun s t _ _ hwork => hwork.fewer
  obtain ⟨n, hn⟩ := hends
  induction n with
  | zero => exact absurd h hn
  | succ n ih =>
    by_cases hdrains : (f n).phase.Drains result
    · obtain heq | hst := hf n
      · rw [heq] at hn
        exact absurd hdrains hn
      · exact ⟨n + 1, (Process.Step.drains hdrains hst).2.resolve_left hn⟩
    · exact ih hdrains

/-- The shutdown of one connection that outlives the grace period. -/
def sampleShutdown (tasks : List Connection) (connections : Nat) (phase : Phase) : Process sampleKernel where
  application := ⟨.ok (), true, true, false, true⟩
  context := (beginShutdown sampleOutcomes sampleServing.context).2
  listener := ⟨1024, 0, connections, 0, tasks⟩
  assetListener := .bind 128 32
  phase := phase
  rejecting := false
  storesClosed := false
  returned := none

def sampleDrain : Nat → Process sampleKernel
  | 0 => sampleShutdown [.accepted] 1023 (.draining (.ok ()) false)
  | 1 => sampleShutdown [.accepted] 1023 (.draining (.ok ()) true)
  | 2 => sampleShutdown [.ended] 1024 (.draining (.ok ()) true)
  | 3 => sampleShutdown [] 1024 (.draining (.ok ()) true)
  | 4 => sampleShutdown [] 1024 (.drainingAssets (.ok ()) false)
  | _ + 5 => { sampleShutdown [] 1024 (.finishing (.ok ())) with
      application := ⟨.ok (), true, false, false, true⟩
      storesClosed := true }

theorem sampleDrain_execution : (Process.system sampleKernel).Execution sampleDrain := by
  intro n
  match n with
  | 0 => exact .inr (.drain (.deadline rfl))
  | 1 => exact .inr (.task (@Listener.TaskStep.finish _ [] _ _ (.inl rfl) rfl))
  | 2 => exact .inr (.drain (.join rfl (@Listener.Joins.join _ [] _ rfl)))
  | 3 => exact .inr (.drain (.drained rfl (.inr rfl)))
  | 4 => exact .inr (.drain (.assetDrained rfl (.inr rfl)))
  | _ + 5 => exact .inl rfl

theorem sampleDrain_fair : Fair DrainWork sampleDrain := by
  intro n
  refine ⟨n + 5, Nat.le_add_right n 5, .inr ?_⟩
  intro t hwork
  cases hwork with
  | aborted hphase _ | assetAborted hphase _ => cases hphase
  | owner hdrain =>
    cases hdrain with
    | join hphase _ | deadline hphase | drained hphase _ | joinAsset hphase _ | assetDeadline hphase
    | assetDrained hphase _ => cases hphase

theorem shutdown_drains_sample :
    ∃ n, (sampleDrain n).phase = .finishing (.ok ()) ∨ (sampleDrain n).phase = .idle :=
  shutdown_drains sampleDrain_execution sampleDrain_fair rfl

end OrbitRelay.Server
