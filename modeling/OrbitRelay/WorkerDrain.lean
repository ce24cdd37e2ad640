import OrbitRelay.WorkerContract

/-!
# When a close has drained the worker

A close that returns `Ok` promises that the commands accepted before it are
executed and that no other will be. The call that set the flag and a call that
joined the thread keep the promise; one that returns without waiting keeps it
only if nothing is left that could reach the thread.
-/
namespace OrbitRelay.Worker

open Transition

variable {A : Adapter} {s t : State A}

/-- The dispatch has passed the closed check and can still get at a sender. -/
def Dispatch.mayEnqueue (s : State A) : Dispatch A → Prop
  | .holding _ => True
  | .checked _ => s.sender = true
  | _ => False

/-- The next message, if there is one, is Shutdown. -/
def State.NoCommandNext (s : State A) : Prop :=
  (∃ j rest, s.queue = .shutdown j :: rest) ∨
    s.queue = [] ∧ s.closed = true ∧ ∀ i, ¬ (s.dispatch i).mayEnqueue s

/-- No command can reach the thread any more. -/
def State.Quiet (s : State A) : Prop :=
  match s.thread with
  | .ready => s.NoCommandNext
  | .busy _ _ => False
  | .answering _ _ => s.NoCommandNext
  | .acknowledging _ => True
  | .stopping => True
  | .exited => True

theorem DispatchStep.mayEnqueue {i : Nat} {d d' : Dispatch A} (hst : DispatchStep s i d d')
    (hclosed : s.closed = true) (h : d'.mayEnqueue s) : d.mayEnqueue s := by
  cases hst with
  | check hopen => exact absurd (hclosed.symm.trans hopen) Bool.noConfusion
  | clone hsender => exact hsender
  | call _ _ | closed _ | noSender _ | full _ _ | receiverGone _ | answered _ _ | replyLost _ | cancel =>
    exact h.elim

theorem State.NoCommandNext.dispatch (h : s.NoCommandNext) {i : Nat} {d : Dispatch A}
    (hst : DispatchStep s i (s.dispatch i) d) : (s.setDispatch i d).NoCommandNext := by
  obtain h | ⟨hqueue, hclosed, hnone⟩ := h
  · exact .inl h
  · refine .inr ⟨hqueue, hclosed, ?_⟩
    intro k
    show ¬ (Function.update s.dispatch i d k).mayEnqueue s
    by_cases hk : k = i
    · rw [hk, Function.update_self]
      exact fun hd => hnone i (hst.mayEnqueue hclosed hd)
    · rw [Function.update_of_ne hk]
      exact hnone k

theorem State.NoCommandNext.enqueue (h : s.NoCommandNext) {i : Nat} {c : A.Command}
    (hi : s.dispatch i = .holding c) :
    ((s.push (.command i c)).setDispatch i (.waiting c)).NoCommandNext := by
  obtain ⟨j, rest, hqueue⟩ | ⟨-, -, hnone⟩ := h
  · refine .inl ⟨j, rest ++ [.command i c], ?_⟩
    show s.queue ++ _ = _
    rw [hqueue, List.cons_append]
  · have := hnone i
    rw [hi] at this
    exact absurd trivial this

theorem State.NoCommandNext.send (h : s.NoCommandNext) (j : Nat) :
    ((s.push (.shutdown j)).setCloser j .waiting).NoCommandNext := by
  obtain ⟨k, rest, hqueue⟩ | ⟨hqueue, -, -⟩ := h
  · refine .inl ⟨k, rest ++ [.shutdown j], ?_⟩
    show s.queue ++ _ = _
    rw [hqueue, List.cons_append]
  · refine .inl ⟨j, [], ?_⟩
    show s.queue ++ _ = _
    rw [hqueue, List.nil_append]

/-- Taking the sender out of the handle only takes a way to it away. -/
theorem State.NoCommandNext.unset (h : s.NoCommandNext) (hqueue : t.queue = s.queue)
    (hclosed : s.closed = true → t.closed = true) (hdispatch : t.dispatch = s.dispatch)
    (hsender : t.sender = true → s.sender = true) : t.NoCommandNext := by
  obtain h | ⟨hnil, hc, hnone⟩ := h
  · exact .inl (hqueue ▸ h)
  · refine .inr ⟨hqueue.trans hnil, hclosed hc, ?_⟩
    intro i hi
    rw [hdispatch] at hi
    have hnot := hnone i
    cases hd : s.dispatch i with
    | holding c =>
      rw [hd] at hnot
      exact hnot trivial
    | checked c =>
      rw [hd] at hnot hi
      exact hnot (hsender hi)
    | idle | called c | waiting c | returned c o | cancelled c =>
      rw [hd] at hi
      exact hi

/-- A step that leaves the thread alone keeps it quiet if the channel stays so. -/
theorem State.Quiet.channel (h : s.Quiet) (hthread : t.thread = s.thread)
    (hnext : s.NoCommandNext → t.NoCommandNext) : t.Quiet := by
  unfold State.Quiet at *
  rw [hthread]
  split at h
  · exact hnext h
  · exact h
  · exact hnext h
  · trivial
  · trivial
  · trivial

theorem State.Quiet.thread (h : s.Quiet) (hst : ThreadStep s t) : t.Quiet ∧ t.executed = s.executed := by
  cases hst with
  | receive hw hq =>
    rw [State.Quiet, hw] at h
    obtain ⟨j, rest, hqueue⟩ | ⟨hqueue, -, -⟩ := h
    · cases hq.symm.trans hqueue
    · cases hq.symm.trans hqueue
  | execute faults hw =>
    rw [State.Quiet, hw] at h
    exact h.elim
  | answer hw =>
    rw [State.Quiet, hw] at h
    exact ⟨State.NoCommandNext.unset h rfl id rfl id, rfl⟩
  | receiveShutdown _ _ => exact ⟨trivial, rfl⟩
  | acknowledge _ => exact ⟨trivial, rfl⟩
  | stop _ => exact ⟨trivial, rfl⟩
  | finish _ _ _ => exact ⟨trivial, rfl⟩

theorem State.Quiet.step (h : s.Quiet) (hst : Step s t) : t.Quiet ∧ t.executed = s.executed := by
  cases hst with
  | dispatch i hd => exact ⟨h.channel rfl fun hn => hn.dispatch hd, rfl⟩
  | enqueue i hi _ _ => exact ⟨h.channel rfl fun hn => hn.enqueue hi, rfl⟩
  | close _ _ => exact ⟨h.channel rfl fun hn => hn.unset rfl id rfl id, rfl⟩
  | swap _ _ _ => exact ⟨h.channel rfl fun hn => hn.unset rfl (fun _ => rfl) rfl id, rfl⟩
  | takeSender _ _ _ => exact ⟨h.channel rfl fun hn => hn.unset rfl id rfl nofun, rfl⟩
  | send j _ _ _ => exact ⟨h.channel rfl fun hn => hn.send j, rfl⟩
  | takeJoin _ _ _ => exact ⟨h.channel rfl fun hn => hn.unset rfl id rfl id, rfl⟩
  | thread hthread => exact h.thread hthread
  | dropHandle _ _ _ => exact ⟨h.channel rfl fun hn => hn.unset rfl (fun _ => rfl) rfl nofun, rfl⟩

theorem State.Quiet.run (h : s.Quiet) (hrun : (system A).Run s t) : t.executed = s.executed := by
  refine (System.preserved (S := system A) (P := fun u => u.Quiet ∧ u.executed = s.executed) ?_
    ⟨h, rfl⟩ hrun).2
  rintro u v ⟨hu, hexec⟩ huv
  exact ⟨(hu.step huv).1, (hu.step huv).2.trans hexec⟩

/-- Some continuation executes another command. -/
def State.Continues (s : State A) : Prop := ∃ t, (system A).Run s t ∧ t.executed ≠ s.executed

theorem State.Continues.of_step (hst : Step s t) (hexec : t.executed = s.executed) (h : t.Continues) :
    s.Continues := by
  obtain ⟨u, hrun, hne⟩ := h
  exact ⟨u, .head hst hrun, hexec ▸ hne⟩

theorem continues_busy {i : Nat} {c : A.Command} (hw : s.thread = .busy i c) : s.Continues := by
  refine ⟨_, .single (.thread (.execute A.noFaults hw)), ?_⟩
  show s.executed ++ [_] ≠ s.executed
  simp

theorem continues_receive {i : Nat} {c : A.Command} {queue : List (Message A)} (hw : s.thread = .ready)
    (hq : s.queue = .command i c :: queue) : s.Continues :=
  .of_step (.thread (.receive hw hq)) rfl (continues_busy rfl)

theorem continues_holding {i : Nat} {c : A.Command} (hw : s.thread = .ready) (hq : s.queue = [])
    (hi : s.dispatch i = .holding c) : s.Continues := by
  have hroom : s.queue.length < A.capacity := by
    rw [hq]
    exact A.capacity_pos
  have hqueue : s.queue ++ [.command i c] = .command i c :: [] := by
    rw [hq]
    rfl
  exact .of_step (.enqueue i hi (by simp [hw]) hroom) rfl (continues_receive hw hqueue)

theorem continues_ready (hclosed : s.closed = true) (hw : s.thread = .ready) (h : ¬ s.NoCommandNext) :
    s.Continues := by
  cases hq : s.queue with
  | cons m queue =>
    cases m with
    | command i c => exact continues_receive hw hq
    | shutdown j => exact absurd (.inl ⟨j, queue, hq⟩) h
  | nil =>
    have hmay : ∃ i, (s.dispatch i).mayEnqueue s :=
      Classical.byContradiction fun hnone => h (.inr ⟨hq, hclosed, fun i hi => hnone ⟨i, hi⟩⟩)
    obtain ⟨i, hi⟩ := hmay
    cases hd : s.dispatch i with
    | holding c => exact continues_holding hw hq hd
    | checked c =>
      rw [hd] at hi
      have hclone : DispatchStep s i (s.dispatch i) (.holding c) := hd ▸ .clone hi
      exact .of_step (.dispatch i hclone) rfl
        (continues_holding (i := i) (c := c) hw hq (Function.update_self _ _ _))
    | idle | called c | waiting c | returned c o | cancelled c =>
      rw [hd] at hi
      exact hi.elim

/-- A closed worker executes nothing more exactly when it is quiet. -/
theorem quiet_of_no_more (hclosed : s.closed = true)
    (h : ∀ t, (system A).Run s t → t.executed = s.executed) : s.Quiet := by
  refine Classical.byContradiction fun hnot => ?_
  suffices hmore : s.Continues by
    obtain ⟨t, hrun, hne⟩ := hmore
    exact hne (h t hrun)
  cases hw : s.thread with
  | ready => exact continues_ready hclosed hw (by simpa [State.Quiet, hw] using hnot)
  | busy i c => exact continues_busy hw
  | answering i r =>
    have hnext : ¬ s.NoCommandNext := by simpa [State.Quiet, hw] using hnot
    exact .of_step (.thread (.answer hw)) rfl
      (continues_ready hclosed rfl fun hn => hnext (hn.unset rfl id rfl id))
  | acknowledging j => exact absurd (by simp [State.Quiet, hw]) hnot
  | stopping => exact absurd (by simp [State.Quiet, hw]) hnot
  | exited => exact absurd (by simp [State.Quiet, hw]) hnot

section Draining

variable {j : Nat} {s₀ : State A}

/-- The close `j` starts in `s₀` and returns `Ok` with the step from `s` to `t`. -/
structure ReturnsOk (A : Adapter) (j : Nat) (s₀ s t : State A) : Prop where
  reachable : (system A).Reachable s₀
  idle : s₀.closer j = .idle
  handle : s₀.handle = true
  run : (system A).Run (s₀.setCloser j .called) s
  step : Step s t
  notYet : s.closer j ≠ .returned (.ok ())
  returned : t.closer j = .returned (.ok ())

/-- Everything accepted before `s₀` is executed in `t`, and nothing more will be. -/
def Drained (s₀ t : State A) : Prop :=
  (∀ i c, .command i c ∈ s₀.enqueued → ∃ e ∈ t.executed, e.call = i ∧ e.command = c) ∧
    ∀ u, (system A).Run t u → u.executed = t.executed

/-- No command was accepted behind a Shutdown. -/
def NoneBehind (s : State A) : Prop :=
  ∀ ahead j behind, s.enqueued = ahead ++ .shutdown j :: behind → ∀ i c, .command i c ∉ behind

/-- The call set the flag, or it joined the thread, or the thread was quiet. -/
def Waited (j : Nat) (s : State A) : Prop :=
  s.initiator = some j ∨ s.closer j = .joined ∨ s.Quiet

theorem ReturnsOk.called (h : ReturnsOk A j s₀ s t) : (system A).Reachable (s₀.setCloser j .called) := by
  have hcall : CloserStep s₀ j (s₀.closer j) .called := h.idle ▸ .call h.handle
  exact h.reachable.next (.close j hcall)

/-- A close returns `Ok` by a move of its own that touches nothing else. -/
theorem ReturnsOk.closerStep (h : ReturnsOk A j s₀ s t) :
    CloserStep s j (s.closer j) (.returned (.ok ())) ∧ t = s.setCloser j (.returned (.ok ())) := by
  have hreturned := h.returned
  have hmoved : ∀ j' k, t.closer = Function.update s.closer j' k →
      j' = j ∧ k = .returned (.ok ()) := by
    intro j' k ht
    rw [ht] at hreturned
    by_cases hj : j = j'
    · rw [hj, Function.update_self] at hreturned
      exact ⟨hj.symm, hreturned⟩
    · rw [Function.update_of_ne hj] at hreturned
      exact absurd hreturned h.notYet
  cases h.step with
  | @close j' k hk =>
    obtain ⟨rfl, rfl⟩ := hmoved j' k rfl
    exact ⟨hk, rfl⟩
  | swap j' _ _ => cases (hmoved j' _ rfl).2
  | takeSender j' _ _ => cases (hmoved j' _ rfl).2
  | send j' _ _ _ => cases (hmoved j' _ rfl).2
  | takeJoin j' _ _ => cases (hmoved j' _ rfl).2
  | thread hthread => cases hthread <;> exact absurd hreturned h.notYet
  | dispatch _ _ => exact absurd hreturned h.notYet
  | enqueue _ _ _ _ => exact absurd hreturned h.notYet
  | dropHandle _ _ _ => exact absurd hreturned h.notYet

theorem quiet_of_finished (h : s.finished) : s.Quiet := by
  obtain h | h := h
  · simp [State.Quiet, h]
  · simp [State.Quiet, h]

/-- Whoever waited finds the thread quiet. -/
theorem ReturnsOk.quiet (h : ReturnsOk A j s₀ s t) (hw : Waited j s) : t.Quiet := by
  obtain ⟨hstep, rfl⟩ := h.closerStep
  have hs := reachable_invariant (h.called.run h.run)
  obtain hinit | hjoined | hquiet := hw
  · have hallowed := (hs.closing.step h.step).each j
    rw [h.returned] at hallowed
    exact quiet_of_finished (hallowed.2 hinit)
  · rw [hjoined] at hstep
    cases hstep with
    | joined hexited => exact quiet_of_finished (.inr hexited)
  · exact (hquiet.step h.step).1

theorem ReturnsOk.closed (h : ReturnsOk A j s₀ s t) : t.closed = true := by
  have hallowed := ((reachable_invariant (h.called.run h.run)).closing.step h.step).each j
  rw [h.returned] at hallowed
  exact hallowed.1

/-- A quiet thread has executed everything that stands before Shutdown. -/
theorem quiet_split (hs : Invariant s) (h : s.Quiet) :
    s.enqueued = s.executedMessages ∨ ∃ j rest, s.enqueued = s.executedMessages ++ .shutdown j :: rest := by
  by_cases hpast : s.thread ≠ .ready ∧ (∀ i c, s.thread ≠ .busy i c) ∧ ∀ i r, s.thread ≠ .answering i r
  · exact settled_split hs.ordered hpast.1 hpast.2.1 hpast.2.2
  · have hsplit := hs.ordered.split
    have hplaced := hs.ordered.placed
    have hnext : s.NoCommandNext ∧ s.received = s.executedMessages ∧ s.dropped = [] := by
      cases hw : s.thread with
      | ready =>
        rw [State.Quiet, hw] at h
        rw [hw] at hplaced
        exact ⟨h, hplaced⟩
      | busy i c =>
        rw [State.Quiet, hw] at h
        exact h.elim
      | answering i r =>
        rw [State.Quiet, hw] at h
        rw [hw] at hplaced
        exact ⟨h, hplaced⟩
      | acknowledging k => exact absurd (by simp [hw]) hpast
      | stopping => exact absurd (by simp [hw]) hpast
      | exited => exact absurd (by simp [hw]) hpast
    obtain ⟨⟨k, rest, hqueue⟩ | ⟨hqueue, -, -⟩, hreceived, hdropped⟩ := hnext
    · rw [hreceived, hdropped, hqueue, List.append_nil] at hsplit
      exact .inr ⟨k, rest, hsplit⟩
    · rw [hreceived, hdropped, hqueue] at hsplit
      exact .inl (hsplit.trans (List.append_nil _))

theorem drained_of_quiet (hrun : (system A).Run s₀ t) (hs : Invariant t) (hnone : NoneBehind s₀)
    (hquiet : t.Quiet) : Drained s₀ t := by
  refine ⟨?_, fun u hu => hquiet.run hu⟩
  intro i c hi
  refine command_executed ?_
  obtain ⟨more, hmore⟩ := run_enqueued hrun
  obtain heq | ⟨k, rest, heq⟩ := quiet_split hs hquiet
  · rw [← heq, hmore]
    exact List.mem_append_left _ hi
  · -- what was accepted by then stops before the Shutdown, or reaches over it
    obtain ⟨mid, hmid, -⟩ | ⟨mid, hmid, hrest⟩ := List.append_eq_append_iff.mp (hmore.symm.trans heq)
    · rw [hmid]
      exact List.mem_append_left _ hi
    · rw [hmid, List.mem_append] at hi
      refine hi.resolve_right fun hin => ?_
      cases mid with
      | nil => exact List.not_mem_nil hin
      | cons m behind =>
        cases hrest
        obtain heq | hin := List.mem_cons.mp hin
        · cases heq
        · exact hnone _ _ _ hmid i c hin

theorem noneBehind_of_drained (hrun : (system A).Run s₀ t) (hs : Invariant t) (h : Drained s₀ t) :
    NoneBehind s₀ := by
  intro ahead k behind hsplit i c hi
  have hmem : .command i c ∈ s₀.enqueued := by
    rw [hsplit]
    exact List.mem_append_right _ (List.mem_cons_of_mem _ hi)
  obtain ⟨e, he, hcall, -⟩ := h.1 i c hmem
  obtain ⟨more, hmore⟩ := run_enqueued hrun
  rw [hsplit, List.append_assoc, List.cons_append] at hmore
  exact after_shutdown_not_executed hs hmore (List.mem_append_left _ hi) e he hcall

/-- A close that returns `Ok` has drained the worker exactly when it waited and no
command had been accepted behind a Shutdown before it started. -/
theorem ReturnsOk.drained_iff (h : ReturnsOk A j s₀ s t) : Drained s₀ t ↔ NoneBehind s₀ ∧ Waited j s := by
  have hinv : Invariant t := (reachable_invariant (h.called.run h.run)).step h.step
  have hcall : CloserStep s₀ j (s₀.closer j) .called := h.idle ▸ .call h.handle
  have hrun : (system A).Run s₀ t := (Relation.ReflTransGen.head (Step.close j hcall) h.run).tail h.step
  constructor
  · intro hdrained
    refine ⟨noneBehind_of_drained hrun hinv hdrained, .inr (.inr ?_)⟩
    have hquiet := quiet_of_no_more h.closed hdrained.2
    obtain ⟨-, rfl⟩ := h.closerStep
    exact hquiet
  · rintro ⟨hnone, hwaited⟩
    exact drained_of_quiet hrun hinv hnone (h.quiet hwaited)

end Draining

end OrbitRelay.Worker
