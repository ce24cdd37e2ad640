import OrbitRelay.WorkerOrder

/-!
# Closing a worker

Only the call that sets the closed flag takes the sender, so at most one Shutdown
enters the channel. What the others may conclude when they return is another
matter: it depends on whether they waited for the thread.
-/
namespace OrbitRelay.Worker

open Transition

variable {A : Adapter} {s t : State A}

theorem mem_closers {ms : List (Message A)} {j : Nat} : j ∈ closers ms ↔ .shutdown j ∈ ms := by
  unfold closers
  rw [List.mem_filterMap]
  constructor
  · rintro ⟨m, hm, hj⟩
    cases m with
    | command k c => cases hj
    | shutdown k =>
      cases hj
      exact hm
  · exact fun hj => ⟨_, hj, rfl⟩

theorem closers_append (ms ns : List (Message A)) : closers (ms ++ ns) = closers ms ++ closers ns :=
  List.filterMap_append

/-- The thread has acknowledged Shutdown, or its input has ended. -/
def State.finished (s : State A) : Prop := s.thread = .stopping ∨ s.thread = .exited

/-- What a close that has come this far knows about the handle. -/
def Closer.Allowed (s : State A) (j : Nat) : Closer → Prop
  | .idle => s.initiator ≠ some j
  | .called => s.initiator ≠ some j
  | .first => s.closed = true ∧ s.initiator = some j ∧ s.sender = true ∧ j ∉ closers s.enqueued
  | .sending => s.closed = true ∧ s.initiator = some j ∧ j ∉ closers s.enqueued
  | .waiting => s.closed = true ∧ s.initiator = some j
  | .joining => s.closed = true ∧ (s.initiator = some j → s.finished)
  | .joined => s.closed = true ∧ (s.initiator = some j → s.finished)
  | .returned (.ok ()) => s.closed = true ∧ (s.initiator = some j → s.finished)
  | .returned (.error _) => s.closed = true
  | .cancelled => s.closed = true

structure Closing (s : State A) : Prop where
  unset : s.closed = false → s.initiator = none ∧ s.sender = true
  shutdown : ∀ j ∈ closers s.enqueued, s.initiator = some j
  once : (closers s.enqueued).length ≤ 1
  acknowledged : ∀ j, s.acknowledgement j = .sent () → s.finished
  each : ∀ j, (s.closer j).Allowed s j

theorem Closing.start (db : A.Db) : Closing (opened db) where
  unset := fun _ => ⟨rfl, rfl⟩
  shutdown := fun j h => absurd h List.not_mem_nil
  once := Nat.zero_le 1
  acknowledged := fun j h => by cases h
  each := fun j => nofun

theorem Closer.Allowed.frame {j : Nat} {k : Closer} (h : k.Allowed s j) (hinit : t.initiator = s.initiator)
    (hclosed : s.closed = true → t.closed = true) (hsender : k = .first → t.sender = s.sender)
    (hfinished : s.finished → t.finished) (hqueued : j ∈ closers t.enqueued → j ∈ closers s.enqueued) :
    k.Allowed t j := by
  unfold Closer.Allowed at *
  split at h
  · exact hinit ▸ h
  · exact hinit ▸ h
  · exact ⟨hclosed h.1, hinit ▸ h.2.1, (hsender rfl).trans h.2.2.1, fun hq => h.2.2.2 (hqueued hq)⟩
  · exact ⟨hclosed h.1, hinit ▸ h.2.1, fun hq => h.2.2 (hqueued hq)⟩
  · exact ⟨hclosed h.1, hinit ▸ h.2⟩
  · exact ⟨hclosed h.1, fun hj => hfinished (h.2 (hinit ▸ hj))⟩
  · exact ⟨hclosed h.1, fun hj => hfinished (h.2 (hinit ▸ hj))⟩
  · exact ⟨hclosed h.1, fun hj => hfinished (h.2 (hinit ▸ hj))⟩
  · exact hclosed h
  · exact hclosed h

theorem ThreadStep.finished (hst : ThreadStep s t) (h : s.finished) : t.finished := by
  cases hst with
  | receive hw _ | execute _ hw | answer hw | receiveShutdown hw _ =>
    rw [State.finished, hw] at h
    obtain h | h := h <;> cases h
  | acknowledge _ => exact .inl rfl
  | stop _ => exact .inr rfl
  | finish _ _ _ => exact .inr rfl

theorem CloserStep.allowed (hs : Closing s) {j : Nat} {k k' : Closer} (hst : CloserStep s j k k')
    (h : k.Allowed s j) : k'.Allowed s j := by
  cases hst with
  | call _ => exact h
  | alreadyClosed hclosed =>
    unfold Closer.afterClosed
    split
    · exact ⟨hclosed, fun hj => absurd hj h⟩
    · exact ⟨hclosed, fun hj => absurd hj h⟩
  | noSender hsender =>
    rw [h.2.2.1] at hsender
    cases hsender
  | stopped _ => exact h.1
  | acknowledged hack => exact ⟨h.1, fun _ => hs.acknowledged j hack⟩
  | shutdownLost _ => exact h.1
  | noJoin _ => exact h
  | joined _ => exact h
  | joinFailed => exact h.1
  | cancel hk =>
    obtain rfl | rfl | rfl := hk
    · exact h.1
    · exact h.1
    · exact h.1

theorem Closing.thread (h : Closing s) (hst : ThreadStep s t) : Closing t := by
  have hfinished : s.finished → t.finished := hst.finished
  have hack : ∀ j, t.acknowledgement j = .sent () → t.finished := by
    intro j hj
    cases hst with
    | acknowledge _ => exact .inl rfl
    | stop _ => exact .inr rfl
    | receive _ _ | execute _ _ | answer _ | receiveShutdown _ _ | finish _ _ _ =>
      exact hfinished (h.acknowledged j hj)
  have hsame : t.closed = s.closed ∧ t.sender = s.sender ∧ t.enqueued = s.enqueued ∧
      t.closer = s.closer ∧ t.initiator = s.initiator := by
    cases hst <;> exact ⟨rfl, rfl, rfl, rfl, rfl⟩
  obtain ⟨hclosed, hsender, henqueued, hcloser, hinit⟩ := hsame
  refine ⟨?_, ?_, ?_, hack, ?_⟩
  · rw [hclosed, hsender, hinit]
    exact h.unset
  · rw [henqueued, hinit]
    exact h.shutdown
  · rw [henqueued]
    exact h.once
  · intro j
    rw [hcloser]
    exact (h.each j).frame hinit (fun hc => hclosed.trans hc) (fun _ => hsender) hfinished
      (fun hq => henqueued ▸ hq)

theorem Closing.dispatch (h : Closing s) (i : Nat) (d : Dispatch A) : Closing (s.setDispatch i d) where
  unset := h.unset
  shutdown := h.shutdown
  once := h.once
  acknowledged := h.acknowledged
  each := fun j => (h.each j).frame rfl id (fun _ => rfl) id id

theorem Closing.enqueue (h : Closing s) (i : Nat) (c : A.Command) : Closing (s.push (.command i c)) := by
  have hclosers : closers (s.enqueued ++ [.command i c]) = closers s.enqueued := by
    rw [closers_append]
    exact List.append_nil _
  refine ⟨h.unset, ?_, ?_, h.acknowledged, ?_⟩
  · show ∀ j ∈ closers (s.enqueued ++ [.command i c]), _
    rw [hclosers]
    exact h.shutdown
  · show (closers (s.enqueued ++ [.command i c])).length ≤ 1
    rw [hclosers]
    exact h.once
  · intro j
    refine (h.each j).frame rfl id (fun _ => rfl) id ?_
    show j ∈ closers (s.enqueued ++ [.command i c]) → _
    rw [hclosers]
    exact id

/-- The calls that did not move keep what they know. -/
theorem Closing.each_update (h : Closing s) {j : Nat} {k : Closer} {t : State A}
    (ht : t.closer = Function.update s.closer j k) (hk : k.Allowed t j)
    (hothers : ∀ j', j' ≠ j → (s.closer j').Allowed s j' → (s.closer j').Allowed t j') :
    ∀ j', (t.closer j').Allowed t j' := by
  intro j'
  rw [ht]
  by_cases hj : j' = j
  · rw [hj, Function.update_self]
    exact hk
  · rw [Function.update_of_ne hj]
    exact hothers j' hj (h.each j')

theorem Closing.close (h : Closing s) {j : Nat} {k : Closer} (hst : CloserStep s j (s.closer j) k) :
    Closing (s.setCloser j k) where
  unset := h.unset
  shutdown := h.shutdown
  once := h.once
  acknowledged := h.acknowledged
  each := h.each_update rfl ((hst.allowed h (h.each j)).frame rfl id (fun _ => rfl) id id)
    fun _ _ ha => ha.frame rfl id (fun _ => rfl) id id

theorem Closing.swap (h : Closing s) (j : Nat) (hclosed : s.closed = false) :
    Closing { s.setCloser j .first with closed := true, initiator := some j } := by
  obtain ⟨hnone, hsender⟩ := h.unset hclosed
  have hempty : ∀ k, k ∉ closers s.enqueued := by
    intro k hk
    have := h.shutdown k hk
    rw [hnone] at this
    cases this
  refine ⟨nofun, ?_, h.once, h.acknowledged, ?_⟩
  · exact fun k hk => absurd hk (hempty k)
  · refine h.each_update rfl ⟨rfl, rfl, hsender, hempty j⟩ ?_
    intro j' hne ha
    -- before the flag is set every other call is still at its start
    have hinit : some j ≠ some j' := fun heq => hne (Option.some.inj heq).symm
    cases hc : s.closer j' with
    | idle => exact hinit
    | called => exact hinit
    | first | sending | waiting | joining | joined | cancelled =>
      rw [hc] at ha
      simp only [Closer.Allowed, hclosed, Bool.false_eq_true, false_and] at ha
    | returned result =>
      rw [hc] at ha
      obtain e | ⟨⟩ := result
      · simp only [Closer.Allowed, hclosed, Bool.false_eq_true] at ha
      · simp only [Closer.Allowed, hclosed, Bool.false_eq_true, false_and] at ha

theorem Closing.takeSender (h : Closing s) {j : Nat} (hj : s.closer j = .first) :
    Closing { s.setCloser j .sending with sender := false } := by
  have ha := h.each j
  rw [hj] at ha
  obtain ⟨hclosed, hinit, -, hnot⟩ := ha
  refine ⟨?_, h.shutdown, h.once, h.acknowledged, ?_⟩
  · intro hc
    exact absurd (hclosed.symm.trans hc) Bool.noConfusion
  · refine h.each_update rfl ⟨hclosed, hinit, hnot⟩ ?_
    intro j' hne ha
    refine ha.frame rfl id ?_ id id
    intro hfirst
    rw [hfirst] at ha
    exact absurd (Option.some.inj (ha.2.1.symm.trans hinit)) hne

theorem Closing.send (h : Closing s) {j : Nat} (hj : s.closer j = .sending) :
    Closing ((s.push (.shutdown j)).setCloser j .waiting) := by
  have ha := h.each j
  rw [hj] at ha
  obtain ⟨hclosed, hinit, hnot⟩ := ha
  have hempty : closers s.enqueued = [] := by
    rw [List.eq_nil_iff_forall_not_mem]
    intro k hk
    have hk' := h.shutdown k hk
    rw [hinit] at hk'
    cases hk'
    exact hnot hk
  have hclosers : closers (s.enqueued ++ [.shutdown j]) = [j] := by
    rw [closers_append, hempty]
    rfl
  refine ⟨h.unset, ?_, ?_, h.acknowledged, ?_⟩
  · show ∀ k ∈ closers (s.enqueued ++ [.shutdown j]), _
    rw [hclosers]
    intro k hk
    rw [List.mem_singleton.mp hk]
    exact hinit
  · show (closers (s.enqueued ++ [.shutdown j])).length ≤ 1
    rw [hclosers]
    exact Nat.le_refl 1
  · refine h.each_update rfl ⟨hclosed, hinit⟩ ?_
    intro j' hne ha
    refine ha.frame rfl id (fun _ => rfl) id ?_
    show j' ∈ closers (s.enqueued ++ [.shutdown j]) → _
    rw [hclosers, List.mem_singleton]
    exact fun heq => absurd heq hne

theorem Closing.step (h : Closing s) (hst : Step s t) : Closing t := by
  cases hst with
  | dispatch i _ => exact h.dispatch i _
  | enqueue i _ _ _ => exact (h.enqueue i _).dispatch i _
  | close j hk => exact h.close hk
  | swap j _ hclosed => exact h.swap j hclosed
  | takeSender j hj _ => exact h.takeSender hj
  | send j hj _ _ => exact h.send hj
  | takeJoin j hj _ =>
    have ha := h.each j
    rw [hj] at ha
    exact ⟨h.unset, h.shutdown, h.once, h.acknowledged,
      h.each_update rfl ha fun _ _ ha => ha.frame rfl id (fun _ => rfl) id id⟩
  | thread hthread => exact h.thread hthread
  | dropHandle _ _ hclosers =>
    refine ⟨nofun, h.shutdown, h.once, h.acknowledged, ?_⟩
    intro j
    refine (h.each j).frame rfl (fun _ => rfl) ?_ id id
    intro hfirst
    have hidle := hclosers j
    rw [hfirst] at hidle
    exact absurd trivial hidle

/-- Everything that holds in every state of every run. -/
structure Invariant (s : State A) : Prop where
  ordered : Ordered s
  accounted : Accounted s
  closing : Closing s

theorem Invariant.step (h : Invariant s) (hst : Step s t) : Invariant t where
  ordered := h.ordered.step hst
  accounted := h.accounted.step h.ordered hst
  closing := h.closing.step hst

theorem reachable_invariant (h : (system A).Reachable s) : Invariant s := by
  refine System.invariant ?_ (fun _ _ hs hst => hs.step hst) h
  rintro _ ⟨db, rfl⟩
  exact ⟨.start db, .start db, .start db⟩

end OrbitRelay.Worker
