import OrbitRelay.WorkerClose
import Mathlib.Data.Nat.Basic

/-!
# Accepted commands are executed once, in order, and answered

The contract of the worker, as its callers see it: what each result of a dispatch
says about its command, and what Shutdown does to the commands around it.
-/
namespace OrbitRelay.Worker

open Transition

variable {A : Adapter} {s t : State A}

/-- The log, executed from `db` on, gives these replies and ends in `db'`. -/
def Replays (A : Adapter) : A.Db → List (Entry A) → A.Db → Prop
  | db, [], db' => db = db'
  | db, e :: log, db' =>
    (A.execute e.faults db e.command).1 = e.reply ∧ Replays A (A.execute e.faults db e.command).2 log db'

theorem Replays.execute {db db' : A.Db} {log : List (Entry A)} (h : Replays A db log db') (i : Nat)
    (c : A.Command) (faults : A.Faults) :
    Replays A db (log ++ [⟨i, c, faults, (A.execute faults db' c).1⟩]) (A.execute faults db' c).2 := by
  induction log generalizing db with
  | nil =>
    cases h
    exact ⟨rfl, rfl⟩
  | cons e log ih => exact ⟨h.1, ih h.2⟩

theorem run_replays {s₀ : State A} (h₀ : (system A).init s₀) (h : (system A).Run s₀ s) :
    Replays A s₀.db s.executed s.db := by
  obtain ⟨db, rfl⟩ := h₀
  refine System.preserved (S := system A) (P := fun u => Replays A db u.executed u.db)
    (s := opened db) ?_ rfl h
  intro s t hs hst
  cases hst with
  | thread hthread =>
    cases hthread with
    | execute faults _ => exact hs.execute _ _ faults
    | receive _ _ | answer _ | receiveShutdown _ _ | acknowledge _ | stop _ | finish _ _ _ => exact hs
  | dispatch _ _ | enqueue _ _ _ _ | close _ _ | swap _ _ _ | takeSender _ _ _ | send _ _ _ _
  | takeJoin _ _ _ | dropHandle _ _ _ => exact hs

/-- The channel forgets nothing it has accepted. -/
theorem run_enqueued (h : (system A).Run s t) : ∃ more, t.enqueued = s.enqueued ++ more := by
  refine System.preserved (S := system A) (P := fun u => ∃ more, u.enqueued = s.enqueued ++ more) ?_
    ⟨[], (List.append_nil _).symm⟩ h
  rintro u v ⟨more, hmore⟩ huv
  have hpush : ∀ m, u.enqueued ++ [m] = s.enqueued ++ (more ++ [m]) := by
    intro m
    rw [hmore, List.append_assoc]
  cases huv with
  | enqueue i _ _ _ => exact ⟨_, hpush _⟩
  | send j _ _ _ => exact ⟨_, hpush _⟩
  | thread hthread =>
    cases hthread <;> exact ⟨more, hmore⟩
  | dispatch _ _ | close _ _ | swap _ _ _ | takeSender _ _ _ | takeJoin _ _ _ | dropHandle _ _ _ =>
    exact ⟨more, hmore⟩

/-- A dispatch that has returned stays as it is. -/
theorem run_returned {i : Nat} {c : A.Command} {o : Outcome A} (hs : s.dispatch i = .returned c o)
    (h : (system A).Run s t) : t.dispatch i = .returned c o := by
  refine System.preserved (S := system A) (P := fun u => u.dispatch i = .returned c o) ?_ hs h
  intro u v hu huv
  cases huv with
  | @dispatch k d hd =>
    show Function.update u.dispatch k d i = _
    by_cases hk : i = k
    · rw [← hk, hu] at hd
      cases hd
    · rw [Function.update_of_ne hk]
      exact hu
  | @enqueue k c' hk _ _ =>
    show Function.update u.dispatch k _ i = _
    by_cases hik : i = k
    · rw [← hik, hu] at hk
      cases hk
    · rw [Function.update_of_ne hik]
      exact hu
  | thread hthread => cases hthread <;> exact hu
  | close _ _ | swap _ _ _ | takeSender _ _ _ | send _ _ _ _ | takeJoin _ _ _ | dropHandle _ _ _ =>
    exact hu

theorem executed_accepted (ho : Ordered s) (ha : Accounted s) {e : Entry A} (he : e ∈ s.executed) :
    (s.dispatch e.call).accepted = some e.command := by
  obtain ⟨rest, hrest⟩ := ho.executed
  rw [← ha.accepted, hrest]
  exact List.mem_append_left _ (List.mem_map_of_mem he)

/-- A dispatch that fails on its own side has nothing in the log. -/
theorem failed_not_executed (hs : Invariant s) {i : Nat} {c : A.Command} {o : Outcome A}
    (hi : s.dispatch i = .returned c o) (ho : ∀ r, o ≠ .answered r) : ∀ e ∈ s.executed, e.call ≠ i := by
  rintro e he rfl
  have haccepted := executed_accepted hs.ordered hs.accounted he
  rw [hi] at haccepted
  cases o with
  | answered r => exact absurd rfl (ho r)
  | replyLost =>
    have hlost := (hs.accounted.lost e.call).mp (hs.accounted.replyLost _ _ hi)
    refine executed_not_queued hs.ordered hs.accounted he ?_
    rw [calls_append]
    exact List.mem_append_right _ hlost
  | closed => cases haccepted
  | noSender => cases haccepted
  | full => cases haccepted
  | receiverGone => cases haccepted

theorem answered_executed (hs : Invariant s) {i : Nat} {c : A.Command} {r : A.Reply}
    (hi : s.dispatch i = .returned c (.answered r)) :
    (s.executed.map Entry.call).count i = 1 ∧ ∃ faults, ⟨i, c, faults, r⟩ ∈ s.executed := by
  obtain ⟨e, he, rfl, rfl⟩ := hs.accounted.sent i r (hs.accounted.answered i c r hi)
  have haccepted := executed_accepted hs.ordered hs.accounted he
  rw [hi] at haccepted
  cases haccepted
  exact ⟨List.count_eq_one_of_mem (executed_once hs.ordered hs.accounted) (List.mem_map_of_mem he),
    e.faults, he⟩

/-- The command was executed and its reply channel holds the reply. -/
def State.Answered (s : State A) (i : Nat) (c : A.Command) : Prop :=
  ∃ e ∈ s.executed, e.call = i ∧ e.command = c ∧ s.reply i = .sent e.reply

theorem shutdown_not_executed (j : Nat) : .shutdown j ∉ s.executedMessages := by
  intro h
  obtain ⟨e, -, he⟩ := List.mem_map.mp h
  cases he

theorem command_executed {i : Nat} {c : A.Command} (h : .command i c ∈ s.executedMessages) :
    ∃ e ∈ s.executed, e.call = i ∧ e.command = c := by
  obtain ⟨e, he, heq⟩ := List.mem_map.mp h
  cases heq
  exact ⟨e, he, rfl, rfl⟩

/-- Of two ways to split a log, the one whose first half lacks the other's
dividing message is the shorter. -/
theorem split_shorter {α : Type} {xs ys before after : List α} {m : α}
    (h : xs ++ ys = before ++ m :: after) (hm : m ∉ xs) : ∃ mid, before = xs ++ mid := by
  obtain ⟨mid, hmid, -⟩ | ⟨mid, hxs, hmid⟩ := List.append_eq_append_iff.mp h
  · exact ⟨mid, hmid⟩
  · cases mid with
    | nil => exact ⟨[], by rw [hxs]; simp⟩
    | cons x mid =>
      cases hmid
      exact absurd (hxs ▸ List.mem_append_right _ List.mem_cons_self) hm

theorem executed_before_shutdown (ho : Ordered s) {before after : List (Message A)} {j : Nat}
    (h : s.enqueued = before ++ .shutdown j :: after) : ∃ mid, before = s.executedMessages ++ mid := by
  obtain ⟨rest, hrest⟩ := ho.executed
  exact split_shorter (hrest.symm.trans h) (shutdown_not_executed j)

theorem after_shutdown_not_executed (hs : Invariant s) {before after : List (Message A)} {j i : Nat}
    {c : A.Command} (h : s.enqueued = before ++ .shutdown j :: after) (hi : .command i c ∈ after) :
    ∀ e ∈ s.executed, e.call ≠ i := by
  rintro e he rfl
  obtain ⟨mid, hmid⟩ := executed_before_shutdown hs.ordered h
  have honce := hs.accounted.once
  rw [h, hmid, calls_append] at honce
  refine (List.nodup_append.mp honce).2.2 e.call ?_ e.call ?_ rfl
  · rw [calls_append, calls_executedMessages]
    exact List.mem_append_left _ (List.mem_map_of_mem he)
  · exact mem_calls.mpr ⟨c, List.mem_cons_of_mem _ hi⟩

/-- Once the thread is past its last command, every message it executed, and no
other, stands before Shutdown. -/
theorem settled_split (ho : Ordered s) (hready : s.thread ≠ .ready) (hbusy : ∀ i c, s.thread ≠ .busy i c)
    (hanswering : ∀ i r, s.thread ≠ .answering i r) :
    s.enqueued = s.executedMessages ∨ ∃ j rest, s.enqueued = s.executedMessages ++ .shutdown j :: rest := by
  have hsplit := ho.split
  have hplaced := ho.placed
  suffices hreceived : s.received = s.executedMessages ∧ s.queue ++ s.dropped = [] ∨
      ∃ j, s.received = s.executedMessages ++ [.shutdown j] by
    obtain ⟨hreceived, hnil⟩ | ⟨j, hreceived⟩ := hreceived
    · rw [hreceived, hnil, List.append_nil] at hsplit
      exact .inl hsplit
    · rw [hreceived, List.append_assoc] at hsplit
      exact .inr ⟨j, _, hsplit⟩
  cases hw : s.thread with
  | ready => exact absurd hw hready
  | busy i c => exact absurd hw (hbusy i c)
  | answering i r => exact absurd hw (hanswering i r)
  | acknowledging j =>
    rw [hw] at hplaced
    exact .inr ⟨j, hplaced.1⟩
  | stopping =>
    rw [hw] at hplaced
    exact .inr hplaced.1
  | exited =>
    rw [hw] at hplaced
    obtain ⟨hqueue, ⟨hreceived, hdropped⟩ | hj⟩ := hplaced
    · exact .inl ⟨hreceived, by rw [hqueue, hdropped]; rfl⟩
    · exact .inr hj

section Progress

variable {before rest : List (Message A)} {i : Nat} {c : A.Command}

/-- The command stands in the channel's log with no Shutdown ahead of it. -/
structure Ahead (before : List (Message A)) (i : Nat) (c : A.Command) (s : State A) : Prop where
  invariant : Invariant s
  noShutdown : closers before = []
  enqueued : ∃ rest, s.enqueued = before ++ .command i c :: rest

theorem Ahead.step (h : Ahead before i c s) (hst : Step s t) : Ahead before i c t := by
  obtain ⟨rest, hrest⟩ := h.enqueued
  obtain ⟨more, hmore⟩ := run_enqueued (A := A) (.single hst)
  refine ⟨h.invariant.step hst, h.noShutdown, rest ++ more, ?_⟩
  rw [hmore, hrest, List.append_assoc, List.cons_append]

/-- Outside `answering`, whatever is executed has been answered. -/
theorem Ahead.answered (h : Ahead before i c s) (hw : ∀ r, s.thread ≠ .answering i r)
    (hexec : .command i c ∈ s.executedMessages) : s.Answered i c := by
  obtain ⟨e, he, rfl, rfl⟩ := command_executed hexec
  exact ⟨e, he, rfl, rfl, (h.invariant.accounted.replied e he).resolve_right (hw _)⟩

theorem Ahead.settled (h : Ahead before i c s) (hready : s.thread ≠ .ready)
    (hbusy : ∀ i c, s.thread ≠ .busy i c) (hanswering : ∀ i r, s.thread ≠ .answering i r) :
    s.Answered i c := by
  obtain ⟨rest, hrest⟩ := h.enqueued
  refine h.answered (hanswering i) ?_
  obtain heq | ⟨j, tail, heq⟩ := settled_split h.invariant.ordered hready hbusy hanswering
  · rw [← heq, hrest]
    exact List.mem_append_right _ List.mem_cons_self
  · have hnot : .shutdown j ∉ before := by
      intro hj
      have := mem_closers.mpr hj
      rw [h.noShutdown] at this
      exact List.not_mem_nil this
    obtain ⟨mid, hmid⟩ := split_shorter (hrest.symm.trans heq) hnot
    rw [hmid, List.append_assoc] at heq
    have htail := List.append_cancel_left (hrest.symm.trans heq)
    cases mid with
    | nil => cases htail
    | cons m mid =>
      cases htail
      rw [hmid]
      exact List.mem_append_right _ List.mem_cons_self

/-- Until it is executed, no more than the messages before it are. -/
theorem Ahead.executed_le (h : Ahead before i c s) (hexec : .command i c ∉ s.executedMessages) :
    s.executed.length ≤ before.length := by
  obtain ⟨rest, hrest⟩ := h.enqueued
  obtain ⟨tail, htail⟩ := h.invariant.ordered.executed
  obtain ⟨mid, hmid⟩ := split_shorter (htail.symm.trans hrest) hexec
  rw [hmid, List.length_append, State.executedMessages, List.length_map]
  omega

/-- How many thread steps are left at most before the message after `n` others
has been answered. -/
def State.stepsLeft (n : Nat) (s : State A) : Nat :=
  3 * (n + 1 - s.executed.length) +
    match s.thread with
    | .ready => 2
    | .busy _ _ => 1
    | .answering _ _ => 3
    | _ => 0

theorem Ahead.enabled (h : Ahead before i c s) (hgoal : ¬ s.Answered i c) : ∃ t, ThreadStep s t := by
  cases hw : s.thread with
  | ready =>
    cases hq : s.queue with
    | nil =>
      refine absurd (h.answered (by simp [hw]) ?_) hgoal
      obtain ⟨rest, hrest⟩ := h.enqueued
      have hplaced := h.invariant.ordered.placed
      rw [hw] at hplaced
      have hsplit := h.invariant.ordered.split
      rw [hq, hplaced.2, hplaced.1, List.append_nil, List.append_nil] at hsplit
      rw [← hsplit, hrest]
      exact List.mem_append_right _ List.mem_cons_self
    | cons m queue =>
      cases m with
      | command i c => exact ⟨_, .receive hw hq⟩
      | shutdown j => exact ⟨_, .receiveShutdown hw hq⟩
  | busy i c => exact ⟨_, .execute A.noFaults hw⟩
  | answering i r => exact ⟨_, .answer hw⟩
  | acknowledging j => exact ⟨_, .acknowledge hw⟩
  | stopping => exact ⟨_, .stop hw⟩
  | exited => exact absurd (h.settled (by simp [hw]) (by simp [hw]) (by simp [hw])) hgoal

theorem Ahead.fewer (h : Ahead before i c s) (hgoal : ¬ s.Answered i c) (hst : ThreadStep s t) :
    t.stepsLeft before.length < s.stepsLeft before.length := by
  cases hst with
  | receive hw _ | answer hw | receiveShutdown hw _ | finish hw _ _ =>
    simp only [State.stepsLeft, hw]
    omega
  | execute faults hw =>
    have hle := h.executed_le fun hexec => hgoal (h.answered (by simp [hw]) hexec)
    simp only [State.stepsLeft, hw, List.length_append, List.length_singleton]
    omega
  | acknowledge hw | stop hw =>
    exact absurd (h.settled (by simp [hw]) (by simp [hw]) (by simp [hw])) hgoal

theorem Ahead.kept (h : Ahead before i c s) (hgoal : ¬ s.Answered i c) (hst : Step s t) :
    t.stepsLeft before.length ≤ s.stepsLeft before.length := by
  cases hst with
  | thread hthread => exact Nat.le_of_lt (h.fewer hgoal hthread)
  | dispatch _ _ | enqueue _ _ _ _ | close _ _ | swap _ _ _ | takeSender _ _ _ | send _ _ _ _
  | takeJoin _ _ _ | dropHandle _ _ _ => exact Nat.le_refl _

/-- However the callers are scheduled, a thread that is not starved answers the command. -/
theorem Ahead.eventually (h : Ahead before i c s) {f : Nat → State A} (hf : (system A).Execution f)
    (hfair : Fair ThreadStep f) (hs : f 0 = s) : ∃ n, (f n).Answered i c :=
  hf.eventually (State.stepsLeft before.length) hfair (P := Ahead before i c)
    (fun _ _ hs hst => hs.step hst) (fun _ hs hgoal => hs.enabled hgoal)
    (fun _ _ hs hgoal hst => hs.kept hgoal hst) (fun _ _ hs hgoal hst => hs.fewer hgoal hst)
    (hs ▸ h)

end Progress

theorem shutdown_received (ho : Ordered s) {j : Nat} (h : .shutdown j ∈ s.received) :
    s.thread ≠ .ready ∧ (∀ i c, s.thread ≠ .busy i c) ∧ ∀ i r, s.thread ≠ .answering i r := by
  have hplaced := ho.placed
  refine ⟨?_, ?_, ?_⟩
  · intro hw
    rw [hw] at hplaced
    exact shutdown_not_executed j (hplaced.1 ▸ h)
  · intro i c hw
    rw [hw] at hplaced
    rw [hplaced.1, List.mem_append, List.mem_singleton] at h
    obtain h | h := h
    · exact shutdown_not_executed j h
    · cases h
  · intro i r hw
    rw [hw] at hplaced
    exact shutdown_not_executed j (hplaced.1 ▸ h)

/-- A dispatch that starts after the flag is set goes no further than the flag. -/
theorem run_refused {i : Nat} (hclosed : s.closed = true) (hi : s.dispatch i = .idle)
    (h : (system A).Run s t) :
    t.dispatch i = .idle ∨ ∃ c, t.dispatch i = .called c ∨ t.dispatch i = .returned c .closed := by
  refine (System.preserved (S := system A) (P := fun u => u.closed = true ∧
    (u.dispatch i = .idle ∨ ∃ c, u.dispatch i = .called c ∨ u.dispatch i = .returned c .closed)) ?_
    ⟨hclosed, .inl hi⟩ h).2
  rintro u v ⟨hu, hd⟩ huv
  cases huv with
  | @dispatch k d hk =>
    refine ⟨hu, ?_⟩
    show Function.update u.dispatch k d i = _ ∨ ∃ c, Function.update u.dispatch k d i = _ ∨
      Function.update u.dispatch k d i = _
    by_cases hik : i = k
    · rw [← hik] at hk ⊢
      rw [Function.update_self]
      obtain hd | ⟨c, hd | hd⟩ := hd
      · rw [hd] at hk
        cases hk with
        | call c _ => exact .inr ⟨c, .inl rfl⟩
      · rw [hd] at hk
        cases hk with
        | closed _ => exact .inr ⟨c, .inr rfl⟩
        | check hopen => exact absurd (hu.symm.trans hopen) Bool.noConfusion
      · rw [hd] at hk
        cases hk
    · rw [Function.update_of_ne hik]
      exact hd
  | @enqueue k c hk _ _ =>
    refine ⟨hu, ?_⟩
    show Function.update u.dispatch k _ i = _ ∨ ∃ c, Function.update u.dispatch k _ i = _ ∨
      Function.update u.dispatch k _ i = _
    have hik : i ≠ k := by
      rintro rfl
      rw [hk] at hd
      obtain hd | ⟨c, hd | hd⟩ := hd <;> cases hd
    rw [Function.update_of_ne hik]
    exact hd
  | thread hthread => cases hthread <;> exact ⟨hu, hd⟩
  | swap _ _ _ => exact ⟨rfl, hd⟩
  | dropHandle _ _ _ => exact ⟨rfl, hd⟩
  | close _ _ | takeSender _ _ _ | send _ _ _ _ | takeJoin _ _ _ => exact ⟨hu, hd⟩

/-- What the callers of an adapter can rely on. -/
structure Contract (A : Adapter) : Prop where
  /-- Commands are executed at most once, in the order of the channel. -/
  inOrder : ∀ s, (system A).Reachable s →
    s.executedMessages <+: s.enqueued ∧ (s.executed.map Entry.call).Nodup
  replays : ∀ s₀ s, (system A).init s₀ → (system A).Run s₀ s → Replays A s₀.db s.executed s.db
  answered : ∀ s, (system A).Reachable s → ∀ i c r, s.dispatch i = .returned c (.answered r) →
    (s.executed.map Entry.call).count i = 1 ∧ ∃ faults, ⟨i, c, faults, r⟩ ∈ s.executed
  failed : ∀ s, (system A).Reachable s → ∀ i c o, s.dispatch i = .returned c o →
    (∀ r, o ≠ .answered r) → ∀ t, (system A).Run s t → ∀ e ∈ t.executed, e.call ≠ i
  /-- A command with no Shutdown ahead of it is answered by the time the thread
  receives Shutdown or ends, and under every fair schedule. -/
  beforeShutdown : ∀ s, (system A).Reachable s → ∀ ahead i c behind,
    s.enqueued = ahead ++ .command i c :: behind → (∀ j, .shutdown j ∉ ahead) →
      ((∃ j, .shutdown j ∈ s.received) ∨ s.thread = .exited → s.Answered i c) ∧
      ∀ f, (system A).Execution f → Fair ThreadStep f → f 0 = s → ∃ n, (f n).Answered i c
  afterShutdown : ∀ s, (system A).Reachable s → ∀ ahead j behind,
    s.enqueued = ahead ++ .shutdown j :: behind → ∀ i c, .command i c ∈ behind →
      ∀ t, (system A).Run s t → ∀ e ∈ t.executed, e.call ≠ i
  refused : ∀ s, (system A).Reachable s → s.closed = true → ∀ i, s.dispatch i = .idle →
    ∀ t, (system A).Run s t → i ∉ calls t.enqueued ∧
      (t.dispatch i = .idle ∨ ∃ c, t.dispatch i = .called c ∨ t.dispatch i = .returned c .closed)

theorem contract (A : Adapter) : Contract A where
  inOrder := by
    intro s h
    have hs := reachable_invariant h
    obtain ⟨rest, hrest⟩ := hs.ordered.executed
    exact ⟨⟨rest, hrest.symm⟩, executed_once hs.ordered hs.accounted⟩
  replays := fun _ _ h₀ h => run_replays h₀ h
  answered := fun _ h _ _ _ hi => answered_executed (reachable_invariant h) hi
  failed := fun _ h _ _ _ hi ho _ hrun =>
    failed_not_executed (reachable_invariant (h.run hrun)) (run_returned hi hrun) ho
  beforeShutdown := by
    intro s h ahead i c behind hsplit hno
    have hs := reachable_invariant h
    have hahead : Ahead ahead i c s := by
      refine ⟨hs, ?_, behind, hsplit⟩
      rw [List.eq_nil_iff_forall_not_mem]
      exact fun j hj => hno j (mem_closers.mp hj)
    refine ⟨?_, fun f hf hfair h0 => hahead.eventually hf hfair h0⟩
    rintro (⟨j, hj⟩ | hw)
    · obtain ⟨hready, hbusy, hanswering⟩ := shutdown_received hs.ordered hj
      exact hahead.settled hready hbusy hanswering
    · exact hahead.settled (by simp [hw]) (by simp [hw]) (by simp [hw])
  afterShutdown := by
    intro s h ahead j behind hsplit i c hi t hrun
    obtain ⟨more, hmore⟩ := run_enqueued hrun
    rw [hsplit, List.append_assoc, List.cons_append] at hmore
    exact after_shutdown_not_executed (reachable_invariant (h.run hrun)) hmore
      (List.mem_append_left _ hi)
  refused := by
    intro s h hclosed i hi t hrun
    have hrefused := run_refused hclosed hi hrun
    refine ⟨?_, hrefused⟩
    intro hmem
    obtain ⟨c, hc⟩ := mem_calls.mp hmem
    have haccepted := ((reachable_invariant (h.run hrun)).accounted.accepted i c).mp hc
    obtain hd | ⟨c', hd | hd⟩ := hrefused <;> rw [hd] at haccepted <;> cases haccepted

end OrbitRelay.Worker
