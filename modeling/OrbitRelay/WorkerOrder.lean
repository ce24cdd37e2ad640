import OrbitRelay.Worker
import Mathlib.Data.List.Nodup

/-!
# What the worker executes

The channel is first in, first out, and the thread receives nothing after
Shutdown. So the executed commands are an initial part of the accepted ones, and
what becomes of a dispatch is decided by whether its command is in it.
-/
namespace OrbitRelay.Worker

open Transition

variable {A : Adapter}

def Entry.message (e : Entry A) : Message A := .command e.call e.command

def State.executedMessages (s : State A) : List (Message A) := s.executed.map Entry.message

@[simp] theorem calls_append (ms ns : List (Message A)) : calls (ms ++ ns) = calls ms ++ calls ns :=
  List.filterMap_append

@[simp] theorem calls_command (i : Nat) (c : A.Command) : calls [.command i c] = [i] := rfl

@[simp] theorem calls_shutdown (j : Nat) : calls [(.shutdown j : Message A)] = [] := rfl

theorem calls_executedMessages (s : State A) : calls s.executedMessages = s.executed.map Entry.call := by
  unfold calls State.executedMessages
  rw [List.filterMap_map]
  exact congrFun List.filterMap_eq_map s.executed

theorem mem_calls {ms : List (Message A)} {i : Nat} : i ∈ calls ms ↔ ∃ c, .command i c ∈ ms := by
  unfold calls
  rw [List.mem_filterMap]
  constructor
  · rintro ⟨m, hm, hi⟩
    cases m with
    | command k c =>
      cases hi
      exact ⟨c, hm⟩
    | shutdown j => cases hi
  · rintro ⟨c, hc⟩
    exact ⟨_, hc, rfl⟩

/-- What the thread has received and dropped, given what it has executed. -/
def Thread.Placed (received executed queue dropped : List (Message A)) : Thread A → Prop
  | .ready => received = executed ∧ dropped = []
  | .busy i c => received = executed ++ [.command i c] ∧ dropped = []
  | .answering _ _ => received = executed ∧ dropped = []
  | .acknowledging j => received = executed ++ [.shutdown j] ∧ dropped = []
  | .stopping => (∃ j, received = executed ++ [.shutdown j]) ∧ dropped = []
  | .exited => queue = [] ∧ (received = executed ∧ dropped = [] ∨ ∃ j, received = executed ++ [.shutdown j])

/-- Where every accepted message is. -/
structure Ordered (s : State A) : Prop where
  split : s.enqueued = s.received ++ (s.queue ++ s.dropped)
  placed : s.thread.Placed s.received s.executedMessages s.queue s.dropped

theorem Ordered.start (db : A.Db) : Ordered (opened db) := ⟨rfl, rfl, rfl⟩

theorem Thread.Placed.live {received executed queue dropped : List (Message A)} {w : Thread A}
    (h : w.Placed received executed queue dropped) (hlive : w ≠ .exited) : dropped = [] := by
  cases w with
  | ready => exact h.2
  | busy i c => exact h.2
  | answering i r => exact h.2
  | acknowledging j => exact h.2
  | stopping => exact h.2
  | exited => exact absurd rfl hlive

theorem Thread.Placed.queue {received executed queue dropped : List (Message A)} {w : Thread A}
    (h : w.Placed received executed queue dropped) (hlive : w ≠ .exited) (queue' : List (Message A)) :
    w.Placed received executed queue' dropped := by
  cases w with
  | ready => exact h
  | busy i c => exact h
  | answering i r => exact h
  | acknowledging j => exact h
  | stopping => exact h
  | exited => exact absurd rfl hlive

theorem Ordered.push {s : State A} (h : Ordered s) (m : Message A) (hlive : s.thread ≠ .exited) :
    Ordered (s.push m) where
  split := by
    show s.enqueued ++ [m] = s.received ++ ((s.queue ++ [m]) ++ s.dropped)
    rw [h.split, h.placed.live hlive]
    simp
  placed := h.placed.queue hlive _

theorem Ordered.thread {s t : State A} (h : Ordered s) (hst : ThreadStep s t) : Ordered t := by
  have hsplit := h.split
  have hplaced := h.placed
  cases hst with
  | @receive i c queue hready hqueue =>
    rw [hready] at hplaced
    rw [hqueue] at hsplit
    refine ⟨?_, congrArg (· ++ _) hplaced.1, hplaced.2⟩
    simpa using hsplit
  | @execute i c faults hbusy =>
    rw [hbusy] at hplaced
    refine ⟨hsplit, ?_, hplaced.2⟩
    show s.received = (s.executed ++ [_]).map Entry.message
    rw [List.map_append]
    exact hplaced.1
  | @answer i r hanswering =>
    rw [hanswering] at hplaced
    exact ⟨hsplit, hplaced⟩
  | @receiveShutdown j queue hready hqueue =>
    rw [hready] at hplaced
    rw [hqueue] at hsplit
    refine ⟨?_, congrArg (· ++ _) hplaced.1, hplaced.2⟩
    simpa using hsplit
  | @acknowledge j hack =>
    rw [hack] at hplaced
    exact ⟨hsplit, ⟨j, hplaced.1⟩, hplaced.2⟩
  | stop hstopping =>
    rw [hstopping] at hplaced
    refine ⟨?_, rfl, .inr hplaced.1⟩
    rw [hplaced.2] at hsplit
    simpa using hsplit
  | finish hready hqueue habandoned =>
    rw [hready] at hplaced
    exact ⟨hsplit, hqueue, .inl hplaced⟩

theorem Ordered.step {s t : State A} (h : Ordered s) (hst : Step s t) : Ordered t := by
  cases hst with
  | dispatch i hd => exact ⟨h.split, h.placed⟩
  | @enqueue i c hi hlive hroom => exact ⟨(h.push _ hlive).split, (h.push _ hlive).placed⟩
  | close j hk => exact ⟨h.split, h.placed⟩
  | swap j hj hclosed => exact ⟨h.split, h.placed⟩
  | takeSender j hj hsender => exact ⟨h.split, h.placed⟩
  | send j hj hlive hroom => exact ⟨(h.push _ hlive).split, (h.push _ hlive).placed⟩
  | takeJoin j hj hjoin => exact ⟨h.split, h.placed⟩
  | thread hthread => exact h.thread hthread
  | dropHandle _ _ _ => exact ⟨h.split, h.placed⟩

theorem Ordered.received {s : State A} (h : Ordered s) :
    ∃ tail, s.received = s.executedMessages ++ tail := by
  have hplaced := h.placed
  cases hw : s.thread with
  | ready => rw [hw] at hplaced; exact ⟨[], by rw [hplaced.1, List.append_nil]⟩
  | busy i c => rw [hw] at hplaced; exact ⟨_, hplaced.1⟩
  | answering i r => rw [hw] at hplaced; exact ⟨[], by rw [hplaced.1, List.append_nil]⟩
  | acknowledging j => rw [hw] at hplaced; exact ⟨_, hplaced.1⟩
  | stopping =>
    rw [hw] at hplaced
    obtain ⟨⟨j, hj⟩, -⟩ := hplaced
    exact ⟨_, hj⟩
  | exited =>
    rw [hw] at hplaced
    obtain ⟨-, ⟨heq, -⟩ | ⟨j, hj⟩⟩ := hplaced
    · exact ⟨[], by rw [heq, List.append_nil]⟩
    · exact ⟨_, hj⟩

/-- The worker executes the accepted messages from the first one on. -/
theorem Ordered.executed {s : State A} (h : Ordered s) :
    ∃ rest, s.enqueued = s.executedMessages ++ rest := by
  obtain ⟨tail, htail⟩ := h.received
  exact ⟨tail ++ (s.queue ++ s.dropped), by rw [h.split, htail, List.append_assoc]⟩

section Accounting

variable {s t : State A}

/-- The command of a dispatch that the channel accepted. -/
def Dispatch.accepted : Dispatch A → Option A.Command
  | .waiting c => some c
  | .returned c (.answered _) => some c
  | .returned c .replyLost => some c
  | .cancelled c => some c
  | _ => none

/-- What a reply channel and the dispatch behind it know about the log. -/
structure Accounted (s : State A) : Prop where
  once : (calls s.enqueued).Nodup
  accepted : ∀ i c, .command i c ∈ s.enqueued ↔ (s.dispatch i).accepted = some c
  sent : ∀ i r, s.reply i = .sent r → ∃ e ∈ s.executed, e.call = i ∧ e.reply = r
  lost : ∀ i, s.reply i = .dropped ↔ i ∈ calls s.dropped
  replied : ∀ e ∈ s.executed, s.reply e.call = .sent e.reply ∨ s.thread = .answering e.call e.reply
  answering : ∀ i r, s.thread = .answering i r → ∃ e ∈ s.executed, e.call = i ∧ e.reply = r
  answered : ∀ i c r, s.dispatch i = .returned c (.answered r) → s.reply i = .sent r
  replyLost : ∀ i c, s.dispatch i = .returned c .replyLost → s.reply i = .dropped

theorem Accounted.start (db : A.Db) : Accounted (opened db) where
  once := List.nodup_nil
  accepted := fun i c => ⟨fun h => absurd h List.not_mem_nil, fun h => by cases h⟩
  sent := fun i r h => by cases h
  lost := fun i => ⟨(fun h => by cases h), fun h => absurd h List.not_mem_nil⟩
  replied := fun e h => absurd h List.not_mem_nil
  answering := fun i r h => by cases h
  answered := fun i c r h => by cases h
  replyLost := fun i c h => by cases h

/-- No dispatch has two entries in the log. -/
theorem executed_once (ho : Ordered s) (ha : Accounted s) : (s.executed.map Entry.call).Nodup := by
  obtain ⟨rest, hrest⟩ := ho.executed
  have honce := ha.once
  rw [hrest, calls_append, calls_executedMessages] at honce
  exact (List.nodup_append.mp honce).1

theorem entry_unique (ho : Ordered s) (ha : Accounted s) {e e' : Entry A} (he : e ∈ s.executed)
    (he' : e' ∈ s.executed) (hcall : e.call = e'.call) : e = e' :=
  List.inj_on_of_nodup_map (executed_once ho ha) he he' hcall

/-- An executed command is no longer in the channel. -/
theorem executed_not_queued (ho : Ordered s) (ha : Accounted s) {e : Entry A} (he : e ∈ s.executed) :
    e.call ∉ calls (s.queue ++ s.dropped) := by
  obtain ⟨tail, htail⟩ := ho.received
  have honce := ha.once
  rw [ho.split, htail, calls_append, calls_append, calls_executedMessages] at honce
  have hmem : e.call ∈ s.executed.map Entry.call ++ calls tail :=
    List.mem_append_left _ (List.mem_map_of_mem he)
  exact fun hq => (List.nodup_append.mp honce).2.2 _ hmem _ hq rfl

theorem DispatchStep.accepted {i : Nat} {d d' : Dispatch A} (h : DispatchStep s i d d') :
    d'.accepted = d.accepted := by
  cases h <;> rfl

theorem setDispatch_eq {i k : Nat} {d d' : Dispatch A} (h : (s.setDispatch i d).dispatch k = d') :
    (k = i ∧ d = d') ∨ s.dispatch k = d' := by
  change Function.update s.dispatch i d k = d' at h
  by_cases hk : k = i
  · rw [hk, Function.update_self] at h
    exact .inl ⟨hk, h⟩
  · rw [Function.update_of_ne hk] at h
    exact .inr h

theorem Accounted.dispatch (h : Accounted s) {i : Nat} {d : Dispatch A}
    (hd : DispatchStep s i (s.dispatch i) d) : Accounted (s.setDispatch i d) where
  once := h.once
  accepted := by
    intro k c
    show .command k c ∈ s.enqueued ↔ (Function.update s.dispatch i d k).accepted = some c
    by_cases hk : k = i
    · rw [hk, Function.update_self, hd.accepted]
      exact h.accepted i c
    · rw [Function.update_of_ne hk]
      exact h.accepted k c
  sent := h.sent
  lost := h.lost
  replied := h.replied
  answering := h.answering
  answered := by
    intro k c r hk
    rcases setDispatch_eq hk with ⟨rfl, rfl⟩ | hk
    · generalize s.dispatch k = d₀ at hd
      cases hd with
      | answered r hr => exact hr
    · exact h.answered k c r hk
  replyLost := by
    intro k c hk
    rcases setDispatch_eq hk with ⟨rfl, rfl⟩ | hk
    · generalize s.dispatch k = d₀ at hd
      cases hd with
      | replyLost hr => exact hr
    · exact h.replyLost k c hk

theorem Accounted.enqueue (h : Accounted s) {i : Nat} {c : A.Command} (hi : s.dispatch i = .holding c) :
    Accounted ((s.push (.command i c)).setDispatch i (.waiting c)) where
  once := by
    show (calls (s.enqueued ++ [.command i c])).Nodup
    rw [calls_append, calls_command, List.nodup_append]
    refine ⟨h.once, List.nodup_singleton i, ?_⟩
    intro k hk k' hk' heq
    rw [List.mem_singleton] at hk'
    obtain ⟨c', hc'⟩ := mem_calls.mp hk
    have := (h.accepted k c').mp hc'
    rw [heq, hk', hi] at this
    cases this
  accepted := by
    intro k c'
    show .command k c' ∈ s.enqueued ++ [.command i c] ↔
      (Function.update s.dispatch i (.waiting c) k).accepted = some c'
    rw [List.mem_append, List.mem_singleton, h.accepted k c']
    by_cases hk : k = i
    · rw [hk, Function.update_self, hi]
      constructor
      · rintro (h | h)
        · cases h
        · cases h
          rfl
      · intro h
        cases h
        exact .inr rfl
    · rw [Function.update_of_ne hk]
      constructor
      · rintro (h | h)
        · exact h
        · cases h
          exact absurd rfl hk
      · exact .inl
  sent := h.sent
  lost := h.lost
  replied := h.replied
  answering := h.answering
  answered := by
    intro k c' r hk
    rcases setDispatch_eq hk with ⟨-, hd⟩ | hk
    · cases hd
    · exact h.answered k c' r hk
  replyLost := by
    intro k c' hk
    rcases setDispatch_eq hk with ⟨-, hd⟩ | hk
    · cases hd
    · exact h.replyLost k c' hk

theorem dropReplies_of_not_mem {queue : List (Message A)} {reply : Nat → Oneshot A.Reply} {i : Nat}
    (h : i ∉ calls queue) : dropReplies queue reply i = reply i := if_neg h

/-- A thread step that leaves the channel's ends and the log alone. -/
theorem Accounted.moved (h : Accounted s) (henq : t.enqueued = s.enqueued) (hdisp : t.dispatch = s.dispatch)
    (hreply : t.reply = s.reply) (hexec : t.executed = s.executed) (hdrop : t.dropped = s.dropped)
    (hbefore : ∀ i r, s.thread ≠ .answering i r) (hafter : ∀ i r, t.thread ≠ .answering i r) :
    Accounted t where
  once := henq ▸ h.once
  accepted := by rw [henq, hdisp]; exact h.accepted
  sent := by rw [hreply, hexec]; exact h.sent
  lost := by rw [hreply, hdrop]; exact h.lost
  replied := by
    rw [hreply, hexec]
    exact fun e he => .inl ((h.replied e he).resolve_right (hbefore _ _))
  answering := fun i r ha => absurd ha (hafter i r)
  answered := by rw [hreply, hdisp]; exact h.answered
  replyLost := by rw [hreply, hdisp]; exact h.replyLost

theorem Accounted.execute (h : Accounted s) {i : Nat} {c : A.Command} (faults : A.Faults)
    (hbusy : s.thread = .busy i c) :
    Accounted { s with
      thread := .answering i (A.execute faults s.db c).1
      db := (A.execute faults s.db c).2
      executed := s.executed ++ [⟨i, c, faults, (A.execute faults s.db c).1⟩] } where
  once := h.once
  accepted := h.accepted
  sent := by
    intro k r hk
    obtain ⟨e, he, hr⟩ := h.sent k r hk
    exact ⟨e, List.mem_append_left _ he, hr⟩
  lost := h.lost
  replied := by
    intro e he
    rw [List.mem_append, List.mem_singleton] at he
    obtain he | rfl := he
    · refine .inl ((h.replied e he).resolve_right ?_)
      rw [hbusy]
      exact fun hne => by cases hne
    · exact .inr rfl
  answering := by
    intro k r hk
    cases hk
    exact ⟨_, List.mem_append_right _ (List.mem_singleton_self _), rfl, rfl⟩
  answered := h.answered
  replyLost := h.replyLost

theorem Accounted.answer (h : Accounted s) (ho : Ordered s) {i : Nat} {r : A.Reply}
    (hanswering : s.thread = .answering i r) :
    Accounted { s with thread := .ready, reply := Function.update s.reply i (.sent r) } := by
  obtain ⟨e₀, he₀, hcall, hreply⟩ := h.answering i r hanswering
  have hdropped : s.dropped = [] := by
    have := ho.placed
    rw [hanswering] at this
    exact this.2
  have hlost : ∀ k, s.reply k ≠ .dropped := by
    intro k hk
    have := (h.lost k).mp hk
    rw [hdropped] at this
    exact List.not_mem_nil this
  -- the new reply is the one the log has for this call
  have hsame : ∀ e ∈ s.executed, e.call = i → e.reply = r := by
    intro e he hi
    rw [entry_unique ho h he he₀ (hi.trans hcall.symm)]
    exact hreply
  refine ⟨h.once, h.accepted, ?_, ?_, ?_, ?_, ?_, ?_⟩
  · intro k r' hk
    change Function.update s.reply i _ k = _ at hk
    by_cases hki : k = i
    · rw [hki, Function.update_self] at hk
      cases hk
      exact ⟨e₀, he₀, hcall.trans hki.symm, hreply⟩
    · rw [Function.update_of_ne hki] at hk
      exact h.sent k r' hk
  · intro k
    show Function.update s.reply i _ k = .dropped ↔ k ∈ calls s.dropped
    rw [hdropped]
    refine ⟨fun hk => ?_, fun hk => absurd hk List.not_mem_nil⟩
    by_cases hki : k = i
    · rw [hki, Function.update_self] at hk
      cases hk
    · rw [Function.update_of_ne hki] at hk
      exact absurd hk (hlost k)
  · intro e he
    refine .inl ?_
    show Function.update s.reply i _ e.call = _
    by_cases hei : e.call = i
    · rw [hei, Function.update_self, hsame e he hei]
    · rw [Function.update_of_ne hei]
      refine (h.replied e he).resolve_right ?_
      rw [hanswering]
      intro heq
      cases heq
      exact hei rfl
  · intro k r' hk
    cases hk
  · intro k c r' hk
    have hsent := h.answered k c r' hk
    show Function.update s.reply i _ k = _
    by_cases hki : k = i
    · obtain ⟨e, he, hecall, hereply⟩ := h.sent k r' hsent
      rw [hki, Function.update_self, ← hereply, hsame e he (hecall.trans hki)]
    · rw [Function.update_of_ne hki]
      exact hsent
  · intro k c hk
    exact absurd (h.replyLost k c hk) (hlost k)

theorem Accounted.stop (h : Accounted s) (ho : Ordered s) (hstopping : s.thread = .stopping) :
    Accounted { s with
      thread := .exited
      queue := []
      dropped := s.queue
      reply := dropReplies s.queue s.reply
      acknowledgement := dropAcknowledgements s.queue s.acknowledgement } := by
  have hdropped : s.dropped = [] := by
    have := ho.placed
    rw [hstopping] at this
    exact this.2
  have hlost : ∀ k, s.reply k ≠ .dropped := by
    intro k hk
    have := (h.lost k).mp hk
    rw [hdropped] at this
    exact List.not_mem_nil this
  have hkeep : ∀ k r, s.reply k = .sent r → dropReplies s.queue s.reply k = .sent r := by
    intro k r hk
    obtain ⟨e, he, hcall, -⟩ := h.sent k r hk
    have hnot := executed_not_queued ho h he
    rw [hdropped, List.append_nil, hcall] at hnot
    rw [dropReplies_of_not_mem hnot, hk]
  refine ⟨h.once, h.accepted, ?_, ?_, ?_, ?_, ?_, ?_⟩
  · intro k r hk
    change dropReplies s.queue s.reply k = _ at hk
    by_cases hq : k ∈ calls s.queue
    · rw [dropReplies, if_pos hq] at hk
      cases hk
    · rw [dropReplies_of_not_mem hq] at hk
      exact h.sent k r hk
  · intro k
    show dropReplies s.queue s.reply k = .dropped ↔ k ∈ calls s.queue
    by_cases hq : k ∈ calls s.queue
    · rw [dropReplies, if_pos hq]
      exact ⟨fun _ => hq, fun _ => rfl⟩
    · rw [dropReplies_of_not_mem hq]
      exact ⟨fun hk => absurd hk (hlost k), fun hk => absurd hk hq⟩
  · intro e he
    refine .inl (hkeep _ _ ((h.replied e he).resolve_right ?_))
    rw [hstopping]
    exact fun heq => by cases heq
  · intro k r hk
    cases hk
  · intro k c r hk
    exact hkeep k r (h.answered k c r hk)
  · intro k c hk
    exact absurd (h.replyLost k c hk) (hlost k)

theorem Accounted.thread (h : Accounted s) (ho : Ordered s) (hst : ThreadStep s t) : Accounted t := by
  cases hst with
  | receive hready hqueue =>
    exact h.moved rfl rfl rfl rfl rfl (by simp [hready]) (by simp)
  | execute faults hbusy => exact h.execute faults hbusy
  | answer hanswering => exact h.answer ho hanswering
  | receiveShutdown hready hqueue =>
    exact h.moved rfl rfl rfl rfl rfl (by simp [hready]) (by simp)
  | acknowledge hack =>
    exact h.moved rfl rfl rfl rfl rfl (by simp [hack]) (by simp)
  | stop hstopping => exact h.stop ho hstopping
  | finish hready hqueue habandoned =>
    exact h.moved rfl rfl rfl rfl rfl (by simp [hready]) (by simp)

theorem Accounted.send (h : Accounted s) (j : Nat) :
    Accounted ((s.push (.shutdown j)).setCloser j .waiting) where
  once := by
    show (calls (s.enqueued ++ [.shutdown j])).Nodup
    rw [calls_append, calls_shutdown, List.append_nil]
    exact h.once
  accepted := by
    intro k c
    show .command k c ∈ s.enqueued ++ [.shutdown j] ↔ (s.dispatch k).accepted = some c
    rw [List.mem_append, List.mem_singleton]
    rw [← h.accepted k c]
    refine ⟨fun hm => hm.resolve_right ?_, .inl⟩
    exact fun heq => by cases heq
  sent := h.sent
  lost := h.lost
  replied := h.replied
  answering := h.answering
  answered := h.answered
  replyLost := h.replyLost

theorem Accounted.step (h : Accounted s) (ho : Ordered s) (hst : Step s t) : Accounted t := by
  cases hst with
  | dispatch i hd => exact h.dispatch hd
  | enqueue i hi _ _ => exact h.enqueue hi
  | send j _ _ _ => exact h.send j
  | thread hthread => exact h.thread ho hthread
  | close j _ | swap j _ _ | takeSender j _ _ | takeJoin j _ _ | dropHandle _ _ _ =>
    exact ⟨h.once, h.accepted, h.sent, h.lost, h.replied, h.answering, h.answered, h.replyLost⟩

end Accounting

end OrbitRelay.Worker
