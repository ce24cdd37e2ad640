import OrbitRelay.Transition
import Mathlib.Logic.Function.Basic

/-!
# The worker behind a store handle

The three adapters own their database on one thread and talk to it through a
bounded channel. `WorkerHandle` holds the sending end, the join handle and a
closed flag; clones of a store share it. A dispatch and a close are sequences of
atomic accesses, and any number of them interleave with the thread.
-/
namespace OrbitRelay.Worker

open Transition

/-- What one adapter brings to the shared protocol. `execute` is one turn of its
`run_worker`; the texts are those of its `unavailable` errors. -/
structure Adapter where
  Command : Type
  Reply : Type
  Db : Type
  Faults : Type
  noFaults : Faults
  execute : Faults → Db → Command → Reply × Db
  capacity : Nat
  capacity_pos : 0 < capacity
  unavailable : String → Command → Reply
  closedText : String
  noSenderText : String
  fullText : String
  receiverGoneText : String
  replyLostText : Command → String
  stoppedText : String
  shutdownLostText : String
  joinFailedText : String
  /-- Whether `close` returns at once when the flag was already set. -/
  returnsIfClosed : Bool

variable {A : Adapter}

/-- How a dispatch ends. -/
inductive Outcome (A : Adapter) where
  | answered (reply : A.Reply)
  | closed
  | noSender
  | full
  | receiverGone
  | replyLost

/-- The `Result` that the dispatch of `c` returns. -/
def Outcome.result (c : A.Command) : Outcome A → A.Reply
  | .answered reply => reply
  | .closed => A.unavailable A.closedText c
  | .noSender => A.unavailable A.noSenderText c
  | .full => A.unavailable A.fullText c
  | .receiverGone => A.unavailable A.receiverGoneText c
  | .replyLost => A.unavailable (A.replyLostText c) c

/-- One call of a `dispatch_*` function. A clone of the sender lives from
`holding` to the end of the call. -/
inductive Dispatch (A : Adapter) where
  | idle
  | called (c : A.Command)
  | checked (c : A.Command)
  | holding (c : A.Command)
  | waiting (c : A.Command)
  | returned (c : A.Command) (outcome : Outcome A)
  | cancelled (c : A.Command)

inductive CloseError where
  | stopped
  | shutdownLost
  | joinFailed
  deriving DecidableEq

def CloseError.text (A : Adapter) : CloseError → String
  | .stopped => A.stoppedText
  | .shutdownLost => A.shutdownLostText
  | .joinFailed => A.joinFailedText

/-- One call of `close`. The sender taken from the handle lives in `sending` and
`waiting`, the join handle in `joined`. -/
inductive Closer where
  | idle
  | called
  | first
  | sending
  | waiting
  | joining
  | joined
  | returned (result : Except CloseError Unit)
  | cancelled

inductive Message (A : Adapter) where
  | command (call : Nat) (c : A.Command)
  | shutdown (closer : Nat)

/-- A oneshot channel, as its receiver finds it. -/
inductive Oneshot (α : Type) where
  | pending
  | sent (a : α)
  | dropped

/-- The thread. Its receiver is dropped on the way from `stopping` to `exited`. -/
inductive Thread (A : Adapter) where
  | ready
  | busy (call : Nat) (c : A.Command)
  | answering (call : Nat) (reply : A.Reply)
  | acknowledging (closer : Nat)
  | stopping
  | exited

structure Entry (A : Adapter) where
  call : Nat
  command : A.Command
  faults : A.Faults
  reply : A.Reply

/-- `sender` and `join` say whether the handle's two slots are full, `handle`
whether the handle is alive. The last five fields only record what has happened:
every message the channel accepted, received and dropped, every executed command,
and the call that set the closed flag. -/
structure State (A : Adapter) where
  db : A.Db
  closed : Bool
  sender : Bool
  join : Bool
  handle : Bool
  queue : List (Message A)
  thread : Thread A
  reply : Nat → Oneshot A.Reply
  acknowledgement : Nat → Oneshot Unit
  dispatch : Nat → Dispatch A
  closer : Nat → Closer
  enqueued : List (Message A)
  received : List (Message A)
  dropped : List (Message A)
  executed : List (Entry A)
  initiator : Option Nat

/-- `open_with_queue_capacity` over a database that its initialization accepts. -/
def opened (db : A.Db) : State A where
  db := db
  closed := false
  sender := true
  join := true
  handle := true
  queue := []
  thread := .ready
  reply := fun _ => .pending
  acknowledgement := fun _ => .pending
  dispatch := fun _ => .idle
  closer := fun _ => .idle
  enqueued := []
  received := []
  dropped := []
  executed := []
  initiator := none

def Dispatch.holdsSender : Dispatch A → Prop
  | .holding _ => True
  | .waiting _ => True
  | _ => False

def Closer.holdsSender : Closer → Prop
  | .sending => True
  | .waiting => True
  | _ => False

def Dispatch.active : Dispatch A → Prop
  | .idle => False
  | .returned _ _ => False
  | .cancelled _ => False
  | _ => True

def Closer.active : Closer → Prop
  | .idle => False
  | .returned _ => False
  | .cancelled => False
  | _ => True

/-- Every sender of the channel is gone. -/
def State.abandoned (s : State A) : Prop :=
  s.sender = false ∧ (∀ i, ¬ (s.dispatch i).holdsSender) ∧ ∀ j, ¬ (s.closer j).holdsSender

/-- The moves of one dispatch that change nothing but where it is. -/
inductive DispatchStep (s : State A) (i : Nat) : Dispatch A → Dispatch A → Prop
  | call (c) : s.handle = true → DispatchStep s i .idle (.called c)
  | closed {c} : s.closed = true → DispatchStep s i (.called c) (.returned c .closed)
  | check {c} : s.closed = false → DispatchStep s i (.called c) (.checked c)
  | noSender {c} : s.sender = false → DispatchStep s i (.checked c) (.returned c .noSender)
  | clone {c} : s.sender = true → DispatchStep s i (.checked c) (.holding c)
  | full {c} : s.thread ≠ .exited → A.capacity ≤ s.queue.length ∨ (∃ j, s.closer j = .sending) →
      DispatchStep s i (.holding c) (.returned c .full)
  | receiverGone {c} : s.thread = .exited → DispatchStep s i (.holding c) (.returned c .receiverGone)
  | answered {c} (r) : s.reply i = .sent r → DispatchStep s i (.waiting c) (.returned c (.answered r))
  | replyLost {c} : s.reply i = .dropped → DispatchStep s i (.waiting c) (.returned c .replyLost)
  | cancel {c} : DispatchStep s i (.waiting c) (.cancelled c)

/-- Where a call that finds the closed flag set goes on. -/
def Closer.afterClosed (A : Adapter) : Closer :=
  if A.returnsIfClosed then .returned (.ok ()) else .joining

/-- The moves of one close that change nothing but where it is. -/
inductive CloserStep (s : State A) (j : Nat) : Closer → Closer → Prop
  | call : s.handle = true → CloserStep s j .idle .called
  | alreadyClosed : s.closed = true → CloserStep s j .called (Closer.afterClosed A)
  | noSender : s.sender = false → CloserStep s j .first .joining
  | stopped : s.thread = .exited → CloserStep s j .sending (.returned (.error .stopped))
  | acknowledged : s.acknowledgement j = .sent () → CloserStep s j .waiting .joining
  | shutdownLost : s.acknowledgement j = .dropped →
      CloserStep s j .waiting (.returned (.error .shutdownLost))
  | noJoin : s.join = false → CloserStep s j .joining (.returned (.ok ()))
  | joined : s.thread = .exited → CloserStep s j .joined (.returned (.ok ()))
  | joinFailed : CloserStep s j .joined (.returned (.error .joinFailed))
  | cancel {k} : k = .sending ∨ k = .waiting ∨ k = .joined → CloserStep s j k .cancelled

def State.setDispatch (s : State A) (i : Nat) (d : Dispatch A) : State A :=
  { s with dispatch := Function.update s.dispatch i d }

def State.setCloser (s : State A) (j : Nat) (k : Closer) : State A :=
  { s with closer := Function.update s.closer j k }

def State.push (s : State A) (m : Message A) : State A :=
  { s with queue := s.queue ++ [m], enqueued := s.enqueued ++ [m] }

def Message.call? : Message A → Option Nat
  | .command i _ => some i
  | .shutdown _ => none

def Message.closer? : Message A → Option Nat
  | .command _ _ => none
  | .shutdown j => some j

/-- The dispatches whose commands are among the messages. -/
def calls (ms : List (Message A)) : List Nat := ms.filterMap Message.call?

/-- The closes whose Shutdown is among the messages. -/
def closers (ms : List (Message A)) : List Nat := ms.filterMap Message.closer?

/-- The reply channels after a receiver is dropped with its queue. -/
def dropReplies (queue : List (Message A)) (reply : Nat → Oneshot A.Reply) (i : Nat) :
    Oneshot A.Reply :=
  if i ∈ calls queue then .dropped else reply i

def dropAcknowledgements (queue : List (Message A)) (ack : Nat → Oneshot Unit) (j : Nat) :
    Oneshot Unit :=
  if j ∈ closers queue then .dropped else ack j

/-- `run_worker`: receive, execute, reply, until Shutdown or until no sender is left. -/
inductive ThreadStep : State A → State A → Prop
  | receive {s : State A} {i c queue} : s.thread = .ready → s.queue = .command i c :: queue →
      ThreadStep s { s with
        thread := .busy i c
        queue := queue
        received := s.received ++ [.command i c] }
  | execute {s : State A} {i c} (faults) : s.thread = .busy i c →
      ThreadStep s { s with
        thread := .answering i (A.execute faults s.db c).1
        db := (A.execute faults s.db c).2
        executed := s.executed ++ [⟨i, c, faults, (A.execute faults s.db c).1⟩] }
  | answer {s : State A} {i r} : s.thread = .answering i r →
      ThreadStep s { s with thread := .ready, reply := Function.update s.reply i (.sent r) }
  | receiveShutdown {s : State A} {j queue} : s.thread = .ready → s.queue = .shutdown j :: queue →
      ThreadStep s { s with
        thread := .acknowledging j
        queue := queue
        received := s.received ++ [.shutdown j] }
  | acknowledge {s : State A} {j} : s.thread = .acknowledging j →
      ThreadStep s { s with
        thread := .stopping
        acknowledgement := Function.update s.acknowledgement j (.sent ()) }
  | stop {s : State A} : s.thread = .stopping →
      ThreadStep s { s with
        thread := .exited
        queue := []
        dropped := s.queue
        reply := dropReplies s.queue s.reply
        acknowledgement := dropAcknowledgements s.queue s.acknowledgement }
  | finish {s : State A} : s.thread = .ready → s.queue = [] → s.abandoned →
      ThreadStep s { s with thread := .exited }

inductive Step : State A → State A → Prop
  | dispatch {s : State A} (i) {d} : DispatchStep s i (s.dispatch i) d → Step s (s.setDispatch i d)
  | enqueue {s : State A} (i) {c} : s.dispatch i = .holding c → s.thread ≠ .exited →
      s.queue.length < A.capacity → Step s ((s.push (.command i c)).setDispatch i (.waiting c))
  | close {s : State A} (j) {k} : CloserStep s j (s.closer j) k → Step s (s.setCloser j k)
  | swap {s : State A} (j) : s.closer j = .called → s.closed = false →
      Step s { s.setCloser j .first with closed := true, initiator := some j }
  | takeSender {s : State A} (j) : s.closer j = .first → s.sender = true →
      Step s { s.setCloser j .sending with sender := false }
  | send {s : State A} (j) : s.closer j = .sending → s.thread ≠ .exited →
      s.queue.length < A.capacity → Step s ((s.push (.shutdown j)).setCloser j .waiting)
  | takeJoin {s : State A} (j) : s.closer j = .joining → s.join = true →
      Step s { s.setCloser j .joined with join := false }
  | thread {s t : State A} : ThreadStep s t → Step s t
  | dropHandle {s : State A} : s.handle = true → (∀ i, ¬ (s.dispatch i).active) →
      (∀ j, ¬ (s.closer j).active) →
      Step s { s with
        handle := false
        closed := true
        sender := false
        join := false }

def system (A : Adapter) : System (State A) where
  init s := ∃ db, s = opened db
  step := Step

end OrbitRelay.Worker
