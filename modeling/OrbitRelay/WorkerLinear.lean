import OrbitRelay.Linearization
import OrbitRelay.WorkerContract

/-!
# The worker linearizes its callers

Dispatches on the clones of a handle overlap in any way. The log of the thread is
their linearization: a dispatch takes effect when its command is executed, which is
after it was called and before it has returned.
-/
namespace OrbitRelay.Worker

open Transition Linearization

variable {A : Adapter} {s t : State A}

/-- A dispatch as its caller sees it. One that was given up stays pending. -/
def Dispatch.view : Dispatch A → Progress A.Command A.Reply
  | .idle => .idle
  | .called c | .checked c | .holding c | .waiting c | .cancelled c => .pending c
  | .returned c (.answered r) => .returned c r
  | .returned c _ => .refused c

def State.view (s : State A) (i : Nat) : Progress A.Command A.Reply := (s.dispatch i).view

def Entry.effect (e : Entry A) : Effect Nat A.Command A.Reply := ⟨e.call, e.command, e.reply⟩

def State.effects (s : State A) : List (Effect Nat A.Command A.Reply) := s.executed.map Entry.effect

/-- One turn of the thread, as a sequential object. -/
def Turn (A : Adapter) (db : A.Db) (c : A.Command) (r : A.Reply) (db' : A.Db) : Prop :=
  ∃ faults, A.execute faults db c = (r, db')

theorem Replays.legal {db db' : A.Db} {log : List (Entry A)} (h : Replays A db log db') :
    Legal (Turn A) db (log.map Entry.effect) db' := by
  induction log generalizing db with
  | nil => exact h
  | cons e log ih =>
    obtain ⟨hreply, hlog⟩ := h
    refine ⟨_, ⟨e.faults, ?_⟩, ih hlog⟩
    exact Prod.ext hreply rfl

theorem Dispatch.view_returned {d : Dispatch A} {c : A.Command} {r : A.Reply} (h : d.view = .returned c r) :
    d = .returned c (.answered r) := by
  cases d with
  | returned c' o =>
    cases o with
    | answered r' =>
      cases h
      rfl
    | closed | noSender | full | receiverGone | replyLost => cases h
  | idle | called _ | checked _ | holding _ | waiting _ | cancelled _ => cases h

theorem Dispatch.view_accepted {d : Dispatch A} {c : A.Command} (h : d.accepted = some c)
    (hlost : d ≠ .returned c .replyLost) : d.view = .pending c ∨ ∃ r, d = .returned c (.answered r) := by
  cases d with
  | waiting c' =>
    cases h
    exact .inl rfl
  | cancelled c' =>
    cases h
    exact .inl rfl
  | returned c' o =>
    cases o with
    | answered r =>
      cases h
      exact .inr ⟨r, rfl⟩
    | replyLost =>
      cases h
      exact absurd rfl hlost
    | closed | noSender | full | receiverGone => cases h
  | idle | called _ | checked _ | holding _ => cases h

theorem Invariant.logged (h : Invariant s) : Logged s.view s.effects where
  once := by
    have honce := executed_once h.ordered h.accounted
    rw [State.effects, List.map_map]
    exact honce
  returned := by
    intro i c r hi
    obtain ⟨-, faults, he⟩ := answered_executed h (Dispatch.view_returned hi)
    exact List.mem_map.mpr ⟨_, he, rfl⟩
  called := by
    intro x hx
    obtain ⟨e, he, rfl⟩ := List.mem_map.mp hx
    have haccepted := executed_accepted h.ordered h.accounted he
    have hlost : s.dispatch e.call ≠ .returned e.command .replyLost :=
      fun hd => failed_not_executed h hd (fun r hr => by cases hr) e he rfl
    obtain hpending | ⟨r, hr⟩ := Dispatch.view_accepted haccepted hlost
    · exact .inl hpending
    · refine .inr ?_
      obtain ⟨-, faults, hmem⟩ := answered_executed h hr
      have hsame := entry_unique h.ordered h.accounted he hmem rfl
      have hreply : e.reply = r := congrArg Entry.reply hsame
      show (s.dispatch e.call).view = .returned e.command e.reply
      rw [hr, hreply]
      rfl

theorem Step.executed (h : Step s t) : s.executed <+: t.executed := by
  cases h with
  | thread hthread =>
    cases hthread with
    | execute faults _ => exact List.prefix_append _ _
    | receive _ _ | answer _ | receiveShutdown _ _ | acknowledge _ | stop _ | finish _ _ _ => exact List.prefix_refl _
  | dispatch _ _ | enqueue _ _ _ _ | close _ _ | swap _ _ _ | takeSender _ _ _ | send _ _ _ _
  | takeJoin _ _ _ | dropHandle _ _ _ => exact List.prefix_refl _

/-- Whatever the callers do, the executed commands linearize their dispatches. -/
theorem run_linearizes {db : A.Db} (hrun : (system A).Run (opened db) s) :
    Linearizes (system A) State.view (Turn A) (opened db) s db s.effects s.db :=
  .of_log (P := Invariant) (fun _ _ hs hst => hs.step hst) (fun _ hs => hs.logged)
    (fun _ _ _ hst => (Step.executed hst).map _) (reachable_invariant (.start ⟨db, rfl⟩)) hrun
    (run_replays (A := A) ⟨db, rfl⟩ hrun).legal

end OrbitRelay.Worker
