import OrbitRelay.EventStoreRun
import Mathlib.Logic.Function.Basic

/-!
# Dispatching event batches

`PipelineAdapter::dispatch` appends its whole batch and then publishes it, one
await at a time. Any number of dispatches interleave at these awaits over one
EventStore and one bus.
-/
namespace OrbitRelay.Pipeline

open Storage EventStore

variable {K : Kernel}

def persistenceFailed (event : Event K) : String :=
  "event persistence failed for `" ++ K.eventId.text event.id ++ "`"

def publicationFailed (event : Event K) : String :=
  "event publication failed for `" ++ K.eventId.text event.id ++ "`"

/-- Where one call of `dispatch` is, with what it has done and has left to do. -/
inductive Dispatch (K : Kernel) where
  | idle
  | appending (stored rest : List (Event K))
  | publishing (sent rest : List (Event K))
  | ok (batch : List (Event K))
  | failed (message : String)

/-- The batch of a call that has not returned. -/
def Dispatch.held : Dispatch K → List (Event K)
  | .appending stored rest => stored ++ rest
  | .publishing sent rest => sent ++ rest
  | _ => []

/-- Events that are stored and will still be published. -/
def Dispatch.inFlight : Dispatch K → List (Event K)
  | .appending stored _ => stored
  | .publishing _ rest => rest
  | _ => []

theorem Dispatch.inFlight_subset (d : Dispatch K) : d.inFlight ⊆ d.held := by
  intro e he
  cases d with
  | appending stored rest => exact List.mem_append_left rest he
  | publishing sent rest => exact List.mem_append_right sent he
  | idle => exact he
  | ok batch => exact he
  | failed message => exact he

/-- The database, the calls, and everything published so far in order. -/
structure State (K : Kernel) where
  db : Db
  dispatch : Nat → Dispatch K
  published : List (Event K)

def State.set (p : State K) (i : Nat) (d : Dispatch K) : State K :=
  { p with dispatch := Function.update p.dispatch i d }

@[simp] theorem State.set_same (p : State K) (i : Nat) (d : Dispatch K) :
    (p.set i d).dispatch i = d := by simp [State.set]

theorem State.set_other (p : State K) {i j : Nat} (d : Dispatch K) (h : j ≠ i) :
    (p.set i d).dispatch j = p.dispatch j := by simp [State.set, h]

@[simp] theorem State.set_published (p : State K) (i : Nat) (d : Dispatch K) :
    (p.set i d).published = p.published := rfl

/-- One await of one call. -/
inductive Step (h : Handle K) : State K → State K → Prop where
  | start (p : State K) (i : Nat) (batch : List (Event K)) :
      p.dispatch i = .idle → Step h p (p.set i (.appending [] batch))
  | append (p : State K) (f : Faults) (i : Nat) (stored rest : List (Event K)) (e : Event K)
      (record : StoredEvent K) (db : Db) :
      p.dispatch i = .appending stored (e :: rest) →
      execute f h p.db (.append e) = (.stored (.ok record), db) →
      Step h p { p.set i (.appending (stored ++ [e]) rest) with db }
  | appendFailed (p : State K) (f : Faults) (i : Nat) (stored rest : List (Event K)) (e : Event K)
      (error : StorageError K) (db : Db) :
      p.dispatch i = .appending stored (e :: rest) →
      execute f h p.db (.append e) = (.stored (.error error), db) →
      Step h p { p.set i (.failed (persistenceFailed e)) with db }
  | appended (p : State K) (i : Nat) (batch : List (Event K)) :
      p.dispatch i = .appending batch [] → Step h p (p.set i (.publishing [] batch))
  | publish (p : State K) (i : Nat) (sent rest : List (Event K)) (e : Event K) :
      p.dispatch i = .publishing sent (e :: rest) →
      Step h p { p.set i (.publishing (sent ++ [e]) rest) with published := p.published ++ [e] }
  | publishFailed (p : State K) (i : Nat) (sent rest : List (Event K)) (e : Event K) :
      p.dispatch i = .publishing sent (e :: rest) →
      Step h p (p.set i (.failed (publicationFailed e)))
  | finish (p : State K) (i : Nat) (batch : List (Event K)) :
      p.dispatch i = .publishing batch [] → Step h p (p.set i (.ok batch))

/-- An append that returned has its event in the log, and added at most it. -/
theorem execute_append_ok {f : Faults} {h : Handle K} {db db' : Db} {e : Event K} {log : List (Event K)}
    {record : StoredEvent K} (hr : Represents db.events log)
    (hx : execute f h db (.append e) = (.stored (.ok record), db')) :
    (e ∈ log ∧ Represents db'.events log) ∨
      ((∀ x ∈ log, x.id ≠ e.id) ∧ Represents db'.events (log ++ [e])) := by
  have ho := appendEvent_outcome hr f h e
  simp only [execute, Prod.mk.injEq, Reply.stored.injEq] at hx
  obtain ⟨hres, rfl⟩ := hx
  generalize appendEvent f h e db.events = out at ho hres
  cases ho with
  | fault error hf => cases hres
  | existing i hi => exact .inl ⟨List.mem_of_getElem? hi, hr⟩
  | conflict i x hi hid hne => cases hres
  | added u r hnew hrows hu => exact .inr ⟨hnew, hu⟩

theorem execute_append_error {f : Faults} {h : Handle K} {db db' : Db} {e : Event K}
    {log : List (Event K)} {error : StorageError K} (hr : Represents db.events log)
    (hx : execute f h db (.append e) = (.stored (.error error), db')) : db'.events = db.events := by
  have ho := appendEvent_outcome hr f h e
  simp only [execute, Prod.mk.injEq, Reply.stored.injEq] at hx
  obtain ⟨hres, rfl⟩ := hx
  generalize appendEvent f h e db.events = out at ho hres
  cases ho with
  | fault error hf => rfl
  | existing i hi => cases hres
  | conflict i x hi hid hne => rfl
  | added u r hnew hrows hu => cases hres

/-- Whatever has been published, or is to be published without another append, is stored. -/
structure Persisted (p : State K) (log : List (Event K)) : Prop where
  represents : Represents p.db.events log
  inFlight : ∀ i, (p.dispatch i).inFlight ⊆ log
  published : p.published ⊆ log

theorem Persisted.set {p : State K} {log : List (Event K)} (h : Persisted p log) {i : Nat}
    {d : Dispatch K} (hd : d.inFlight ⊆ log) : Persisted (p.set i d) log where
  represents := h.represents
  inFlight := by
    intro j
    by_cases hj : j = i
    · subst hj
      rw [State.set_same]
      exact hd
    · rw [State.set_other p d hj]
      exact h.inFlight j
  published := h.published

theorem Persisted.replace {p : State K} {log : List (Event K)} (h : Persisted p log) {db : Db}
    (hr : Represents db.events log) : Persisted { p with db } log :=
  ⟨hr, h.inFlight, h.published⟩

theorem Persisted.grow {p : State K} {log : List (Event K)} (h : Persisted p log) {db : Db}
    {later : List (Event K)} (hr : Represents db.events (log ++ later)) :
    Persisted { p with db } (log ++ later) where
  represents := hr
  inFlight := fun i => List.Subset.trans (h.inFlight i) (List.subset_append_left log later)
  published := List.Subset.trans h.published (List.subset_append_left log later)

/-- What one await leaves in the log. -/
theorem step_persisted {h : Handle K} {p q : State K} {log : List (Event K)} (hp : Persisted p log)
    (hs : Step h p q) : ∃ later, Persisted q (log ++ later) := by
  have hsame : ∀ r, Persisted r log → ∃ later, Persisted r (log ++ later) :=
    fun r hr => ⟨[], by simpa using hr⟩
  cases hs with
  | start i batch hi => exact hsame _ (hp.set (by simp [Dispatch.inFlight]))
  | append f i stored rest e record db hi hx =>
    have hstored : stored ⊆ log := by simpa [hi, Dispatch.inFlight] using hp.inFlight i
    rcases execute_append_ok hp.represents hx with ⟨he, hr⟩ | ⟨-, hr⟩
    · exact hsame _ ((hp.replace hr).set (i := i) (d := .appending (stored ++ [e]) rest)
        (by simpa [Dispatch.inFlight, List.append_subset] using ⟨hstored, he⟩))
    · refine ⟨[e], (hp.grow hr).set (i := i) (d := .appending (stored ++ [e]) rest) ?_⟩
      intro x hx'
      exact (List.mem_append.mp hx').elim (fun hm => List.mem_append_left _ (hstored hm))
        (List.mem_append_right log)
  | appendFailed f i stored rest e error db hi hx =>
    have hr : Represents db.events log := execute_append_error hp.represents hx ▸ hp.represents
    exact hsame _ ((hp.replace hr).set (i := i) (d := .failed _) (by simp [Dispatch.inFlight]))
  | appended i batch hi =>
    have := hp.inFlight i
    rw [hi] at this
    exact hsame _ (hp.set this)
  | publish i sent rest e hi =>
    have hrest : e :: rest ⊆ log := by simpa [hi, Dispatch.inFlight] using hp.inFlight i
    rw [List.cons_subset] at hrest
    have hset := hp.set (i := i) (d := .publishing (sent ++ [e]) rest) hrest.2
    refine hsame _ ⟨hset.represents, hset.inFlight, ?_⟩
    simpa [List.append_subset] using ⟨hp.published, hrest.1⟩
  | publishFailed i sent rest e hi => exact hsame _ (hp.set (by simp [Dispatch.inFlight]))
  | finish i batch hi => exact hsame _ (hp.set (by simp [Dispatch.inFlight]))

end OrbitRelay.Pipeline
