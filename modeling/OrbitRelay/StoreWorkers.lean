import OrbitRelay.WorkerDrain
import OrbitRelay.EventStoreRun
import OrbitRelay.AssetIntegrity
import OrbitRelay.CatalogDurable

/-!
# The workers of the three stores

`SQLiteEventStore`, `LocalAssetStore` and `SQLiteCatalogStore` as adapters of the
worker protocol. Their handles and dispatches are the same; only `close_worker` of
the EventStore returns at once when it finds the store already closed, where the
other two go on to the join handle.
-/
namespace OrbitRelay

open Transition Worker

/-- `open_with_queue_capacity` refuses zero. -/
abbrev QueueCapacity := { n : Nat // 0 < n }

def EventStore.Command.unavailable {K : Storage.Kernel} (message : String) :
    EventStore.Command K → EventStore.Reply K
  | .captureCheckpoint => .checkpoint (.error (EventStore.unavailable message))
  | .append _ => .stored (.error (EventStore.unavailable message))
  | .get _ => .found (.error (EventStore.unavailable message))
  | .query _ => .page (.error (EventStore.unavailable message))

def EventStore.adapter (K : Storage.Kernel) (h : EventStore.Handle K) (capacity : QueueCapacity) :
    Adapter where
  Command := EventStore.Command K
  Reply := EventStore.Reply K
  Db := EventStore.Db
  Faults := EventStore.Faults
  noFaults := EventStore.Faults.none
  execute f db c := EventStore.execute f h db c
  capacity := capacity.1
  capacity_pos := capacity.2
  unavailable := EventStore.Command.unavailable
  closedText := "SQLite EventStore is closed"
  noSenderText := "SQLite EventStore worker is unavailable"
  fullText := "SQLite command queue is full"
  receiverGoneText := "SQLite worker is unavailable"
  replyLostText _ := "SQLite worker response was lost"
  stoppedText := "SQLite worker stopped before shutdown"
  shutdownLostText := "SQLite worker shutdown response was lost"
  joinFailedText := "SQLite worker join task failed"
  returnsIfClosed := true

def AssetStore.Command.unavailable {K : AssetStore.AssetKernel} (detail : String) :
    AssetStore.Command K → AssetStore.Reply K
  | .lookup _ => .lookup (.error (.backendUnavailable detail))
  | .stage _ _ => .stage (.error (.backendUnavailable detail))
  | .publish _ _ => .publish (.error (.backendUnavailable detail))
  | .removeStaged _ => .removeStaged (.error (.backendUnavailable detail))

def AssetStore.adapter (K : AssetStore.AssetKernel) (capacity : QueueCapacity) : Adapter where
  Command := AssetStore.Command K
  Reply := AssetStore.Reply K
  Db := AssetStore.AssetTable
  Faults := AssetStore.Faults
  noFaults := AssetStore.Faults.none
  execute := AssetStore.execute
  capacity := capacity.1
  capacity_pos := capacity.2
  unavailable := AssetStore.Command.unavailable
  closedText := "local Asset store is closed"
  noSenderText := "local Asset metadata worker is unavailable"
  fullText := "Asset metadata command queue is full"
  receiverGoneText := "Asset metadata worker is unavailable"
  replyLostText
    | .lookup _ => "local Asset metadata response was lost"
    | .stage _ _ => "local Asset stage response was lost"
    | .publish _ _ => "local Asset publish response was lost"
    | .removeStaged _ => "local Asset cleanup response was lost"
  stoppedText := "local Asset metadata worker stopped"
  shutdownLostText := "local Asset metadata shutdown response was lost"
  joinFailedText := "local Asset metadata worker join failed"
  returnsIfClosed := false

def Catalog.adapter (K : Catalog.CatalogKernel) (capacity : QueueCapacity) : Adapter where
  Command := Catalog.Command K
  Reply := Catalog.Reply K
  Db := Catalog.Tables K
  Faults := Option Relational.SqliteError
  noFaults := none
  execute := Catalog.execute
  capacity := capacity.1
  capacity_pos := capacity.2
  unavailable detail c := c.failed (.unavailable detail)
  closedText := "catalog is closed"
  noSenderText := "catalog worker is unavailable"
  fullText := "catalog command queue is full"
  receiverGoneText := "catalog worker is unavailable"
  replyLostText _ := "catalog worker response was lost"
  stoppedText := "catalog worker stopped"
  shutdownLostText := "catalog shutdown response was lost"
  joinFailedText := "catalog worker join failed"
  returnsIfClosed := false

/-- The three workers execute what they accept once and in order, and every result of
a dispatch tells whether its command was executed. -/
theorem workers_execute_accepted_once (K : Storage.Kernel) (h : EventStore.Handle K)
    (L : AssetStore.AssetKernel) (M : Catalog.CatalogKernel) (capacity : QueueCapacity) :
    Contract (EventStore.adapter K h capacity) ∧ Contract (AssetStore.adapter L capacity) ∧
      Contract (Catalog.adapter M capacity) :=
  ⟨contract _, contract _, contract _⟩

/-- Whenever a close returns `Ok`, it has drained the worker. -/
def ClosesDrained (A : Adapter) : Prop := ∀ j s₀ s t, ReturnsOk A j s₀ s t → Drained s₀ t

/-- A close that returns `Ok` has drained this worker exactly when it waited and
nothing had been accepted behind a Shutdown. -/
def DrainsIfWaited (A : Adapter) : Prop :=
  ∀ j s₀ s t, ReturnsOk A j s₀ s t → (Drained s₀ t ↔ NoneBehind s₀ ∧ Waited j s)

theorem closes_drain_iff_waited (K : Storage.Kernel) (h : EventStore.Handle K)
    (L : AssetStore.AssetKernel) (M : Catalog.CatalogKernel) (capacity : QueueCapacity) :
    DrainsIfWaited (EventStore.adapter K h capacity) ∧ DrainsIfWaited (AssetStore.adapter L capacity) ∧
      DrainsIfWaited (Catalog.adapter M capacity) :=
  ⟨fun _ _ _ _ hr => hr.drained_iff, fun _ _ _ _ hr => hr.drained_iff, fun _ _ _ _ hr => hr.drained_iff⟩

section Samples

variable {A : Adapter}

/-- A worker with one accepted command. -/
def oneAccepted (db : A.Db) (c : A.Command) : State A :=
  ((((opened db).setDispatch 0 (.called c)).setDispatch 0 (.checked c)).setDispatch 0 (.holding c)).push
    (.command 0 c) |>.setDispatch 0 (.waiting c)

theorem oneAccepted_reachable (db : A.Db) (c : A.Command) : (system A).Reachable (oneAccepted db c) := by
  have h₀ : (system A).Reachable (opened db) := .start ⟨db, rfl⟩
  have h₁ := h₀.next (.dispatch 0 (.call c rfl))
  have h₂ := h₁.next (.dispatch 0 (.check rfl))
  have h₃ := h₂.next (.dispatch 0 (.clone rfl))
  exact h₃.next (.enqueue 0 rfl nofun A.capacity_pos)

theorem noneBehind_oneAccepted (db : A.Db) (c : A.Command) : NoneBehind (oneAccepted db c) := by
  intro ahead j behind h
  have hmem : .shutdown j ∈ (oneAccepted db c).enqueued := by
    rw [h]
    exact List.mem_append_right _ List.mem_cons_self
  cases List.mem_singleton.mp hmem

/-- A close on its own waits for the command and for the thread. -/
theorem first_close_returns (db : A.Db) (c : A.Command) :
    ∃ s t, ReturnsOk A 0 (oneAccepted db c) s t ∧ Waited 0 s := by
  have h₀ : (system A).Run ((oneAccepted db c).setCloser 0 .called) _ := .refl
  have h₁ := h₀.tail (.swap 0 rfl rfl)
  have h₂ := h₁.tail (.takeSender 0 rfl rfl)
  have h₃ := h₂.tail (.thread (.receive rfl rfl))
  have h₄ := h₃.tail (.thread (.execute A.noFaults rfl))
  have h₅ := h₄.tail (.thread (.answer rfl))
  have h₆ := h₅.tail (.send 0 rfl nofun A.capacity_pos)
  have h₇ := h₆.tail (.thread (.receiveShutdown rfl rfl))
  have h₈ := h₇.tail (.thread (.acknowledge rfl))
  have h₉ := h₈.tail (.close 0 (.acknowledged rfl))
  have h₁₀ := h₉.tail (.takeJoin 0 rfl rfl)
  have h₁₁ := h₁₀.tail (.thread (.stop rfl))
  exact ⟨_, _, ⟨oneAccepted_reachable db c, rfl, rfl, h₁₁, .close 0 (.joined rfl), nofun, rfl⟩, .inl rfl⟩

/-- The same worker after close 0 has set the flag. -/
def flagSet (db : A.Db) (c : A.Command) : State A :=
  { ((oneAccepted db c).setCloser 0 .called).setCloser 0 .first with closed := true, initiator := some 0 }

theorem flagSet_reachable (db : A.Db) (c : A.Command) : (system A).Reachable (flagSet db c) :=
  ((oneAccepted_reachable db c).next (.close 0 (.call rfl))).next (.swap 0 rfl rfl)

theorem undrained_of_queued {s₀ t : State A} {c : A.Command} (henqueued : s₀.enqueued = [.command 0 c])
    (hexecuted : t.executed = []) : ¬ Drained s₀ t := by
  intro hdrained
  obtain ⟨e, he, -⟩ := hdrained.1 0 c (henqueued ▸ List.mem_singleton_self _)
  rw [hexecuted] at he
  exact List.not_mem_nil he

/-- A close that finds the flag set, and, where the adapter looks at it, the join
handle taken, returns `Ok` while the command is still in the queue. -/
theorem later_close_returns (db : A.Db) (c : A.Command) : ¬ ClosesDrained A := by
  intro hall
  have hfound : ∀ (s : State A) j, s.closed = true → s.closer j = .called →
      CloserStep s j (s.closer j) (Closer.afterClosed A) := by
    intro s j hclosed hj
    rw [hj]
    exact .alreadyClosed hclosed
  cases hreturns : A.returnsIfClosed with
  | true =>
    have hafter : Closer.afterClosed A = .returned (.ok ()) := by
      rw [Closer.afterClosed, hreturns]
      rfl
    rw [hafter] at hfound
    exact undrained_of_queued rfl rfl (hall 1 _ _ _
      ⟨flagSet_reachable db c, rfl, rfl, .refl, .close 1 (hfound _ 1 rfl rfl), nofun, rfl⟩)
  | false =>
    have hafter : Closer.afterClosed A = .joining := by
      rw [Closer.afterClosed, hreturns]
      rfl
    rw [hafter] at hfound
    have h₁ := (flagSet_reachable db c).next (.close 1 (.call rfl))
    have h₂ := h₁.next (.close 1 (hfound _ 1 rfl rfl))
    have h₃ := h₂.next (.takeJoin 1 rfl rfl)
    exact undrained_of_queued rfl rfl (hall 2 _ _ _
      ⟨h₃, rfl, rfl, .tail .refl (.close 2 (hfound _ 2 rfl rfl)), .close 2 (.noJoin rfl), nofun, rfl⟩)

end Samples

/-- The database that the first open of the sample file creates. -/
def sampleDb : EventStore.Db :=
  (EventStore.initializeConnection EventStore.Faults.none EventStore.sampleHandle.physicalStoreId
    EventStore.emptyDb).2

theorem closes_drain_iff_waited_sample :
    (∃ s₀ s t, ReturnsOk (EventStore.adapter Storage.textKernel EventStore.sampleHandle ⟨256, by decide⟩)
      0 s₀ s t ∧ Drained s₀ t) ∧
    (∃ s₀ s t, ReturnsOk (AssetStore.adapter AssetStore.textAssets ⟨256, by decide⟩) 0 s₀ s t ∧
      Drained s₀ t) ∧
    ∃ s₀ s t, ReturnsOk (Catalog.adapter Catalog.textCatalog ⟨256, by decide⟩) 0 s₀ s t ∧ Drained s₀ t := by
  obtain ⟨hevents, hassets, hcatalog⟩ := closes_drain_iff_waited Storage.textKernel EventStore.sampleHandle
    AssetStore.textAssets Catalog.textCatalog ⟨256, by decide⟩
  obtain ⟨s, t, hr, hw⟩ := first_close_returns (A := EventStore.adapter _ EventStore.sampleHandle _) sampleDb
    (.append (EventStore.sampleEvent "99999999-event"))
  obtain ⟨s', t', hr', hw'⟩ :=
    first_close_returns (A := AssetStore.adapter AssetStore.textAssets _) (∅ : AssetStore.AssetTable)
      (.lookup "aaaaaaaa-asset")
  obtain ⟨s'', t'', hr'', hw''⟩ := first_close_returns (A := Catalog.adapter Catalog.textCatalog _)
    (Catalog.Tables.empty Catalog.textCatalog) (.publishDocument Catalog.sampleComposition)
  exact ⟨⟨_, s, t, hr, (hevents 0 _ s t hr).mpr ⟨noneBehind_oneAccepted _ _, hw⟩⟩,
    ⟨_, s', t', hr', (hassets 0 _ s' t' hr').mpr ⟨noneBehind_oneAccepted _ _, hw'⟩⟩,
    ⟨_, s'', t'', hr'', (hcatalog 0 _ s'' t'' hr'').mpr ⟨noneBehind_oneAccepted _ _, hw''⟩⟩⟩

/-- In each store a second or third close returns `Ok` with a command still queued. -/
theorem later_close_returns_undrained :
    ¬ ClosesDrained (EventStore.adapter Storage.textKernel EventStore.sampleHandle ⟨256, by decide⟩) ∧
      ¬ ClosesDrained (AssetStore.adapter AssetStore.textAssets ⟨256, by decide⟩) ∧
        ¬ ClosesDrained (Catalog.adapter Catalog.textCatalog ⟨256, by decide⟩) :=
  ⟨later_close_returns (A := EventStore.adapter _ EventStore.sampleHandle _) sampleDb
      (.append (EventStore.sampleEvent "99999999-event")),
    later_close_returns (A := AssetStore.adapter AssetStore.textAssets _) (∅ : AssetStore.AssetTable)
      (.lookup "aaaaaaaa-asset"),
    later_close_returns (A := Catalog.adapter Catalog.textCatalog _) (Catalog.Tables.empty Catalog.textCatalog)
      (.publishDocument Catalog.sampleComposition)⟩

end OrbitRelay
