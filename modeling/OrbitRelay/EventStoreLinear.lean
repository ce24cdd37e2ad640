import OrbitRelay.EventStorePaging
import OrbitRelay.StoreWorkers
import OrbitRelay.WorkerLinear

/-!
# The EventStore is one log for all its callers

What an append-only log answers to each command, and that the store behind its
worker, called from any number of tasks at once, cannot be told apart from it.
-/
namespace OrbitRelay.EventStore

open Codec Relational Storage Transition Linearization

variable {K : Kernel}

def Command.failed (error : StorageError K) : Command K → Reply K
  | .captureCheckpoint => .checkpoint (.error error)
  | .append _ => .stored (.error error)
  | .get _ => .found (.error error)
  | .query _ => .page (.error error)

/-- The log can serve the query: its tokens are this store's own and lie within the log. -/
structure Serves (h : Handle K) (log : List (Event K)) (q : EventQuery K) (start upper : Nat) : Prop where
  valid : K.validate q.filter q.limit = .ok ()
  bound : queryUpperBound h log.length q.upperBound = .ok upper
  bound_le : upper ≤ log.length
  after : queryStart h q.afterCursor = .ok start
  after_le : start ≤ upper

/-- The errors a command may end with; none of them has an effect. -/
inductive Unserved (h : Handle K) (log : List (Event K)) : Command K → StorageError K → Prop
  | sqlite {c : Command K} (site : Call) (error : SqliteError) : Unserved h log c (site.report error)
  | payload {e : Event K} : K.payload.print e.payload = none →
      Unserved h log (.append e) (failure "event payload serialization failed")
  | metadata {e : Event K} : K.metadata.print e.metadata = none →
      Unserved h log (.append e) (failure "event metadata serialization failed")
  | timestamp {e : Event K} : K.timestamp.print e.occurredAt = none →
      Unserved h log (.append e) (failure "event timestamp serialization failed")
  | conflict {e x : Event K} : x ∈ log → x.id = e.id → x ≠ e → Unserved h log (.append e) (.eventConflict e.id)
  | query {q : EventQuery K} {error : StorageError K} : (∀ start upper, ¬ Serves h log q start upper) →
      Unserved h log (.query q) error

/-- An append-only log as a sequential object. -/
inductive LogStep (h : Handle K) : List (Event K) → Command K → Reply K → List (Event K) → Prop
  | checkpoint {log : List (Event K)} : LogStep h log .captureCheckpoint
      (.checkpoint (.ok (K.checkpointFor h.physicalStoreId h.continuationEpoch log.length))) log
  | appended {log : List (Event K)} {e : Event K} : (∀ x ∈ log, x.id ≠ e.id) →
      LogStep h log (.append e) (.stored (.ok (storedAt h (e, log.length)))) (log ++ [e])
  | present {log : List (Event K)} {e : Event K} {i : Nat} : log[i]? = some e →
      LogStep h log (.append e) (.stored (.ok (storedAt h (e, i)))) log
  | found {log : List (Event K)} {e : Event K} {i : Nat} : log[i]? = some e →
      LogStep h log (.get e.id) (.found (.ok (some (storedAt h (e, i))))) log
  | absent {log : List (Event K)} {id : K.EventId} : (∀ e ∈ log, e.id ≠ id) →
      LogStep h log (.get id) (.found (.ok none)) log
  | page {log : List (Event K)} {q : EventQuery K} {start upper : Nat} : Serves h log q start upper →
      LogStep h log (.query q) (.page (.ok (pageOf h q.limit (window q.filter start upper log)))) log
  | unserved {log : List (Event K)} {c : Command K} {error : StorageError K} : Unserved h log c error →
      LogStep h log c (c.failed error) log

variable {t : EventTable} {log : List (Event K)} {f : Faults} {h : Handle K} {q : EventQuery K}

theorem scanRows_fault {filter : EventFilter K} {limit index : Nat} {rows : List StoredRow}
    {acc : List (StoredEvent K)} {error : StorageError K}
    (hrows : ∀ row ∈ rows, ∃ i e, decodeRow row = .ok (i, (e : Event K)) ∧ i ≤ MachineInt.i64Max)
    (he : scanRows f h filter limit index rows acc = .error error) :
    ∃ (c : Call) (e : SqliteError), error = c.report e := by
  induction rows generalizing index acc with
  | nil => cases he
  | cons row rows ih =>
    obtain ⟨i, e, hd, hi⟩ := hrows row List.mem_cons_self
    have hrest := fun r hr => hrows r (List.mem_cons_of_mem row hr)
    rcases sqlite_cases K f (.row index) with ⟨err, -, hs⟩ | hs
    · simp only [scanRows, hs, error_bind, Except.error.injEq] at he
      exact ⟨_, err, he.symm⟩
    · simp only [scanRows, hs, hd, ok_bind, storedEvent_eq h e hi] at he
      split at he
      · exact ih hrest he
      · split at he
        · cases he
        · exact ih hrest he

/-- A query that the log can serve fails only if SQLite does. -/
theorem Represents.queryEvents_fault (hr : Represents t log) {start upper : Nat} (hserves : Serves h log q start upper)
    {error : StorageError K} (he : queryEvents f h q t = .error error) :
    ∃ (c : Call) (e : SqliteError), error = c.report e := by
  have hle := hr.length_le
  have hupper := hserves.bound_le
  have hstart := hserves.after_le
  unfold queryEvents at he
  rw [hserves.valid, ok_bind, hr.currentCount_eq] at he
  rcases sqlite_cases K f .sequenceRead with ⟨e, -, hs⟩ | hs
  · simp only [hs, error_bind, Except.error.injEq] at he
    exact ⟨_, e, he.symm⟩
  rw [hs, ok_bind, ok_bind, hserves.bound, ok_bind, if_neg (by omega), hserves.after, ok_bind,
    if_neg (by omega), MachineInt.toI64_of_le (show start ≤ MachineInt.i64Max by omega),
    MachineInt.toI64_of_le (show upper ≤ MachineInt.i64Max by omega)] at he
  simp only [okOr_some, ok_bind] at he
  rcases sqlite_cases K f .queryPreparation with ⟨e, -, hs⟩ | hs
  · simp only [hs, error_bind, Except.error.injEq] at he
    exact ⟨_, e, he.symm⟩
  rw [hs, ok_bind] at he
  rcases sqlite_cases K f .query with ⟨e, -, hs⟩ | hs
  · simp only [hs, error_bind, Except.error.injEq] at he
    exact ⟨_, e, he.symm⟩
  rw [hs, ok_bind] at he
  cases hscan : scanRows f h q.filter q.limit 0 (t.ordered.filter (rowSelected q.filter start upper)) [] with
  | ok p => simp [hscan] at he
  | error e =>
    simp only [hscan, error_bind, Except.error.injEq] at he
    rw [← he]
    refine scanRows_fault ?_ hscan
    intro row hrow
    obtain ⟨i, x, -, hd, hi⟩ := hr.readable ((mem_orderBy _).mp (List.mem_filter.mp hrow).1)
    exact ⟨i, x, hd, hi⟩

theorem Represents.queryEvents_serves (hr : Represents t log) {page : EventPage K}
    (hok : queryEvents f h q t = .ok page) : ∃ start upper, Serves h log q start upper := by
  unfold queryEvents at hok
  obtain ⟨⟨⟩, hv, hok⟩ := bind_ok hok
  obtain ⟨count, hcount, hok⟩ := bind_ok hok
  obtain ⟨upper, hupper, hok⟩ := bind_ok hok
  rw [hr.currentCount_eq] at hcount
  obtain ⟨-, -, hcount⟩ := bind_ok hcount
  cases hcount
  split at hok
  · cases hok
  rename_i hbeyond
  obtain ⟨start, hstart, hok⟩ := bind_ok hok
  split at hok
  · cases hok
  rename_i hcursor
  exact ⟨start, upper, hv, hupper, by omega, hstart, by omega⟩

theorem Represents.queryEvents_step (hr : Represents t log) (f : Faults) (h : Handle K) (q : EventQuery K) :
    LogStep h log (.query q) (.page (queryEvents f h q t)) log := by
  cases hq : queryEvents f h q t with
  | ok page =>
    obtain ⟨start, upper, hserves⟩ := hr.queryEvents_serves hq
    have hpage := hr.queryEvents_eq hserves.valid hserves.bound hserves.bound_le hserves.after hserves.after_le
    rw [hr.queryEvents_faultless hq] at hpage
    rw [hpage]
    exact .page hserves
  | error error =>
    refine .unserved (c := .query q) ?_
    by_cases hserves : ∃ start upper, Serves h log q start upper
    · obtain ⟨start, upper, hserves⟩ := hserves
      obtain ⟨c, e, rfl⟩ := hr.queryEvents_fault hserves hq
      exact .sqlite c e
    · exact .query fun start upper hs => hserves ⟨start, upper, hs⟩

theorem AppendFault.unserved {e : Event K} {error : StorageError K} (hf : AppendFault f e t error) :
    Unserved h log (.append e) error := by
  cases hf with
  | sqlite c error _ => exact .sqlite c error
  | payload hp => exact .payload hp
  | metadata hm => exact .metadata hm
  | timestamp ht => exact .timestamp ht
  | full _ => exact .sqlite .insert .full

/-- Every command is answered as the log answers it, and leaves the log that it would leave. -/
theorem execute_logStep {db : Db} (hr : Represents db.events log) (f : Faults) (h : Handle K) (c : Command K) :
    ∃ log', LogStep h log c (execute f h db c).1 log' ∧ Represents (execute f h db c).2.events log' := by
  cases c with
  | captureCheckpoint =>
    refine ⟨log, ?_, hr⟩
    show LogStep h log .captureCheckpoint (.checkpoint (captureCheckpoint f h db.events)) log
    rw [captureCheckpoint, hr.currentCount_eq]
    rcases sqlite_cases K f .sequenceRead with ⟨e, -, hs⟩ | hs
    · rw [hs]
      exact .unserved (c := .captureCheckpoint) (.sqlite .sequenceRead e)
    · rw [hs]
      exact .checkpoint
  | append e =>
    have ho := appendEvent_outcome hr f h e
    show ∃ log', LogStep h log (.append e) (.stored (appendEvent f h e db.events).1) log' ∧
      Represents (appendEvent f h e db.events).2 log'
    generalize appendEvent f h e db.events = out at ho
    cases ho with
    | fault error hf => exact ⟨log, .unserved (c := .append e) hf.unserved, hr⟩
    | existing i hi => exact ⟨log, .present hi, hr⟩
    | conflict i x hi hid hne =>
      exact ⟨log, .unserved (c := .append e) (.conflict (List.mem_of_getElem? hi) hid hne), hr⟩
    | added u r hnew _ hu => exact ⟨log ++ [e], .appended hnew, hu⟩
  | get id =>
    refine ⟨log, ?_, hr⟩
    show LogStep h log (.get id) (.found (getEvent f h id db.events)) log
    rcases hr.getEvent_eq f h id with ⟨e, -, hget⟩ | ⟨i, e, hi, rfl, hget⟩ | ⟨hnew, hget⟩
    · rw [hget]
      exact .unserved (c := .get id) (.sqlite .lookup e)
    · rw [hget]
      exact .found hi
    · rw [hget]
      exact .absent hnew
  | query q => exact ⟨log, hr.queryEvents_step f h q, hr⟩

/-- However its callers overlap, the store behind its worker is linearizable as the
append-only log of the events it holds. -/
theorem eventStore_linearizable (K : Kernel) (h : Handle K) (capacity : QueueCapacity) {f : Faults}
    {fresh : K.EntityId} {db₀ db : Db} (hopen : initializeConnection f fresh db₀ = (.ok h.physicalStoreId, db))
    {s : Worker.State (adapter K h capacity)}
    (hrun : (Worker.system (adapter K h capacity)).Run (Worker.opened db) s) :
    ∃ log log' : List (Event K), Represents db.events log ∧ Represents s.db.events log' ∧
      Linearizes (Worker.system (adapter K h capacity)) Worker.State.view (LogStep h) (Worker.opened db) s log
        s.effects log' := by
  obtain ⟨-, -, log, hlog⟩ := initializeConnection_ok hopen
  have hrefines : ∀ (db : Db) (log : List (Event K)) (c : Command K) (r : Reply K) (db' : Db),
      Represents db.events log → (∃ faults, execute faults h db c = (r, db')) →
      ∃ log', LogStep h log c r log' ∧ Represents db'.events log' := by
    rintro db log c r db' hr ⟨faults, hexec⟩
    obtain ⟨log', hstep, hr'⟩ := execute_logStep hr faults h c
    rw [hexec] at hstep hr'
    exact ⟨log', hstep, hr'⟩
  obtain ⟨log', hlin, hlog'⟩ := (Worker.run_linearizes hrun).refine hrefines hlog
  exact ⟨log, log', hlog, hlog', hlin⟩

/-- Two dispatches that overlap: both are in the queue before either is executed. -/
theorem eventStore_linearizable_sample :
    ∃ (s : Worker.State (adapter textKernel sampleHandle ⟨256, by decide⟩)) (log log' : List (Event textKernel)),
      s.effects.length = 2 ∧ Represents sampleDb.events log ∧ Represents s.db.events log' ∧
      Linearizes (Worker.system _) Worker.State.view (LogStep sampleHandle) (Worker.opened sampleDb) s log
        s.effects log' := by
  have h₀ : (Worker.system (adapter textKernel sampleHandle ⟨256, by decide⟩)).Run (Worker.opened sampleDb) _ :=
    .refl
  have h₁ := h₀.tail (.dispatch 0 (.call (Command.append (sampleEvent "99999999-event")) rfl))
  have h₂ := h₁.tail (.dispatch 1 (.call Command.captureCheckpoint rfl))
  have h₃ := h₂.tail (.dispatch 1 (.check rfl))
  have h₄ := h₃.tail (.dispatch 1 (.clone rfl))
  have h₅ := h₄.tail (.enqueue 1 rfl (fun h => by cases h) (by decide))
  have h₆ := h₅.tail (.dispatch 0 (.check rfl))
  have h₇ := h₆.tail (.dispatch 0 (.clone rfl))
  have h₈ := h₇.tail (.enqueue 0 rfl (fun h => by cases h) (by decide))
  have h₉ := h₈.tail (.thread (.receive rfl rfl))
  have h₁₀ := h₉.tail (.thread (.execute Faults.none rfl))
  have h₁₁ := h₁₀.tail (.thread (.answer rfl))
  have h₁₂ := h₁₁.tail (.thread (.receive rfl rfl))
  have h₁₃ := h₁₂.tail (.thread (.execute Faults.none rfl))
  have hopen : initializeConnection Faults.none sampleHandle.physicalStoreId emptyDb =
      (.ok sampleHandle.physicalStoreId, sampleDb) := rfl
  obtain ⟨log, log', hlog, hlog', hlin⟩ :=
    eventStore_linearizable textKernel sampleHandle ⟨256, by decide⟩ hopen h₁₃
  exact ⟨_, log, log', rfl, hlog, hlog', hlin⟩

end OrbitRelay.EventStore
