import OrbitRelay.EventStoreLog
import OrbitRelay.Transition

/-!
# Runs of the EventStore

The worker's commands and the opens and closes around them, as steps on the
database file. Each step keeps the file a log that the next open accepts, so a
run of any length is an append-only log.
-/
namespace OrbitRelay.EventStore

open Codec MachineInt Relational Storage

variable {K : Kernel}

/-- The metadata rows that a later open accepts, with the identity it will find. -/
structure Ready (id : K.EntityId) (db : Db) : Prop where
  version : ∃ v, db.metadataOf "schema_version" = some v ∧ parseI64 v = some supportedSchemaVersion
  identity : db.metadataOf "physical_store_id" = some (K.entityId.text id)

theorem insertMetadata_ok {f : Faults} {db db' : Db} {key value : String}
    (h : insertMetadata (K := K) f db key value = .ok db') :
    db'.events = db.events ∧ db'.metadataOf key = some value ∧
      ∀ other, other ≠ key → db'.metadataOf other = db.metadataOf other := by
  unfold insertMetadata at h
  obtain ⟨-, -, h⟩ := bind_ok h
  split at h
  · cases h
  rename_i t ht
  cases h
  obtain ⟨hclash, hrows⟩ := Table.insert_ok_iff.mp ht
  have hnone : db.metadata.rows.find? (fun row => row.1 == key) = none := by
    rw [List.find?_eq_none]
    intro row hrow
    simpa [metadataClash] using hclash row hrow
  refine ⟨rfl, ?_, ?_⟩
  · simp [Db.metadataOf, hrows, List.find?_append, hnone]
  · intro other hne
    have hkey : ¬ key = other := fun h => hne h.symm
    simp [Db.metadataOf, hrows, List.find?_append, hkey]

theorem checkSchemaVersion_ok {f : Faults} {db db' : Db}
    (h : checkSchemaVersion (K := K) f db = .ok db') :
    db'.events = db.events ∧
    (∃ v, db'.metadataOf "schema_version" = some v ∧ parseI64 v = some supportedSchemaVersion) ∧
    db'.metadataOf "physical_store_id" = db.metadataOf "physical_store_id" := by
  unfold checkSchemaVersion at h
  obtain ⟨value, hv, h⟩ := bind_ok h
  obtain ⟨-, -, hv⟩ := bind_ok hv
  simp only [Except.ok.injEq] at hv
  subst hv
  cases hm : db.metadataOf "schema_version" with
  | none =>
    rw [hm] at h
    obtain ⟨he, hk, ho⟩ := insertMetadata_ok h
    exact ⟨he, ⟨"1", hk, by decide⟩, ho _ (by decide)⟩
  | some v =>
    rw [hm] at h
    obtain ⟨parsed, hp, h⟩ := bind_ok h
    split at h
    · rename_i heq
      cases h
      exact ⟨rfl, ⟨v, hm, by rw [okOr_eq_ok.mp hp, heq]⟩, rfl⟩
    · cases h

theorem physicalStoreId_ok {f : Faults} {fresh id : K.EntityId} {db db' : Db}
    (h : physicalStoreId f fresh db = .ok (id, db')) :
    db'.events = db.events ∧ db'.metadataOf "physical_store_id" = some (K.entityId.text id) ∧
    db'.metadataOf "schema_version" = db.metadataOf "schema_version" := by
  unfold physicalStoreId at h
  obtain ⟨value, hv, h⟩ := bind_ok h
  obtain ⟨-, -, hv⟩ := bind_ok hv
  simp only [Except.ok.injEq] at hv
  subst hv
  cases hm : db.metadataOf "physical_store_id" with
  | some v =>
    rw [hm] at h
    obtain ⟨x, hx, h⟩ := bind_ok h
    cases h
    rw [okOr_eq_ok, TextForm.parse_eq_some_iff] at hx
    exact ⟨rfl, hx ▸ hm, rfl⟩
  | none =>
    rw [hm] at h
    obtain ⟨db₁, hins, h⟩ := bind_ok h
    cases h
    obtain ⟨he, hk, ho⟩ := insertMetadata_ok hins
    exact ⟨he, hk, ho _ (by decide)⟩

/-- A successful open leaves the events alone and has checked everything a later open checks. -/
theorem initializeConnection_ok {f : Faults} {fresh id : K.EntityId} {db db' : Db}
    (h : initializeConnection f fresh db = (.ok id, db')) :
    db'.events = db.events ∧ Ready id db' ∧ ∃ log : List (Event K), Represents db'.events log := by
  unfold initializeConnection at h
  split at h
  · cases h
  split at h
  · cases h
  rename_i db₁ h₁
  split at h
  · cases h
  rename_i id₂ db₂ h₂
  split at h
  · cases h
  rename_i hgate
  cases h
  obtain ⟨he₁, ⟨v, hv, hp⟩, -⟩ := checkSchemaVersion_ok h₁
  obtain ⟨he₂, hid, hver⟩ := physicalStoreId_ok h₂
  obtain ⟨-, -, hverify⟩ := bind_ok hgate
  exact ⟨he₂.trans he₁, ⟨⟨v, hver ▸ hv, hp⟩, hid⟩, verifyAllEvents_represents hverify⟩

theorem Ready.checkSchemaVersion_eq {id : K.EntityId} {db : Db} (h : Ready id db) (f : Faults) :
    checkSchemaVersion (K := K) f db =
      (do sqlite f (.metadataRead "schema_version"); .ok db) := by
  obtain ⟨v, hv, hp⟩ := h.version
  simp only [checkSchemaVersion, metadataValue, hv]
  rcases sqlite_cases K f (.metadataRead "schema_version") with ⟨e, -, hs⟩ | hs
  · simp [hs]
  · simp [hs, hp]

theorem Ready.physicalStoreId_eq {id : K.EntityId} {db : Db} (h : Ready id db) (f : Faults)
    (fresh : K.EntityId) : physicalStoreId f fresh db =
      (do sqlite f (.metadataRead "physical_store_id"); .ok (id, db)) := by
  simp only [physicalStoreId, metadataValue, h.identity]
  rcases sqlite_cases K f (.metadataRead "physical_store_id") with ⟨e, -, hs⟩ | hs
  · simp [hs]
  · simp [hs]

theorem ready_createSchema {id : K.EntityId} {db : Db} (h : Ready id db) :
    Ready id (createSchema db) := ⟨h.version, h.identity⟩

/-- Opening a database that an earlier open accepted writes no row, and if it
succeeds it finds the same identity. -/
theorem ready_initializeConnection {id : K.EntityId} {db : Db} (h : Ready id db) (f : Faults)
    (fresh : K.EntityId) :
    ((initializeConnection f fresh db).2 = db ∨ (initializeConnection f fresh db).2 = createSchema db) ∧
    ∀ id', (initializeConnection f fresh db).1 = .ok id' → id' = id := by
  unfold initializeConnection
  rw [(ready_createSchema h).checkSchemaVersion_eq]
  cases openConnection (K := K) f with
  | error e => simp
  | ok u =>
    rcases sqlite_cases K f (.metadataRead "schema_version") with ⟨e, -, hs⟩ | hs
    · simp [hs]
    · simp only [hs, ok_bind, (ready_createSchema h).physicalStoreId_eq]
      rcases sqlite_cases K f (.metadataRead "physical_store_id") with ⟨e, -, hs⟩ | hs
      · simp [hs]
      · simp only [hs, ok_bind]
        split <;> simp

theorem ready_reopen {id : K.EntityId} {db : Db} {log : List (Event K)} (h : Ready id db)
    (hr : Represents db.events log) (fresh : K.EntityId) :
    initializeConnection Faults.none fresh db = (.ok id, createSchema db) := by
  have hv : verifyAllEvents K Faults.none (createSchema db).events = .ok () :=
    hr.verifyAllEvents_eq
  simp [initializeConnection, openConnection, (ready_createSchema h).checkSchemaVersion_eq,
    (ready_createSchema h).physicalStoreId_eq, hv]

/-- The database file and, while a worker runs, its handle. -/
structure Store (K : Kernel) where
  db : Db
  handle : Option (Handle K)

/-- Commands of the worker, and the ends and starts of its life. A close and a
process stop leave the same file behind. -/
inductive Step : Store K → Store K → Prop where
  | command (f : Faults) (h : Handle K) (db : Db) (c : Command K) :
      Step ⟨db, some h⟩ ⟨(execute f h db c).2, some h⟩
  | close (h : Handle K) (db : Db) : Step ⟨db, some h⟩ ⟨db, none⟩
  | reopen (f : Faults) (fresh epoch id : K.EntityId) (db db' : Db) :
      initializeConnection f fresh db = (.ok id, db') → Step ⟨db, none⟩ ⟨db', some ⟨id, epoch⟩⟩
  | refused (f : Faults) (fresh : K.EntityId) (error : StorageError K) (db db' : Db) :
      initializeConnection f fresh db = (.error error, db') → Step ⟨db, none⟩ ⟨db', none⟩

/-- Runs start with any file that an open accepts. -/
def system (K : Kernel) : Transition.System (Store K) where
  init s := ∃ (f : Faults) (fresh epoch id : K.EntityId) (db₀ : Db),
    initializeConnection f fresh db₀ = (.ok id, s.db) ∧ s.handle = some ⟨id, epoch⟩
  step := Step

/-- What every command and every open keeps. -/
def StoreInvariant (s : Store K) : Prop :=
  ∃ (log : List (Event K)) (id : K.EntityId), Represents s.db.events log ∧ Ready id s.db ∧
    ∀ h, s.handle = some h → h.physicalStoreId = id

theorem execute_metadata (f : Faults) (h : Handle K) (db : Db) (c : Command K) (key : String) :
    (execute f h db c).2.metadataOf key = db.metadataOf key := by
  cases c <;> rfl

/-- What a command leaves in the table: the same log, or one more event at its end. -/
theorem execute_events {db : Db} {log : List (Event K)} (hr : Represents db.events log) (f : Faults)
    (h : Handle K) (c : Command K) :
    (execute f h db c).2.events = db.events ∨
    ∃ e r, c = .append e ∧ (execute f h db c).2.events.rows = db.events.rows ++ [r] ∧
      Represents (execute f h db c).2.events (log ++ [e]) := by
  cases c with
  | captureCheckpoint => exact .inl rfl
  | get id => exact .inl rfl
  | query q => exact .inl rfl
  | append e =>
    have ho := appendEvent_outcome hr f h e
    have hx : (execute f h db (.append e)).2.events = (appendEvent f h e db.events).2 := rfl
    rw [hx]
    generalize appendEvent f h e db.events = out at ho
    cases ho with
    | fault error hf => exact .inl rfl
    | existing i hi => exact .inl rfl
    | conflict i x hi hid hne => exact .inl rfl
    | added u r hnew hrows hu => exact .inr ⟨e, r, rfl, hrows, hu⟩

theorem step_invariant (s t : Store K) (hs : StoreInvariant s) (h : Step s t) : StoreInvariant t := by
  obtain ⟨log, id, hr, hready, hid⟩ := hs
  cases h with
  | command f hd db c =>
    have hready' : Ready id (execute f hd db c).2 := by
      constructor
      · simpa only [execute_metadata] using hready.version
      · simpa only [execute_metadata] using hready.identity
    rcases execute_events hr f hd c with heq | ⟨e, r, -, -, hlog⟩
    · exact ⟨log, id, heq ▸ hr, hready', hid⟩
    · exact ⟨log ++ [e], id, hlog, hready', hid⟩
  | close hd db => exact ⟨log, id, hr, hready, by simp⟩
  | reopen f fresh epoch id' db db' hopen =>
    obtain ⟨he, hready', log', hlog'⟩ := initializeConnection_ok hopen
    exact ⟨log', id', hlog', hready', by rintro h hh; cases hh; rfl⟩
  | refused f fresh error db db' hopen =>
    have hdb := (ready_initializeConnection hready f fresh).1
    rw [hopen] at hdb
    rcases hdb with rfl | rfl
    · exact ⟨log, id, hr, hready, by simp⟩
    · exact ⟨log, id, hr, ready_createSchema hready, by simp⟩

theorem reachable_invariant {s : Store K} (h : (system K).Reachable s) : StoreInvariant s := by
  refine Transition.System.invariant ?_ step_invariant h
  rintro ⟨db, handle⟩ ⟨f, fresh, epoch, id, db₀, hopen, rfl⟩
  obtain ⟨-, hready, log, hlog⟩ := initializeConnection_ok hopen
  exact ⟨log, id, hlog, hready, by rintro h hh; cases hh; rfl⟩

/-- Nothing that was stored is changed or removed, neither rows nor events. -/
structure Extends (s t : Store K) : Prop where
  rows : s.db.events.rows <+: t.db.events.rows
  log : ∀ log : List (Event K), Represents s.db.events log →
    ∃ later, Represents t.db.events (log ++ later)

theorem Extends.of_eq {s t : Store K} (h : t.db.events = s.db.events) : Extends s t where
  rows := h ▸ List.prefix_refl _
  log := fun log hr => ⟨[], by rw [h, List.append_nil]; exact hr⟩

theorem Extends.trans {s t u : Store K} (h : Extends s t) (h' : Extends t u) : Extends s u where
  rows := h.rows.trans h'.rows
  log := by
    intro log hr
    obtain ⟨mid, hmid⟩ := h.log log hr
    obtain ⟨later, hlater⟩ := h'.log _ hmid
    exact ⟨mid ++ later, by rwa [List.append_assoc] at hlater⟩

/-- A step only ever adds behind what is there. -/
theorem step_extends (s t : Store K) (hs : StoreInvariant s) (h : Step s t) : Extends s t := by
  obtain ⟨log, id, hr, hready, -⟩ := hs
  cases h with
  | command f hd db c =>
    rcases execute_events hr f hd c with heq | ⟨e, r, -, hrows, hlog⟩
    · exact .of_eq heq
    · refine ⟨hrows ▸ List.prefix_append _ _, ?_⟩
      intro log' hr'
      rw [Represents.unique hr' hr]
      exact ⟨[e], hlog⟩
  | close hd db => exact .of_eq rfl
  | reopen f fresh epoch id' db db' hopen => exact .of_eq (initializeConnection_ok hopen).1
  | refused f fresh error db db' hopen =>
    have hdb := (ready_initializeConnection hready f fresh).1
    rw [hopen] at hdb
    rcases hdb with rfl | rfl
    · exact .of_eq rfl
    · exact .of_eq rfl

theorem run_extends {s t : Store K} (hs : StoreInvariant s) (h : (system K).Run s t) : Extends s t :=
  Transition.System.run_related (S := system K) (P := StoreInvariant) (R := Extends) step_invariant
    (fun _ => .of_eq rfl) (fun _ _ _ => Extends.trans) step_extends hs h

/-- A file that holds a log and answers every command as that log would. The
only other errors are those of SQLite, of the serialiser, and of a full disk. -/
structure AppendOnlyLog (db : Db) (log : List (Event K)) : Prop where
  decoded : Represents db.events log
  sequences : db.events.ordered.map StoredRow.appendSequence =
    (List.range db.events.rows.length).map Nat.cast
  row_ids : (db.events.rows.map StoredRow.eventId).Nodup
  ids : (log.map Event.id).Nodup
  decodes : ∀ row ∈ db.events.rows, ∃ p, decodeRow (K := K) row = .ok p
  append_existing : ∀ (f : Faults) (h : Handle K) e i, (∀ error, ¬ AppendFault f e db.events error) → log[i]? = some e →
    appendEvent f h e db.events =
      (.ok ⟨K.cursorFor h.physicalStoreId h.continuationEpoch (i + 1), e⟩, db.events)
  append_conflict : ∀ (f : Faults) (h : Handle K) e x, (∀ error, ¬ AppendFault f e db.events error) → x ∈ log →
    x.id = e.id → x ≠ e → appendEvent f h e db.events = (.error (.eventConflict e.id), db.events)
  append_new : ∀ (f : Faults) (h : Handle K) e, (∀ error, ¬ AppendFault f e db.events error) → (∀ x ∈ log, x.id ≠ e.id) →
    ∃ events, Represents events (log ++ [e]) ∧ appendEvent f h e db.events =
      (.ok ⟨K.cursorFor h.physicalStoreId h.continuationEpoch (log.length + 1), e⟩, events)
  append_error : ∀ (f : Faults) (h : Handle K) e error, (appendEvent f h e db.events).1 = .error error →
    (appendEvent f h e db.events).2 = db.events ∧
    (AppendFault f e db.events error ∨ error = .eventConflict e.id)
  get_stored : ∀ h i e, log[i]? = some e → getEvent Faults.none h e.id db.events =
    .ok (some ⟨K.cursorFor h.physicalStoreId h.continuationEpoch (i + 1), e⟩)
  get_absent : ∀ h id, (∀ e ∈ log, e.id ≠ id) → getEvent Faults.none h id db.events = .ok none
  get_error : ∀ (f : Faults) (h : Handle K) id error, getEvent f h id db.events = .error error →
    ∃ e, f .lookup = some e ∧ error = Call.lookup.report e
  query_error : ∀ (f : Faults) (h : Handle K) q error, queryEvents f h q db.events = .error error → ReadFault f error
  verified : verifyAllEvents K Faults.none db.events = .ok ()

theorem Decodes.map_sequence {n : Nat} {rows : List StoredRow} {log : List (Event K)}
    (h : Decodes K n rows log) :
    rows.map StoredRow.appendSequence = (List.range' n rows.length).map Nat.cast := by
  induction rows generalizing n log with
  | nil => rfl
  | cons row rows ih =>
    cases log with
    | nil => exact h.elim
    | cons e log =>
      simp only [List.map_cons, List.length_cons, List.range'_succ, ih h.2, (decodeRow_eq_ok.mp h.1).1]

theorem Represents.row_ids {t : EventTable} {log : List (Event K)} (h : Represents t log) :
    (t.rows.map StoredRow.eventId).Nodup := by
  have hordered : (t.ordered.map StoredRow.eventId).Nodup := by
    rw [Decodes.map_eventId h]
    have hids := h.ids_nodup.map K.eventId.text_injective
    rwa [List.map_map] at hids
  exact ((orderBy_perm _ t.rows).map _).nodup_iff.mp hordered

/-- A represented table answers as its log: the refinement, for one command. -/
theorem Represents.appendOnlyLog {db : Db} {log : List (Event K)} (hr : Represents db.events log) :
    AppendOnlyLog db log where
  decoded := hr
  sequences := by
    rw [Decodes.map_sequence hr, EventTable.ordered, length_orderBy, List.range_eq_range']
  row_ids := hr.row_ids
  ids := hr.ids_nodup
  decodes := by
    intro row hrow
    obtain ⟨i, e, -, hd⟩ := hr.of_row hrow
    exact ⟨(i, e), hd⟩
  append_existing := by
    intro f h e i hf hi
    have ho := appendEvent_outcome hr f h e
    generalize appendEvent f h e db.events = out at ho
    cases ho with
    | fault error he => exact absurd he (hf error)
    | existing j hj => rw [hr.id_unique hi hj rfl]
    | conflict j x hj hid hne =>
      exact absurd (hr.same_entry hj hi hid).2 hne
    | added u r hnew hrows hu => exact absurd rfl (hnew e (List.mem_of_getElem? hi))
  append_conflict := by
    intro f h e x hf hx hid hne
    obtain ⟨i, hi⟩ := List.getElem?_of_mem hx
    have ho := appendEvent_outcome hr f h e
    generalize appendEvent f h e db.events = out at ho
    cases ho with
    | fault error he => exact absurd he (hf error)
    | existing j hj =>
      exact absurd (hr.same_entry hi hj hid).2 hne
    | conflict j y hj hid' hne' => rfl
    | added u r hnew hrows hu => exact absurd hid (hnew x hx)
  append_new := by
    intro f h e hf hnew
    have ho := appendEvent_outcome hr f h e
    generalize appendEvent f h e db.events = out at ho
    cases ho with
    | fault error he => exact absurd he (hf error)
    | existing j hj => exact absurd rfl (hnew e (List.mem_of_getElem? hj))
    | conflict j x hj hid hne => exact absurd hid (hnew x (List.mem_of_getElem? hj))
    | added u r _ hrows hu => exact ⟨u, hu, rfl⟩
  append_error := by
    intro f h e error herr
    have ho := appendEvent_outcome hr f h e
    generalize appendEvent f h e db.events = out at ho herr
    cases ho with
    | fault error' he =>
      cases herr
      exact ⟨rfl, .inl he⟩
    | existing j hj => cases herr
    | conflict j x hj hid hne =>
      cases herr
      exact ⟨rfl, .inr rfl⟩
    | added u r hnew hrows hu => cases herr
  get_stored := by
    intro h i e hi
    rcases hr.getEvent_eq Faults.none h e.id with ⟨err, hf, -⟩ | ⟨j, x, hj, hid, hget⟩ | ⟨hnew, -⟩
    · cases hf
    · obtain ⟨rfl, rfl⟩ := hr.same_entry hj hi hid
      exact hget
    · exact absurd rfl (hnew e (List.mem_of_getElem? hi))
  get_absent := by
    intro h id hnew
    rcases hr.getEvent_eq Faults.none h id with ⟨err, hf, -⟩ | ⟨j, x, hj, hid, -⟩ | ⟨-, hget⟩
    · cases hf
    · exact absurd hid (hnew x (List.mem_of_getElem? hj))
    · exact hget
  get_error := by
    intro f h id error herr
    rcases hr.getEvent_eq f h id with ⟨err, hf, hget⟩ | ⟨j, x, -, -, hget⟩ | ⟨-, hget⟩
    · rw [hget] at herr
      cases herr
      exact ⟨err, hf, rfl⟩
    · rw [hget] at herr
      cases herr
    · rw [hget] at herr
      cases herr
  query_error := fun _ _ _ _ => hr.queryEvents_error
  verified := hr.verifyAllEvents_eq

def emptyDb : Db := ⟨[], .empty, ⟨.empty, by decide⟩⟩

def sampleHandle : Handle textKernel := ⟨"5d6c0b1e-store", "77a0c3f2-epoch"⟩

def sampleEvent (id : String) : Event textKernel :=
  ⟨id, "22222222-session", "11111111-actor", "aaaaaaaa-action", ⟨"canvas.stroke.began"⟩, "2023-11-14",
    "\x7b\"canvas_id\":\"cccccccc\",\"stroke_id\":\"55555555\"\x7d", "\x7b\x7d"⟩

/-- A file created by the first open, with one event appended to it. -/
def sampleStore : Store textKernel :=
  ⟨(execute Faults.none sampleHandle
      (initializeConnection Faults.none sampleHandle.physicalStoreId emptyDb).2
      (.append (sampleEvent "99999999-event"))).2, some sampleHandle⟩

theorem sampleStore_reachable : (system textKernel).Reachable sampleStore :=
  Transition.System.Reachable.next
    (.start ⟨Faults.none, sampleHandle.physicalStoreId, sampleHandle.continuationEpoch,
      sampleHandle.physicalStoreId, emptyDb, rfl, rfl⟩)
    (Step.command Faults.none sampleHandle _ _)

end OrbitRelay.EventStore
