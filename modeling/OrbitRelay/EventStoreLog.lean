import OrbitRelay.EventStore

/-!
# The EventStore as an append-only log

The abstract store is the list of its events: the event at index `i` was
appended at position `i`. A table represents a log when the rows in sequence
order decode, one by one, to the events and their indices. The integrity gate at
startup establishes this relation and every command keeps it.
-/
namespace OrbitRelay.EventStore

open Codec MachineInt Relational Storage

variable {K : Kernel}

theorem decodeRow_eq_ok {row : StoredRow} {n : Nat} {e : Event K} :
    decodeRow row = .ok (n, e) ↔ row.appendSequence = n ∧ row.eventId = K.eventId.text e.id ∧
      row.sessionId = K.sessionId.text e.sessionId ∧ row.actorId = K.actorId.text e.actorId ∧
      row.actionId = K.actionId.text e.actionId ∧ row.eventType = e.eventType.asStr ∧
      K.timestamp.read row.occurredAtJson = some e.occurredAt ∧
      K.payload.read row.payloadJson = some e.payload ∧
      K.metadata.read row.metadataJson = some e.metadata := by
  constructor
  · intro h
    obtain ⟨sequence, hs, h⟩ := bind_ok h
    obtain ⟨eventId, he, h⟩ := bind_ok h
    obtain ⟨sessionId, hsession, h⟩ := bind_ok h
    obtain ⟨actorId, hactor, h⟩ := bind_ok h
    obtain ⟨actionId, haction, h⟩ := bind_ok h
    obtain ⟨occurredAt, htime, h⟩ := bind_ok h
    obtain ⟨payload, hpayload, h⟩ := bind_ok h
    obtain ⟨metadata, hmeta, h⟩ := bind_ok h
    simp only [okOr_eq_ok, TextForm.parse_eq_some_iff] at *
    cases h
    exact ⟨toU64_eq_some hs, he, hsession, hactor, haction, rfl, htime, hpayload, hmeta⟩
  · rintro ⟨hs, he, hsession, hactor, haction, htype, htime, hpayload, hmeta⟩
    simp [decodeRow, hs, he, hsession, hactor, haction, htype, htime, hpayload, hmeta]

/-- Rows that decode, in order, to consecutive positions from `n` and to the given events. -/
def Decodes (K : Kernel) : Nat → List StoredRow → List (Event K) → Prop
  | _, [], [] => True
  | n, row :: rows, e :: log => decodeRow row = .ok (n, e) ∧ Decodes K (n + 1) rows log
  | _, _, _ => False

theorem Decodes.length_eq {n : Nat} {rows : List StoredRow} {log : List (Event K)}
    (h : Decodes K n rows log) : rows.length = log.length := by
  induction rows generalizing n log with
  | nil =>
    cases log with
    | nil => rfl
    | cons e log => exact h.elim
  | cons row rows ih =>
    cases log with
    | nil => exact h.elim
    | cons e log => simp [ih h.2]

theorem Decodes.append {n : Nat} {rows : List StoredRow} {log : List (Event K)} {row : StoredRow}
    {e : Event K} (h : Decodes K n rows log) (hrow : decodeRow row = .ok (n + log.length, e)) :
    Decodes K n (rows ++ [row]) (log ++ [e]) := by
  induction rows generalizing n log with
  | nil =>
    cases log with
    | nil => exact ⟨by simpa using hrow, trivial⟩
    | cons e log => exact h.elim
  | cons r rows ih =>
    cases log with
    | nil => exact h.elim
    | cons x log =>
      refine ⟨h.1, ih h.2 ?_⟩
      rw [hrow]
      simp [Nat.add_assoc, Nat.add_comm 1]

/-- The two lists correspond index by index, whichever side the index is taken from. -/
theorem Decodes.of_row {n : Nat} {rows : List StoredRow} {log : List (Event K)}
    (h : Decodes K n rows log) {row : StoredRow} (hrow : row ∈ rows) :
    ∃ i e, log[i]? = some e ∧ decodeRow row = .ok (n + i, e) := by
  induction rows generalizing n log with
  | nil => cases hrow
  | cons r rows ih =>
    cases log with
    | nil => exact h.elim
    | cons x log =>
      rcases List.mem_cons.mp hrow with rfl | hrow
      · exact ⟨0, x, rfl, h.1⟩
      · obtain ⟨i, e, hi, hd⟩ := ih h.2 hrow
        exact ⟨i + 1, e, hi, by rw [hd]; simp [Nat.add_assoc, Nat.add_comm 1]⟩

theorem Decodes.of_event {n : Nat} {rows : List StoredRow} {log : List (Event K)}
    (h : Decodes K n rows log) {i : Nat} {e : Event K} (hi : log[i]? = some e) :
    ∃ row ∈ rows, decodeRow row = .ok (n + i, e) := by
  induction rows generalizing n log i with
  | nil =>
    cases log with
    | nil => simp at hi
    | cons x log => exact h.elim
  | cons r rows ih =>
    cases log with
    | nil => exact h.elim
    | cons x log =>
      cases i with
      | zero =>
        simp only [List.getElem?_cons_zero, Option.some.injEq] at hi
        exact ⟨r, List.mem_cons_self, by rw [← hi]; exact h.1⟩
      | succ i =>
        obtain ⟨row, hrow, hd⟩ := ih h.2 (by simpa using hi)
        exact ⟨row, List.mem_cons_of_mem _ hrow, by rw [hd]; simp [Nat.add_assoc, Nat.add_comm 1]⟩

/-- The table holds exactly this log. -/
def Represents (t : EventTable) (log : List (Event K)) : Prop := Decodes K 0 t.ordered log

theorem Decodes.unique {n : Nat} {rows : List StoredRow} {log log' : List (Event K)}
    (h : Decodes K n rows log) (h' : Decodes K n rows log') : log = log' := by
  induction rows generalizing n log log' with
  | nil =>
    cases log with
    | cons e log => exact h.elim
    | nil =>
      cases log' with
      | cons e log' => exact h'.elim
      | nil => rfl
  | cons row rows ih =>
    cases log with
    | nil => exact h.elim
    | cons e log =>
      cases log' with
      | nil => exact h'.elim
      | cons e' log' =>
        have he : (.ok (n, e) : Except (StorageError K) (Nat × Event K)) = .ok (n, e') :=
          h.1.symm.trans h'.1
        cases he
        rw [ih h.2 h'.2]

theorem Represents.unique {t : EventTable} {log log' : List (Event K)} (h : Represents t log)
    (h' : Represents t log') : log = log' := Decodes.unique h h'

theorem Represents.length_eq {t : EventTable} {log : List (Event K)} (h : Represents t log) :
    t.rows.length = log.length := by
  rw [← Decodes.length_eq h, EventTable.ordered, length_orderBy]

theorem Represents.length_le {t : EventTable} {log : List (Event K)} (h : Represents t log) :
    log.length ≤ i64Max := h.length_eq ▸ t.capacity

theorem Represents.of_row {t : EventTable} {log : List (Event K)} (h : Represents t log)
    {row : StoredRow} (hrow : row ∈ t.rows) :
    ∃ i e, log[i]? = some e ∧ decodeRow row = .ok (i, e) := by
  obtain ⟨i, e, hi, hd⟩ := Decodes.of_row h ((mem_orderBy _).mpr hrow)
  exact ⟨i, e, hi, by simpa using hd⟩

theorem Represents.of_event {t : EventTable} {log : List (Event K)} (h : Represents t log)
    {i : Nat} {e : Event K} (hi : log[i]? = some e) :
    ∃ row ∈ t.rows, decodeRow row = .ok (i, e) := by
  obtain ⟨row, hrow, hd⟩ := Decodes.of_event h hi
  exact ⟨row, (mem_orderBy _).mp hrow, by simpa using hd⟩

theorem Decodes.map_eventId {n : Nat} {rows : List StoredRow} {log : List (Event K)}
    (h : Decodes K n rows log) :
    rows.map StoredRow.eventId = log.map (fun e => K.eventId.text e.id) := by
  induction rows generalizing n log with
  | nil =>
    cases log with
    | nil => rfl
    | cons e log => exact h.elim
  | cons row rows ih =>
    cases log with
    | nil => exact h.elim
    | cons e log =>
      rw [List.map_cons, List.map_cons, ih h.2, (decodeRow_eq_ok.mp h.1).2.1]

/-- The UNIQUE column makes the identities of the log distinct. -/
theorem Represents.ids_nodup {t : EventTable} {log : List (Event K)} (h : Represents t log) :
    (log.map Event.id).Nodup := by
  have hrows : (t.rows.map StoredRow.eventId).Nodup := by
    rw [List.Nodup, List.pairwise_map]
    refine t.sound.imp ?_
    intro a b hab
    simp only [rowClash, Bool.or_eq_false_iff, beq_eq_false_iff_ne] at hab
    exact hab.2
  have hordered : (t.ordered.map StoredRow.eventId).Nodup :=
    ((orderBy_perm _ t.rows).map _).nodup_iff.mpr hrows
  rw [Decodes.map_eventId h] at hordered
  have hcomp : (log.map Event.id).map K.eventId.text = log.map (fun e => K.eventId.text e.id) := by
    rw [List.map_map]
    rfl
  rw [← hcomp] at hordered
  exact hordered.of_map

theorem Represents.id_unique {t : EventTable} {log : List (Event K)} (h : Represents t log)
    {i j : Nat} {a b : Event K} (hi : log[i]? = some a) (hj : log[j]? = some b) (hid : a.id = b.id) :
    i = j := by
  have hai : (log.map Event.id)[i]? = some a.id := by simp [hi]
  have hbj : (log.map Event.id)[j]? = some a.id := by simp [hj, hid]
  have hdistinct := List.nodup_iff_getElem?_ne_getElem?.mp h.ids_nodup
  by_contra hne
  rcases Nat.lt_or_gt_of_ne hne with hlt | hlt
  · exact hdistinct i j hlt (List.getElem?_eq_some_iff.mp hbj).1 (hai.trans hbj.symm)
  · exact hdistinct j i hlt (List.getElem?_eq_some_iff.mp hai).1 (hbj.trans hai.symm)

theorem Represents.same_entry {t : EventTable} {log : List (Event K)} (h : Represents t log) {i j : Nat}
    {a b : Event K} (ha : log[i]? = some a) (hb : log[j]? = some b) (hid : a.id = b.id) : i = j ∧ a = b := by
  have hij := h.id_unique ha hb hid
  subst hij
  exact ⟨rfl, Option.some.inj (ha.symm.trans hb)⟩

theorem Represents.lookup_some {t : EventTable} {log : List (Event K)} (h : Represents t log)
    {id : K.EventId} {row : StoredRow} (hl : t.lookup (K.eventId.text id) = some row) :
    ∃ i e, log[i]? = some e ∧ e.id = id ∧ decodeRow row = .ok (i, e) := by
  obtain ⟨i, e, hi, hd⟩ := h.of_row (List.mem_of_find?_eq_some hl)
  have htext := List.find?_some hl
  simp only [beq_iff_eq] at htext
  rw [(decodeRow_eq_ok.mp hd).2.1, PrintedForm.text_inj] at htext
  exact ⟨i, e, hi, htext, hd⟩

theorem Represents.lookup_none {t : EventTable} {log : List (Event K)} (h : Represents t log)
    {id : K.EventId} (hl : t.lookup (K.eventId.text id) = none) : ∀ e ∈ log, e.id ≠ id := by
  intro e he hid
  obtain ⟨i, hi⟩ := List.getElem?_of_mem he
  obtain ⟨row, hrow, hd⟩ := h.of_event hi
  have hne := List.find?_eq_none.mp hl row hrow
  rw [(decodeRow_eq_ok.mp hd).2.1, hid] at hne
  simp at hne

/-- The sequence derived from MAX is the length of the log. -/
theorem Represents.currentCount_eq {t : EventTable} {log : List (Event K)} (h : Represents t log)
    (f : Faults) : currentCount (K := K) f t = (do sqlite f .sequenceRead; .ok log.length) := by
  unfold currentCount
  congr 1
  funext _
  cases hlog : log.getLast? with
  | none =>
    have hnil : log = [] := by simpa using hlog
    have hrows : t.rows = [] := List.eq_nil_of_length_eq_zero (by rw [h.length_eq, hnil]; rfl)
    simp [hrows, hnil]
  | some last =>
    have hpos : 0 < log.length := by
      rcases Nat.eq_zero_or_pos log.length with h0 | h0
      · rw [List.length_eq_zero_iff.mp h0] at hlog
        cases hlog
      · exact h0
    obtain ⟨m, hm⟩ : ∃ m, log.length = m + 1 := ⟨log.length - 1, by omega⟩
    have hget : log[m]? = some last := by
      rw [List.getLast?_eq_getElem?, hm] at hlog
      simpa using hlog
    have hmax : (t.rows.map StoredRow.appendSequence).max? = some (m : Int) := by
      rw [List.max?_eq_some_iff]
      constructor
      · obtain ⟨row, hrow, hd⟩ := h.of_event hget
        exact List.mem_map.mpr ⟨row, hrow, (decodeRow_eq_ok.mp hd).1⟩
      · intro b hb
        obtain ⟨row, hrow, rfl⟩ := List.mem_map.mp hb
        obtain ⟨i, e, hi, hd⟩ := h.of_row hrow
        have hlt := (List.getElem?_eq_some_iff.mp hi).1
        rw [(decodeRow_eq_ok.mp hd).1]
        omega
    have hle : m ≤ i64Max := by have := h.length_le; omega
    rw [hmax]
    simp only [toU64_natCast, Option.bind_some, checkedAddU64_one hle, okOr_some, hm]
    rw [if_neg (by omega)]

theorem EventTable.insert_ok {t u : EventTable} {r : StoredRow} (h : t.insert r = .ok u) :
    u.rows = t.rows ++ [r] := by
  unfold EventTable.insert at h
  split at h
  · split at h
    · rename_i hu
      cases h
      exact (Table.insert_ok_iff.mp hu).2
    · cases h
  · cases h

/-- An insert can only be refused for lack of space when no row clashes. -/
theorem EventTable.insert_eq {t : EventTable} {r : StoredRow}
    (hc : ∀ a ∈ t.rows, rowClash a r = false) :
    (t.rows.length = maxRows ∧ t.insert r = .error .full) ∨ ∃ u, t.insert r = .ok u := by
  unfold EventTable.insert
  by_cases hcap : t.rows.length + 1 ≤ maxRows
  · right
    rw [dif_pos hcap]
    split
    · exact ⟨_, rfl⟩
    · rename_i e he
      unfold Table.insert at he
      rw [dif_pos hc] at he
      cases he
  · left
    have := t.capacity
    exact ⟨by omega, dif_neg hcap⟩

/-- A row encoded at the end of the log clashes with none and extends the log. -/
theorem Represents.insert {t u : EventTable} {log : List (Event K)} (h : Represents t log)
    {r : StoredRow} {e : Event K} (hr : decodeRow r = .ok (log.length, e))
    (hu : t.insert r = .ok u) : Represents u (log ++ [e]) := by
  have hordered : u.ordered = t.ordered ++ [r] := by
    unfold EventTable.ordered
    rw [EventTable.insert_ok hu]
    apply orderBy_append_max
    intro a ha
    obtain ⟨i, x, hi, hd⟩ := h.of_row ha
    have hlt := (List.getElem?_eq_some_iff.mp hi).1
    rw [(decodeRow_eq_ok.mp hd).1, (decodeRow_eq_ok.mp hr).1]
    omega
  rw [Represents, hordered]
  exact Decodes.append h (by simpa using hr)

theorem Represents.no_clash {t : EventTable} {log : List (Event K)} (h : Represents t log)
    {r : StoredRow} {e : Event K} (hr : decodeRow r = .ok (log.length, e))
    (hid : ∀ x ∈ log, x.id ≠ e.id) : ∀ a ∈ t.rows, rowClash a r = false := by
  intro a ha
  obtain ⟨i, x, hi, hd⟩ := h.of_row ha
  have hlt := (List.getElem?_eq_some_iff.mp hi).1
  have hx := hid x (List.mem_of_getElem? hi)
  simp only [rowClash, Bool.or_eq_false_iff, beq_eq_false_iff_ne, (decodeRow_eq_ok.mp hd).1,
    (decodeRow_eq_ok.mp hr).1, (decodeRow_eq_ok.mp hd).2.1, (decodeRow_eq_ok.mp hr).2.1, ne_eq,
    PrintedForm.text_inj]
  exact ⟨by omega, hx⟩

theorem decodeRow_encodeRow {e : Event K} {n : Nat} {time payload metadata : String}
    (ht : K.timestamp.print e.occurredAt = some time)
    (hp : K.payload.print e.payload = some payload)
    (hm : K.metadata.print e.metadata = some metadata) :
    decodeRow (encodeRow e n time payload metadata) = .ok (n, e) := by
  rw [decodeRow_eq_ok]
  exact ⟨rfl, rfl, rfl, rfl, rfl, rfl, K.timestamp.read_print ht, K.payload.read_print hp,
    K.metadata.read_print hm⟩

theorem sqlite_cases (K : Kernel) (f : Faults) (c : Call) :
    (∃ e, f c = some e ∧ sqlite (K := K) f c = .error (c.report e)) ∨
      sqlite (K := K) f c = .ok () := by
  unfold sqlite
  cases hf : f c with
  | none => exact .inr rfl
  | some e => exact .inl ⟨e, rfl, rfl⟩

theorem storedEvent_eq (h : Handle K) {n : Nat} (e : Event K) (hn : n ≤ i64Max) :
    storedEvent h n e = .ok ⟨K.cursorFor h.physicalStoreId h.continuationEpoch (n + 1), e⟩ := by
  simp [storedEvent, checkedAddU64_one hn]

/-- The errors of an append that have nothing to do with the stored events. -/
inductive AppendFault (f : Faults) (e : Event K) (t : EventTable) : StorageError K → Prop where
  | sqlite (c : Call) (error : SqliteError) : f c = some error → AppendFault f e t (c.report error)
  | payload : K.payload.print e.payload = none →
      AppendFault f e t (failure "event payload serialization failed")
  | metadata : K.metadata.print e.metadata = none →
      AppendFault f e t (failure "event metadata serialization failed")
  | timestamp : K.timestamp.print e.occurredAt = none →
      AppendFault f e t (failure "event timestamp serialization failed")
  | full : t.rows.length = maxRows → AppendFault f e t (Call.insert.report .full)

/-- Everything an append can do, against the log the table represents. -/
inductive AppendOutcome (f : Faults) (h : Handle K) (e : Event K) (t : EventTable)
    (log : List (Event K)) : Except (StorageError K) (StoredEvent K) × EventTable → Prop where
  | fault (error : StorageError K) : AppendFault f e t error → AppendOutcome f h e t log (.error error, t)
  | existing (i : Nat) : log[i]? = some e → AppendOutcome f h e t log
      (.ok ⟨K.cursorFor h.physicalStoreId h.continuationEpoch (i + 1), e⟩, t)
  | conflict (i : Nat) (x : Event K) : log[i]? = some x → x.id = e.id → x ≠ e →
      AppendOutcome f h e t log (.error (.eventConflict e.id), t)
  | added (u : EventTable) (r : StoredRow) : (∀ x ∈ log, x.id ≠ e.id) → u.rows = t.rows ++ [r] →
      Represents u (log ++ [e]) → AppendOutcome f h e t log
      (.ok ⟨K.cursorFor h.physicalStoreId h.continuationEpoch (log.length + 1), e⟩, u)

theorem AppendOutcome.of_error {f : Faults} {h : Handle K} {e : Event K} {t : EventTable}
    {log : List (Event K)} {error : StorageError K} (hf : AppendFault f e t error)
    (ht : appendTransaction f t e = .error error) :
    AppendOutcome f h e t log (appendEvent f h e t) := by
  have he : appendEvent f h e t = (.error error, t) := by simp [appendEvent, ht]
  rw [he]
  exact .fault error hf

theorem appendEvent_of_ok {f : Faults} {h : Handle K} {e x : Event K} {t u : EventTable} {n : Nat}
    (ht : appendTransaction f t e = .ok (n, x, u)) (hn : n ≤ i64Max) :
    appendEvent f h e t = (.ok ⟨K.cursorFor h.physicalStoreId h.continuationEpoch (n + 1), x⟩, u) := by
  simp [appendEvent, ht, storedEvent_eq h x hn]

/-- One append against the log: the whole case analysis of the transaction, done once. -/
theorem appendEvent_outcome {t : EventTable} {log : List (Event K)} (hr : Represents t log)
    (f : Faults) (h : Handle K) (e : Event K) : AppendOutcome f h e t log (appendEvent f h e t) := by
  cases hp : K.payload.print e.payload with
  | none => exact .of_error (.payload hp) (by simp [appendTransaction, hp])
  | some payload =>
  cases hm : K.metadata.print e.metadata with
  | none => exact .of_error (.metadata hm) (by simp [appendTransaction, hp, hm])
  | some metadata =>
  cases ht : K.timestamp.print e.occurredAt with
  | none => exact .of_error (.timestamp ht) (by simp [appendTransaction, hp, hm, ht])
  | some time =>
  rcases sqlite_cases K f .transaction with ⟨err, hf, hstart⟩ | hstart
  · exact .of_error (.sqlite _ _ hf) (by simp [appendTransaction, hp, hm, ht, hstart])
  rcases sqlite_cases K f .lookup with ⟨err, hf, hlook⟩ | hlook
  · exact .of_error (.sqlite _ _ hf) (by simp [appendTransaction, hp, hm, ht, hstart, hlook])
  cases hl : t.lookup (K.eventId.text e.id) with
  | some row =>
    obtain ⟨i, x, hi, hid, hd⟩ := hr.lookup_some hl
    have hle : i ≤ i64Max := by
      have := (List.getElem?_eq_some_iff.mp hi).1
      have := hr.length_le
      omega
    by_cases hx : x = e
    · subst hx
      rcases sqlite_cases K f .commit with ⟨err, hf, hcommit⟩ | hcommit
      · exact .of_error (.sqlite _ _ hf) (by
          simp [appendTransaction, hp, hm, ht, hstart, hlook, hl, hd, hcommit])
      · rw [appendEvent_of_ok (n := i) (x := x) (u := t) (by
          simp [appendTransaction, hp, hm, ht, hstart, hlook, hl, hd, hcommit]) hle]
        exact .existing i hi
    · have he : appendTransaction f t e = .error (.eventConflict e.id) := by
        simp [appendTransaction, hp, hm, ht, hstart, hlook, hl, hd, hx]
      have hout : appendEvent f h e t = (.error (.eventConflict e.id), t) := by simp [appendEvent, he]
      rw [hout]
      exact .conflict i x hi hid hx
  | none =>
    have hnew := hr.lookup_none hl
    have hcount := hr.currentCount_eq f
    have hseq := toI64_of_le hr.length_le
    rcases sqlite_cases K f .sequenceRead with ⟨err, hf, hread⟩ | hread
    · exact .of_error (.sqlite _ _ hf) (by
        simp [appendTransaction, hp, hm, ht, hstart, hlook, hl, hcount, hread])
    rcases sqlite_cases K f .insert with ⟨err, hf, hins⟩ | hins
    · exact .of_error (.sqlite _ _ hf) (by
        simp [appendTransaction, hp, hm, ht, hstart, hlook, hl, hcount, hread, hseq, hins])
    have hdec := decodeRow_encodeRow (n := log.length) ht hp hm
    rcases EventTable.insert_eq (hr.no_clash hdec hnew) with ⟨hcap, hfull⟩ | ⟨u, hu⟩
    · exact .of_error (.full hcap) (by
        simp [appendTransaction, hp, hm, ht, hstart, hlook, hl, hcount, hread, hseq, hins, hfull])
    rcases sqlite_cases K f .commit with ⟨err, hf, hcommit⟩ | hcommit
    · exact .of_error (.sqlite _ _ hf) (by
        simp [appendTransaction, hp, hm, ht, hstart, hlook, hl, hcount, hread, hseq, hins, hu,
          hcommit])
    · rw [appendEvent_of_ok (n := log.length) (x := e) (u := u) (by
        simp [appendTransaction, hp, hm, ht, hstart, hlook, hl, hcount, hread, hseq, hins, hu,
          hcommit]) hr.length_le]
      exact .added u _ hnew (EventTable.insert_ok hu) (hr.insert hdec hu)

/-- Every row decodes to a position that fits a cursor. -/
theorem Represents.readable {t : EventTable} {log : List (Event K)} (h : Represents t log)
    {row : StoredRow} (hrow : row ∈ t.rows) :
    ∃ i e, log[i]? = some e ∧ decodeRow row = .ok (i, e) ∧ i ≤ i64Max := by
  obtain ⟨i, e, hi, hd⟩ := h.of_row hrow
  have := (List.getElem?_eq_some_iff.mp hi).1
  have := h.length_le
  exact ⟨i, e, hi, hd, by omega⟩

/-- An error of a command that only reads is an SQLite error or a refused request. -/
inductive ReadFault (f : Faults) : StorageError K → Prop where
  | sqlite (c : Call) (error : SqliteError) : f c = some error → ReadFault f (c.report error)
  | query (q : EventFilter K) (limit : Nat) (error : StorageError K) :
      K.validate q limit = .error error → ReadFault f error
  | cursor (reason : String) : ReadFault f (.invalidCursor reason)
  | checkpoint (reason : String) : ReadFault f (.invalidCheckpoint reason)

/-- The get of a log: the event with the identity, at its position. -/
theorem Represents.getEvent_eq {t : EventTable} {log : List (Event K)} (hr : Represents t log)
    (f : Faults) (h : Handle K) (id : K.EventId) :
    (∃ e, f .lookup = some e ∧ getEvent f h id t = .error (Call.lookup.report e)) ∨
    (∃ i e, log[i]? = some e ∧ e.id = id ∧ getEvent f h id t =
      .ok (some ⟨K.cursorFor h.physicalStoreId h.continuationEpoch (i + 1), e⟩)) ∨
    ((∀ e ∈ log, e.id ≠ id) ∧ getEvent f h id t = .ok none) := by
  rcases sqlite_cases K f .lookup with ⟨e, hf, hs⟩ | hs
  · exact .inl ⟨e, hf, by simp [getEvent, hs]⟩
  · cases hl : t.lookup (K.eventId.text id) with
    | none => exact .inr (.inr ⟨hr.lookup_none hl, by simp [getEvent, hs, hl]⟩)
    | some row =>
      obtain ⟨i, e, hi, hid, hd⟩ := hr.lookup_some hl
      have hlt := (List.getElem?_eq_some_iff.mp hi).1
      have hle : i ≤ i64Max := by have := hr.length_le; omega
      exact .inr (.inl ⟨i, e, hi, hid, by simp [getEvent, hs, hl, hd, storedEvent_eq h e hle]⟩)

theorem scanRows_error {f : Faults} {h : Handle K} {q : EventFilter K} {limit index : Nat}
    {rows : List StoredRow} {acc : List (StoredEvent K)} {error : StorageError K}
    (hrows : ∀ row ∈ rows, ∃ i e, decodeRow row = .ok (i, (e : Event K)) ∧ i ≤ i64Max)
    (he : scanRows f h q limit index rows acc = .error error) : ReadFault f error := by
  induction rows generalizing index acc with
  | nil => cases he
  | cons row rows ih =>
    obtain ⟨i, e, hd, hi⟩ := hrows row List.mem_cons_self
    have hrest := fun r hr => hrows r (List.mem_cons_of_mem row hr)
    rcases sqlite_cases K f (.row index) with ⟨err, hf, hs⟩ | hs
    · simp only [scanRows, hs, error_bind, Except.error.injEq] at he
      rw [← he]
      exact .sqlite _ err hf
    · simp only [scanRows, hs, hd, ok_bind, storedEvent_eq h e hi] at he
      split at he
      · exact ih hrest he
      · split at he
        · cases he
        · exact ih hrest he

theorem queryUpperBound_error {f : Faults} {h : Handle K} {count : Nat}
    {bound : Option K.EventStoreCheckpoint} {error : StorageError K}
    (he : queryUpperBound h count bound = .error error) : ReadFault f error := by
  cases bound with
  | none => cases he
  | some checkpoint =>
    unfold queryUpperBound at he
    cases hp : K.checkpointPosition checkpoint h.physicalStoreId h.continuationEpoch with
    | none =>
      simp only [hp, okOr_none, Except.error.injEq] at he
      exact he ▸ .checkpoint _
    | some p => simp [hp] at he

theorem queryStart_error {f : Faults} {h : Handle K} {cursor : Option K.EventCursor}
    {error : StorageError K} (he : queryStart h cursor = .error error) : ReadFault f error := by
  cases cursor with
  | none => cases he
  | some cursor =>
    unfold queryStart at he
    cases hp : K.cursorPosition cursor h.physicalStoreId h.continuationEpoch with
    | none =>
      simp only [hp, okOr_none, error_bind, Except.error.injEq] at he
      exact he ▸ .cursor _
    | some p =>
      simp only [hp, okOr_some, ok_bind] at he
      split at he
      · simp only [Except.error.injEq] at he
        exact he ▸ .cursor _
      · cases he

/-- A query never fails on a stored row or on its own integer conversions. -/
theorem Represents.queryEvents_error {t : EventTable} {log : List (Event K)} (hr : Represents t log)
    {f : Faults} {h : Handle K} {q : EventQuery K} {error : StorageError K}
    (he : queryEvents f h q t = .error error) : ReadFault f error := by
  unfold queryEvents at he
  cases hv : K.validate q.filter q.limit with
  | error e =>
    simp only [hv, error_bind, Except.error.injEq] at he
    exact .query q.filter q.limit error (he ▸ hv)
  | ok u =>
  rw [hv, ok_bind, hr.currentCount_eq] at he
  rcases sqlite_cases K f .sequenceRead with ⟨e, hf, hs⟩ | hs
  · simp only [hs, error_bind, Except.error.injEq] at he
    exact he ▸ .sqlite _ e hf
  rw [hs, ok_bind, ok_bind] at he
  cases hu : queryUpperBound h log.length q.upperBound with
  | error e =>
    simp only [hu, error_bind, Except.error.injEq] at he
    exact he ▸ queryUpperBound_error hu
  | ok upper =>
  rw [hu, ok_bind] at he
  split at he
  · simp only [Except.error.injEq] at he
    exact he ▸ .checkpoint _
  rename_i hupper
  cases hst : queryStart h q.afterCursor with
  | error e =>
    simp only [hst, error_bind, Except.error.injEq] at he
    exact he ▸ queryStart_error hst
  | ok start =>
  rw [hst, ok_bind] at he
  split at he
  · simp only [Except.error.injEq] at he
    exact he ▸ .cursor _
  rename_i hstart
  have hle := hr.length_le
  rw [toI64_of_le (show start ≤ i64Max by omega), toI64_of_le (show upper ≤ i64Max by omega)] at he
  simp only [okOr_some, ok_bind] at he
  rcases sqlite_cases K f .queryPreparation with ⟨e, hf, hs⟩ | hs
  · simp only [hs, error_bind, Except.error.injEq] at he
    exact he ▸ .sqlite _ e hf
  rw [hs, ok_bind] at he
  rcases sqlite_cases K f .query with ⟨e, hf, hs⟩ | hs
  · simp only [hs, error_bind, Except.error.injEq] at he
    exact he ▸ .sqlite _ e hf
  rw [hs, ok_bind] at he
  cases hscan : scanRows f h q.filter q.limit 0 (t.ordered.filter (rowSelected q.filter start upper)) [] with
  | ok p => simp [hscan] at he
  | error e =>
    simp only [hscan, error_bind, Except.error.injEq] at he
    refine he ▸ scanRows_error ?_ hscan
    intro row hrow
    obtain ⟨i, x, -, hd, hi⟩ := hr.readable ((mem_orderBy _).mp (List.mem_filter.mp hrow).1)
    exact ⟨i, x, hd, hi⟩

theorem verifyFrom_ok {f : Faults} {n j : Nat} {rows : List StoredRow}
    (h : verifyFrom K f n j rows = .ok ()) : ∃ log, Decodes K n rows log := by
  induction rows generalizing n j with
  | nil => exact ⟨[], trivial⟩
  | cons row rows ih =>
    rw [verifyFrom] at h
    obtain ⟨-, -, h⟩ := bind_ok h
    split at h
    · cases h
    rename_i hseq
    obtain ⟨⟨m, e⟩, hd, h⟩ := bind_ok h
    obtain ⟨next, hnext, h⟩ := bind_ok h
    have hm : (m : Int) = n := (decodeRow_eq_ok.mp hd).1.symm.trans (not_not.mp hseq)
    have hnext' : next = ((n + 1 : Nat) : Int) := by
      rw [okOr_eq_ok, checkedAddI64] at hnext
      split at hnext
      · simp only [Option.some.injEq] at hnext
        omega
      · cases hnext
    rw [hnext'] at h
    obtain ⟨log, hlog⟩ := ih h
    have hmn : m = n := by omega
    exact ⟨e :: log, hmn ▸ hd, hlog⟩

theorem Decodes.verifyFrom_eq {n j : Nat} {rows : List StoredRow} {log : List (Event K)}
    (h : Decodes K n rows log) (hn : n + log.length ≤ i64Max) :
    verifyFrom K Faults.none n j rows = .ok () := by
  induction rows generalizing n j log with
  | nil => rfl
  | cons row rows ih =>
    cases log with
    | nil => exact h.elim
    | cons e log =>
      simp only [List.length_cons] at hn
      have hseq := (decodeRow_eq_ok.mp h.1).1
      have hnext := ih (j := j + 1) h.2 (by omega)
      simp only [verifyFrom, sqlite_none, ok_bind, hseq, ne_eq, not_true_eq_false, if_false, h.1,
        checkedAddI64_one (show n < i64Max by omega), okOr_some]
      exact hnext

/-- The integrity gate accepts exactly the tables that hold a log. -/
theorem verifyAllEvents_represents {f : Faults} {t : EventTable}
    (h : verifyAllEvents K f t = .ok ()) : ∃ log : List (Event K), Represents t log := by
  obtain ⟨-, -, h⟩ := bind_ok h
  exact verifyFrom_ok (n := 0) h

theorem Represents.verifyAllEvents_eq {t : EventTable} {log : List (Event K)}
    (h : Represents t log) : verifyAllEvents K Faults.none t = .ok () := by
  unfold verifyAllEvents
  rw [sqlite_none, ok_bind]
  exact Decodes.verifyFrom_eq (n := 0) h (by simpa using h.length_le)

end OrbitRelay.EventStore
