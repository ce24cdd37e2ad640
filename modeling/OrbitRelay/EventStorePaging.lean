import OrbitRelay.EventStoreRun
import Mathlib.Data.List.Forall2

/-!
# Checkpointed pagination

One page of `query_events` is a window of the matching events, numbered by their
positions: everything before the checkpoint, from the position after the cursor.
A client that follows the cursors therefore reads each matching event before its
checkpoint once, whatever is appended meanwhile.
-/
namespace OrbitRelay.EventStore

open Codec MachineInt Relational Storage

variable {K : Kernel}

/-- Matching events at positions from `start` up to `upper`. -/
def window (q : EventFilter K) (start upper : Nat) (log : List (Event K)) : List (Event K × Nat) :=
  log.zipIdx.filter (fun p => decide (start ≤ p.2) && decide (p.2 < upper) && K.matchesEvent q p.1)

def storedAt (h : Handle K) (p : Event K × Nat) : StoredEvent K :=
  ⟨K.cursorFor h.physicalStoreId h.continuationEpoch (p.2 + 1), p.1⟩

/-- The page that shows at most `limit` of the given events. -/
def pageOf (h : Handle K) (limit : Nat) (events : List (Event K × Nat)) : EventPage K where
  events := (events.take limit).map (storedAt h)
  nextCursor := if limit < events.length then
    ((events.take limit).map (storedAt h)).getLast?.map StoredEvent.cursor else none

def DecodesTo (row : StoredRow) (p : Event K × Nat) : Prop := decodeRow row = .ok (p.2, p.1)

theorem Decodes.forall₂ {n : Nat} {rows : List StoredRow} {log : List (Event K)}
    (h : Decodes K n rows log) : List.Forall₂ DecodesTo rows (log.zipIdx n) := by
  induction rows generalizing n log with
  | nil =>
    cases log with
    | nil => exact .nil
    | cons e log => exact h.elim
  | cons row rows ih =>
    cases log with
    | nil => exact h.elim
    | cons e log => exact .cons h.1 (ih h.2)

/-- The row loop returns the first `limit` matching events and knows whether more follow. -/
theorem scanRows_eq {h : Handle K} {q : EventFilter K} {limit j : Nat} {rows : List StoredRow}
    {events : List (Event K × Nat)} {acc : List (StoredEvent K)}
    (hrows : List.Forall₂ DecodesTo rows events) (hpos : ∀ p ∈ events, p.2 ≤ i64Max)
    (hacc : acc.length ≤ limit) :
    scanRows Faults.none h q limit j rows acc =
      .ok (acc ++ ((events.filter (fun p => K.matchesEvent q p.1)).take (limit - acc.length)).map (storedAt h),
        decide (limit - acc.length < (events.filter (fun p => K.matchesEvent q p.1)).length)) := by
  induction hrows generalizing j acc with
  | nil => simp [scanRows]
  | cons hrow hrest ih =>
    rename_i row p rows events
    have hp := hpos p List.mem_cons_self
    have hpos' := fun x hx => hpos x (List.mem_cons_of_mem p hx)
    have hd : decodeRow row = .ok (p.2, p.1) := hrow
    rw [scanRows]
    simp only [sqlite_none, ok_bind, hd, storedEvent_eq h p.1 hp]
    cases hm : K.matchesEvent q p.1 with
    | false =>
      rw [if_pos rfl, ih hpos' hacc]
      simp [hm]
    | true =>
      rw [if_neg (by simp)]
      by_cases hfull : acc.length = limit
      · rw [if_pos hfull]
        simp [hm, hfull]
      · obtain ⟨m, hm'⟩ : ∃ m, limit - acc.length = m + 1 := ⟨limit - acc.length - 1, by omega⟩
        have hlen : (acc ++ [storedAt h p]).length = acc.length + 1 := by simp
        have hsub : limit - (acc.length + 1) = m := by omega
        rw [if_neg hfull]
        change scanRows Faults.none h q limit (j + 1) rows (acc ++ [storedAt h p]) = _
        rw [ih hpos' (by omega), hlen, hsub, hm']
        simp [hm]

theorem rowSelected_eq {row : StoredRow} {p : Event K × Nat} (h : DecodesTo row p)
    (q : EventFilter K) (start upper : Nat) :
    (rowSelected q start upper row = true ∧ K.matchesEvent q p.1 = true) ↔
      start ≤ p.2 ∧ p.2 < upper ∧ K.matchesEvent q p.1 = true := by
  obtain ⟨hseq, -, hsession, hactor, -, htype, -⟩ := decodeRow_eq_ok.mp h
  constructor
  · rintro ⟨hsel, hm⟩
    simp only [rowSelected, hseq, Bool.and_eq_true, decide_eq_true_eq, Nat.cast_le, Nat.cast_lt] at hsel
    exact ⟨hsel.1.1.1.1, hsel.1.1.1.2, hm⟩
  · rintro ⟨hs, hu, hm⟩
    obtain ⟨ms, ma, mt, -⟩ := (K.matchesEvent_iff q p.1).mp hm
    refine ⟨?_, hm⟩
    simp only [rowSelected, hseq, hsession, hactor, htype, Bool.and_eq_true, decide_eq_true_eq,
      Nat.cast_le, Nat.cast_lt, Option.all_eq_true, beq_iff_eq, PrintedForm.text_inj, Bool.or_eq_true,
      List.isEmpty_iff, List.contains_iff_mem, List.mem_map]
    refine ⟨⟨⟨⟨hs, hu⟩, fun s hs => ms s hs⟩, fun a ha => ma a ha⟩, ?_⟩
    rcases mt with hnil | hmem
    · exact .inl hnil
    · exact .inr ⟨_, hmem, rfl⟩

/-- The SQL prefilter loses no matching row of its range and keeps the order. -/
theorem filter_selected {rows : List StoredRow} {events : List (Event K × Nat)}
    (h : List.Forall₂ DecodesTo rows events) (q : EventFilter K) (start upper : Nat) :
    ∃ selected, List.Forall₂ DecodesTo (rows.filter (rowSelected q start upper)) selected ∧
      selected.Sublist events ∧ selected.filter (fun p => K.matchesEvent q p.1) =
        events.filter (fun p => decide (start ≤ p.2) && decide (p.2 < upper) && K.matchesEvent q p.1) := by
  induction h with
  | nil => exact ⟨[], .nil, .slnil, rfl⟩
  | cons hrow hrest ih =>
    rename_i row p rows events
    obtain ⟨selected, hsel, hsub, heq⟩ := ih
    have hiff := rowSelected_eq hrow q start upper
    cases hs : rowSelected q start upper row with
    | true =>
      refine ⟨p :: selected, by simpa [hs] using And.intro hrow hsel, hsub.cons_cons p, ?_⟩
      cases hm : K.matchesEvent q p.1 with
      | true =>
        obtain ⟨h₁, h₂, -⟩ := hiff.mp ⟨hs, hm⟩
        simp [hm, h₁, h₂, heq]
      | false => simp [hm, heq]
    | false =>
      refine ⟨selected, by simpa [hs] using hsel, hsub.cons p, ?_⟩
      rw [heq, List.filter_cons_of_neg]
      simp only [Bool.and_eq_true, decide_eq_true_eq, and_assoc]
      intro hw
      rw [(hiff.mpr hw).1] at hs
      cases hs

/-- One accepted request, in terms of the log. -/
theorem Represents.queryEvents_eq {t : EventTable} {log : List (Event K)} (hr : Represents t log)
    {h : Handle K} {q : EventQuery K} {start upper : Nat}
    (hv : K.validate q.filter q.limit = .ok ())
    (hupper : queryUpperBound h log.length q.upperBound = .ok upper) (hu : upper ≤ log.length)
    (hstart : queryStart h q.afterCursor = .ok start) (hs : start ≤ upper) :
    queryEvents Faults.none h q t = .ok (pageOf h q.limit (window q.filter start upper log)) := by
  have hle := hr.length_le
  obtain ⟨selected, hsel, hsub, heq⟩ := filter_selected (Decodes.forall₂ hr) q.filter start upper
  have hpos : ∀ p ∈ selected, p.2 ≤ i64Max := by
    intro p hp
    have := List.snd_lt_of_mem_zipIdx (hsub.subset hp)
    omega
  have hscan : scanRows Faults.none h q.filter q.limit 0 _ [] = _ :=
    scanRows_eq hsel hpos (Nat.zero_le q.limit)
  simp only [List.length_nil, Nat.sub_zero, List.nil_append, heq] at hscan
  change _ = Except.ok (_, decide (q.limit < (window q.filter start upper log).length)) at hscan
  simp only [queryEvents, hv, ok_bind, hr.currentCount_eq, sqlite_none, hupper, hstart,
    toI64_of_le (show start ≤ i64Max by omega), toI64_of_le (show upper ≤ i64Max by omega), okOr_some]
  rw [if_neg (by omega), if_neg (by omega), hscan]
  by_cases hmore : q.limit < (window q.filter start upper log).length
  · simp only [ok_bind, pageOf, hmore, decide_true, if_true]
    rfl
  · simp only [ok_bind, pageOf, hmore, decide_false, if_false]
    rfl

/-! A read that succeeds although SQLite could have failed saw what any read sees. -/

theorem scanRows_faultless {f : Faults} {h : Handle K} {q : EventFilter K} {limit j : Nat}
    {rows : List StoredRow} {acc : List (StoredEvent K)} {r : List (StoredEvent K) × Bool}
    (hok : scanRows f h q limit j rows acc = .ok r) :
    scanRows Faults.none h q limit j rows acc = .ok r := by
  induction rows generalizing j acc with
  | nil => exact hok
  | cons row rows ih =>
    rw [scanRows] at hok ⊢
    obtain ⟨-, -, hok⟩ := bind_ok hok
    obtain ⟨⟨sequence, event⟩, hp, hok⟩ := bind_ok hok
    simp only [sqlite_none, ok_bind, hp] at hok ⊢
    by_cases hm : K.matchesEvent q event = false
    · rw [if_pos hm] at hok ⊢
      exact ih hok
    · rw [if_neg hm] at hok ⊢
      by_cases hfull : acc.length = limit
      · rw [if_pos hfull] at hok ⊢
        exact hok
      · rw [if_neg hfull] at hok ⊢
        obtain ⟨stored, hstored, hok⟩ := bind_ok hok
        rw [hstored, ok_bind]
        exact ih hok

theorem Represents.queryEvents_faultless {t : EventTable} {log : List (Event K)}
    (hr : Represents t log) {f : Faults} {h : Handle K} {q : EventQuery K} {page : EventPage K}
    (hok : queryEvents f h q t = .ok page) : queryEvents Faults.none h q t = .ok page := by
  unfold queryEvents at hok ⊢
  obtain ⟨⟨⟩, hv, hok⟩ := bind_ok hok
  obtain ⟨count, hcount, hok⟩ := bind_ok hok
  obtain ⟨upper, hupper, hok⟩ := bind_ok hok
  rw [hr.currentCount_eq] at hcount
  obtain ⟨-, -, hcount⟩ := bind_ok hcount
  cases hcount
  simp only [hv, ok_bind, hr.currentCount_eq, sqlite_none, hupper]
  by_cases hbeyond : log.length < upper
  · rw [if_pos hbeyond] at hok
    cases hok
  · rw [if_neg hbeyond] at hok ⊢
    obtain ⟨start, hstart, hok⟩ := bind_ok hok
    simp only [hstart, ok_bind]
    by_cases hcursor : upper < start ∨ (0 < start ∧ log.length < start)
    · rw [if_pos hcursor] at hok
      cases hok
    · rw [if_neg hcursor] at hok ⊢
      obtain ⟨a, ha, hok⟩ := bind_ok hok
      obtain ⟨b, hb, hok⟩ := bind_ok hok
      obtain ⟨-, -, hok⟩ := bind_ok hok
      obtain ⟨-, -, hok⟩ := bind_ok hok
      obtain ⟨⟨events, hasMore⟩, hscan, hok⟩ := bind_ok hok
      simp only [ha, hb, ok_bind, scanRows_faultless hscan]
      exact hok

theorem Represents.captureCheckpoint_ok {t : EventTable} {log : List (Event K)} (hr : Represents t log)
    {f : Faults} {h : Handle K} {checkpoint : K.EventStoreCheckpoint}
    (hok : captureCheckpoint f h t = .ok checkpoint) :
    checkpoint = K.checkpointFor h.physicalStoreId h.continuationEpoch log.length := by
  unfold captureCheckpoint at hok
  obtain ⟨count, hcount, hok⟩ := bind_ok hok
  rw [hr.currentCount_eq] at hcount
  obtain ⟨-, -, hcount⟩ := bind_ok hcount
  cases hcount
  cases hok
  rfl

/-! The numbered events of a log are strictly increasing in their positions. -/

theorem zipIdx_sorted (log : List (Event K)) (n : Nat) :
    (log.zipIdx n).Pairwise (fun a b => a.2 < b.2) := by
  induction log generalizing n with
  | nil => exact .nil
  | cons e log ih =>
    rw [List.zipIdx_cons, List.pairwise_cons]
    refine ⟨?_, ih (n + 1)⟩
    intro p hp
    have := List.le_snd_of_mem_zipIdx hp
    omega

theorem window_sorted (q : EventFilter K) (start upper : Nat) (log : List (Event K)) :
    (window q start upper log).Pairwise (fun a b => a.2 < b.2) :=
  (zipIdx_sorted log 0).filter _

/-- Events appended after the checkpoint are outside its window. -/
theorem window_append (q : EventFilter K) (start : Nat) (log later : List (Event K)) :
    window q start log.length (log ++ later) = window q start log.length log := by
  unfold window
  rw [List.zipIdx_append, List.filter_append]
  have hlater : (later.zipIdx (0 + log.length)).filter (fun p => decide (start ≤ p.2) &&
      decide (p.2 < log.length) && K.matchesEvent q p.1) = [] := by
    rw [List.filter_eq_nil_iff]
    intro p hp
    have := List.le_snd_of_mem_zipIdx hp
    have hlt : ¬ p.2 < log.length := by omega
    simp [hlt]
  rw [hlater, List.append_nil]

/-- The whole window is the matching part of the log. -/
theorem window_all (q : EventFilter K) (log : List (Event K)) :
    (window q 0 log.length log).map Prod.fst = log.filter (K.matchesEvent q) := by
  have hall : window q 0 log.length log = log.zipIdx.filter (fun p => K.matchesEvent q p.1) := by
    refine List.filter_congr ?_
    intro p hp
    have := List.snd_lt_of_mem_zipIdx hp
    have hlt : p.2 < log.length := by omega
    simp [hlt]
  have hmap : (K.matchesEvent q ∘ Prod.fst : Event K × Nat → Bool) = fun p => K.matchesEvent q p.1 := rfl
  rw [hall, ← hmap, ← List.filter_map, List.zipIdx_map_fst]

theorem mem_window {q : EventFilter K} {start upper : Nat} {log : List (Event K)} {p : Event K × Nat}
    (h : p ∈ window q start upper log) : start ≤ p.2 ∧ p.2 < upper := by
  have := (List.mem_filter.mp h).2
  simp only [Bool.and_eq_true, decide_eq_true_eq] at this
  exact this.1

/-- Restarting after the position of one event of a window leaves what followed it. -/
theorem window_after {q : EventFilter K} {start upper : Nat} {log : List (Event K)}
    {before after : List (Event K × Nat)} {p : Event K × Nat}
    (h : window q start upper log = before ++ p :: after) :
    window q (p.2 + 1) upper log = after := by
  have hsorted := window_sorted q start upper log
  have hstart : start ≤ p.2 := (mem_window (by rw [h]; simp)).1
  have hrefine : window q (p.2 + 1) upper log =
      (window q start upper log).filter (fun x => decide (p.2 + 1 ≤ x.2)) := by
    unfold window
    rw [List.filter_filter]
    refine List.filter_congr ?_
    intro x _
    by_cases hx : p.2 + 1 ≤ x.2
    · have hsx : start ≤ x.2 := by omega
      simp [hx, hsx]
    · simp [hx]
  rw [h, List.pairwise_append] at hsorted
  obtain ⟨-, htail, hcross⟩ := hsorted
  rw [List.pairwise_cons] at htail
  have hbefore : before.filter (fun x => decide (p.2 + 1 ≤ x.2)) = [] := by
    rw [List.filter_eq_nil_iff]
    intro x hx
    have := hcross x hx p List.mem_cons_self
    simp only [decide_eq_true_eq]
    omega
  have hafter : after.filter (fun x => decide (p.2 + 1 ≤ x.2)) = after := by
    rw [List.filter_eq_self]
    intro x hx
    have := htail.1 x hx
    simp only [decide_eq_true_eq]
    omega
  rw [hrefine, h, List.filter_append, hbefore, List.filter_cons_of_neg (by simp), hafter,
    List.nil_append]

theorem i64_le_u64 {n : Nat} (h : n ≤ i64Max) : n + 1 ≤ u64Max := by
  unfold i64Max at h
  unfold u64Max
  omega

theorem queryUpperBound_own (h : Handle K) {n p : Nat} (hp : p ≤ i64Max) :
    queryUpperBound h n (some (K.checkpointFor h.physicalStoreId h.continuationEpoch p)) = .ok p := by
  have := i64_le_u64 hp
  simp [queryUpperBound, K.checkpointPosition_for _ _ _ _ p (by omega)]

theorem queryStart_own (h : Handle K) {p : Nat} (hp : p ≤ i64Max) :
    queryStart h (some (K.cursorFor h.physicalStoreId h.continuationEpoch (p + 1))) = .ok (p + 1) := by
  simp [queryStart, K.cursorPosition_for _ _ _ _ (p + 1) (i64_le_u64 hp)]

theorem Represents.captureCheckpoint_eq {t : EventTable} {log : List (Event K)}
    (hr : Represents t log) (h : Handle K) : captureCheckpoint Faults.none h t =
      .ok (K.checkpointFor h.physicalStoreId h.continuationEpoch log.length) := by
  simp [captureCheckpoint, hr.currentCount_eq]

/-- Commands of other callers, each with the faults SQLite shows it. -/
abbrev Traffic (K : Kernel) := List (Faults × Command K)

def serve (h : Handle K) (db : Db) (traffic : Traffic K) : Db :=
  traffic.foldl (fun db c => (execute c.1 h db c.2).2) db

theorem serve_represents (h : Handle K) (traffic : Traffic K) {db : Db} {log : List (Event K)}
    (hr : Represents db.events log) :
    ∃ later, Represents (serve h db traffic).events (log ++ later) := by
  induction traffic generalizing db log with
  | nil => exact ⟨[], by simpa [serve] using hr⟩
  | cons c traffic ih =>
    rcases execute_events hr c.1 h c.2 with heq | ⟨e, r, -, -, hlog⟩
    · rw [← heq] at hr
      exact ih hr
    · obtain ⟨later, hlater⟩ := ih hlog
      exact ⟨e :: later, by simpa [serve] using hlater⟩

/-- A client that follows `next_cursor` under one checkpoint. Before its `k`-th
request the worker serves `between k`; fuel bounds the number of requests. -/
def walk (h : Handle K) (q : EventFilter K) (limit : Nat) (checkpoint : K.EventStoreCheckpoint)
    (between : Nat → Traffic K) :
    Nat → Nat → Db → Option K.EventCursor → Option (Except (StorageError K) (List (EventPage K)))
  | 0, _, _, _ => none
  | fuel + 1, k, db, cursor =>
    let db := serve h db (between k)
    match queryEvents Faults.none h ⟨q, limit, some checkpoint, cursor⟩ db.events with
    | .error e => some (.error e)
    | .ok page =>
      match page.nextCursor with
      | none => some (.ok [page])
      | some next =>
        match walk h q limit checkpoint between fuel (k + 1) db (some next) with
        | some (.ok pages) => some (.ok (page :: pages))
        | other => other

/-- Full pages with a cursor, then one last page without. -/
inductive CompleteWalk (limit : Nat) : List (EventPage K) → Prop where
  | last (page : EventPage K) : page.events.length ≤ limit → page.nextCursor = none →
      CompleteWalk limit [page]
  | more (page : EventPage K) (pages : List (EventPage K)) : page.events.length = limit →
      page.nextCursor.isSome = true → CompleteWalk limit pages → CompleteWalk limit (page :: pages)

def pageEvents (pages : List (EventPage K)) : List (Event K) :=
  pages.flatMap (fun page => page.events.map StoredEvent.event)

theorem pageOf_events (h : Handle K) (limit : Nat) (events : List (Event K × Nat)) :
    (pageOf h limit events).events.map StoredEvent.event = (events.take limit).map Prod.fst := by
  simp [pageOf, List.map_map, Function.comp_def, storedAt]

/-- A page with a successor ends at an event whose cursor it hands out. -/
theorem pageOf_more (h : Handle K) {limit : Nat} {events : List (Event K × Nat)} (hl : 1 ≤ limit)
    (hmore : limit < events.length) :
    ∃ before p, events = before ++ p :: events.drop limit ∧ (pageOf h limit events).nextCursor =
      some (K.cursorFor h.physicalStoreId h.continuationEpoch (p.2 + 1)) := by
  have hne : events.take limit ≠ [] := by
    intro hnil
    have := congrArg List.length hnil
    simp only [List.length_take, List.length_nil] at this
    omega
  refine ⟨(events.take limit).dropLast, (events.take limit).getLast hne, ?_, ?_⟩
  · conv_lhs => rw [← List.take_append_drop limit events, ← List.dropLast_append_getLast hne]
    simp
  · simp only [pageOf, if_pos hmore, List.getLast?_map, List.getLast?_eq_some_getLast hne,
      Option.map_some, storedAt]

/-- The walk from one cursor on: induction on what is left of the window. -/
theorem walk_complete {h : Handle K} {q : EventFilter K} {limit : Nat} {log : List (Event K)}
    (hv : K.validate q limit = .ok ()) (between : Nat → Traffic K) (fuel k : Nat) {db : Db}
    {cursor : Option K.EventCursor} {start : Nat}
    (hlog : ∃ later, Represents db.events (log ++ later))
    (hcursor : queryStart h cursor = .ok start) (hstart : start ≤ log.length)
    (hfuel : (window q start log.length log).length < fuel) :
    ∃ pages, walk h q limit (K.checkpointFor h.physicalStoreId h.continuationEpoch log.length)
        between fuel k db cursor = some (.ok pages) ∧ CompleteWalk limit pages ∧
      pageEvents pages = (window q start log.length log).map Prod.fst := by
  induction fuel generalizing k db cursor start with
  | zero => omega
  | succ fuel ih =>
    obtain ⟨later, hr⟩ := hlog
    obtain ⟨later', hr'⟩ := serve_represents h (between k) hr
    rw [List.append_assoc] at hr'
    have hlen : log.length ≤ i64Max := by
      have := hr'.length_le
      simp only [List.length_append] at this
      omega
    have hupper := queryUpperBound_own h (n := (log ++ (later ++ later')).length) hlen
    have hpage := hr'.queryEvents_eq (q := ⟨q, limit, some _, cursor⟩) hv hupper (by simp) hcursor hstart
    simp only [window_append] at hpage
    rw [walk]
    simp only [hpage]
    by_cases hmore : limit < (window q start log.length log).length
    · obtain ⟨before, p, hsplit, hnext⟩ := pageOf_more h (K.validate_limit q limit hv) hmore
      have hplt : p.2 < log.length := (mem_window (by rw [hsplit]; simp)).2
      have hrest := window_after hsplit
      have hdrop : ((window q start log.length log).drop limit).length < fuel := by
        have := K.validate_limit q limit hv
        simp only [List.length_drop]
        omega
      obtain ⟨pages, hwalk, hcomplete, hevents⟩ := ih (k + 1) ⟨_, hr'⟩
        (queryStart_own h (show p.2 ≤ i64Max by omega)) hplt (by rw [hrest]; exact hdrop)
      refine ⟨pageOf h limit (window q start log.length log) :: pages, by rw [hnext]; simp only [hwalk],
        .more _ _ ?_ ?_ hcomplete, ?_⟩
      · simp only [pageOf, List.length_map, List.length_take]
        omega
      · rw [hnext]
        rfl
      · rw [hrest] at hevents
        simp only [pageEvents, List.flatMap_cons, pageOf_events] at hevents ⊢
        rw [hevents, ← List.map_append, List.take_append_drop]
    · have hlast : (pageOf h limit (window q start log.length log)).nextCursor = none := if_neg hmore
      refine ⟨[pageOf h limit (window q start log.length log)], by rw [hlast], .last _ ?_ hlast, ?_⟩
      · simp only [pageOf, List.length_map, List.length_take]
        omega
      · simp only [pageEvents, List.flatMap_cons, List.flatMap_nil, List.append_nil, pageOf_events]
        rw [List.take_of_length_le (by omega)]

/-- A token of another store or of another open of this one. -/
def Foreign (h : Handle K) (store epoch : K.EntityId) : Prop :=
  ¬ (store = h.physicalStoreId ∧ epoch = h.continuationEpoch)

theorem foreign_checkpoint {h : Handle K} {store epoch : K.EntityId} (hf : Foreign h store epoch)
    {n p : Nat} (hp : p ≤ u64Max) : queryUpperBound h n (some (K.checkpointFor store epoch p)) =
      .error (.invalidCheckpoint "checkpoint does not belong to this SQLite store epoch") := by
  have hpos := K.checkpointPosition_for store epoch h.physicalStoreId h.continuationEpoch p hp
  rw [if_neg hf] at hpos
  simp [queryUpperBound, hpos]

theorem foreign_cursor {h : Handle K} {store epoch : K.EntityId} (hf : Foreign h store epoch)
    {p : Nat} (hp : p ≤ u64Max) : queryStart h (some (K.cursorFor store epoch p)) =
      .error (.invalidCursor "cursor does not belong to this SQLite store epoch") := by
  have hpos := K.cursorPosition_for store epoch h.physicalStoreId h.continuationEpoch p hp
  rw [if_neg hf] at hpos
  simp [queryStart, hpos]

/-- Requests with a foreign token fail, and unless SQLite itself fails they fail for that reason. -/
theorem Represents.foreign_rejected {t : EventTable} {log : List (Event K)} (hr : Represents t log)
    {h : Handle K} {q : EventQuery K} {store epoch : K.EntityId} (hf : Foreign h store epoch) {p : Nat}
    (hp : p ≤ u64Max) (hv : K.validate q.filter q.limit = .ok ()) :
    (q.upperBound = some (K.checkpointFor store epoch p) →
      ∃ reason, queryEvents Faults.none h q t = .error (.invalidCheckpoint reason)) ∧
    (q.afterCursor = some (K.cursorFor store epoch p) →
      ∃ reason, queryEvents Faults.none h q t = .error (.invalidCheckpoint reason) ∨
        queryEvents Faults.none h q t = .error (.invalidCursor reason)) := by
  constructor
  · intro hb
    simp only [queryEvents, hv, ok_bind, hr.currentCount_eq, sqlite_none, hb, foreign_checkpoint hf hp,
      error_bind]
    exact ⟨_, rfl⟩
  · intro hc
    simp only [queryEvents, hv, ok_bind, hr.currentCount_eq, sqlite_none, hc, foreign_cursor hf hp,
      error_bind]
    cases hb : q.upperBound with
    | none =>
      exact ⟨"cursor does not belong to this SQLite store epoch", .inr (by simp [queryUpperBound])⟩
    | some c =>
      cases hpos : K.checkpointPosition c h.physicalStoreId h.continuationEpoch with
      | none =>
        exact ⟨"checkpoint does not belong to this SQLite store epoch",
          .inl (by simp only [queryUpperBound, hpos, okOr_none, error_bind])⟩
      | some u =>
        simp only [queryUpperBound, hpos, okOr_some, ok_bind]
        split
        · exact ⟨_, .inl rfl⟩
        · exact ⟨_, .inr rfl⟩

theorem Represents.foreign_never_ok {t : EventTable} {f : Faults} {h : Handle K} {q : EventQuery K}
    {store epoch : K.EntityId} (hf : Foreign h store epoch) {p : Nat} (hp : p ≤ u64Max)
    (hq : q.upperBound = some (K.checkpointFor store epoch p) ∨
      q.afterCursor = some (K.cursorFor store epoch p)) (page : EventPage K) :
    queryEvents f h q t ≠ .ok page := by
  intro hok
  obtain ⟨-, -, hok⟩ := bind_ok hok
  obtain ⟨n, -, hok⟩ := bind_ok hok
  obtain ⟨upper, hupper, hok⟩ := bind_ok hok
  rcases hq with hb | hc
  · rw [hb, foreign_checkpoint hf hp] at hupper
    cases hupper
  · split at hok
    · cases hok
    · rw [hc, foreign_cursor hf hp] at hok
      cases hok

end OrbitRelay.EventStore
