import OrbitRelay.Pipeline

/-!
# What the calls of `dispatch` report

The awaits of `Pipeline` once more, each with what the call has learned from it. The
reports of a call say how far it has come, and the store and the bus can be told from
the reports of all calls.
-/
namespace OrbitRelay.Pipeline

open Storage EventStore

variable {K : Kernel}

inductive Report (K : Kernel) where
  | began (batch : List (Event K))
  | appended (event : Event K) (ok : Bool)
  | published (event : Event K) (ok : Bool)
  | returned (result : Except String Unit)

/-- One await of one call, and what it reports. -/
inductive Await (h : Handle K) : State K → Nat → List (Report K) → State K → Prop where
  | start (p : State K) (i : Nat) (batch : List (Event K)) :
      p.dispatch i = .idle → Await h p i [.began batch] (p.set i (.appending [] batch))
  | append (p : State K) (f : Faults) (i : Nat) (stored rest : List (Event K)) (e : Event K)
      (record : StoredEvent K) (db : Db) :
      p.dispatch i = .appending stored (e :: rest) →
      execute f h p.db (.append e) = (.stored (.ok record), db) →
      Await h p i [.appended e true] { p.set i (.appending (stored ++ [e]) rest) with db }
  | appendFailed (p : State K) (f : Faults) (i : Nat) (stored rest : List (Event K)) (e : Event K)
      (error : StorageError K) (db : Db) :
      p.dispatch i = .appending stored (e :: rest) →
      execute f h p.db (.append e) = (.stored (.error error), db) →
      Await h p i [.appended e false, .returned (.error (persistenceFailed e))]
        { p.set i (.failed (persistenceFailed e)) with db }
  | appended (p : State K) (i : Nat) (batch : List (Event K)) :
      p.dispatch i = .appending batch [] → Await h p i [] (p.set i (.publishing [] batch))
  | publish (p : State K) (i : Nat) (sent rest : List (Event K)) (e : Event K) :
      p.dispatch i = .publishing sent (e :: rest) →
      Await h p i [.published e true]
        { p.set i (.publishing (sent ++ [e]) rest) with published := p.published ++ [e] }
  | publishFailed (p : State K) (i : Nat) (sent rest : List (Event K)) (e : Event K) :
      p.dispatch i = .publishing sent (e :: rest) →
      Await h p i [.published e false, .returned (.error (publicationFailed e))]
        (p.set i (.failed (publicationFailed e)))
  | finish (p : State K) (i : Nat) (batch : List (Event K)) :
      p.dispatch i = .publishing batch [] → Await h p i [.returned (.ok ())] (p.set i (.ok batch))

/-- Reports add nothing to the steps. -/
theorem step_iff_await {h : Handle K} {p q : State K} : Step h p q ↔ ∃ i rs, Await h p i rs q := by
  constructor
  · intro hs
    cases hs with
    | start i batch hi => exact ⟨_, _, .start p i batch hi⟩
    | append f i stored rest e record db hi hx => exact ⟨_, _, .append p f i stored rest e record db hi hx⟩
    | appendFailed f i stored rest e error db hi hx =>
      exact ⟨_, _, .appendFailed p f i stored rest e error db hi hx⟩
    | appended i batch hi => exact ⟨_, _, .appended p i batch hi⟩
    | publish i sent rest e hi => exact ⟨_, _, .publish p i sent rest e hi⟩
    | publishFailed i sent rest e hi => exact ⟨_, _, .publishFailed p i sent rest e hi⟩
    | finish i batch hi => exact ⟨_, _, .finish p i batch hi⟩
  · rintro ⟨i, rs, ha⟩
    cases ha with
    | start i batch hi => exact .start p i batch hi
    | append f i stored rest e record db hi hx => exact .append p f i stored rest e record db hi hx
    | appendFailed f i stored rest e error db hi hx => exact .appendFailed p f i stored rest e error db hi hx
    | appended i batch hi => exact .appended p i batch hi
    | publish i sent rest e hi => exact .publish p i sent rest e hi
    | publishFailed i sent rest e hi => exact .publishFailed p i sent rest e hi
    | finish i batch hi => exact .finish p i batch hi

/-- The calls with everything that they have reported, in order. -/
structure Traced (K : Kernel) where
  pipeline : State K
  reports : Nat → List (Report K)

def Traced.report (t : Traced K) (i : Nat) (rs : List (Report K)) (q : State K) : Traced K :=
  ⟨q, Function.update t.reports i (t.reports i ++ rs)⟩

/-- Calls over a store that is open; no call has begun. -/
def traceSystem (h : Handle K) : Transition.System (Traced K) where
  init t := ∃ s, (EventStore.system K).Reachable s ∧ s.handle = some h ∧
    t = ⟨⟨s.db, fun _ => .idle, []⟩, fun _ => []⟩
  step t u := ∃ i rs q, Await h t.pipeline i rs q ∧ u = t.report i rs q

def batches (rs : List (Report K)) : List (List (Event K)) :=
  rs.filterMap (fun | .began batch => some batch | _ => none)

def appends (rs : List (Report K)) : List (Event K × Bool) :=
  rs.filterMap (fun | .appended e ok => some (e, ok) | _ => none)

def publications (rs : List (Report K)) : List (Event K × Bool) :=
  rs.filterMap (fun | .published e ok => some (e, ok) | _ => none)

def results (rs : List (Report K)) : List (Except String Unit) :=
  rs.filterMap (fun | .returned r => some r | _ => none)

def allOk (events : List (Event K)) : List (Event K × Bool) := events.map (·, true)

/-- What a call has reported at each of its phases. -/
inductive Tells (rs : List (Report K)) : Dispatch K → Prop where
  | idle : batches rs = [] → appends rs = [] → publications rs = [] → results rs = [] → Tells rs .idle
  | appending (stored rest : List (Event K)) : batches rs = [stored ++ rest] → appends rs = allOk stored →
      publications rs = [] → results rs = [] → Tells rs (.appending stored rest)
  | publishing (sent rest : List (Event K)) : batches rs = [sent ++ rest] → appends rs = allOk (sent ++ rest) →
      publications rs = allOk sent → results rs = [] → Tells rs (.publishing sent rest)
  | ok (batch : List (Event K)) : batches rs = [batch] → appends rs = allOk batch →
      publications rs = allOk batch → results rs = [.ok ()] → Tells rs (.ok batch)
  | appendFailed (stored rest : List (Event K)) (e : Event K) : batches rs = [stored ++ e :: rest] →
      appends rs = allOk stored ++ [(e, false)] → publications rs = [] →
      results rs = [.error (persistenceFailed e)] → Tells rs (.failed (persistenceFailed e))
  | publishFailed (sent rest : List (Event K)) (e : Event K) : batches rs = [sent ++ e :: rest] →
      appends rs = allOk (sent ++ e :: rest) → publications rs = allOk sent ++ [(e, false)] →
      results rs = [.error (publicationFailed e)] → Tells rs (.failed (publicationFailed e))

@[simp] theorem allOk_append (a b : List (Event K)) : allOk (a ++ b) = allOk a ++ allOk b := List.map_append

theorem not_mem_allOk (events : List (Event K)) (e : Event K) : (e, false) ∉ allOk events := by
  simp [allOk]

theorem mem_allOk {events : List (Event K)} {e : Event K} : (e, true) ∈ allOk events ↔ e ∈ events := by
  simp [allOk]

theorem allOk_injective {a b : List (Event K)} (h : allOk a = allOk b) : a = b :=
  List.map_injective_iff.mpr (fun _ _ he => (Prod.mk.inj he).1) h

@[simp] theorem batches_append (a b : List (Report K)) : batches (a ++ b) = batches a ++ batches b :=
  List.filterMap_append

@[simp] theorem appends_append (a b : List (Report K)) : appends (a ++ b) = appends a ++ appends b :=
  List.filterMap_append

@[simp] theorem publications_append (a b : List (Report K)) :
    publications (a ++ b) = publications a ++ publications b := List.filterMap_append

@[simp] theorem results_append (a b : List (Report K)) : results (a ++ b) = results a ++ results b :=
  List.filterMap_append

/-- What a list of reports says of each kind. -/
structure Says (rs : List (Report K)) (bs : List (List (Event K))) (as ps : List (Event K × Bool))
    (qs : List (Except String Unit)) : Prop where
  batches : batches rs = bs
  appends : appends rs = as
  publications : publications rs = ps
  results : results rs = qs

theorem Says.append {r rs : List (Report K)} {bs bs' : List (List (Event K))} {as as' ps ps' : List (Event K × Bool)}
    {qs qs' : List (Except String Unit)} (h : Says r bs as ps qs) (h' : Says rs bs' as' ps' qs') :
    Says (r ++ rs) (bs ++ bs') (as ++ as') (ps ++ ps') (qs ++ qs') where
  batches := by rw [batches_append, h.batches, h'.batches]
  appends := by rw [appends_append, h.appends, h'.appends]
  publications := by rw [publications_append, h.publications, h'.publications]
  results := by rw [results_append, h.results, h'.results]

theorem await_tells {h : Handle K} {p q : State K} {i : Nat} {rs r : List (Report K)} (ha : Await h p i rs q)
    (ht : Tells r (p.dispatch i)) : Tells (r ++ rs) (q.dispatch i) := by
  cases ha with
  | start i batch hi =>
    rw [hi] at ht
    cases ht with
    | idle hb happ hpub hres =>
      have hsaid : Says (r ++ [.began batch]) [batch] [] [] [] :=
        Says.append ⟨hb, happ, hpub, hres⟩ ⟨rfl, rfl, rfl, rfl⟩
      rw [State.set_same]
      exact .appending [] batch hsaid.batches hsaid.appends hsaid.publications hsaid.results
  | append f i stored rest e record db hi hx =>
    rw [hi] at ht
    cases ht with
    | appending _ _ hb happ hpub hres =>
      have hsaid : Says (r ++ [.appended e true]) [stored ++ e :: rest] (allOk stored ++ allOk [e]) [] [] :=
        Says.append ⟨hb, happ, hpub, hres⟩ ⟨rfl, rfl, rfl, rfl⟩
      simp only [State.set_same]
      refine .appending _ rest ?_ ?_ hsaid.publications hsaid.results
      · rw [hsaid.batches, List.append_assoc]
        rfl
      · rw [hsaid.appends, allOk_append]
  | appendFailed f i stored rest e error db hi hx =>
    rw [hi] at ht
    cases ht with
    | appending _ _ hb happ hpub hres =>
      have hsaid : Says (r ++ [.appended e false, .returned (.error (persistenceFailed e))]) [stored ++ e :: rest]
          (allOk stored ++ [(e, false)]) [] [.error (persistenceFailed e)] :=
        Says.append ⟨hb, happ, hpub, hres⟩ ⟨rfl, rfl, rfl, rfl⟩
      simp only [State.set_same]
      exact .appendFailed stored rest e hsaid.batches hsaid.appends hsaid.publications hsaid.results
  | appended i batch hi =>
    rw [hi] at ht
    cases ht with
    | appending _ _ hb happ hpub hres =>
      rw [State.set_same, List.append_nil]
      exact .publishing [] batch (by simpa using hb) happ hpub hres
  | publish i sent rest e hi =>
    rw [hi] at ht
    cases ht with
    | publishing _ _ hb happ hpub hres =>
      have hsaid : Says (r ++ [.published e true]) [sent ++ e :: rest] (allOk (sent ++ e :: rest) ++ [])
          (allOk sent ++ allOk [e]) [] :=
        Says.append ⟨hb, happ, hpub, hres⟩ ⟨rfl, rfl, rfl, rfl⟩
      simp only [State.set_same]
      refine .publishing _ rest ?_ ?_ ?_ hsaid.results
      · rw [hsaid.batches, List.append_assoc]
        rfl
      · rw [hsaid.appends, List.append_nil, List.append_assoc]
        rfl
      · rw [hsaid.publications, allOk_append]
  | publishFailed i sent rest e hi =>
    rw [hi] at ht
    cases ht with
    | publishing _ _ hb happ hpub hres =>
      have hsaid : Says (r ++ [.published e false, .returned (.error (publicationFailed e))]) [sent ++ e :: rest]
          (allOk (sent ++ e :: rest) ++ []) (allOk sent ++ [(e, false)]) [.error (publicationFailed e)] :=
        Says.append ⟨hb, happ, hpub, hres⟩ ⟨rfl, rfl, rfl, rfl⟩
      rw [State.set_same]
      refine .publishFailed sent rest e hsaid.batches ?_ hsaid.publications hsaid.results
      rw [hsaid.appends, List.append_nil]
  | finish i batch hi =>
    rw [hi] at ht
    cases ht with
    | publishing _ _ hb happ hpub hres =>
      rw [List.append_nil] at hb happ
      have hsaid : Says (r ++ [.returned (.ok ())]) [batch] (allOk batch ++ []) (allOk batch ++ []) [.ok ()] :=
        Says.append ⟨hb, happ, hpub, hres⟩ ⟨rfl, rfl, rfl, rfl⟩
      rw [List.append_nil] at hsaid
      rw [State.set_same]
      exact .ok batch hsaid.batches hsaid.appends hsaid.publications hsaid.results

theorem await_other {h : Handle K} {p q : State K} {i j : Nat} {rs : List (Report K)} (ha : Await h p i rs q)
    (hj : j ≠ i) : q.dispatch j = p.dispatch j := by
  cases ha <;> exact State.set_other p _ hj

/-! ## One call -/

/-- The events that a call has published. -/
def delivered (rs : List (Report K)) : List (Event K) := ((publications rs).filter (·.2)).map (·.1)

theorem mem_delivered {rs : List (Report K)} {e : Event K} : e ∈ delivered rs ↔ (e, true) ∈ publications rs := by
  simp [delivered]

theorem filter_allOk (events : List (Event K)) : ((allOk events).filter (·.2)).map (·.1) = events := by
  induction events with
  | nil => rfl
  | cons e events ih =>
    change e :: ((allOk events).filter (·.2)).map (·.1) = _
    rw [ih]

theorem delivered_allOk {rs : List (Report K)} {events : List (Event K)} (later : List (Event K × Bool))
    (hpub : publications rs = allOk events ++ later) (hlater : later.filter (·.2) = []) : delivered rs = events := by
  rw [delivered, hpub, List.filter_append, hlater, List.append_nil, filter_allOk]

section Tells

variable {d : Dispatch K} {rs : List (Report K)} {batch : List (Event K)}

/-- A call publishes its batch in order, as far as it comes. -/
theorem Tells.delivered_isPrefix (ht : Tells rs d) (hb : batches rs = [batch]) : delivered rs <+: batch := by
  cases ht with
  | idle hb' happ hpub hres => simp [hb'] at hb
  | appending stored rest hb' happ hpub hres => simp [delivered, hpub]
  | publishing sent rest hb' happ hpub hres =>
    cases hb'.symm.trans hb
    rw [delivered_allOk [] (by simpa using hpub) rfl]
    exact List.prefix_append sent rest
  | ok batch' hb' happ hpub hres =>
    cases hb'.symm.trans hb
    have hall : delivered rs = batch := delivered_allOk [] (by simpa using hpub) rfl
    exact hall ▸ List.prefix_refl _
  | appendFailed stored rest e hb' happ hpub hres => simp [delivered, hpub]
  | publishFailed sent rest e hb' happ hpub hres =>
    cases hb'.symm.trans hb
    rw [delivered_allOk [(e, false)] hpub rfl]
    exact List.prefix_append sent (e :: rest)

theorem Tells.batches_of_published (ht : Tells rs d) (hpub : publications rs ≠ []) :
    ∃ batch, batches rs = [batch] := by
  cases ht with
  | idle hb happ hpub' hres => exact absurd hpub' hpub
  | appending stored rest hb happ hpub' hres => exact ⟨_, hb⟩
  | publishing sent rest hb happ hpub' hres => exact ⟨_, hb⟩
  | ok batch' hb happ hpub' hres => exact ⟨_, hb⟩
  | appendFailed stored rest e hb happ hpub' hres => exact ⟨_, hb⟩
  | publishFailed sent rest e hb happ hpub' hres => exact ⟨_, hb⟩

/-- A call that has begun to publish has appended its whole batch. -/
theorem Tells.appends_of_published (ht : Tells rs d) (hb : batches rs = [batch]) (hpub : publications rs ≠ []) :
    appends rs = allOk batch := by
  cases ht with
  | idle hb' happ hpub' hres => exact absurd hpub' hpub
  | appending stored rest hb' happ hpub' hres => exact absurd hpub' hpub
  | publishing sent rest hb' happ hpub' hres =>
    cases hb'.symm.trans hb
    exact happ
  | ok batch' hb' happ hpub' hres =>
    cases hb'.symm.trans hb
    exact happ
  | appendFailed stored rest e hb' happ hpub' hres => exact absurd hpub' hpub
  | publishFailed sent rest e hb' happ hpub' hres =>
    cases hb'.symm.trans hb
    exact happ

/-- A result is `Ok` exactly for a call of which every append and publication succeeded. -/
theorem Tells.result_ok_iff (ht : Tells rs d) (hb : batches rs = [batch]) {r : Except String Unit}
    (hr : r ∈ results rs) : r = .ok () ↔ appends rs = allOk batch ∧ publications rs = allOk batch := by
  cases ht with
  | idle hb' happ hpub hres => simp [hres] at hr
  | appending stored rest hb' happ hpub hres => simp [hres] at hr
  | publishing sent rest hb' happ hpub hres => simp [hres] at hr
  | ok batch' hb' happ hpub hres =>
    cases hb'.symm.trans hb
    have hok : r = .ok () := by simpa [hres] using hr
    simp [hok, happ, hpub]
  | appendFailed stored rest e hb' happ hpub hres =>
    have herror : r = .error (persistenceFailed e) := by simpa [hres] using hr
    have hfalse : appends rs ≠ allOk batch := by
      intro hall
      refine not_mem_allOk batch e ?_
      rw [← hall, happ]
      simp
    simp [herror, hfalse]
  | publishFailed sent rest e hb' happ hpub hres =>
    have herror : r = .error (publicationFailed e) := by simpa [hres] using hr
    have hfalse : publications rs ≠ allOk batch := by
      intro hall
      refine not_mem_allOk batch e ?_
      rw [← hall, hpub]
      simp
    simp [herror, hfalse]

end Tells

/-! ## All calls -/

/-- What one await leaves in the log and on the bus is what it reports. -/
theorem await_log {h : Handle K} {p q : State K} {i : Nat} {rs : List (Report K)} (ha : Await h p i rs q)
    {log : List (Event K)} (hr : Represents p.db.events log) :
    (∃ log', Represents q.db.events log' ∧ ∀ x, x ∈ log' ↔ x ∈ log ∨ (x, true) ∈ appends rs) ∧
      q.published = p.published ++ delivered rs := by
  have hsame : appends rs = [] → q.db = p.db →
      ∃ log', Represents q.db.events log' ∧ ∀ x, x ∈ log' ↔ x ∈ log ∨ (x, true) ∈ appends rs := by
    intro hnone hdb
    refine ⟨log, hdb ▸ hr, ?_⟩
    simp [hnone]
  cases ha with
  | start i batch hi => exact ⟨hsame rfl rfl, (List.append_nil _).symm⟩
  | append f i stored rest e record db hi hx =>
    refine ⟨?_, (List.append_nil _).symm⟩
    have happends : ∀ x, (x, true) ∈ appends [Report.appended e true] ↔ x = e := by simp [appends]
    simp only [happends]
    rcases execute_append_ok hr hx with ⟨he, hr'⟩ | ⟨-, hr'⟩
    · refine ⟨log, hr', ?_⟩
      intro x
      constructor
      · exact .inl
      · rintro (hx | rfl)
        · exact hx
        · exact he
    · exact ⟨log ++ [e], hr', by simp⟩
  | appendFailed f i stored rest e error db hi hx =>
    refine ⟨⟨log, ?_, ?_⟩, (List.append_nil _).symm⟩
    · exact execute_append_error hr hx ▸ hr
    · simp [appends]
  | appended i batch hi => exact ⟨hsame rfl rfl, (List.append_nil _).symm⟩
  | publish i sent rest e hi => exact ⟨hsame rfl rfl, rfl⟩
  | publishFailed i sent rest e hi => exact ⟨hsame rfl rfl, (List.append_nil _).symm⟩
  | finish i batch hi => exact ⟨hsame rfl rfl, (List.append_nil _).symm⟩

/-- The calls tell the truth, and account for everything stored since `log₀` and published. -/
structure Accounted (log₀ : List (Event K)) (t : Traced K) (log : List (Event K)) : Prop where
  tells : ∀ i, Tells (t.reports i) (t.pipeline.dispatch i)
  represents : Represents t.pipeline.db.events log
  stored : ∀ x, x ∈ log ↔ x ∈ log₀ ∨ ∃ i, (x, true) ∈ appends (t.reports i)
  published : ∀ e ∈ t.pipeline.published, ∃ i, e ∈ delivered (t.reports i)

theorem report_same (t : Traced K) (i : Nat) (rs : List (Report K)) (q : State K) :
    (t.report i rs q).reports i = t.reports i ++ rs := Function.update_self _ _ _

theorem report_other (t : Traced K) {i j : Nat} (hj : j ≠ i) (rs : List (Report K)) (q : State K) :
    (t.report i rs q).reports j = t.reports j := Function.update_of_ne hj _ _

/-- Something that reports have anywhere after a report was there before or is in it. -/
theorem report_exists {P : List (Report K) → Prop} {rs : List (Report K)}
    (happend : ∀ r, P (r ++ rs) ↔ P r ∨ P rs) (t : Traced K) (i : Nat) (q : State K) :
    (∃ j, P ((t.report i rs q).reports j)) ↔ (∃ j, P (t.reports j)) ∨ P rs := by
  constructor
  · rintro ⟨j, hj⟩
    by_cases hji : j = i
    · subst hji
      rw [report_same, happend] at hj
      rcases hj with hold | hnew
      · exact .inl ⟨j, hold⟩
      · exact .inr hnew
    · rw [report_other t hji] at hj
      exact .inl ⟨j, hj⟩
  · rintro (⟨j, hj⟩ | hnew)
    · by_cases hji : j = i
      · subst hji
        refine ⟨j, ?_⟩
        rw [report_same, happend]
        exact .inl hj
      · refine ⟨j, ?_⟩
        rw [report_other t hji]
        exact hj
    · refine ⟨i, ?_⟩
      rw [report_same, happend]
      exact .inr hnew

theorem delivered_append (a b : List (Report K)) : delivered (a ++ b) = delivered a ++ delivered b := by
  simp [delivered]

theorem step_accounted {h : Handle K} {log₀ log : List (Event K)} {t u : Traced K} (ht : Accounted log₀ t log)
    (hs : (traceSystem h).step t u) : ∃ log', Accounted log₀ u log' := by
  obtain ⟨i, rs, q, ha, rfl⟩ := hs
  obtain ⟨⟨log', hr', hlog'⟩, hpub⟩ := await_log ha ht.represents
  refine ⟨log', ?_, hr', ?_, ?_⟩
  · intro j
    by_cases hj : j = i
    · subst hj
      rw [report_same]
      exact await_tells ha (ht.tells j)
    · rw [report_other t hj]
      change Tells (t.reports j) (q.dispatch j)
      rw [await_other ha hj]
      exact ht.tells j
  · intro x
    rw [hlog', ht.stored, report_exists (P := fun r => (x, true) ∈ appends r) (by simp), or_assoc]
  · intro e he
    change e ∈ q.published at he
    rw [report_exists (P := fun r => e ∈ delivered r) (by simp [delivered_append])]
    rw [hpub, List.mem_append] at he
    exact he.imp_left (ht.published e)

theorem run_accounted {h : Handle K} {log₀ log : List (Event K)} {t u : Traced K} (ht : Accounted log₀ t log)
    (hrun : (traceSystem h).Run t u) : ∃ log', Accounted log₀ u log' :=
  Transition.System.preserved (S := traceSystem h) (P := fun u => ∃ log', Accounted log₀ u log')
    (fun _ _ ⟨_, hs⟩ hstep => step_accounted hs hstep) ⟨log, ht⟩ hrun

theorem reachable_accounted {h : Handle K} {t : Traced K} (ht : (traceSystem h).Reachable t) :
    ∃ log₀ log, Accounted log₀ t log := by
  obtain ⟨t₀, ⟨s, hs, -, rfl⟩, hrun⟩ := ht
  obtain ⟨log₀, id, hr, -, -⟩ := reachable_invariant hs
  have hstart : Accounted log₀ ⟨⟨s.db, fun _ => .idle, []⟩, fun _ => []⟩ log₀ :=
    ⟨fun i => .idle rfl rfl rfl rfl, hr, by simp [appends], by simp⟩
  exact ⟨log₀, run_accounted hstart hrun⟩

/-- From any state on, the calls account for what is stored afterwards. -/
theorem Accounted.again {log₀ log : List (Event K)} {t : Traced K} (ht : Accounted log₀ t log) :
    Accounted log t log where
  tells := ht.tells
  represents := ht.represents
  stored := by
    intro x
    constructor
    · exact .inl
    · rintro (hx | hx)
      · exact hx
      · exact (ht.stored x).mpr (.inr hx)
  published := ht.published

theorem publishing_returns {h : Handle K} {t : Traced K} {i : Nat} {batch : List (Event K)}
    (hi : t.pipeline.dispatch i = .publishing batch []) :
    ∃ u, (traceSystem h).step t u ∧ .ok () ∈ results (u.reports i) := by
  refine ⟨_, ⟨i, _, _, .finish t.pipeline i batch hi, rfl⟩, ?_⟩
  rw [report_same, results_append]
  simp [results]

/-- A call of which every append and publication succeeded goes on to return `Ok`. -/
theorem completes {h : Handle K} {t : Traced K} {i : Nat} {batch : List (Event K)}
    (ht : Tells (t.reports i) (t.pipeline.dispatch i)) (hb : batches (t.reports i) = [batch])
    (happ : appends (t.reports i) = allOk batch) (hpub : publications (t.reports i) = allOk batch) :
    ∃ u, (traceSystem h).Run t u ∧ .ok () ∈ results (u.reports i) := by
  generalize hd : t.pipeline.dispatch i = d at ht
  cases ht with
  | idle hb' happ' hpub' hres => simp [hb'] at hb
  | appending stored rest hb' happ' hpub' hres =>
    cases hb'.symm.trans hb
    have hnil : stored ++ rest = [] := allOk_injective (hpub.symm.trans hpub')
    obtain ⟨rfl, rfl⟩ := List.append_eq_nil_iff.mp hnil
    have hstep : (traceSystem h).step t (t.report i [] (t.pipeline.set i (.publishing [] []))) :=
      ⟨i, [], _, .appended t.pipeline i [] hd, rfl⟩
    obtain ⟨u, hu, hok⟩ := publishing_returns (h := h)
      (t := t.report i [] (t.pipeline.set i (.publishing [] []))) (State.set_same _ i _)
    exact ⟨u, .head hstep (.single hu), hok⟩
  | publishing sent rest hb' happ' hpub' hres =>
    cases hb'.symm.trans hb
    have hrest : sent = sent ++ rest := allOk_injective (hpub'.symm.trans hpub)
    have hnil : rest = [] := List.self_eq_append_right.mp hrest
    subst hnil
    obtain ⟨u, hu, hok⟩ := publishing_returns (h := h) hd
    exact ⟨u, .single hu, hok⟩
  | ok batch' hb' happ' hpub' hres => exact ⟨t, .refl, by simp [hres]⟩
  | appendFailed stored rest e hb' happ' hpub' hres =>
    refine absurd ?_ (not_mem_allOk batch e)
    rw [← happ, happ']
    simp
  | publishFailed sent rest e hb' happ' hpub' hres =>
    refine absurd ?_ (not_mem_allOk batch e)
    rw [← hpub, hpub']
    simp

/-- What holds of one call and its batch. -/
structure PublishesPersisted (h : Handle K) (t : Traced K) (log : List (Event K)) (i : Nat)
    (batch : List (Event K)) : Prop where
  persisted : ∀ e ∈ delivered (t.reports i), e ∈ batch ∧ batch ⊆ log
  ordered : delivered (t.reports i) <+: batch
  silent : ∀ e, (e, false) ∈ appends (t.reports i) → publications (t.reports i) = []
  result : ∀ r ∈ results (t.reports i), r = .ok () ↔
    appends (t.reports i) = allOk batch ∧ publications (t.reports i) = allOk batch
  completes : appends (t.reports i) = allOk batch → publications (t.reports i) = allOk batch →
    ∃ u, (traceSystem h).Run t u ∧ .ok () ∈ results (u.reports i)

/-- Whatever calls interleave and whatever fails, subscribers see persisted batches only. -/
theorem subscribers_see_persisted_batches {h : Handle K} {t : Traced K} (ht : (traceSystem h).Reachable t) :
    ∃ log, Represents t.pipeline.db.events log ∧
      (∀ e ∈ t.pipeline.published, ∃ i batch, batches (t.reports i) = [batch] ∧ e ∈ delivered (t.reports i)) ∧
      ∀ i batch, batches (t.reports i) = [batch] → PublishesPersisted h t log i batch := by
  obtain ⟨log₀, log, ha⟩ := reachable_accounted ht
  refine ⟨log, ha.represents, ?_, ?_⟩
  · intro e he
    obtain ⟨i, hi⟩ := ha.published e he
    obtain ⟨batch, hb⟩ := (ha.tells i).batches_of_published (List.ne_nil_of_mem (mem_delivered.mp hi))
    exact ⟨i, batch, hb, hi⟩
  · intro i batch hb
    have hsent := (ha.tells i).delivered_isPrefix hb
    refine ⟨?_, hsent, ?_, fun r hr => (ha.tells i).result_ok_iff hb hr, completes (ha.tells i) hb⟩
    · intro e he
      have happ := (ha.tells i).appends_of_published hb (List.ne_nil_of_mem (mem_delivered.mp he))
      refine ⟨hsent.subset he, ?_⟩
      intro x hx
      refine (ha.stored x).mpr (.inr ⟨i, ?_⟩)
      rw [happ]
      exact mem_allOk.mpr hx
    · intro e he
      by_contra hpub
      rw [(ha.tells i).appends_of_published hb hpub] at he
      exact not_mem_allOk batch e he

/-! ## A batch that is not persisted -/

theorem append_ne_append {x y : String} (hne : x.toList ≠ y.toList) (hlen : x.toList.length = y.toList.length)
    (a b : String) : x ++ a ≠ y ++ b := by
  intro h
  have hlist : (x ++ a).toList = (y ++ b).toList := by rw [h]
  rw [String.toList_append, String.toList_append] at hlist
  exact hne (List.append_inj hlist hlen).1

theorem persistenceFailed_ne (e e' : Event K) : persistenceFailed e ≠ publicationFailed e' := by
  have hp : persistenceFailed e = "event persistence failed for `" ++ (K.eventId.text e.id ++ "`") :=
    String.append_assoc
  have hq : publicationFailed e' = "event publication failed for `" ++ (K.eventId.text e'.id ++ "`") :=
    String.append_assoc
  rw [hp, hq]
  exact append_ne_append (by decide +kernel) (by decide +kernel) _ _

/-- The events before the failing one stay in the store, and no others of the batch by this call. -/
theorem failed_batch_leaves_its_head {h : Handle K} {t₀ t : Traced K} (h₀ : (traceSystem h).Reachable t₀)
    (hrun : (traceSystem h).Run t₀ t) {i : Nat} {batch : List (Event K)} (hbatch : batches (t.reports i) = [batch])
    (hnew : ∀ log₀, Represents t₀.pipeline.db.events log₀ → ∀ x ∈ batch, x ∉ log₀) {e : Event K}
    (hfailed : .error (persistenceFailed e) ∈ results (t.reports i)) :
    publications (t.reports i) = [] ∧
    ∃ k x log, batch[k]? = some x ∧ results (t.reports i) = [.error (persistenceFailed x)] ∧
      Represents t.pipeline.db.events log ∧
      ∀ x ∈ batch, x ∈ log ↔ x ∈ batch.take k ∨ ∃ j, j ≠ i ∧ (x, true) ∈ appends (t.reports j) := by
  obtain ⟨base, log₀, ha₀⟩ := reachable_accounted h₀
  obtain ⟨log, ha⟩ := run_accounted ha₀.again hrun
  have ht := ha.tells i
  generalize t.pipeline.dispatch i = d at ht
  cases ht with
  | idle hb happ hpub hres => simp [hres] at hfailed
  | appending stored rest hb happ hpub hres => simp [hres] at hfailed
  | publishing sent rest hb happ hpub hres => simp [hres] at hfailed
  | ok batch' hb happ hpub hres => simp [hres] at hfailed
  | publishFailed sent rest e' hb happ hpub hres =>
    rw [hres, List.mem_singleton] at hfailed
    exact absurd (Except.error.inj hfailed) (persistenceFailed_ne e e')
  | appendFailed stored rest e' hb happ hpub hres =>
    cases hb.symm.trans hbatch
    refine ⟨hpub, stored.length, e', log, by simp, hres, ha.represents, ?_⟩
    intro x hx
    have hold : x ∉ log₀ := hnew log₀ ha₀.represents x hx
    have hown : (x, true) ∈ appends (t.reports i) ↔ x ∈ stored := by
      rw [happ, List.mem_append, mem_allOk]
      simp
    rw [ha.stored, List.take_left]
    constructor
    · rintro (hx | ⟨j, hj⟩)
      · exact absurd hx hold
      · by_cases hji : j = i
        · subst hji
          exact .inl (hown.mp hj)
        · exact .inr ⟨j, hji, hj⟩
    · rintro (hx | ⟨j, -, hj⟩)
      · exact .inr ⟨i, hown.mpr hx⟩
      · exact .inr ⟨j, hj⟩

/-- Everything at rest over `sampleStore`. -/
def sampleTrace : Traced textKernel := ⟨⟨sampleStore.db, fun _ => .idle, []⟩, fun _ => []⟩

theorem sampleTrace_reachable : (traceSystem sampleHandle).Reachable sampleTrace :=
  .start ⟨sampleStore, sampleStore_reachable, rfl, rfl⟩

def sampleBatch : List (Event textKernel) := [sampleEvent "88888888-event", sampleEvent "77777777-event"]

/-- The disk is full when a transaction begins. -/
def diskFull : Faults := fun c => if c = .transaction then some .full else none

def sampleAppended : Db := (execute Faults.none sampleHandle sampleStore.db (.append (sampleEvent "88888888-event"))).2

/-- The call has stored the first event of its batch. -/
def sampleHalfway : Traced textKernel :=
  ⟨⟨sampleAppended, Function.update (fun _ => .idle) 0
      (.appending [sampleEvent "88888888-event"] [sampleEvent "77777777-event"]), []⟩,
    Function.update (fun _ => []) 0 [.began sampleBatch, .appended (sampleEvent "88888888-event") true]⟩

theorem sampleHalfway_run : (traceSystem sampleHandle).Run sampleTrace sampleHalfway := by
  refine .tail (.single ⟨0, _, _, .start _ 0 sampleBatch rfl, rfl⟩)
    ⟨0, [.appended (sampleEvent "88888888-event") true], _, .append _ Faults.none 0 [] [sampleEvent "77777777-event"]
      (sampleEvent "88888888-event") _ sampleAppended rfl rfl, ?_⟩
  simp only [sampleHalfway, Traced.report, State.set, Function.update_idem, Function.update_self]
  rfl

/-- And then has failed at the second one. -/
def sampleFailed : Traced textKernel :=
  sampleHalfway.report 0 [.appended (sampleEvent "77777777-event") false,
      .returned (.error (persistenceFailed (sampleEvent "77777777-event")))]
    ⟨sampleAppended, Function.update sampleHalfway.pipeline.dispatch 0
      (.failed (persistenceFailed (sampleEvent "77777777-event"))), []⟩

theorem sampleFailed_run : (traceSystem sampleHandle).Run sampleTrace sampleFailed :=
  .tail sampleHalfway_run ⟨0, _, _, .appendFailed _ diskFull 0 [sampleEvent "88888888-event"] []
    (sampleEvent "77777777-event") _ sampleAppended rfl rfl, rfl⟩

theorem sampleTrace_represents :
    Represents (K := textKernel) sampleTrace.pipeline.db.events [sampleEvent "99999999-event"] := ⟨rfl, trivial⟩

theorem sampleFailed_represents : Represents (K := textKernel) sampleFailed.pipeline.db.events
    [sampleEvent "99999999-event", sampleEvent "88888888-event"] := ⟨rfl, rfl, trivial⟩

/-- The first event of a batch stays behind when the second one is not persisted. -/
theorem failed_batch_leaves_a_fact :
    (traceSystem sampleHandle).Reachable sampleTrace ∧ (traceSystem sampleHandle).Run sampleTrace sampleFailed ∧
    Represents (K := textKernel) sampleTrace.pipeline.db.events [sampleEvent "99999999-event"] ∧
    (∀ x ∈ sampleBatch, x ∉ [sampleEvent "99999999-event"]) ∧ batches (sampleFailed.reports 0) = [sampleBatch] ∧
    results (sampleFailed.reports 0) = [.error (persistenceFailed (sampleEvent "77777777-event"))] ∧
    Represents (K := textKernel) sampleFailed.pipeline.db.events
      [sampleEvent "99999999-event", sampleEvent "88888888-event"] ∧
    sampleEvent "88888888-event" ∈ sampleBatch :=
  ⟨sampleTrace_reachable, sampleFailed_run, sampleTrace_represents, by decide, rfl, rfl, sampleFailed_represents,
    .head _⟩

theorem failed_batch_leaves_its_head_sample :
    publications (sampleFailed.reports 0) = [] ∧
    ∃ k x log, sampleBatch[k]? = some x ∧ results (sampleFailed.reports 0) = [.error (persistenceFailed x)] ∧
      Represents (K := textKernel) sampleFailed.pipeline.db.events log ∧
      ∀ x ∈ sampleBatch, x ∈ log ↔
        x ∈ sampleBatch.take k ∨ ∃ j, j ≠ 0 ∧ (x, true) ∈ appends (sampleFailed.reports j) := by
  refine failed_batch_leaves_its_head sampleTrace_reachable sampleFailed_run rfl ?_
    (e := sampleEvent "77777777-event") (.head _)
  intro log₀ hr
  rw [hr.unique sampleTrace_represents]
  decide

def sampleStored : Db := (execute Faults.none sampleHandle sampleAppended (.append (sampleEvent "77777777-event"))).2

/-- With its batch stored, the call has published the first event of it. -/
def samplePublishing : Traced textKernel :=
  ⟨⟨sampleStored, Function.update (fun _ => .idle) 0
      (.publishing [sampleEvent "88888888-event"] [sampleEvent "77777777-event"]), [sampleEvent "88888888-event"]⟩,
    Function.update (fun _ => []) 0 [.began sampleBatch, .appended (sampleEvent "88888888-event") true,
      .appended (sampleEvent "77777777-event") true, .published (sampleEvent "88888888-event") true]⟩

theorem samplePublishing_run : (traceSystem sampleHandle).Run sampleTrace samplePublishing := by
  refine .tail (.tail (.tail sampleHalfway_run ⟨0, [.appended (sampleEvent "77777777-event") true], _,
    .append _ Faults.none 0 [sampleEvent "88888888-event"] [] (sampleEvent "77777777-event") _ sampleStored rfl rfl,
      rfl⟩) ⟨0, [], _, .appended _ 0 sampleBatch rfl, rfl⟩) ⟨0, [.published (sampleEvent "88888888-event") true], _,
        .publish _ 0 [] [sampleEvent "77777777-event"] (sampleEvent "88888888-event") rfl, ?_⟩
  simp only [samplePublishing, sampleHalfway, Traced.report, State.set, Function.update_idem, Function.update_self]
  rfl

theorem subscribers_see_persisted_batches_sample :
    delivered (samplePublishing.reports 0) = [sampleEvent "88888888-event"] ∧
    ∃ log, Represents samplePublishing.pipeline.db.events log ∧
      (∀ e ∈ samplePublishing.pipeline.published, ∃ i batch, batches (samplePublishing.reports i) = [batch] ∧
        e ∈ delivered (samplePublishing.reports i)) ∧
      ∀ i batch, batches (samplePublishing.reports i) = [batch] →
        PublishesPersisted sampleHandle samplePublishing log i batch :=
  ⟨rfl, subscribers_see_persisted_batches (sampleTrace_reachable.run samplePublishing_run)⟩

end OrbitRelay.Pipeline
