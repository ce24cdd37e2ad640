import OrbitRelay.AssetLedger
import OrbitRelay.AssetLinear

/-!
# Failed ingests and their retries

Along the run of one call it is recorded who put the row that its asset has. A call
that returns an error has left no row of its own, as long as the removal that it asks
for after a failed rename or publication is carried out; and where no row is left, a
later ingest of the same descriptor inserts the asset.
-/
namespace OrbitRelay.AssetStore

open Codec MachineInt Transition

variable {K : AssetKernel} {s t : Store K} {i j : Nat} {ing ing' : Ingest K} {a : K.AssetId}

/-! ## One call and the row of its asset -/

/-- Who put a row: it was there before the call, or an ingest has staged it since. -/
inductive Source where
  | before
  | call (owner : Nat)
  deriving DecidableEq

structure Tracked (K : AssetKernel) where
  store : Store K
  source : Option Source

/-- The owner of the command that the worker takes next. -/
def nextOwner (s : Store K) : Option Source :=
  match s.worker with
  | some (.command k _ :: _) => some (.call k)
  | _ => none

def sourceAfter (a : K.AssetId) (s t : Store K) (source : Option Source) : Option Source :=
  if (rowOf t a).isNone then none else if (rowOf s a).isNone then nextOwner s else source

/-- The runs of a store in which call `i` is made and not interrupted by a crash, with
steps as allowed. -/
def trackSystem (i : Nat) (a : K.AssetId) (allowed : Store K → Store K → Prop) : System (Tracked K) where
  init x := (system K).Reachable x.store ∧
    (∃ ing, x.store.ingests i = some ing ∧ ing.assetId = a ∧ Resting ing ∧ ing.cancelled = false) ∧
    x.source = if (rowOf x.store a).isNone then none else some .before
  step x y := Step x.store y.store ∧ y.store.ingests i ≠ none ∧ allowed x.store y.store ∧
    y.source = sourceAfter a x.store y.store x.source

/-- The asset has no row, or has had it before the call, or got it from another call. -/
def LeftNoRow (i : Nat) (a : K.AssetId) (x : Tracked K) : Prop :=
  rowOf x.store a = none ∨ x.source = some .before ∨ ∃ k, k ≠ i ∧ x.source = some (.call k)

/-- The removal that the call asks for works: the queue takes it, the worker is not shut
down in front of it, and SQLite deletes the row. -/
structure CleansUp (i : Nat) (s t : Store K) : Prop where
  accepted : ∀ ing ing' e, s.ingests i = some ing → ing.gen = s.gen → t.ingests i = some ing' →
    (ing.phase = .renamed (.error e) → ing'.phase ≠ .removing (.error e)) ∧
    (ing.phase = .quarantined e → ing'.phase ≠ .finished (.error e))
  served : ∀ ing q, s.ingests i = some ing → s.worker = some (.shutdown :: q) →
    Request.command i (.removeStaged ing.assetId) ∈ q → t ≠ s.stopWorker
  executed : ∀ ing q, s.ingests i = some ing →
    s.worker = some (.command i (.removeStaged ing.assetId) :: q) → t.worker = some q →
    t.disk.assets = deleteStaged s.disk.assets (K.assetId.text ing.assetId)

def cleanSystem (i : Nat) (a : K.AssetId) : System (Tracked K) := trackSystem i a (CleansUp i)

theorem sourceAfter_same {source : Option Source} (hrow : rowOf t a = none ∨ rowOf s a ≠ none) {x : Source}
    (h : sourceAfter a s t source = some x) : rowOf t a ≠ none ∧ source = some x := by
  unfold sourceAfter at h
  split at h
  · cases h
  · rename_i hsome
    have hsome' : rowOf t a ≠ none := by simpa using hsome
    rw [if_neg] at h
    · exact ⟨hsome', h⟩
    · simpa using hrow.resolve_left hsome'

/-- Only a turn of the worker puts a row. -/
theorem row_put (h : Step s t) (hs : rowOf s a = none) (ht : rowOf t a ≠ none) :
    ∃ k c q, s.worker = some (.command k c :: q) := by
  cases step_change h with
  | advanced i ing ing' h => exact absurd ((h.rows.row a).trans hs) ht
  | sent i ing q c sent refused _ _ _ _ _ _ _ hrows => exact absurd ((hrows.row a).trans hs) ht
  | worked f i ing c q hq _ _ _ _ _ _ => exact ⟨i, c, q, hq⟩
  | begun i ing _ _ _ _ _ hrows => exact absurd ((hrows.row a).trans hs) ht
  | closing q _ _ _ hrows => exact absurd ((hrows.row a).trans hs) ht
  | stopped _ h =>
    subst h
    exact absurd hs ht
  | crashed h =>
    subst h
    exact absurd hs ht
  | recovered _ _ _ hr _ =>
    obtain ⟨row, hrow⟩ := Option.ne_none_iff_exists'.mp ht
    have hold := hr.rows _ row hrow
    rw [show s.disk.assets.lookup (K.assetId.text a) = none from hs] at hold
    cases hold

/-- A row is there with its source. -/
def Sourced (a : K.AssetId) (x : Tracked K) : Prop := rowOf x.store a = none ∨ x.source ≠ none

theorem sourced_step {allowed : Store K → Store K → Prop} {x y : Tracked K} (hx : Sourced a x)
    (h : (trackSystem i a allowed).step x y) : Sourced a y := by
  obtain ⟨hstep, -, -, hsource⟩ := h
  by_cases ht : rowOf y.store a = none
  · exact .inl ht
  · refine .inr ?_
    rw [hsource, sourceAfter, if_neg (by simpa using ht)]
    by_cases hs : rowOf x.store a = none
    · obtain ⟨k, c, q, hq⟩ := row_put hstep hs ht
      rw [if_pos (by simp [hs]), nextOwner, hq]
      simp
    · rw [if_neg (by simpa using hs)]
      exact hx.resolve_left hs

/-- The call is on its way to publish or to remove the row it has put, or has published it. -/
structure Minds (s : Store K) (i : Nat) (ing : Ingest K) : Prop where
  keeps : ing.phase.keeps = true
  current : ing.phase.owns = true → ing.gen = s.gen
  staged : ing.phase.owns = true → ∃ row, rowOf s ing.assetId = some row ∧
    row.publicationState = PublicationState.staged.text
  queued : ∀ e b, ing.phase = .unstaging e b → ∃ q, s.worker = some q ∧
    Request.command i (.removeStaged ing.assetId) ∈ q

/-- What holds along the run of a call. -/
structure Follows (i : Nat) (a : K.AssetId) (x : Tracked K) : Prop where
  ledger : Ledger x.store
  sourced : Sourced a x
  minds : ∃ ing, x.store.ingests i = some ing ∧ ing.assetId = a ∧
    (x.source = some (.call i) → ing.cancelled = false → Minds x.store i ing)

theorem Minds.frame (h : Minds s i ing) (hgen : t.gen = s.gen)
    (hrow : ing.phase.owns = true → rowOf t ing.assetId = rowOf s ing.assetId)
    (hqueue : ∀ e b q, ing.phase = .unstaging e b → s.worker = some q →
      Request.command i (.removeStaged ing.assetId) ∈ q →
      ∃ q', t.worker = some q' ∧ Request.command i (.removeStaged ing.assetId) ∈ q') : Minds t i ing where
  keeps := h.keeps
  current := by
    intro howns
    rw [hgen]
    exact h.current howns
  staged := by
    intro howns
    rw [hrow howns]
    exact h.staged howns
  queued := by
    intro e b hphase
    obtain ⟨q, hq, hmem⟩ := h.queued e b hphase
    exact hqueue e b q hphase hq hmem

/-- The call goes on by itself. -/
theorem Minds.advanced (h : Minds s i ing) (hstep : Advanced s t i ing ing') (hclean : CleansUp i s t)
    (hc : ing'.cancelled = false) : Minds t i ing' := by
  have hid : ing'.assetId = ing.assetId := by rw [Ingest.assetId, hstep.same.descriptor, Ingest.assetId]
  have hself : t.ingests i = some ing' := by rw [hstep.ingests, Function.update_self]
  refine ⟨?_, ?_, ?_, ?_⟩
  · rcases hstep.keeps hc h.keeps with hkeeps | ⟨e, hp, hp'⟩ | ⟨e, hp, hp'⟩ | ⟨e, b, hp, hdead⟩
    · exact hkeeps
    · have hgen := h.current (by simp [hp, Phase.owns])
      exact absurd hp' ((hclean.accepted ing ing' e hstep.found hgen hself).1 hp)
    · have hgen := h.current (by simp [hp, Phase.owns])
      exact absurd hp' ((hclean.accepted ing ing' e hstep.found hgen hself).2 hp)
    · obtain ⟨q, hq, -⟩ := h.queued e b hp
      exact absurd ⟨h.current (by simp [hp, Phase.owns]), by simp [hq]⟩ hdead
  · intro howns
    rw [hstep.same.gen, hstep.rows.gen]
    exact h.current (hstep.owns hc howns)
  · intro howns
    rw [hid, hstep.rows.row]
    exact h.staged (hstep.owns hc howns)
  · intro e b hp
    exact absurd hp (hstep.unstages hc e b)

/-- It has sent a command. -/
theorem Minds.sent (h : Minds s i ing) {q : List (Request K)} {c : Command K} {sent : Phase K}
    {refused : LocalAssetStoreError K → Phase K} (hr : resume ing = some (.send c sent refused))
    (hrows : SameRows s t) (hworker : t.worker = some (q ++ [.command i c])) :
    Minds t i { ing with phase := sent } := by
  obtain ⟨hawaits, howns, hkeeps⟩ := resume_sent_owns hr
  refine ⟨hkeeps h.keeps, ?_, ?_, ?_⟩
  · intro hsent
    rw [hrows.gen]
    exact h.current (howns hsent)
  · intro hsent
    rw [hrows.row]
    exact h.staged (howns hsent)
  · intro e b hp
    have hsent : sent = .unstaging e b := hp
    subst hsent
    cases hawaits
    exact ⟨_, hworker, by simp [Ingest.assetId]⟩

/-- The worker has taken its command. -/
theorem Minds.worked {assets : AssetTable} {stagedBy : K.AssetId → Option Nat} {p : Phase K}
    (h : rowOf s ing.assetId ≠ none → Minds s i ing) (hturned : Turned s i ing assets stagedBy p)
    (hassets : t.disk.assets = assets) (hgen : t.gen = s.gen) (hcurrent : ing.gen = s.gen)
    (hp : ∀ e b, p ≠ .unstaging e b) (hrow : rowOf t ing.assetId ≠ none)
    (hexecuted : (∃ e b, ing.phase = .unstaging e b) →
      t.disk.assets = deleteStaged s.disk.assets (K.assetId.text ing.assetId)) :
    Minds t i { ing with phase := p } := by
  have hremoves : ∀ e b, ing.phase = .unstaging e b → False := by
    intro e b hphase
    have hdelete := hexecuted ⟨e, b, hphase⟩
    rw [rowOf, hdelete] at hrow
    rcases lookup_deleteStaged s.disk.assets (K.assetId.text ing.assetId) (K.assetId.text ing.assetId) with
      heq | ⟨-, hnone, -⟩
    · rw [heq] at hrow
      obtain ⟨row, hstaged, hstate⟩ := (h hrow).staged (by simp [hphase, Phase.owns])
      have hstaged' : s.disk.assets.lookup (K.assetId.text ing.assetId) = some row := hstaged
      rw [deleteStaged, hstaged'] at heq
      simp only [hstate, if_true] at heq
      rw [AList.lookup_erase] at heq
      cases heq
    · exact hrow hnone
  refine ⟨?_, fun _ => hcurrent.trans hgen.symm, ?_, fun e b hphase => absurd hphase (hp e b)⟩
  · cases hturned with
    | kept heq _ _ hkeeps =>
      rw [rowOf, hassets, heq] at hrow
      rcases hkeeps (h hrow).keeps with hk | ⟨e, b, hphase⟩
      · exact hk
      · exact (hremoves e b hphase).elim
    | staged row _ _ _ _ hphase =>
      rw [hphase]
      rfl
    | published row _ _ _ hphase =>
      rw [hphase]
      rfl
    | removed e b hphase _ _ _ => exact (hremoves e b hphase).elim
  · intro howns
    rw [rowOf, hassets]
    cases hturned with
    | kept heq _ hold _ =>
      rw [rowOf, hassets, heq] at hrow
      rw [heq]
      exact (h hrow).staged (hold howns)
    | staged row _ hstate heq _ _ =>
      rw [heq]
      exact ⟨row, AList.lookup_insert _, hstate⟩
    | published row _ _ _ hphase =>
      rw [show p = _ from hphase] at howns
      cases howns
    | removed e b hphase _ _ _ => exact (hremoves e b hphase).elim

/-- The worker has taken the command of another ingest. -/
theorem Minds.bystands (h : Minds s i ing) (hs : Ledger s) (hi : s.ingests i = some ing)
    (hc : ing.cancelled = false) {k : Nat} {x : Ingest K} {c : Command K} {q : List (Request K)} {p : Phase K}
    (hk : i ≠ k) (hq : s.worker = some (.command k c :: q))
    (hown : x.phase.owns = true → s.stagedBy x.assetId = some k)
    (hturned : Turned s k x t.disk.assets t.stagedBy p) (hgen : t.gen = s.gen) (hworker : t.worker = some q) :
    Minds t i ing := by
  refine h.frame hgen ?_ ?_
  · intro howns
    have hst := hs.owns i ing hi ⟨h.current howns, by simp [hq]⟩ hc howns
    by_cases ha : ing.assetId = x.assetId
    · rw [ha] at hst
      have hnot : x.phase.owns = true → False := by
        intro hx
        rw [hown hx] at hst
        exact hk (Option.some.inj hst).symm
      cases hturned with
      | kept heq _ _ _ => rw [rowOf, rowOf, heq]
      | staged row hnone _ _ _ _ => exact absurd hnone (hs.staged _ _ hst)
      | published row hx _ _ _ => exact (hnot hx).elim
      | removed e b hphase _ _ _ => exact (hnot (by simp [hphase, Phase.owns])).elim
    · exact (hturned.row_other ha).1
  · intro e b q' _ hq' hmem
    rw [hq] at hq'
    cases hq'
    refine ⟨q, hworker, (List.mem_cons.mp hmem).resolve_left ?_⟩
    intro heq
    cases heq
    exact hk rfl

/-- The call is still there, and minds the row of its asset if that is its own. -/
def StillMinds (t : Store K) (i : Nat) (a : K.AssetId) (source : Option Source) : Prop :=
  ∃ x, t.ingests i = some x ∧ x.assetId = a ∧
    (source = some (.call i) → x.cancelled = false → Minds t i x)

theorem SameRows.unput (h : SameRows s t) : rowOf t a = none ∨ rowOf s a ≠ none := by
  rw [h.row]
  exact em _

section Step

variable {source : Option Source} (hminds : source = some (.call i) → ing.cancelled = false → Minds s i ing)

include hminds

/-- A step that the worker has no part in. -/
theorem Minds.step (ht : t.ingests i = some ing') (ha' : ing'.assetId = a)
    (hc : ing'.cancelled = false → ing.cancelled = false) (hrow : rowOf t a = none ∨ rowOf s a ≠ none)
    (hstep : rowOf t a ≠ none → ing'.cancelled = false → Minds s i ing → Minds t i ing') :
    StillMinds t i a (sourceAfter a s t source) := by
  refine ⟨ing', ht, ha', ?_⟩
  intro hsource hcancelled
  obtain ⟨hsome, hsource⟩ := sourceAfter_same hrow hsource
  exact hstep hsome hcancelled (hminds hsource (hc hcancelled))

/-- A step of somebody else, after which what was queued is still queued. -/
theorem Minds.stays (ha : ing.assetId = a) (ht : t.ingests i = some ing) (hrows : SameRows s t)
    (hqueue : ∀ q r, s.worker = some q → r ∈ q → ∃ q', t.worker = some q' ∧ r ∈ q') :
    StillMinds t i a (sourceAfter a s t source) := by
  refine Minds.step hminds ht ha id hrows.unput ?_
  intro _ _ hm
  exact hm.frame hrows.gen (fun _ => hrows.row _) (fun e b q _ hq hmem => hqueue q _ hq hmem)

/-- The worker has taken the command of the call itself. -/
theorem minds_served (hi : s.ingests i = some ing) (ha : ing.assetId = a) {c : Command K} {q : List (Request K)}
    {p : Phase K} (hawaits : awaited ing = some c) (hp : ∀ e b, p ≠ .unstaging e b)
    (ht : t.ingests i = some (if ing.cancelled then ing else { ing with phase := p }))
    (hturned : Turned s i ing t.disk.assets t.stagedBy p) (hcurrent : ing.gen = s.gen) (hgen : t.gen = s.gen)
    (hq : s.worker = some (.command i c :: q)) (hworker : t.worker = some q) (hclean : CleansUp i s t) :
    StillMinds t i a (sourceAfter a s t source) := by
  cases hcancelled : ing.cancelled with
  | true =>
    rw [hcancelled, if_pos rfl] at ht
    refine ⟨ing, ht, ha, ?_⟩
    intro _ hfalse
    rw [hcancelled] at hfalse
    cases hfalse
  | false =>
    rw [if_neg (by simp [hcancelled])] at ht
    refine ⟨{ ing with phase := p }, ht, ha, ?_⟩
    intro hsource _
    have hsome : rowOf t a ≠ none := by
      intro hnone
      simp [sourceAfter, hnone] at hsource
    subst ha
    refine Minds.worked ?_ hturned rfl hgen hcurrent hp hsome ?_
    · intro hrow
      exact hminds (sourceAfter_same (.inr hrow) hsource).2 hcancelled
    · rintro ⟨e, b, hphase⟩
      obtain rfl : Command.removeStaged ing.assetId = c := by
        simpa [awaited, hphase] using hawaits
      exact hclean.executed ing q hi hq hworker

/-- The worker has taken the command of another call. -/
theorem minds_passed (hs : Ledger s) (hi : s.ingests i = some ing) (ha : ing.assetId = a) {k : Nat} {x : Ingest K}
    {c : Command K} {q : List (Request K)} {p : Phase K} (hk : i ≠ k) (ht : t.ingests i = some ing)
    (hown : x.phase.owns = true → s.stagedBy x.assetId = some k)
    (hturned : Turned s k x t.disk.assets t.stagedBy p) (hgen : t.gen = s.gen)
    (hq : s.worker = some (.command k c :: q)) (hworker : t.worker = some q) :
    StillMinds t i a (sourceAfter a s t source) := by
  refine ⟨ing, ht, ha, ?_⟩
  intro hsource hc
  by_cases hrow : rowOf s a = none
  · have hsome : rowOf t a ≠ none := by
      intro hnone
      simp [sourceAfter, hnone] at hsource
    have hnext : nextOwner s = some (.call i) := by
      rw [sourceAfter, if_neg (by simpa using hsome), if_pos (by simp [hrow])] at hsource
      exact hsource
    rw [nextOwner, hq] at hnext
    cases hnext
    exact absurd rfl hk
  · obtain ⟨-, hsource⟩ := sourceAfter_same (.inr hrow) hsource
    exact (hminds hsource hc).bystands hs hi hc hk hq hown hturned hgen hworker

/-- The worker has stopped. -/
theorem minds_stopped (hi : s.ingests i = some ing) (ha : ing.assetId = a)
    (hstop : (∃ q, s.worker = some (.shutdown :: q)) ∨ s.worker = some []) (ht : t = s.stopWorker)
    (hclean : CleansUp i s t) : StillMinds t i a (sourceAfter a s t source) := by
  have hrow : rowOf t a = none ∨ rowOf s a ≠ none := by
    subst ht
    exact em _
  refine Minds.step hminds (by rw [ht]; exact hi) ha id hrow ?_
  intro _ _ hm
  refine hm.frame (by rw [ht]; rfl) (fun _ => by rw [ht]; rfl) ?_
  intro e b q _ hq hmem
  rcases hstop with ⟨q', hq'⟩ | hq'
  · rw [hq'] at hq
    cases hq
    have hbehind := (List.mem_cons.mp hmem).resolve_left (by simp)
    exact absurd ht (hclean.served ing q' hi hq' hbehind)
  · rw [hq'] at hq
    cases hq
    cases hmem

/-- The store was opened again, or the attempt failed. -/
theorem minds_recovered (hi : s.ingests i = some ing) (ha : ing.assetId = a) (hw : s.worker = none)
    (ht : t.ingests = s.ingests) (hr : Recovered K s.disk t.disk)
    (hopen : (t.gen = s.gen ∧ t.worker = none) ∨ (t.gen = s.gen + 1 ∧ t.worker = some [] ∧ Clean K t.disk)) :
    StillMinds t i a (sourceAfter a s t source) := by
  have hold : ∀ row, rowOf t a = some row → rowOf s a = some row := fun row h => hr.rows _ row h
  have hrow : rowOf t a = none ∨ rowOf s a ≠ none := by
    cases h : rowOf t a with
    | none => exact .inl rfl
    | some row =>
      rw [hold row h]
      exact .inr (Option.some_ne_none row)
  refine Minds.step hminds (by rw [ht, hi]) ha id hrow ?_
  intro hsome _ hm
  obtain ⟨row, hrow'⟩ := Option.ne_none_iff_exists'.mp hsome
  rcases hopen with ⟨hgen, -⟩ | ⟨-, -, hopened⟩
  · refine hm.frame hgen ?_ ?_
    · intro _
      rw [ha, hrow', hold row hrow']
    · intro e b q _ hq
      rw [hw] at hq
      cases hq
  · have hnot : ing.phase.owns = true → False := by
      intro howns
      obtain ⟨row', hrow'', hstate⟩ := hm.staged howns
      rw [ha, hold row hrow'] at hrow''
      cases hrow''
      obtain ⟨record, hd, hpublished, -⟩ := hopened.rows _ row hrow'
      obtain ⟨-, -, -, -, -, -, -, hstate'⟩ := decodeRow_eq_ok.mp hd
      rw [hpublished, hstate] at hstate'
      exact absurd hstate' (by decide)
    refine ⟨hm.keeps, fun h => (hnot h).elim, fun h => (hnot h).elim, ?_⟩
    intro e b hphase
    exact (hnot (by simp [hphase, Phase.owns])).elim

theorem minds_step (hs : Ledger s) (hi : s.ingests i = some ing) (ha : ing.assetId = a) (h : Step s t)
    (hthere : t.ingests i ≠ none) (hclean : CleansUp i s t) :
    StillMinds t i a (sourceAfter a s t source) := by
  cases step_change h with
  | advanced k x x' h =>
    by_cases hk : i = k
    · subst hk
      obtain rfl : x = ing := Option.some.inj (h.found.symm.trans hi)
      have ha' : x'.assetId = a := by rw [Ingest.assetId, h.same.descriptor, ← ha, Ingest.assetId]
      refine Minds.step hminds (by rw [h.ingests, Function.update_self]) ha' h.cancelled h.rows.unput ?_
      intro _ hc hm
      exact hm.advanced h hclean hc
    · refine Minds.stays hminds ha (by rw [h.ingests, Function.update_of_ne hk, hi]) h.rows ?_
      intro q r hq hr
      exact ⟨q, h.worker.trans hq, hr⟩
  | sent k x q c sent refused hx hc hr hgen hq ht hworker hrows =>
    by_cases hk : i = k
    · subst hk
      obtain rfl : x = ing := Option.some.inj (hx.symm.trans hi)
      have hself : t.ingests i = some { x with phase := sent } := by rw [ht, Function.update_self]
      refine Minds.step hminds hself ha id hrows.unput ?_
      intro _ _ hm
      exact hm.sent hr hrows hworker
    · refine Minds.stays hminds ha (by rw [ht, Function.update_of_ne hk, hi]) hrows ?_
      intro q' r hq' hmem
      rw [hq] at hq'
      cases hq'
      exact ⟨_, hworker, List.mem_append_left _ hmem⟩
  | worked f k x c q hq hx ht hassets hworker hgen hst =>
    obtain ⟨y, hy, hcurrent, hawaits, hown⟩ := hs.queued _ k c hq List.mem_cons_self
    obtain rfl : y = x := Option.some.inj (hy.symm.trans hx)
    obtain ⟨p, hdeliver, hp, -, hturned⟩ := execute_turned (s := s) (i := k) f hawaits
    rw [hdeliver] at ht
    rw [← hassets, ← hst] at hturned
    by_cases hk : i = k
    · subst hk
      obtain rfl : y = ing := Option.some.inj (hx.symm.trans hi)
      have hself : t.ingests i = some (if y.cancelled then y else { y with phase := p }) := by
        rw [ht, Function.update_self]
      exact minds_served hminds hi ha hawaits hp hself hturned hcurrent hgen hq hworker hclean
    · have hself : t.ingests i = some ing := by rw [ht, Function.update_of_ne hk, hi]
      exact minds_passed hminds hs hi ha hk hself hown hturned hgen hq hworker
  | begun k x hx hgen hrest ht hworker hrows =>
    have hk : i ≠ k := by
      rintro rfl
      rw [hi] at hx
      cases hx
    refine Minds.stays hminds ha (by rw [ht, Function.update_of_ne hk, hi]) hrows ?_
    intro q r hq hr
    exact ⟨q, hworker.trans hq, hr⟩
  | closing q hq hworker ht hrows =>
    refine Minds.stays hminds ha (by rw [ht, hi]) hrows ?_
    intro q' r hq' hmem
    rw [hq] at hq'
    cases hq'
    exact ⟨_, hworker, List.mem_append_left _ hmem⟩
  | stopped hstop ht => exact minds_stopped hminds hi ha hstop ht hclean
  | crashed ht =>
    subst ht
    exact absurd rfl hthere
  | recovered hw ht _ hr hopen => exact minds_recovered hminds hi ha hw ht hr hopen

end Step

theorem follows_step {x y : Tracked K} (hx : Follows i a x) (h : (cleanSystem i a).step x y) : Follows i a y := by
  have hsourced := sourced_step hx.sourced h
  obtain ⟨hstep, hthere, hclean, hsource⟩ := h
  obtain ⟨ing, hi, ha, hminds⟩ := hx.minds
  refine ⟨step_ledger hx.ledger hstep, hsourced, ?_⟩
  rw [hsource]
  exact minds_step hminds hx.ledger hi ha hstep hthere hclean

theorem follows_start {x : Tracked K} (h : (cleanSystem i a).init x) : Follows i a x := by
  obtain ⟨hr, ⟨ing, hi, ha, -⟩, hsource⟩ := h
  refine ⟨reachable_ledger hr, ?_, ing, hi, ha, ?_⟩
  · unfold Sourced
    rw [hsource]
    cases rowOf x.store a with
    | none => exact .inl rfl
    | some row => exact .inr (by simp)
  · intro hcall
    rw [hsource] at hcall
    split at hcall <;> cases hcall

theorem Follows.leftNoRow {x : Tracked K} (h : Follows i a x) (hi : x.store.ingests i = some ing)
    (hc : ing.cancelled = false) {e : LocalAssetStoreError K} (hphase : ing.phase = .finished (.error e)) :
    LeftNoRow i a x := by
  rcases h.sourced with hnone | hsome
  · exact .inl hnone
  · obtain ⟨source, hsource⟩ := Option.ne_none_iff_exists'.mp hsome
    cases source with
    | before => exact .inr (.inl hsource)
    | call k =>
      refine .inr (.inr ⟨k, ?_, hsource⟩)
      rintro rfl
      obtain ⟨ing', hi', -, hminds⟩ := h.minds
      obtain rfl : ing' = ing := Option.some.inj (hi'.symm.trans hi)
      have hkeeps := (hminds hsource hc).keeps
      rw [hphase] at hkeeps
      cases hkeeps

/-! ## The retry -/

/-- Runs of an open store in which nothing fails for ingest `j`, while other calls do
what they like except to put or take the row of its asset. -/
def retrySystem (j : Nat) (a : K.AssetId) : System (Store K) where
  init := (system K).Reachable
  step s t := Step s t ∧ t.gen = s.gen ∧ t.worker ≠ none ∧ (t.ingests j ≠ s.ingests j → Calm s t) ∧
    (t.ingests j = s.ingests j → rowOf t a = rowOf s a)

/-- How far an ingest is for which nothing has failed and nothing was in the way. -/
def Onward (s : Store K) (ing : Ingest K) : Prop :=
  match ing.phase with
  | .waiting => rowOf s ing.assetId = none
  | .looking => rowOf s ing.assetId = none
  | .looked r => r = .ok none ∧ rowOf s ing.assetId = none
  | .creating => rowOf s ing.assetId = none
  | .writing written rest => rowOf s ing.assetId = none ∧ written ++ streamed rest = ing.content
  | .staging => rowOf s ing.assetId = none
  | .stageAnswered r => r = .ok .inserted ∧ Staged s ing
  | .renaming => Staged s ing
  | .renamed r => r = .ok () ∧ Staged s ing
  | .publishing => Staged s ing
  | .publishAnswered r => r = .ok ()
  | .finished r => r = .ok .inserted
  | _ => False

theorem Onward.frame (h : Onward s ing) (hrow : rowOf t ing.assetId = rowOf s ing.assetId) : Onward t ing := by
  have hstaged : Staged s ing → Staged t ing := by
    rintro ⟨n, hn, hlookup⟩
    exact ⟨n, hn, hrow.trans hlookup⟩
  unfold Onward at h ⊢
  split at h
  · exact hrow.trans h
  · exact hrow.trans h
  · exact ⟨h.1, hrow.trans h.2⟩
  · exact hrow.trans h
  · exact ⟨hrow.trans h.1, h.2⟩
  · exact hrow.trans h
  · exact ⟨h.1, hstaged h.2⟩
  · exact hstaged h
  · exact ⟨h.1, hstaged h.2⟩
  · exact hstaged h
  · exact h
  · exact h
  · exact h.elim

theorem Onward.send (h : Onward s ing) {c : Command K} {sent : Phase K}
    {refused : LocalAssetStoreError K → Phase K} (hr : resume ing = some (.send c sent refused)) :
    Onward s { ing with phase := sent } := by
  cases resume_sends hr with
  | lookup hphase =>
    simp only [Onward, hphase] at h
    exact h
  | stage hphase _ =>
    simp only [Onward, hphase] at h
    exact h.1
  | publish hphase =>
    simp only [Onward, hphase] at h
    exact h.2
  | unstage hphase =>
    simp only [Onward, hphase] at h
    cases h.1
  | withdraw hphase => simp only [Onward, hphase] at h

theorem Onward.proceed (h : Onward s ing) (hm : Matches ing) {p : Phase K}
    (hr : resume ing = some (.become p)) : Onward s { ing with phase := p } := by
  cases resume_becomes hr with
  | @mismatched written error hphase hverify =>
    simp only [Onward, hphase, streamed, List.filterMap_nil, List.flatten_nil, List.append_nil] at h
    obtain ⟨-, rfl⟩ := h
    rw [hm.verified] at hverify
    cases hverify
  | absent hphase | inserted hphase =>
    simp only [Onward, hphase] at h
    exact h.2
  | published hphase => rfl
  | lookupFailed hphase | found hphase _ _ | stageFailed hphase | existing hphase =>
    simp only [Onward, hphase] at h
    cases h.1
  | publishFailed hphase =>
    simp only [Onward, hphase] at h
    cases h
  | unstaged hphase | withdrawn hphase => simp only [Onward, hphase] at h

/-- A turn of the worker in which nothing fails. -/
theorem Onward.work (h : Onward s ing) (hc : ing.cancelled = false) (hfits : Fits ing) {c : Command K}
    (hawaits : awaited ing = some c) :
    ∃ p, ing.deliver (execute Faults.none s.disk.assets c).1 = { ing with phase := p } ∧
      ∀ t : Store K, t.disk.assets = (execute Faults.none s.disk.assets c).2 → Onward t { ing with phase := p } := by
  cases awaited_awaits hawaits with
  | lookup hphase =>
    simp only [Onward, hphase] at h
    refine ⟨.looked (.ok none), ?_, ?_⟩
    · simp [Ingest.deliver, execute, hc, hphase, lookupAsset_absent h]
    · intro t ht
      refine ⟨rfl, ?_⟩
      rw [rowOf, ht]
      exact h
  | stage hphase =>
    simp only [Onward, hphase] at h
    have hrow : s.disk.assets.lookup (K.assetId.text ing.descriptor.assetId) = none := h
    have hfresh := stageAsset_absent ing.key hrow hfits
    refine ⟨.stageAnswered (.ok .inserted), ?_, ?_⟩
    · simp [Ingest.deliver, execute, hc, hphase, hfresh]
    · intro t ht
      refine ⟨rfl, ing.descriptor.byteLength, ?_, ?_⟩
      · simp [toI64, show ing.descriptor.byteLength ≤ i64Max from hfits]
      · rw [ht]
        simp only [execute, hfresh]
        exact AList.lookup_insert _
  | publish hphase =>
    simp only [Onward, hphase] at h
    obtain ⟨row, hpublish, -⟩ := publishAsset_staged h
    refine ⟨.publishAnswered (.ok ()), ?_, fun _ _ => rfl⟩
    simp [Ingest.deliver, execute, hc, hphase, hpublish]
  | removeStaged hphase => simp only [Onward, hphase] at h

/-- The retry so far. -/
structure Retries (s : Store K) (j : Nat) (ing : Ingest K) : Prop where
  ledger : Ledger s
  ingest : s.ingests j = some ing
  fits : Fits ing
  source : Matches ing
  kept : ing.cancelled = false
  onward : Onward s ing

/-- The call goes on: what it is about does not change. -/
theorem Retries.moved (h : Retries s j ing) (ht : Ledger t) {p : Phase K}
    (hself : t.ingests j = some { ing with phase := p }) (honward : Onward t { ing with phase := p }) :
    Retries t j { ing with phase := p } :=
  ⟨ht, hself, h.fits, ⟨h.source.readable, h.source.chunks, h.source.length, h.source.hash⟩, h.kept, honward⟩

theorem Retries.calm (h : Retries s j ing) (hcalm : Calm s t) (hne : t.ingests j ≠ s.ingests j) :
    ∃ p, Retries t j { ing with phase := p } := by
  have hledger := step_ledger h.ledger hcalm.step
  have honward := h.onward
  have hmover : ∀ {i : Nat} {x : Ingest K} {y : Ingest K}, s.ingests i = some x →
      t.ingests = Function.update s.ingests i (some y) → i = j ∧ x = ing ∧ t.ingests j = some y := by
    intro i x y hx ht
    have hij : i = j := by
      by_contra hij
      exact hne (by rw [ht, Function.update_of_ne (Ne.symm hij)])
    subst hij
    exact ⟨rfl, Option.some.inj (hx.symm.trans h.ingest), by rw [ht, Function.update_self]⟩
  cases hcalm with
  | send i x q c sent refused hx hc hr hg hq hw =>
    obtain ⟨rfl, rfl, hself⟩ := hmover hx rfl
    exact ⟨sent, h.moved hledger hself ((honward.send hr).frame rfl)⟩
  | proceed i x p hx hc hr =>
    obtain ⟨rfl, rfl, hself⟩ := hmover hx rfl
    exact ⟨p, h.moved hledger hself ((honward.proceed h.source hr).frame rfl)⟩
  | work i x c q hq hx =>
    obtain ⟨rfl, rfl, hself⟩ := hmover hx rfl
    obtain ⟨y, hy, -, hawaits, -⟩ := h.ledger.queued _ i c hq List.mem_cons_self
    obtain rfl : y = x := Option.some.inj (hy.symm.trans hx)
    obtain ⟨p, hdeliver, hp⟩ := honward.work h.kept h.fits hawaits
    exact ⟨p, h.moved hledger (hself.trans (by rw [hdeliver])) (hp _ rfl)⟩
  | create i x hx hp hn =>
    obtain ⟨rfl, rfl, hself⟩ := hmover hx rfl
    have hgoOn := goOn_calm h.kept (.writing [] x.reads)
    simp only [Onward, hp] at honward
    exact ⟨.writing [] x.reads, h.moved hledger (hself.trans (by rw [hgoOn])) ⟨honward, rfl⟩⟩
  | write i x written chunk rest length hx hp ha =>
    obtain ⟨rfl, rfl, hself⟩ := hmover hx rfl
    have hgoOn := goOn_calm h.kept (.writing (written ++ chunk) rest)
    simp only [Onward, hp] at honward
    refine ⟨.writing (written ++ chunk) rest, h.moved hledger (hself.trans (by rw [hgoOn])) ⟨honward.1, ?_⟩⟩
    rw [List.append_assoc]
    exact honward.2
  | rename i x node hx hp hn =>
    obtain ⟨rfl, rfl, hself⟩ := hmover hx rfl
    simp only [Onward, hp] at honward
    exact ⟨.renamed (.ok ()), h.moved hledger hself ⟨rfl, honward⟩⟩
  | remove i x result hx hp =>
    obtain ⟨rfl, rfl, hself⟩ := hmover hx rfl
    simp only [Onward, hp] at honward

theorem retry_step (ha : ing.assetId = a) (h : Retries s j ing) (hstep : (retrySystem j a).step s t) :
    ∃ p, Retries t j { ing with phase := p } := by
  obtain ⟨hstep, -, -, hcalm, hothers⟩ := hstep
  by_cases hne : t.ingests j = s.ingests j
  · refine ⟨ing.phase, h.moved (step_ledger h.ledger hstep) (hne.trans h.ingest) ?_⟩
    refine h.onward.frame ?_
    rw [ha]
    exact hothers hne
  · exact h.calm (hcalm hne) hne

/-- The retry cannot return anything but its insertion. -/
theorem retry_run (ha : ing.assetId = a) (h : Retries s j ing) (hrun : (retrySystem j a).Run s t) :
    ∃ p, Retries t j { ing with phase := p } := by
  induction hrun with
  | refl => exact ⟨ing.phase, h⟩
  | tail _ hstep ih =>
    obtain ⟨p, hp⟩ := ih
    obtain ⟨p', hp'⟩ := retry_step (show Ingest.assetId { ing with phase := p } = a from ha) hp hstep
    exact ⟨p', hp'⟩

/-- The store without all ingests but one. -/
def Store.only (s : Store K) (j : Nat) : Store K :=
  { s with ingests := fun k => if k = j then s.ingests k else none }

theorem only_ingest (hi : (s.only j).ingests i = some ing) : i = j ∧ s.ingests j = some ing := by
  simp only [Store.only] at hi
  split at hi
  · rename_i hij
    subst hij
    exact ⟨rfl, hi⟩
  · cases hi

theorem only_self : (s.only j).ingests j = s.ingests j := if_pos rfl

theorem only_update (f : Nat → Option (Ingest K)) (j : Nat) (x : Ingest K) :
    (fun k => if k = j then Function.update f j (some x) k else none) =
      Function.update (fun k => if k = j then f k else none) j (some x) := by
  funext k
  by_cases hk : k = j
  · subst hk
    simp
  · simp [hk]

theorem only_put (s : Store K) (j : Nat) (x : Ingest K) : (s.put j x).only j = (s.only j).put j x :=
  congrArg (fun f => { s.put j x with ingests := f }) (only_update s.ingests j x)

/-- The other ingests are not in the way of a step. -/
theorem calm_of_only {u : Store K} (h : Calm (s.only j) u) : ∃ t, Calm s t ∧ t.only j = u := by
  cases h with
  | send i ing q c sent refused hi hc hr hg hq hw =>
    obtain ⟨rfl, hi⟩ := only_ingest hi
    refine ⟨_, .send s i ing q c sent refused hi hc hr hg hq hw, ?_⟩
    simp only [Store.only, Store.put, only_update]
  | proceed i ing p hi hc hr =>
    obtain ⟨rfl, hi⟩ := only_ingest hi
    exact ⟨_, .proceed s i ing p hi hc hr, only_put s i _⟩
  | work i ing c q hq hi =>
    obtain ⟨rfl, hi⟩ := only_ingest hi
    exact ⟨_, .work s i ing c q hq hi,
      congrArg (fun f => { s.put i (ing.deliver (execute Faults.none s.disk.assets c).1) with
        disk := ⟨(execute Faults.none s.disk.assets c).2, s.disk.files⟩
        ingests := f
        worker := some q
        stagedBy := (recordExecution s i ing (execute Faults.none s.disk.assets c).1).1
        origin := (recordExecution s i ing (execute Faults.none s.disk.assets c).1).2 })
        (only_update s.ingests i _)⟩
  | create i ing hi hp hn =>
    obtain ⟨rfl, hi⟩ := only_ingest hi
    exact ⟨_, .create s i ing hi hp hn, only_put (s.setStaging _) i _⟩
  | write i ing written chunk rest length hi hp ha =>
    obtain ⟨rfl, hi⟩ := only_ingest hi
    exact ⟨_, .write s i ing written chunk rest length hi hp ha, only_put (s.setStaging _) i _⟩
  | rename i ing node hi hp hn =>
    obtain ⟨rfl, hi⟩ := only_ingest hi
    exact ⟨_, .rename s i ing node hi hp hn, only_put (s.setFiles _) i _⟩
  | remove i ing result hi hp =>
    obtain ⟨rfl, hi⟩ := only_ingest hi
    exact ⟨_, .remove s i ing result hi hp, only_put (s.setStaging _) i _⟩

/-- Every queued command is one of ingest `j`. -/
def OnlyOwner (s : Store K) (j : Nat) : Prop := ∀ q r, s.worker = some q → r ∈ q → ∃ c, r = Request.command j c

theorem onlyOwner_calm (hs : OnlyOwner s j) (h : Calm (s.only j) (t.only j)) : OnlyOwner t j := by
  intro q r hq hr
  have hq' : (t.only j).worker = some q := hq
  generalize t.only j = u at h hq'
  cases h with
  | send i ing q₀ c sent refused hi _ _ _ hq₀ _ =>
    obtain ⟨rfl, -⟩ := only_ingest hi
    cases hq'
    rcases List.mem_append.mp hr with hold | hlast
    · exact hs q₀ r hq₀ hold
    · exact ⟨c, List.mem_singleton.mp hlast⟩
  | work i ing c q₀ hq₀ hi =>
    cases hq'
    exact hs _ r hq₀ (List.mem_cons_of_mem _ hr)
  | proceed i ing p hi _ _ => exact hs q r hq' hr
  | create i ing hi _ _ => exact hs q r hq' hr
  | write i ing written chunk rest length hi _ _ => exact hs q r hq' hr
  | rename i ing node hi _ _ => exact hs q r hq' hr
  | remove i ing result hi _ => exact hs q r hq' hr

/-- Left alone on an idle store the retry returns. -/
theorem retry_returns (hs : Inv (s.only j)) (hq : OnlyOwner s j) (hi : s.ingests j = some ing) :
    ∃ t ing', (retrySystem j a).Run s t ∧ t.ingests j = some ing' ∧ ing'.phase.isFinished = true := by
  induction hw : ing.weight using Nat.strong_induction_on generalizing s ing with
  | _ n ih =>
    by_cases hdone : Done (s.only j)
    · exact ⟨s, ing, .refl, hi, hdone j ing (only_self.trans hi)⟩
    · obtain ⟨u, hwork⟩ := work_enabled hs hdone
      cases hwork with
      | serve r b q hr hq' _ =>
        obtain ⟨c, hc⟩ := hq _ _ hq' List.mem_cons_self
        cases hc
        rw [only_self, hi] at hr
        cases hr
      | calm _ hcalm =>
        obtain ⟨t, ht, rfl⟩ := calm_of_only hcalm
        obtain ⟨k, x, p, hx, hupdate, hlt⟩ := calm_progress hs hcalm
        obtain ⟨rfl, hx⟩ := only_ingest hx
        obtain rfl : x = ing := Option.some.inj (hx.symm.trans hi)
        have hself : t.ingests k = some { x with phase := p } := by
          rw [← only_self, hupdate, Function.update_self]
        have hne : t.ingests k ≠ s.ingests k := by
          rw [hself, hx]
          intro heq
          rw [Option.some.inj heq] at hlt
          exact Nat.lt_irrefl _ hlt
        have hinv := calm_inv hs hcalm
        obtain ⟨q, hworker, -⟩ := hinv.queue
        have hgen : t.gen = s.gen := by
          have hg := (hinv.calls k _ (only_self.trans hself)).2.1
          have hg' := (hs.calls k x (only_self.trans hx)).2.1
          exact hg.symm.trans hg'
        have hstep : (retrySystem k a).step s t := by
          refine ⟨ht.step, hgen, ?_, fun _ => ht, fun heq => absurd heq hne⟩
          rw [show t.worker = some q from hworker]
          exact Option.some_ne_none q
        obtain ⟨v, y, hrun, hy, hfinished⟩ := ih _ (by rw [← hw]; exact hlt) hinv (onlyOwner_calm hq hcalm) hself rfl
        exact ⟨v, y, .head hstep hrun, hy, hfinished⟩

/-- The state in which the retry starts. -/
structure Ready (s : Store K) (j : Nat) (ing : Ingest K) : Prop where
  ingest : s.ingests j = some ing
  waiting : ing.phase = .waiting
  kept : ing.cancelled = false
  current : ing.gen = s.gen
  fits : Fits ing
  source : Matches ing
  absent : rowOf s ing.assetId = none

theorem Ready.retries (h : Ready s j ing) (hs : (system K).Reachable s) : Retries s j ing := by
  refine ⟨reachable_ledger hs, h.ingest, h.fits, h.source, h.kept, ?_⟩
  simp only [Onward, h.waiting]
  exact h.absent

theorem Ready.start (h : Ready s j ing) (hworker : s.worker = some []) (hholder : s.holder = none)
    (hunused : s.disk.files.staging.lookup ing.name = none) : Start (s.only j) := by
  have hcall : ∀ i x, (s.only j).ingests i = some x → i = j ∧ x = ing := by
    intro i x hx
    obtain ⟨rfl, hx⟩ := only_ingest hx
    exact ⟨rfl, Option.some.inj (hx.symm.trans h.ingest)⟩
  refine ⟨⟨j + 1, ?_⟩, ?_, ?_, ?_, ?_, hworker, hholder⟩
  · intro i hi
    exact if_neg (by omega)
  · intro i x hx
    obtain ⟨rfl, rfl⟩ := hcall i x hx
    refine ⟨h.kept, h.current, h.source, ?_⟩
    rw [Resting, if_neg (Nat.not_lt_of_le h.fits)]
    exact h.waiting
  · intro i x hx
    obtain ⟨rfl, rfl⟩ := hcall i x hx
    exact h.absent
  · intro i k x y hx hy _
    rw [(hcall i x hx).1, (hcall k y hy).1]
  · intro i x hx
    obtain ⟨rfl, rfl⟩ := hcall i x hx
    exact hunused

theorem tracked_reachable {allowed : Store K → Store K → Prop} {x : Tracked K}
    (h : (trackSystem i a allowed).Reachable x) : (system K).Reachable x.store :=
  System.invariant (S := trackSystem i a allowed) (fun _ h₀ => h₀.1) (fun _ _ hs hst => hs.next hst.1) h

theorem Ready.inserts (h : Ready s j ing) (hs : (system K).Reachable s) (ha : ing.assetId = a)
    (hrun : (retrySystem j a).Run s t) (hj : t.ingests j = some ing') {r : Outcome K}
    (hphase : ing'.phase = .finished r) : r = .ok .inserted := by
  obtain ⟨p, hp⟩ := retry_run ha (h.retries hs) hrun
  have honward := hp.onward
  obtain rfl : ing' = { ing with phase := p } := Option.some.inj (hj.symm.trans hp.ingest)
  simp only [Onward, show p = .finished r from hphase] at honward
  exact honward

/-- The call has nothing to remove yet, or has not asked for it. -/
def Phase.cleans : Phase K → Bool
  | .renamed (.error _) => true
  | .quarantined _ => true
  | .unstaging _ _ => true
  | _ => false

theorem cleansUp_of_busy (hs : Ledger s) (hi : s.ingests i = some ing) (hphase : ing.phase.cleans = false) :
    CleansUp i s t := by
  have hqueue : ∀ x q, s.ingests i = some x → s.worker = some q →
      Request.command i (.removeStaged x.assetId) ∉ q := by
    intro x q hx hq hmem
    obtain ⟨y, hy, -, hawaits, -⟩ := hs.queued q i _ hq hmem
    obtain rfl : y = ing := Option.some.inj (hy.symm.trans hi)
    obtain ⟨⟨e, b, hp⟩, -⟩ := awaited_removeStaged hawaits
    rw [hp] at hphase
    cases hphase
  refine ⟨?_, ?_, ?_⟩
  · intro x x' e hx _ _
    obtain rfl : x = ing := Option.some.inj (hx.symm.trans hi)
    constructor <;>
    · intro hp
      rw [hp] at hphase
      cases hphase
  · intro x q hx hq hmem
    exact absurd (List.mem_cons_of_mem _ hmem) (hqueue x _ hx hq)
  · intro x q hx hq _
    exact absurd List.mem_cons_self (hqueue x _ hx hq)

theorem track_next {allowed : Store K → Store K → Prop} {x : Tracked K}
    (h : (trackSystem i a allowed).Reachable x) (hst : Step x.store t) (hthere : t.ingests i ≠ none)
    (hallowed : allowed x.store t) :
    (trackSystem i a allowed).Reachable ⟨t, sourceAfter a x.store t x.source⟩ :=
  h.next ⟨hst, hthere, hallowed, rfl⟩

theorem clean_next {x : Tracked K} (h : (cleanSystem i a).Reachable x) (hi : x.store.ingests i = some ing)
    (hphase : ing.phase.cleans = false) (hst : Step x.store t) (hthere : t.ingests i ≠ none) :
    (cleanSystem i a).Reachable ⟨t, sourceAfter a x.store t x.source⟩ :=
  track_next h hst hthere (cleansUp_of_busy (reachable_ledger (tracked_reachable h)) hi hphase)

theorem track_weaken {x : Tracked K} (h : (cleanSystem i a).Reachable x) :
    (trackSystem i a (fun _ _ => True)).Reachable x :=
  System.invariant (S := cleanSystem i a) (fun _ h₀ => .start h₀)
    (fun _ _ hs hst => hs.next ⟨hst.1, hst.2.1, trivial, hst.2.2.2⟩) h

/-- The removal was sent while nothing was queued. -/
theorem cleansUp_sent (hq : s.worker = some []) {e : LocalAssetStoreError K} {b : Bool}
    (ht : t.ingests i = some ing') (hphase : ing'.phase = .unstaging e b) : CleansUp i s t := by
  refine ⟨?_, ?_, ?_⟩
  · intro x x' e' _ _ hx'
    rw [ht] at hx'
    cases hx'
    rw [hphase]
    exact ⟨fun _ => nofun, fun _ => nofun⟩
  · intro x q _ hq'
    rw [hq] at hq'
    cases hq'
  · intro x q _ hq'
    rw [hq] at hq'
    cases hq'

/-- It was carried out. -/
theorem cleansUp_removed {c : Command K} {q : List (Request K)} (hq : s.worker = some (.command i c :: q))
    (hi : s.ingests i = some ing) {e : LocalAssetStoreError K} {b : Bool} (hphase : ing.phase = .unstaging e b)
    (hc : c = .removeStaged ing.assetId) (ht : t.disk.assets = (execute Faults.none s.disk.assets c).2) :
    CleansUp i s t := by
  refine ⟨?_, ?_, ?_⟩
  · intro x x' e' hx _ _
    rw [hi] at hx
    cases hx
    rw [hphase]
    exact ⟨nofun, nofun⟩
  · intro x q' _ hq'
    rw [hq] at hq'
    cases hq'
  · intro x q' hx _ _
    rw [hi] at hx
    cases hx
    rw [ht, hc]
    simp [execute, removeStaged, call, Faults.none]

def queueFull : LocalAssetStoreError textAssets := .backendUnavailable "Asset metadata command queue is full"

def renameFault : LocalAssetStoreError textAssets := .filesystem "Asset blob rename failed"

/-- The sample asset has no row and its retry waits on an idle store. -/
def Retriable (s : Store textAssets) : Prop :=
  Ready s 1 (sampleIngest 1 "second" .waiting) ∧ s.worker = some [] ∧ s.holder = none ∧
    s.disk.files.staging.lookup "second" = none

/-- The staged row and the error are there, and so they are for the retry. -/
structure Stuck (x : Tracked textAssets) : Prop where
  returned : x.store.ingests 0 = some (sampleIngest 1 "first" (.finished (.error queueFull)))
  row : rowOf x.store "aaaaaaaa-asset" =
    some (encodeRow sampleDescriptor 1 (blobKey sampleDescriptor.assetId) .staged)
  source : x.source = some (.call 0)
  retried : ∃ s t, Step x.store s ∧ s.ingests 1 = some (sampleIngest 1 "second" .waiting) ∧
    Relation.ReflTransGen Calm s t ∧
    t.ingests 1 = some (sampleIngest 1 "second" (.finished (.error (.assetInProgress "aaaaaaaa-asset"))))

theorem second_unused {s : Store textAssets} {p : Phase textAssets}
    (h₀ : s.ingests 0 = some (sampleIngest 1 "first" p)) (hrest : ∀ j, s.ingests (j + 1) = none) (j : Nat)
    (x : Ingest textAssets) (hx : s.ingests j = some x) : x.name ≠ "second" := by
  cases j with
  | zero =>
    obtain rfl : sampleIngest 1 "first" p = x := Option.some.inj (h₀.symm.trans hx)
    show "first" ≠ "second"
    decide
  | succ j =>
    rw [hrest] at hx
    cases hx

/-- An ingest that has staged its row cannot move its blob and removes the row; or its
publication and then the removal find the queue full. -/
theorem sampleCleanups :
    (∃ x s, (cleanSystem 0 "aaaaaaaa-asset").Reachable x ∧
      x.store.ingests 0 = some (sampleIngest 1 "first" (.finished (.error renameFault))) ∧
      Step x.store s ∧ Retriable s) ∧
    ∃ x, (trackSystem 0 "aaaaaaaa-asset" (fun _ _ => True)).Reachable x ∧ Stuck x := by
  have h₀ : (system textAssets).Reachable sampleEmpty := .start sampleEmpty_init
  have h₁ := h₀.next (.begin _ 0 1 sampleDescriptor [some [0x61]] "first" rfl (by decide)
    (by simp [readBufferSize]) (by simp [sampleEmpty]) rfl)
  have h₂ : (cleanSystem 0 "aaaaaaaa-asset").Reachable ⟨_, none⟩ :=
    .start ⟨h₁, ⟨sampleIngest 1 "first" .waiting, rfl, rfl, rfl, rfl⟩, rfl⟩
  have h₃ := clean_next h₂ rfl rfl (.send _ 0 (sampleIngest 1 "first" .waiting) [] _ _ _ rfl rfl rfl rfl rfl
    (fun _ => rfl)) (Option.some_ne_none _)
  have h₄ := clean_next h₃ rfl rfl (.work _ Faults.none 0 (sampleIngest 1 "first" .looking) _ [] rfl rfl)
    (Option.some_ne_none _)
  have h₅ := clean_next h₄ rfl rfl (.proceed _ 0 (sampleIngest 1 "first" (.looked (.ok none))) _ rfl rfl rfl)
    (Option.some_ne_none _)
  have h₆ := clean_next h₅ rfl rfl (.create _ 0 (sampleIngest 1 "first" .creating) rfl rfl rfl)
    (Option.some_ne_none _)
  have h₇ := clean_next h₆ rfl rfl (.write _ 0 (sampleIngest 1 "first" (.writing [] [some [0x61]])) [] [0x61] [] 1
    rfl rfl rfl) (Option.some_ne_none _)
  have h₈ := clean_next h₇ rfl rfl (.send _ 0 (sampleIngest 1 "first" (.writing [0x61] [])) [] _ _ _
    rfl rfl rfl rfl rfl (fun h => by cases h)) (Option.some_ne_none _)
  have h₉ := clean_next h₈ rfl rfl (.work _ Faults.none 0 (sampleIngest 1 "first" .staging) _ [] rfl rfl)
    (Option.some_ne_none _)
  have h₁₀ := clean_next h₉ rfl rfl (.proceed _ 0 (sampleIngest 1 "first" (.stageAnswered (.ok .inserted))) _
    rfl rfl rfl) (Option.some_ne_none _)
  constructor
  · have h₁₁ := clean_next h₁₀ rfl rfl (.renameFailed _ 0 (sampleIngest 1 "first" .renaming) renameFault
      rfl rfl (.inr rfl)) (Option.some_ne_none _)
    have h₁₂ := track_next h₁₁ (.send _ 0 (sampleIngest 1 "first" (.renamed (.error renameFault))) [] _ _ _
      rfl rfl rfl rfl rfl (fun h => by cases h)) (Option.some_ne_none _)
      (cleansUp_sent rfl rfl rfl)
    have h₁₃ := track_next h₁₂ (.work _ Faults.none 0 (sampleIngest 1 "first" (.unstaging renameFault true)) _ []
      rfl rfl) (Option.some_ne_none _) (cleansUp_removed rfl rfl rfl rfl rfl)
    have h₁₄ := clean_next h₁₃ rfl rfl (.proceed _ 0 (sampleIngest 1 "first" (.unstaged renameFault true)) _
      rfl rfl rfl) (Option.some_ne_none _)
    have h₁₅ := clean_next h₁₄ rfl rfl (.remove _ 0 (sampleIngest 1 "first" (.removing (.error renameFault))) _
      rfl rfl) (Option.some_ne_none _)
    refine ⟨_, _, h₁₅, rfl, .begin _ 1 1 sampleDescriptor [some [0x61]] "second" rfl (by decide)
      (by simp [readBufferSize]) (second_unused rfl (fun _ => rfl)) rfl, ?_⟩
    exact ⟨⟨rfl, rfl, rfl, rfl, by decide, sampleIngest_matches "second", rfl⟩, rfl, rfl, rfl⟩
  · have g₀ := track_weaken h₁₀
    have g₁ := track_next g₀ (.rename _ 0 (sampleIngest 1 "first" .renaming) (.file [0x61]) rfl rfl rfl)
      (Option.some_ne_none _) trivial
    have g₂ := track_next g₁ (.refuse _ 0 (sampleIngest 1 "first" (.renamed (.ok ()))) queueFull _ _ _ rfl rfl rfl
      (by simp [dispatchErrors, queueFull])) (Option.some_ne_none _) trivial
    have g₃ := track_next g₂ (.quarantine _ 0 (sampleIngest 1 "first" (.quarantining queueFull)) _ (.file [0x61])
      "orphan-1" rfl rfl rfl) (Option.some_ne_none _) trivial
    have g₄ := track_next g₃ (.refuse _ 0 (sampleIngest 1 "first" (.quarantined queueFull)) queueFull _ _ _
      rfl rfl rfl (by simp [dispatchErrors, queueFull])) (Option.some_ne_none _) trivial
    refine ⟨_, g₄, rfl, rfl, rfl, _, _, .begin _ 1 1 sampleDescriptor [some [0x61]] "second" rfl (by decide)
      (by simp [readBufferSize]) (second_unused rfl (fun _ => rfl)) rfl, rfl,
      ((Relation.ReflTransGen.refl.tail
        (.send _ 1 (sampleIngest 1 "second" .waiting) [] _ _ _ rfl rfl rfl rfl rfl (fun _ => rfl))).tail
        (.work _ 1 (sampleIngest 1 "second" .looking) _ [] rfl rfl)).tail
        (.proceed _ 1 (sampleIngest 1 "second" (.looked (.ok (some ⟨sampleDescriptor, _, .staged⟩)))) _ rfl rfl rfl),
      rfl⟩

end OrbitRelay.AssetStore
