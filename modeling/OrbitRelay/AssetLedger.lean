import OrbitRelay.AssetConcurrent

/-!
# Who a staged row belongs to

What a step can do to the rows and to the queue, and the bookkeeping of staged
rows that holds in every run, whatever fails and however often the store is
closed and opened again.
-/
namespace OrbitRelay.AssetStore

open Codec MachineInt Transition

variable {K : AssetKernel} {s t : Store K} {i : Nat} {ing ing' : Ingest K} {a : K.AssetId}

def rowOf (s : Store K) (a : K.AssetId) : Option AssetRow := s.disk.assets.lookup (K.assetId.text a)

/-- The ingest has staged its row and has neither published nor removed it. -/
def Phase.owns : Phase K → Bool
  | .stageAnswered (.ok .inserted) => true
  | .renaming => true
  | .renamed _ => true
  | .publishing => true
  | .publishAnswered (.error _) => true
  | .quarantining _ => true
  | .quarantined _ => true
  | .unstaging _ _ => true
  | _ => false

/-- It has staged its row and is on its way to publish or to remove it, or has published it. -/
def Phase.keeps : Phase K → Bool
  | .publishAnswered (.ok ()) => true
  | .finished (.ok .inserted) => true
  | p => p.owns

/-- The ways in which an ingest gives up the removal of its row. -/
def Abandons (s : Store K) (ing ing' : Ingest K) : Prop :=
  (∃ e, ing.phase = .renamed (.error e) ∧ ing'.phase = .removing (.error e)) ∨
  (∃ e, ing.phase = .quarantined e ∧ ing'.phase = .finished (.error e)) ∨
  ∃ e b, ing.phase = .unstaging e b ∧ ¬ Live s ing

/-! ## What a step can do -/

/-- Neither the rows nor the bookkeeping change. -/
structure SameRows (s t : Store K) : Prop where
  assets : t.disk.assets = s.disk.assets
  gen : t.gen = s.gen
  stagedBy : t.stagedBy = s.stagedBy

theorem SameRows.row (h : SameRows s t) (a : K.AssetId) : rowOf t a = rowOf s a := by
  rw [rowOf, rowOf, h.assets]

/-- One ingest goes on without the worker. -/
structure Advanced (s t : Store K) (i : Nat) (ing ing' : Ingest K) : Prop where
  found : s.ingests i = some ing
  same : SameCall ing ing'
  ingests : t.ingests = Function.update s.ingests i (some ing')
  rows : SameRows s t
  worker : t.worker = s.worker
  cancelled : ing'.cancelled = false → ing.cancelled = false
  waits : awaited ing = none ∨ (awaited ing' = awaited ing ∧ ing'.phase = ing.phase) ∨ ¬ Live s ing
  owns : ing'.cancelled = false → ing'.phase.owns = true → ing.phase.owns = true
  keeps : ing'.cancelled = false → ing.phase.keeps = true → ing'.phase.keeps = true ∨ Abandons s ing ing'
  unstages : ing'.cancelled = false → ∀ e b, ing'.phase ≠ .unstaging e b

/-- Everything that a step can do to rows, queue and ingests. -/
inductive Change (s t : Store K) : Prop where
  | advanced (i : Nat) (ing ing' : Ingest K) : Advanced s t i ing ing' → Change s t
  | sent (i : Nat) (ing : Ingest K) (q : List (Request K)) (c : Command K) (sent : Phase K)
      (refused : LocalAssetStoreError K → Phase K) : s.ingests i = some ing → ing.cancelled = false →
      resume ing = some (.send c sent refused) → ing.gen = s.gen → s.worker = some q →
      t.ingests = Function.update s.ingests i (some { ing with phase := sent }) →
      t.worker = some (q ++ [.command i c]) → SameRows s t → Change s t
  | worked (f : Faults) (i : Nat) (ing : Ingest K) (c : Command K) (q : List (Request K)) :
      s.worker = some (.command i c :: q) → s.ingests i = some ing →
      t.ingests = Function.update s.ingests i (some (ing.deliver (execute f s.disk.assets c).1)) →
      t.disk.assets = (execute f s.disk.assets c).2 → t.worker = some q → t.gen = s.gen →
      t.stagedBy = (recordExecution s i ing (execute f s.disk.assets c).1).1 → Change s t
  | begun (i : Nat) (ing : Ingest K) : s.ingests i = none → ing.gen ≤ s.gen → Resting ing →
      t.ingests = Function.update s.ingests i (some ing) → t.worker = s.worker → SameRows s t → Change s t
  | closing (q : List (Request K)) : s.worker = some q → t.worker = some (q ++ [.shutdown]) →
      t.ingests = s.ingests → SameRows s t → Change s t
  | stopped : (∃ q, s.worker = some (.shutdown :: q)) ∨ s.worker = some [] → t = s.stopWorker → Change s t
  | crashed : t = { s.stopWorker with holder := none, ingests := fun _ => none } → Change s t
  | recovered : s.worker = none → t.ingests = s.ingests → t.stagedBy = s.stagedBy →
      Recovered K s.disk t.disk → (t.gen = s.gen ∧ t.worker = none) ∨
        (t.gen = s.gen + 1 ∧ t.worker = some [] ∧ Clean K t.disk) → Change s t

theorem resume_become_owns {p : Phase K} (h : resume ing = some (.become p)) :
    (p.owns = true → ing.phase.owns = true) ∧ (ing.phase.keeps = true → p.keeps = true) ∧
      ∀ e b, p ≠ .unstaging e b := by
  cases resume_becomes h with
  | lookupFailed hphase | absent hphase | found hphase _ _ | mismatched hphase _ | stageFailed hphase
  | existing hphase | inserted hphase | published hphase | publishFailed hphase | unstaged hphase
  | withdrawn hphase => simp [Phase.owns, Phase.keeps, hphase]

theorem resume_refused_owns {c : Command K} {sent : Phase K} {refused : LocalAssetStoreError K → Phase K}
    (h : resume ing = some (.send c sent refused)) (e : LocalAssetStoreError K) :
    ((refused e).owns = true → ing.phase.owns = true) ∧
      (ing.phase.keeps = true → (refused e).keeps = true ∨ Abandons s ing { ing with phase := refused e }) ∧
      ∀ e' b, refused e ≠ .unstaging e' b := by
  cases resume_sends h with
  | lookup hphase | stage hphase _ | publish hphase | unstage hphase | withdraw hphase =>
    simp [Phase.owns, Phase.keeps, Abandons, hphase]

theorem resume_sent_owns {c : Command K} {sent : Phase K} {refused : LocalAssetStoreError K → Phase K}
    (h : resume ing = some (.send c sent refused)) : awaited { ing with phase := sent } = some c ∧
      (sent.owns = true → ing.phase.owns = true) ∧ (ing.phase.keeps = true → sent.keeps = true) := by
  cases resume_sends h with
  | lookup hphase | stage hphase _ | publish hphase | unstage hphase | withdraw hphase =>
    simp [Phase.owns, Phase.keeps, awaited, Ingest.assetId, Ingest.key, hphase]

/-- A filesystem operation that is over, whoever awaits it. -/
theorem Advanced.files {p : Phase K} (hi : s.ingests i = some ing)
    (ht : t.ingests = Function.update s.ingests i (some (ing.goOn p))) (hrows : SameRows s t)
    (hworker : t.worker = s.worker) (hnone : awaited ing = none)
    (howns : p.owns = true → ing.phase.owns = true) (hkeeps : ing.phase.keeps = true → p.keeps = true)
    (hu : ∀ e b, p ≠ .unstaging e b) : Advanced s t i ing (ing.goOn p) := by
  refine ⟨hi, goOn_same p, ht, hrows, hworker, id, .inl hnone, ?_, ?_, ?_⟩
  · intro (hc : ing.cancelled = false)
    rw [goOn_phase hc]
    exact howns
  · intro (hc : ing.cancelled = false) hk
    rw [goOn_phase hc]
    exact .inl (hkeeps hk)
  · intro (hc : ing.cancelled = false)
    rw [goOn_phase hc]
    exact hu

/-- One that a dropped future does not cut short. -/
theorem Advanced.phase {p : Phase K} (hi : s.ingests i = some ing)
    (ht : t.ingests = Function.update s.ingests i (some { ing with phase := p })) (hrows : SameRows s t)
    (hworker : t.worker = s.worker) (hnone : awaited ing = none)
    (howns : p.owns = true → ing.phase.owns = true)
    (hkeeps : ing.phase.keeps = true → p.keeps = true ∨ Abandons s ing { ing with phase := p })
    (hu : ∀ e b, p ≠ .unstaging e b) : Advanced s t i ing { ing with phase := p } :=
  ⟨hi, ⟨rfl, rfl, rfl⟩, ht, hrows, hworker, id, .inl hnone, fun _ => howns, fun _ => hkeeps, fun _ => hu⟩

theorem cancel_advanced (hi : s.ingests i = some ing) :
    Advanced s (s.put i { ing with cancelled := true }) i ing { ing with cancelled := true } :=
  ⟨hi, ⟨rfl, rfl, rfl⟩, rfl, ⟨rfl, rfl, rfl⟩, rfl, by simp, .inr (.inl ⟨rfl, rfl⟩), by simp, by simp, by simp⟩

theorem lost_advanced (hi : s.ingests i = some ing) {c : Command K} (ha : awaited ing = some c)
    (hdead : s.worker = none ∨ ing.gen ≠ s.gen) :
    Advanced s (s.put i (ing.deliver (lost c))) i ing (ing.deliver (lost c)) := by
  have hlive := not_live hdead
  cases hc : ing.cancelled with
  | true =>
    have hd : ing.deliver (lost c) = ing := by simp [Ingest.deliver, hc]
    rw [hd]
    exact ⟨hi, ⟨rfl, rfl, rfl⟩, rfl, ⟨rfl, rfl, rfl⟩, rfl, id, .inr (.inr hlive), by simp [hc], by simp [hc],
      by simp [hc]⟩
  | false =>
    cases awaited_awaits ha with
    | lookup hphase | stage hphase | publish hphase | removeStaged hphase =>
      simp only [Ingest.deliver, hc, lost, hphase, Bool.false_eq_true, if_false]
      exact ⟨hi, ⟨rfl, rfl, rfl⟩, rfl, ⟨rfl, rfl, rfl⟩, rfl, fun _ => hc, .inr (.inr hlive),
        by simp [Phase.owns, hphase], by simp [Phase.owns, Phase.keeps, Abandons, hphase, hlive], by simp⟩

/-- A step is one of these changes. -/
theorem step_change (h : Step s t) : Change s t := by
  cases h with
  | begin i gen d reads name hi hgen _ _ _ =>
    refine .begun i ⟨gen, d, reads, name, _, false⟩ hi hgen ?_ rfl rfl ⟨rfl, rfl, rfl⟩
    rw [Resting]
    rfl
  | send i ing q c sent refused hi hc hr hgen hq _ =>
    exact .sent i ing q c sent refused hi hc hr hgen hq rfl rfl ⟨rfl, rfl, rfl⟩
  | refuse i ing e c sent refused hi hc hr _ =>
    obtain ⟨howns, hkeeps, hu⟩ := resume_refused_owns (s := s) hr e
    exact .advanced i ing _ (.phase hi rfl ⟨rfl, rfl, rfl⟩ rfl (resume_awaited hr) howns hkeeps hu)
  | proceed i ing p hi hc hr =>
    obtain ⟨howns, hkeeps, hu⟩ := resume_become_owns hr
    exact .advanced i ing _ (.phase hi rfl ⟨rfl, rfl, rfl⟩ rfl (resume_awaited hr) howns
      (fun hk => .inl (hkeeps hk)) hu)
  | cancel i ing hi => exact .advanced i ing _ (cancel_advanced hi)
  | work f i ing c q hq hi => exact .worked f i ing c q hq hi rfl rfl rfl rfl rfl
  | replyLost i ing c hi ha hdead => exact .advanced i ing _ (lost_advanced hi ha hdead)
  | close q hq _ => exact .closing q hq rfl rfl ⟨rfl, rfl, rfl⟩
  | shutdown q hq => exact .stopped (.inl ⟨q, hq⟩) rfl
  | drained hq => exact .stopped (.inr hq) rfl
  | create i ing hi hphase _ =>
    exact .advanced i ing _ (.files hi rfl ⟨rfl, rfl, rfl⟩ rfl (by simp [awaited, hphase]) (by simp [Phase.owns])
      (by simp [Phase.keeps, Phase.owns, hphase]) (by simp))
  | createFailed i ing hi hphase =>
    exact .advanced i ing _ (.files hi rfl ⟨rfl, rfl, rfl⟩ rfl (by simp [awaited, hphase]) (by simp [Phase.owns])
      (by simp [Phase.keeps, Phase.owns, hphase]) (by simp))
  | write i ing written chunk rest length hi hphase _ =>
    exact .advanced i ing _ (.files hi rfl ⟨rfl, rfl, rfl⟩ rfl (by simp [awaited, hphase]) (by simp [Phase.owns])
      (by simp [Phase.keeps, Phase.owns, hphase]) (by simp))
  | writeFailed i ing written rest e hi hphase _ =>
    exact .advanced i ing _ (.files hi rfl ⟨rfl, rfl, rfl⟩ rfl (by simp [awaited, hphase]) (by simp [Phase.owns])
      (by simp [Phase.keeps, Phase.owns, hphase]) (by simp))
  | rename i ing node hi hphase _ =>
    exact .advanced i ing _ (.phase hi rfl ⟨rfl, rfl, rfl⟩ rfl (by simp [awaited, hphase])
      (by simp [Phase.owns, hphase]) (by simp [Phase.keeps, Phase.owns]) (by simp))
  | renameFailed i ing e hi hphase _ =>
    exact .advanced i ing _ (.phase hi rfl ⟨rfl, rfl, rfl⟩ rfl (by simp [awaited, hphase])
      (by simp [Phase.owns, hphase]) (by simp [Phase.keeps, Phase.owns]) (by simp))
  | quarantine i ing e node orphan hi hphase _ =>
    exact .advanced i ing _ (.phase hi rfl ⟨rfl, rfl, rfl⟩ rfl (by simp [awaited, hphase])
      (by simp [Phase.owns, hphase]) (by simp [Phase.keeps, Phase.owns]) (by simp))
  | quarantineFailed i ing e hi hphase =>
    exact .advanced i ing _ (.phase hi rfl ⟨rfl, rfl, rfl⟩ rfl (by simp [awaited, hphase])
      (by simp [Phase.owns, hphase]) (by simp [Phase.keeps, Phase.owns]) (by simp))
  | remove i ing result hi hphase =>
    exact .advanced i ing _ (.phase hi rfl ⟨rfl, rfl, rfl⟩ rfl (by simp [awaited, hphase])
      (by simp [Phase.owns]) (by simp [Phase.keeps, Phase.owns, hphase]) (by simp))
  | removeFailed i ing result hi hphase =>
    exact .advanced i ing _ (.phase hi rfl ⟨rfl, rfl, rfl⟩ rfl (by simp [awaited, hphase])
      (by simp [Phase.owns]) (by simp [Phase.keeps, Phase.owns, hphase]) (by simp))
  | crash => exact .crashed rfl
  | opened f fresh disk hw hrec =>
    obtain ⟨hr, hclean⟩ := recoverStorage_spec (K := K) f fresh s.disk
    rw [hrec] at hr hclean
    exact .recovered hw rfl rfl hr (.inr ⟨rfl, rfl, hclean rfl⟩)
  | openFailed f fresh e disk hw hrec =>
    obtain ⟨hr, -⟩ := recoverStorage_spec (K := K) f fresh s.disk
    rw [hrec] at hr
    exact .recovered hw rfl rfl hr (.inl ⟨rfl, hw⟩)

/-! ## Turns of the worker -/

/-- What one turn does for the ingest that waits for it: to the rows, to the bookkeeping,
and where the ingest goes on. -/
inductive Turned (s : Store K) (i : Nat) (ing : Ingest K) (assets : AssetTable)
    (stagedBy : K.AssetId → Option Nat) (p : Phase K) : Prop where
  | kept : assets = s.disk.assets → stagedBy = s.stagedBy → (p.owns = true → ing.phase.owns = true) →
      (ing.phase.keeps = true → p.keeps = true ∨ ∃ e b, ing.phase = .unstaging e b) →
      Turned s i ing assets stagedBy p
  | staged (row : AssetRow) : rowOf s ing.assetId = none → row.publicationState = PublicationState.staged.text →
      assets = s.disk.assets.insert (K.assetId.text ing.assetId) row →
      stagedBy = Function.update s.stagedBy ing.assetId (some i) → p = .stageAnswered (.ok .inserted) →
      Turned s i ing assets stagedBy p
  | published (row : AssetRow) : ing.phase.owns = true →
      assets = s.disk.assets.insert (K.assetId.text ing.assetId) row →
      stagedBy = Function.update s.stagedBy ing.assetId none → p = .publishAnswered (.ok ()) →
      Turned s i ing assets stagedBy p
  | removed (e : LocalAssetStoreError K) (b : Bool) : ing.phase = .unstaging e b →
      assets = deleteStaged s.disk.assets (K.assetId.text ing.assetId) →
      stagedBy = Function.update s.stagedBy ing.assetId none → p = .unstaged e b →
      Turned s i ing assets stagedBy p

theorem execute_turned (f : Faults) {c : Command K} (ha : awaited ing = some c) :
    ∃ p, ing.deliver (execute f s.disk.assets c).1 = (if ing.cancelled then ing else { ing with phase := p }) ∧
      (∀ e b, p ≠ .unstaging e b) ∧ awaited { ing with phase := p } = none ∧
      Turned s i ing (execute f s.disk.assets c).2 (recordExecution s i ing (execute f s.disk.assets c).1).1 p := by
  cases awaited_awaits ha with
  | lookup hphase =>
    refine ⟨.looked (lookupAsset f s.disk.assets ing.assetId), ?_, by simp, rfl, ?_⟩
    · simp only [Ingest.deliver, execute, hphase]
    · exact .kept rfl rfl (by simp [Phase.owns]) (by simp [Phase.keeps, Phase.owns, hphase])
  | stage hphase =>
    simp only [execute]
    cases hr : stageAsset f s.disk.assets ing.descriptor ing.key with
    | error e =>
      refine ⟨.stageAnswered (.error e), by simp only [Ingest.deliver, hphase], by simp, rfl, ?_⟩
      exact .kept rfl rfl (by simp [Phase.owns]) (by simp [Phase.keeps, Phase.owns, hphase])
    | ok result =>
      obtain ⟨outcome, u⟩ := result
      refine ⟨.stageAnswered (.ok outcome), by simp only [Ingest.deliver, hphase], by simp, rfl, ?_⟩
      rcases stageAsset_ok hr with ⟨rfl, rfl⟩ | ⟨rfl, habsent, n, hn, rfl⟩
      · exact .kept rfl rfl (by simp [Phase.owns]) (by simp [Phase.keeps, Phase.owns, hphase])
      · exact .staged _ habsent rfl rfl rfl rfl
  | publish hphase =>
    simp only [execute]
    cases hr : publishAsset f s.disk.assets ing.descriptor ing.key with
    | error e =>
      refine ⟨.publishAnswered (.error e), by simp only [Ingest.deliver, hphase], by simp, rfl, ?_⟩
      exact .kept rfl rfl (by simp [Phase.owns, hphase]) (by simp [Phase.keeps, Phase.owns])
    | ok u =>
      obtain ⟨row, -, -, rfl⟩ := publishAsset_ok hr
      refine ⟨.publishAnswered (.ok ()), by simp only [Ingest.deliver, hphase], by simp, rfl, ?_⟩
      exact .published _ (by simp [Phase.owns, hphase]) rfl rfl rfl
  | @removeStaged e b hphase =>
    simp only [execute]
    cases hr : removeStaged f s.disk.assets ing.assetId with
    | error e' =>
      refine ⟨.unstaged e b, by simp only [Ingest.deliver, hphase], by simp, rfl, ?_⟩
      exact .kept rfl rfl (by simp [Phase.owns]) (fun _ => .inr ⟨e, b, hphase⟩)
    | ok u =>
      obtain ⟨-, -, hu⟩ := bind_ok hr
      cases hu
      refine ⟨.unstaged e b, by simp only [Ingest.deliver, hphase], by simp, rfl, ?_⟩
      exact .removed e b hphase rfl rfl rfl

theorem Turned.row_other {assets : AssetTable} {stagedBy : K.AssetId → Option Nat} {p : Phase K}
    (h : Turned s i ing assets stagedBy p) (ha : a ≠ ing.assetId) :
    assets.lookup (K.assetId.text a) = rowOf s a ∧ stagedBy a = s.stagedBy a := by
  have hid : K.assetId.text a ≠ K.assetId.text ing.assetId := fun h => ha (K.assetId.text_injective h)
  cases h with
  | kept hassets hst _ _ =>
    rw [hassets, hst]
    exact ⟨rfl, rfl⟩
  | staged row _ _ hassets hst _ =>
    rw [hassets, hst, AList.lookup_insert_ne hid, Function.update_of_ne ha]
    exact ⟨rfl, rfl⟩
  | published row _ hassets hst _ =>
    rw [hassets, hst, AList.lookup_insert_ne hid, Function.update_of_ne ha]
    exact ⟨rfl, rfl⟩
  | removed e b _ hassets hst _ =>
    rw [hassets, hst, Function.update_of_ne ha]
    refine ⟨?_, rfl⟩
    rcases lookup_deleteStaged s.disk.assets (K.assetId.text ing.assetId) (K.assetId.text a) with h | ⟨h, -⟩
    · exact h
    · exact absurd h hid

/-! ## The ledger -/

/-- Staged rows have their owners, and queued commands the ingests that wait for them. -/
structure Ledger (s : Store K) : Prop where
  staged : ∀ a i, s.stagedBy a = some i → rowOf s a ≠ none
  gens : ∀ i ing, s.ingests i = some ing → ing.gen ≤ s.gen
  idle : s.worker = none → ∀ a, s.stagedBy a = none
  owners : ∀ q, s.worker = some q → (q.filterMap owner).Nodup
  queued : ∀ q i c, s.worker = some q → Request.command i c ∈ q → ∃ ing, s.ingests i = some ing ∧
    ing.gen = s.gen ∧ awaited ing = some c ∧ (ing.phase.owns = true → s.stagedBy ing.assetId = some i)
  owns : ∀ i ing, s.ingests i = some ing → Live s ing → ing.cancelled = false → ing.phase.owns = true →
    s.stagedBy ing.assetId = some i

theorem Ledger.not_queued (hs : Ledger s) (hi : s.ingests i = some ing) (hnone : awaited ing = none)
    {q : List (Request K)} {c : Command K} (hq : s.worker = some q) : Request.command i c ∉ q := by
  intro hc
  obtain ⟨x, hx, -, hx', -⟩ := hs.queued q i c hq hc
  rw [hi] at hx
  cases hx
  rw [hnone] at hx'
  cases hx'

theorem advanced_ledger (hs : Ledger s) (h : Advanced s t i ing ing') : Ledger t where
  staged := by
    intro a k hst
    rw [h.rows.row]
    rw [h.rows.stagedBy] at hst
    exact hs.staged a k hst
  gens := by
    rw [h.rows.gen]
    refine forall_moved h.ingests ?_ (fun j x _ => hs.gens j x)
    rw [h.same.gen]
    exact hs.gens i ing h.found
  idle := by
    rw [h.worker, h.rows.stagedBy]
    exact hs.idle
  owners := by
    rw [h.worker]
    exact hs.owners
  queued := by
    intro q j c hq hc
    rw [h.worker] at hq
    obtain ⟨x, hx, hgen, hawaits, hst⟩ := hs.queued q j c hq hc
    rw [h.rows.gen, h.rows.stagedBy]
    by_cases hj : j = i
    · subst hj
      rw [h.found] at hx
      cases hx
      rcases h.waits with hnone | ⟨hsame, hphase⟩ | hdead
      · rw [hnone] at hawaits
        cases hawaits
      · refine ⟨ing', by rw [h.ingests, Function.update_self], by rw [h.same.gen, hgen],
          hsame.trans hawaits, ?_⟩
        rw [hphase, Ingest.assetId, h.same.descriptor]
        exact hst
      · exact absurd ⟨hgen, by simp [hq]⟩ hdead
    · exact ⟨x, by rw [h.ingests, Function.update_of_ne hj, hx], hgen, hawaits, hst⟩
  owns := by
    have hlive : ∀ {x : Ingest K}, Live t x → Live s x := by
      intro x hl
      simpa only [Live, h.rows.gen, h.worker] using hl
    rw [h.rows.stagedBy]
    refine forall_moved h.ingests ?_ ?_
    · intro hl hc howns
      have hl' := hlive hl
      have hst := hs.owns i ing h.found ⟨by rw [← h.same.gen]; exact hl'.1, hl'.2⟩ (h.cancelled hc) (h.owns hc howns)
      rw [Ingest.assetId, h.same.descriptor]
      exact hst
    · intro j x _ hx hl hc howns
      exact hs.owns j x hx (hlive hl) hc howns

theorem sent_ledger (hs : Ledger s) {q : List (Request K)} {c : Command K} {sent : Phase K}
    {refused : LocalAssetStoreError K → Phase K} (hi : s.ingests i = some ing) (hc : ing.cancelled = false)
    (hr : resume ing = some (.send c sent refused)) (hgen : ing.gen = s.gen) (hq : s.worker = some q)
    (ht : t.ingests = Function.update s.ingests i (some { ing with phase := sent }))
    (hworker : t.worker = some (q ++ [.command i c])) (hrows : SameRows s t) : Ledger t := by
  obtain ⟨hawaits, howns, -⟩ := resume_sent_owns hr
  have hnew : ∀ c', Request.command i c' ∉ q := fun c' => hs.not_queued hi (resume_awaited hr) hq
  have hstaged : sent.owns = true → s.stagedBy ing.assetId = some i :=
    fun h => hs.owns i ing hi ⟨hgen, by simp [hq]⟩ hc (howns h)
  have hself : t.ingests i = some { ing with phase := sent } := by rw [ht, Function.update_self]
  have hother : ∀ j, j ≠ i → t.ingests j = s.ingests j := fun j hj => by rw [ht, Function.update_of_ne hj]
  constructor
  · intro a k hst
    rw [hrows.row]
    rw [hrows.stagedBy] at hst
    exact hs.staged a k hst
  · rw [hrows.gen]
    exact forall_moved ht (hs.gens i ing hi) (fun j x _ => hs.gens j x)
  · intro hw
    rw [hworker] at hw
    cases hw
  · intro q' hq'
    rw [hworker] at hq'
    cases hq'
    rw [List.filterMap_append, List.nodup_append]
    refine ⟨hs.owners q hq, by simp [owner], ?_⟩
    intro j hj k hk hjk
    obtain ⟨r, hr', hro⟩ := List.mem_filterMap.mp hj
    obtain rfl : k = i := by simpa [owner] using hk
    cases r with
    | shutdown => cases hro
    | command j' c' =>
      obtain rfl : j' = k := (Option.some.inj hro).trans hjk
      exact hnew c' hr'
  · intro q' j c' hq' hc'
    rw [hworker] at hq'
    cases hq'
    rw [hrows.gen, hrows.stagedBy]
    rcases List.mem_append.mp hc' with hold | hlast
    · obtain ⟨x, hx, h⟩ := hs.queued q j c' hq hold
      have hj : j ≠ i := by
        rintro rfl
        exact hnew c' hold
      exact ⟨x, by rw [hother j hj, hx], h⟩
    · rw [List.mem_singleton] at hlast
      cases hlast
      exact ⟨_, hself, hgen, hawaits, hstaged⟩
  · rw [hrows.stagedBy]
    refine forall_moved ht (fun _ _ howns => hstaged howns) ?_
    intro j x _ hx hl hcancelled howns
    exact hs.owns j x hx ⟨hl.1.trans hrows.gen, by simp [hq]⟩ hcancelled howns

theorem begun_ledger (hs : Ledger s) (hi : s.ingests i = none) (hgen : ing.gen ≤ s.gen) (hrest : Resting ing)
    (ht : t.ingests = Function.update s.ingests i (some ing)) (hworker : t.worker = s.worker)
    (hrows : SameRows s t) : Ledger t := by
  have hself : t.ingests i = some ing := by rw [ht, Function.update_self]
  have hother : ∀ j, j ≠ i → t.ingests j = s.ingests j := fun j hj => by rw [ht, Function.update_of_ne hj]
  constructor
  · intro a k hst
    rw [hrows.row]
    rw [hrows.stagedBy] at hst
    exact hs.staged a k hst
  · rw [hrows.gen]
    exact forall_moved ht hgen (fun j x _ => hs.gens j x)
  · rw [hworker, hrows.stagedBy]
    exact hs.idle
  · rw [hworker]
    exact hs.owners
  · intro q j c hq hc
    rw [hworker] at hq
    rw [hrows.gen, hrows.stagedBy]
    obtain ⟨x, hx, h⟩ := hs.queued q j c hq hc
    have hj : j ≠ i := by
      rintro rfl
      rw [hi] at hx
      cases hx
    exact ⟨x, by rw [hother j hj, hx], h⟩
  · rw [hrows.stagedBy]
    refine forall_moved ht ?_ ?_
    · intro _ _ howns
      rw [Resting] at hrest
      rw [hrest] at howns
      split at howns <;> cases howns
    · intro j x _ hx hl hc howns
      exact hs.owns j x hx ⟨hl.1.trans hrows.gen, by rw [← hworker]; exact hl.2⟩ hc howns

theorem closing_ledger (hs : Ledger s) {q : List (Request K)} (hq : s.worker = some q)
    (hworker : t.worker = some (q ++ [.shutdown])) (ht : t.ingests = s.ingests) (hrows : SameRows s t) :
    Ledger t := by
  constructor
  · intro a k hst
    rw [hrows.row]
    rw [hrows.stagedBy] at hst
    exact hs.staged a k hst
  · rw [ht, hrows.gen]
    exact hs.gens
  · intro hw
    rw [hworker] at hw
    cases hw
  · intro q' hq'
    rw [hworker] at hq'
    cases hq'
    have hnone : [Request.shutdown (K := K)].filterMap owner = [] := rfl
    rw [List.filterMap_append, hnone, List.append_nil]
    exact hs.owners q hq
  · intro q' j c hq' hc
    rw [hworker] at hq'
    cases hq'
    rw [ht, hrows.gen, hrows.stagedBy]
    exact hs.queued q j c hq (by simpa using hc)
  · intro j x hx hl hc howns
    rw [ht] at hx
    rw [hrows.stagedBy]
    exact hs.owns j x hx ⟨hl.1.trans hrows.gen, by simp [hq]⟩ hc howns

/-- Without a worker there is nothing to keep but the number of the opening. -/
theorem stopped_ledger (hgens : ∀ i ing, t.ingests i = some ing → ing.gen ≤ t.gen) (hworker : t.worker = none)
    (hst : ∀ a, t.stagedBy a = none) : Ledger t := by
  refine ⟨?_, hgens, fun _ => hst, ?_, ?_, ?_⟩
  · intro a k h
    rw [hst] at h
    cases h
  · intro q hq
    rw [hworker] at hq
    cases hq
  · intro q j c hq
    rw [hworker] at hq
    cases hq
  · intro j x _ hl
    have hw := hl.2
    rw [hworker] at hw
    cases hw

theorem opened_ledger (hs : Ledger s) (hw : s.worker = none) (ht : t.ingests = s.ingests)
    (hst : t.stagedBy = s.stagedBy) (hgen : t.gen = s.gen + 1) (hworker : t.worker = some []) : Ledger t := by
  have hnone : ∀ a, t.stagedBy a = none := by
    rw [hst]
    exact hs.idle hw
  refine ⟨?_, ?_, fun _ => hnone, ?_, ?_, ?_⟩
  · intro a k h
    rw [hnone] at h
    cases h
  · intro j x hx
    rw [ht] at hx
    rw [hgen]
    exact Nat.le_succ_of_le (hs.gens j x hx)
  · intro q hq
    rw [hworker] at hq
    cases hq
    exact List.nodup_nil
  · intro q j c hq hc
    rw [hworker] at hq
    cases hq
    cases hc
  · intro j x hx hl
    rw [ht] at hx
    have hle := hs.gens j x hx
    have heq := hl.1
    omega

section Turned

variable {assets : AssetTable} {stagedBy : K.AssetId → Option Nat} {p : Phase K}

/-- A turn takes no row from another ingest. -/
theorem Turned.keeps_other (hs : Ledger s) (h : Turned s i ing assets stagedBy p)
    (hown : ing.phase.owns = true → s.stagedBy ing.assetId = some i) {j : Nat} (hj : j ≠ i)
    (hst : s.stagedBy a = some j) : stagedBy a = some j := by
  by_cases ha : a = ing.assetId
  · subst ha
    have hnot : ing.phase.owns = false := by
      rw [Bool.eq_false_iff]
      intro howns
      rw [hown howns] at hst
      exact hj (Option.some.inj hst).symm
    cases h with
    | kept _ heq _ _ => rw [heq, hst]
    | staged row hnone _ _ _ _ => exact absurd hnone (hs.staged _ _ hst)
    | published row howns _ _ _ =>
      rw [hnot] at howns
      cases howns
    | removed e b hphase _ _ _ => simp [hphase, Phase.owns] at hnot
  · rw [(h.row_other ha).2, hst]

theorem Turned.row_staged (hs : Ledger s) (h : Turned s i ing assets stagedBy p) {j : Nat}
    (hst : stagedBy a = some j) : assets.lookup (K.assetId.text a) ≠ none := by
  by_cases ha : a = ing.assetId
  · subst ha
    cases h with
    | kept hassets heq _ _ =>
      rw [heq] at hst
      rw [hassets]
      exact hs.staged _ _ hst
    | staged row _ _ hassets _ _ =>
      rw [hassets, AList.lookup_insert]
      exact Option.some_ne_none row
    | published row _ _ heq _ =>
      rw [heq, Function.update_self] at hst
      cases hst
    | removed e b _ _ heq _ =>
      rw [heq, Function.update_self] at hst
      cases hst
  · rw [(h.row_other ha).2] at hst
    rw [(h.row_other ha).1]
    exact hs.staged _ _ hst

theorem Turned.owned (h : Turned s i ing assets stagedBy p)
    (hown : ing.phase.owns = true → s.stagedBy ing.assetId = some i) (hp : p.owns = true) :
    stagedBy ing.assetId = some i := by
  cases h with
  | kept _ heq howns _ =>
    rw [heq]
    exact hown (howns hp)
  | staged row _ _ _ heq _ => rw [heq, Function.update_self]
  | published row _ _ _ hphase =>
    rw [hphase] at hp
    cases hp
  | removed e b _ _ _ hphase =>
    rw [hphase] at hp
    cases hp

end Turned

theorem Ledger.dequeued (hs : Ledger s) {c c' : Command K} {q : List (Request K)}
    (hq : s.worker = some (.command i c :: q)) : Request.command i c' ∉ q := by
  intro hc'
  have hnodup := hs.owners _ hq
  rw [List.filterMap_cons_some (show owner (Request.command i c) = some i from rfl), List.nodup_cons] at hnodup
  exact hnodup.1 (List.mem_filterMap.mpr ⟨_, hc', rfl⟩)

theorem worked_ledger (hs : Ledger s) {f : Faults} {c : Command K} {q : List (Request K)}
    (hq : s.worker = some (.command i c :: q)) (hi : s.ingests i = some ing)
    (ht : t.ingests = Function.update s.ingests i (some (ing.deliver (execute f s.disk.assets c).1)))
    (hassets : t.disk.assets = (execute f s.disk.assets c).2) (hworker : t.worker = some q)
    (hgen : t.gen = s.gen) (hst : t.stagedBy = (recordExecution s i ing (execute f s.disk.assets c).1).1) :
    Ledger t := by
  obtain ⟨x, hx, hcurrent, hawaits, hown⟩ := hs.queued _ i c hq List.mem_cons_self
  rw [hi] at hx
  cases hx
  obtain ⟨p, hdeliver, -, -, hturned⟩ := execute_turned (s := s) (i := i) f hawaits
  rw [hdeliver] at ht
  rw [← hassets, ← hst] at hturned
  have hself : t.ingests i = some (if ing.cancelled then ing else { ing with phase := p }) := by
    rw [ht, Function.update_self]
  have hother : ∀ j, j ≠ i → t.ingests j = s.ingests j := fun j hj => by rw [ht, Function.update_of_ne hj]
  constructor
  · intro a k h
    exact hturned.row_staged hs h
  · rw [hgen]
    refine forall_moved ht ?_ (fun j y _ => hs.gens j y)
    split <;> exact hs.gens i ing hi
  · intro hw
    rw [hworker] at hw
    cases hw
  · intro q' hq'
    rw [hworker] at hq'
    cases hq'
    exact (hs.owners _ hq).sublist ((List.sublist_cons_self _ q).filterMap owner)
  · intro q' j c' hq' hc'
    rw [hworker] at hq'
    cases hq'
    obtain ⟨y, hy, hygen, hyawaits, hyown⟩ := hs.queued _ j c' hq (List.mem_cons_of_mem _ hc')
    have hj : j ≠ i := by
      rintro rfl
      exact hs.dequeued hq hc'
    refine ⟨y, by rw [hother j hj, hy], by rw [hgen, hygen], hyawaits, ?_⟩
    intro howns
    exact hturned.keeps_other hs hown hj (hyown howns)
  · refine forall_moved ht ?_ ?_
    · cases hcancelled : ing.cancelled with
      | true =>
        intro _ hc _
        rw [if_pos rfl, hcancelled] at hc
        cases hc
      | false =>
        intro _ _ howns
        exact hturned.owned hown howns
    · intro j y hj hy hl hc howns
      refine hturned.keeps_other hs hown hj (hs.owns j y hy ⟨?_, by simp [hq]⟩ hc howns)
      rw [← hgen]
      exact hl.1

theorem step_ledger (hs : Ledger s) (h : Step s t) : Ledger t := by
  cases step_change h with
  | advanced i ing ing' h => exact advanced_ledger hs h
  | sent i ing q c sent refused hi hc hr hgen hq ht hworker hrows =>
    exact sent_ledger hs hi hc hr hgen hq ht hworker hrows
  | worked f i ing c q hq hi ht hassets hworker hgen hst =>
    exact worked_ledger hs hq hi ht hassets hworker hgen hst
  | begun i ing hi hgen hrest ht hworker hrows => exact begun_ledger hs hi hgen hrest ht hworker hrows
  | closing q hq hworker ht hrows => exact closing_ledger hs hq hworker ht hrows
  | stopped _ ht =>
    subst ht
    exact stopped_ledger hs.gens rfl (fun _ => rfl)
  | crashed ht =>
    subst ht
    exact stopped_ledger (fun _ _ h => by cases h) rfl (fun _ => rfl)
  | recovered hw ht hst _ hopen =>
    rcases hopen with ⟨hgen, hworker⟩ | ⟨hgen, hworker, -⟩
    · refine stopped_ledger ?_ hworker ?_
      · rw [ht, hgen]
        exact hs.gens
      · rw [hst]
        exact hs.idle hw
    · exact opened_ledger hs hw ht hst hgen hworker

theorem reachable_ledger (h : (system K).Reachable s) : Ledger s := by
  refine System.invariant (S := system K) ?_ (fun _ _ => step_ledger) h
  rintro s₀ ⟨-, -, -, -, -, hworker, -, hingests, hstaged, -⟩
  refine ⟨?_, ?_, fun _ => hstaged, ?_, ?_, ?_⟩
  · intro a k hst
    rw [hstaged] at hst
    cases hst
  · intro j x hx
    rw [hingests] at hx
    cases hx
  · intro q hq
    rw [hworker] at hq
    cases hq
    exact List.nodup_nil
  · intro q j c hq hc
    rw [hworker] at hq
    cases hq
    cases hc
  · intro j x hx
    rw [hingests] at hx
    cases hx

end OrbitRelay.AssetStore
