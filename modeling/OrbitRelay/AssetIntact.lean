import OrbitRelay.AssetIngest
import OrbitRelay.AssetRecovery

/-!
# Published assets stay intact

The invariant of the store: whose staged row a row is, what every ingest may
still do to the directories, and that none of it can reach a published blob, as
long as no ingest of an earlier opening is caught between moving its blob into
place and learning that its publication failed.
-/
namespace OrbitRelay.AssetStore

open Codec MachineInt Transition

variable {K : AssetKernel}

/-- The row's asset has its bytes in place: those of the ingest that published it. -/
def Intact (s : Store K) (record : AssetRecord K) : Prop :=
  ∃ bytes, s.disk.files.blobs.lookup record.blobKey = some (.file bytes) ∧
    bytes.length = record.descriptor.byteLength ∧ K.sha256 bytes = record.descriptor.contentHash ∧
    ∀ content, s.origin record.descriptor.assetId = some content → bytes = content

/-- An ingest of an opening whose worker still runs. -/
def Live (s : Store K) (ing : Ingest K) : Prop := ing.gen = s.gen ∧ s.worker.isSome = true

def NotPublished (s : Store K) (a : K.AssetId) : Prop :=
  ∀ row, s.disk.assets.lookup (K.assetId.text a) = some row →
    row.publicationState ≠ PublicationState.published.text

/-- The ingest has moved its blob into place and may still move it away again. -/
def Unsettled (ing : Ingest K) : Prop :=
  match ing.phase with
  | .renamed (.ok ()) => ing.cancelled = false
  | .publishing => ing.cancelled = false
  | .publishAnswered (.error _) => ing.cancelled = false
  | .quarantining _ => True
  | _ => False

def Good (ing : Ingest K) : Prop :=
  ing.content.length = ing.descriptor.byteLength ∧ K.sha256 ing.content = ing.descriptor.contentHash

/-- The staging file of an ingest that is about to rename it. -/
def Movable (s : Store K) (i : Nat) (ing : Ingest K) : Prop :=
  (Live s ing → s.stagedBy ing.assetId = some i ∧
    s.disk.files.staging.lookup ing.name = some (.file ing.content)) ∧
  (s.disk.files.staging.lookup ing.name = none ∨
    (s.disk.files.staging.lookup ing.name = some (.file ing.content) ∧ NotPublished s ing.assetId))

/-- What holds of an ingest at each of its awaits. -/
def IngestOk (s : Store K) (i : Nat) (ing : Ingest K) : Prop :=
  match ing.phase with
  | .writing written rest => written ++ streamed rest = ing.content ∧
      (Live s ing → s.disk.files.staging.lookup ing.name = some (.file written))
  | .staging => Good ing ∧ (Live s ing → s.disk.files.staging.lookup ing.name = some (.file ing.content))
  | .stageAnswered (.ok .inserted) => Good ing ∧ Movable s i ing
  | .renaming => Good ing ∧ Movable s i ing
  | .renamed (.ok ()) => Good ing ∧ (ing.cancelled = false → NotPublished s ing.assetId) ∧ (Live s ing →
      s.stagedBy ing.assetId = some i ∧ s.disk.files.blobs.lookup ing.key = some (.file ing.content))
  | .renamed (.error _) => Live s ing → s.stagedBy ing.assetId = some i
  | .publishing => Good ing ∧ (ing.cancelled = false → NotPublished s ing.assetId ∧
      (Live s ing → s.stagedBy ing.assetId = some i))
  | .publishAnswered (.error _) => (ing.cancelled = false → NotPublished s ing.assetId) ∧
      (Live s ing → s.stagedBy ing.assetId = some i)
  | .quarantining _ => NotPublished s ing.assetId ∧ (Live s ing → s.stagedBy ing.assetId = some i)
  | .quarantined _ => Live s ing → s.stagedBy ing.assetId = some i
  | _ => True

/-- What a queued command can rely on. -/
def QueuedOk (s : Store K) (i : Nat) (ing : Ingest K) : Prop :=
  match ing.phase with
  | .publishing => s.stagedBy ing.assetId = some i ∧
      s.disk.files.blobs.lookup ing.key = some (.file ing.content)
  | .unstaging _ _ => s.stagedBy ing.assetId = some i
  | _ => True

def owner : Request K → Option Nat
  | .command i _ => some i
  | .shutdown => none

structure Invariant (s : Store K) : Prop where
  rows : ∀ id row, s.disk.assets.lookup id = some row → ∃ record, decodeRow id row = .ok record ∧
    (record.state = .published → Intact s record)
  staged : ∀ a i, s.stagedBy a = some i → ∃ ing n, s.ingests i = some ing ∧ ing.assetId = a ∧
    toI64 ing.descriptor.byteLength = some n ∧
    s.disk.assets.lookup (K.assetId.text a) = some (encodeRow ing.descriptor n (blobKey a) .staged)
  names : ∀ i j ing ing', s.ingests i = some ing → s.ingests j = some ing' → i ≠ j → ing.name ≠ ing'.name
  gens : ∀ i ing, s.ingests i = some ing → ing.gen ≤ s.gen
  idle : s.worker = none → ∀ a, s.stagedBy a = none
  owners : ∀ q, s.worker = some q → (q.filterMap owner).Nodup
  queued : ∀ q i c, s.worker = some q → Request.command i c ∈ q → ∃ ing, s.ingests i = some ing ∧
    ing.gen = s.gen ∧ awaited ing = some c ∧ QueuedOk s i ing
  ingests : ∀ i ing, s.ingests i = some ing → IngestOk s i ing
  settled : ∀ i ing, s.ingests i = some ing → s.worker.isSome = true → ing.gen ≠ s.gen →
    ¬ Unsettled ing ∧ (ing.phase = .renaming ∨ ing.phase = .stageAnswered (.ok .inserted) →
      s.disk.files.staging.lookup ing.name = none)

/-- Nothing is owed to anybody before the first ingest. -/
theorem Invariant.start {s : Store K} (hrows : ∀ id row, s.disk.assets.lookup id = some row →
      ∃ record, decodeRow id row = .ok record ∧ (record.state = .published → Intact s record))
    (hingests : ∀ i, s.ingests i = none) (hstaged : ∀ a, s.stagedBy a = none)
    (hworker : ∀ q, s.worker = some q → q = []) : Invariant s where
  rows := hrows
  staged := by
    intro a i hst
    rw [hstaged] at hst
    cases hst
  names := by
    intro i j x y hx
    rw [hingests] at hx
    cases hx
  gens := by
    intro i x hx
    rw [hingests] at hx
    cases hx
  idle := fun _ => hstaged
  owners := by
    intro q hq
    rw [hworker q hq]
    exact List.nodup_nil
  queued := by
    intro q i c hq hc
    rw [hworker q hq] at hc
    cases hc
  ingests := by
    intro i x hx
    rw [hingests] at hx
    cases hx
  settled := by
    intro i x hx
    rw [hingests] at hx
    cases hx

/-- Published rows and their blobs, from one state to a later one. -/
def Preserves (s t : Store K) : Prop :=
  ∀ id row record, s.disk.assets.lookup id = some row → decodeRow (K := K) id row = .ok record →
    record.state = .published → t.disk.assets.lookup id = some row ∧
      t.disk.files.blobs.lookup record.blobKey = s.disk.files.blobs.lookup record.blobKey

theorem Preserves.refl (s : Store K) : Preserves s s := fun _ _ _ h _ _ => ⟨h, rfl⟩

theorem Preserves.trans {s t u : Store K} (h : Preserves s t) (h' : Preserves t u) : Preserves s u := by
  intro id row record hrow hd hs
  obtain ⟨hrow', hblob⟩ := h id row record hrow hd hs
  obtain ⟨hrow'', hblob'⟩ := h' id row record hrow' hd hs
  exact ⟨hrow'', hblob'.trans hblob⟩

/-- The parts of a store that `IngestOk` looks at, for one ingest. -/
structure Frame (s t : Store K) (i : Nat) (ing : Ingest K) : Prop where
  live : Live t ing → Live s ing
  staging : t.disk.files.staging.lookup ing.name = s.disk.files.staging.lookup ing.name ∨
    (¬ Live t ing ∧ t.disk.files.staging.lookup ing.name = none)
  published : NotPublished s ing.assetId → NotPublished t ing.assetId
  owned : Live t ing → s.stagedBy ing.assetId = some i → t.stagedBy ing.assetId = some i ∧
    t.disk.files.blobs.lookup ing.key = s.disk.files.blobs.lookup ing.key

theorem Frame.file {s t : Store K} {i : Nat} {ing : Ingest K} (hf : Frame s t i ing) (hl : Live t ing)
    {node : Node} (h : s.disk.files.staging.lookup ing.name = some node) :
    t.disk.files.staging.lookup ing.name = some node := by
  rcases hf.staging with hsame | ⟨hdead, -⟩
  · rw [hsame, h]
  · exact absurd hl hdead

theorem Movable.frame {s t : Store K} {i : Nat} {ing : Ingest K} (h : Movable s i ing)
    (hf : Frame s t i ing) : Movable t i ing := by
  refine ⟨?_, ?_⟩
  · intro hl
    obtain ⟨hst, hfile⟩ := h.1 (hf.live hl)
    exact ⟨(hf.owned hl hst).1, hf.file hl hfile⟩
  · rcases hf.staging with hsame | ⟨-, hnone⟩
    · rw [hsame]
      exact h.2.imp_right (fun hm => ⟨hm.1, hf.published hm.2⟩)
    · exact .inl hnone

theorem IngestOk.frame {s t : Store K} {i : Nat} {ing : Ingest K} (h : IngestOk s i ing)
    (hf : Frame s t i ing) : IngestOk t i ing := by
  unfold IngestOk at h ⊢
  split at h
  · exact ⟨h.1, fun hl => hf.file hl (h.2 (hf.live hl))⟩
  · exact ⟨h.1, fun hl => hf.file hl (h.2 (hf.live hl))⟩
  · exact ⟨h.1, h.2.frame hf⟩
  · exact ⟨h.1, h.2.frame hf⟩
  · refine ⟨h.1, fun hc => hf.published (h.2.1 hc), ?_⟩
    intro hl
    obtain ⟨hst, hblob⟩ := h.2.2 (hf.live hl)
    obtain ⟨hst', hsame⟩ := hf.owned hl hst
    exact ⟨hst', by rw [hsame, hblob]⟩
  · exact fun hl => (hf.owned hl (h (hf.live hl))).1
  · exact ⟨h.1, fun hc => ⟨hf.published (h.2 hc).1, fun hl => (hf.owned hl ((h.2 hc).2 (hf.live hl))).1⟩⟩
  · exact ⟨fun hc => hf.published (h.1 hc), fun hl => (hf.owned hl (h.2 (hf.live hl))).1⟩
  · exact ⟨hf.published h.1, fun hl => (hf.owned hl (h.2 (hf.live hl))).1⟩
  · exact fun hl => (hf.owned hl (h (hf.live hl))).1
  · trivial

theorem QueuedOk.frame {s t : Store K} {i : Nat} {ing : Ingest K} (h : QueuedOk s i ing)
    (hl : Live t ing) (hf : Frame s t i ing) : QueuedOk t i ing := by
  unfold QueuedOk at h ⊢
  split at h
  · obtain ⟨hst, hblob⟩ := hf.owned hl h.1
    exact ⟨hst, by rw [hblob, h.2]⟩
  · exact (hf.owned hl h).1
  · trivial

/-- Two states of one call. -/
structure SameCall (ing ing' : Ingest K) : Prop where
  gen : ing'.gen = ing.gen
  descriptor : ing'.descriptor = ing.descriptor
  name : ing'.name = ing.name

/-- A step of one ingest that touches its own staging file, and the blob of its asset
only while nobody else can rely on it. -/
structure OwnFiles (s t : Store K) (i : Nat) (ing ing' : Ingest K) : Prop where
  found : s.ingests i = some ing
  same : SameCall ing ing'
  ingests : t.ingests = Function.update s.ingests i (some ing')
  assets : t.disk.assets = s.disk.assets
  gen : t.gen = s.gen
  worker : t.worker = s.worker
  stagedBy : t.stagedBy = s.stagedBy
  origin : t.origin = s.origin
  staging : ∀ name, name ≠ ing.name →
    t.disk.files.staging.lookup name = s.disk.files.staging.lookup name
  blobs : ∀ key, key ≠ ing.key → t.disk.files.blobs.lookup key = s.disk.files.blobs.lookup key
  free : t.disk.files.blobs = s.disk.files.blobs ∨
    (NotPublished s ing.assetId ∧ ∀ j, s.stagedBy ing.assetId = some j → j = i)

section OwnFiles

variable {s t : Store K} {i : Nat} {ing ing' : Ingest K}

theorem OwnFiles.live (h : OwnFiles s t i ing ing') (x : Ingest K) : Live t x ↔ Live s x := by
  simp only [Live, h.gen, h.worker]

theorem OwnFiles.notPublished (h : OwnFiles s t i ing ing') (a : K.AssetId) :
    NotPublished t a ↔ NotPublished s a := by
  simp only [NotPublished, h.assets]

theorem OwnFiles.frame (h : OwnFiles s t i ing ing') (hs : Invariant s) {j : Nat} {x : Ingest K}
    (hj : j ≠ i) (hx : s.ingests j = some x) : Frame s t j x where
  live := (h.live x).mp
  staging := .inl (h.staging _ (hs.names j i x ing hx h.found hj))
  published := (h.notPublished _).mpr
  owned := by
    intro _ hst
    refine ⟨by rw [h.stagedBy, hst], ?_⟩
    by_cases ha : x.key = ing.key
    · rcases h.free with hfree | ⟨-, hfree⟩
      · rw [hfree]
      · have hsame : x.assetId = ing.assetId := blobKey_injective ha
        rw [hsame] at hst
        exact absurd (hfree j hst) hj
    · exact h.blobs _ ha

theorem OwnFiles.other (h : OwnFiles s t i ing ing') {j : Nat} (hj : j ≠ i) : t.ingests j = s.ingests j := by
  rw [h.ingests, Function.update_of_ne hj]

theorem OwnFiles.own (h : OwnFiles s t i ing ing') : t.ingests i = some ing' := by
  rw [h.ingests, Function.update_self]

/-- Blobs of published rows are not among the files that such a step touches. -/
theorem OwnFiles.blob_kept (h : OwnFiles s t i ing ing') {id : String} {row : AssetRow}
    {record : AssetRecord K} (hrow : s.disk.assets.lookup id = some row) (hd : decodeRow id row = .ok record)
    (hp : record.state = .published) :
    t.disk.files.blobs.lookup record.blobKey = s.disk.files.blobs.lookup record.blobKey := by
  obtain ⟨hid, -, -, -, -, hkey, hkey', hstate⟩ := decodeRow_eq_ok.mp hd
  by_cases ha : record.blobKey = ing.key
  · rcases h.free with hfree | ⟨hfree, -⟩
    · rw [hfree]
    · have hsame : record.descriptor.assetId = ing.assetId := by
        refine blobKey_injective ?_
        rw [← hkey, ← hkey', ha]
        rfl
      rw [hid, hsame] at hrow
      exact absurd (by rw [hstate, hp]) (hfree row hrow)
  · exact h.blobs _ ha

theorem OwnFiles.preserves (h : OwnFiles s t i ing ing') : Preserves s t := by
  intro id row record hrow hd hp
  exact ⟨by rw [h.assets, hrow], h.blob_kept hrow hd hp⟩

theorem OwnFiles.invariant (h : OwnFiles s t i ing ing') (hs : Invariant s) (hok : IngestOk t i ing')
    (hqueued : ∀ q c, s.worker = some q → Request.command i c ∈ q →
      awaited ing' = some c ∧ QueuedOk t i ing')
    (hsettled : s.worker.isSome = true → ing.gen ≠ s.gen → ¬ Unsettled ing' ∧
      (ing'.phase = .renaming ∨ ing'.phase = .stageAnswered (.ok .inserted) →
        t.disk.files.staging.lookup ing.name = none)) : Invariant t where
  rows := by
    intro id row hrow
    rw [h.assets] at hrow
    obtain ⟨record, hd, hintact⟩ := hs.rows id row hrow
    refine ⟨record, hd, ?_⟩
    intro hp
    obtain ⟨bytes, hb, hlen, hhash, horigin⟩ := hintact hp
    exact ⟨bytes, by rw [h.blob_kept hrow hd hp, hb], hlen, hhash, by rw [h.origin]; exact horigin⟩
  staged := by
    intro a k hst
    rw [h.stagedBy] at hst
    obtain ⟨x, n, hx, ha, hn, hrow⟩ := hs.staged a k hst
    rw [h.assets]
    by_cases hk : k = i
    · subst hk
      rw [h.found] at hx
      cases hx
      refine ⟨ing', n, h.own, ?_, ?_, ?_⟩
      · rw [← ha, Ingest.assetId, h.same.descriptor]
        rfl
      · rw [h.same.descriptor, hn]
      · rw [h.same.descriptor, hrow]
    · exact ⟨x, n, by rw [h.other hk, hx], ha, hn, hrow⟩
  names := by
    refine pairwise_moved h.ingests (fun _ _ => Ne.symm) ?_ hs.names
    intro j x hj hx
    rw [h.same.name]
    exact hs.names i j ing x h.found hx hj.symm
  gens := by
    rw [h.gen]
    refine forall_moved h.ingests ?_ (fun j x _ => hs.gens j x)
    rw [h.same.gen]
    exact hs.gens i ing h.found
  idle := by
    rw [h.worker, h.stagedBy]
    exact hs.idle
  owners := by
    rw [h.worker]
    exact hs.owners
  queued := by
    intro q j c hq hc
    rw [h.worker] at hq
    obtain ⟨x, hx, hgen, hawaits, hx'⟩ := hs.queued q j c hq hc
    rw [h.gen]
    by_cases hj : j = i
    · subst hj
      rw [h.found] at hx
      cases hx
      exact ⟨ing', h.own, by rw [h.same.gen, hgen], hqueued q c hq hc⟩
    · have hlive : Live t x := (h.live x).mpr ⟨hgen, by simp [hq]⟩
      exact ⟨x, by rw [h.other hj, hx], hgen, hawaits, hx'.frame hlive (h.frame hs hj hx)⟩
  ingests := forall_moved h.ingests hok (fun j x hj hx => (hs.ingests j x hx).frame (h.frame hs hj hx))
  settled := by
    rw [h.worker, h.gen]
    refine forall_moved h.ingests ?_ ?_
    · intro hw hgen
      rw [h.same.gen] at hgen
      rw [h.same.name]
      exact hsettled hw hgen
    · intro j x hj hx hw hgen
      rw [h.staging _ (hs.names j i x ing hx h.found hj)]
      exact hs.settled j x hx hw hgen

end OwnFiles

section Steps

variable {s : Store K} {i : Nat} {ing : Ingest K}

theorem put_ownFiles (hi : s.ingests i = some ing) {ing' : Ingest K} (hsame : SameCall ing ing') :
    OwnFiles s (s.put i ing') i ing ing' :=
  ⟨hi, hsame, rfl, rfl, rfl, rfl, rfl, rfl, fun _ _ => rfl, fun _ _ => rfl, .inl rfl⟩

theorem staging_ownFiles (hi : s.ingests i = some ing) {ing' : Ingest K} (hsame : SameCall ing ing')
    {staging : Dir} (hs : ∀ name, name ≠ ing.name → staging.lookup name = s.disk.files.staging.lookup name) :
    OwnFiles s ((s.setStaging staging).put i ing') i ing ing' :=
  ⟨hi, hsame, rfl, rfl, rfl, rfl, rfl, rfl, hs, fun _ _ => rfl, .inl rfl⟩

theorem not_queued (hs : Invariant s) (hi : s.ingests i = some ing) (hnone : awaited ing = none)
    {q : List (Request K)} {c : Command K} (hq : s.worker = some q) : Request.command i c ∉ q := by
  intro hc
  obtain ⟨x, hx, -, hx', -⟩ := hs.queued q i c hq hc
  rw [hi] at hx
  cases hx
  rw [hnone] at hx'
  cases hx'

/-- The ingest will not rename, and moves no blob that it could not move before. -/
structure Calmer (ing ing' : Ingest K) : Prop where
  unsettled : Unsettled ing' → Unsettled ing
  renames : ing'.phase = .renaming ∨ ing'.phase = .stageAnswered (.ok .inserted) →
    ing.phase = .renaming ∨ ing.phase = .stageAnswered (.ok .inserted)

theorem Calmer.settled {ing' : Ingest K} (h : Calmer ing ing') (hs : Invariant s)
    (hi : s.ingests i = some ing) (hw : s.worker.isSome = true) (hgen : ing.gen ≠ s.gen) :
    ¬ Unsettled ing' ∧ (ing'.phase = .renaming ∨ ing'.phase = .stageAnswered (.ok .inserted) →
      s.disk.files.staging.lookup ing.name = none) := by
  obtain ⟨h₁, h₂⟩ := hs.settled i ing hi hw hgen
  exact ⟨fun hu => h₁ (h.unsettled hu), fun hr => h₂ (h.renames hr)⟩

/-- A step that changes nothing but the phase of an ingest that waits for no reply. -/
theorem put_step (hs : Invariant s) (hi : s.ingests i = some ing) {ing' : Ingest K}
    (hsame : SameCall ing ing') (hok : IngestOk s i ing') (hcalm : Calmer ing ing')
    (hqueued : ∀ q c, s.worker = some q → Request.command i c ∈ q →
      awaited ing' = some c ∧ QueuedOk s i ing') :
    Invariant (s.put i ing') ∧ Preserves s (s.put i ing') := by
  refine ⟨(put_ownFiles hi hsame).invariant hs hok hqueued ?_, (put_ownFiles hi hsame).preserves⟩
  intro hw hgen
  have hset := hcalm.settled hs hi hw hgen
  exact hset

/-! ## What an ingest does next -/

/-- The commands that `resume` sends. -/
inductive Sends (ing : Ingest K) : Command K → Phase K → (LocalAssetStoreError K → Phase K) → Prop
  | lookup (hphase : ing.phase = .waiting) :
      Sends ing (.lookup ing.assetId) .looking (fun e => .finished (.error e))
  | stage {written : Bytes} (hphase : ing.phase = .writing written [])
      (hverified : verifyWritten ing.descriptor written = .ok ()) :
      Sends ing (.stage ing.descriptor ing.key) .staging (fun e => .removing (.error e))
  | publish (hphase : ing.phase = .renamed (.ok ())) :
      Sends ing (.publish ing.descriptor ing.key) .publishing .quarantining
  | unstage {error : LocalAssetStoreError K} (hphase : ing.phase = .renamed (.error error)) :
      Sends ing (.removeStaged ing.assetId) (.unstaging error true) (fun _ => .removing (.error error))
  | withdraw {error : LocalAssetStoreError K} (hphase : ing.phase = .quarantined error) :
      Sends ing (.removeStaged ing.assetId) (.unstaging error false) (fun _ => .finished (.error error))

/-- The awaits that `resume` goes on to. -/
inductive Becomes (ing : Ingest K) : Phase K → Prop
  | lookupFailed {error : LocalAssetStoreError K} (hphase : ing.phase = .looked (.error error)) :
      Becomes ing (.finished (.error error))
  | absent (hphase : ing.phase = .looked (.ok none)) : Becomes ing .creating
  | found {record : AssetRecord K} {result : Outcome K} (hphase : ing.phase = .looked (.ok (some record)))
      (hpublished : record.state = .published → result =
        if record.descriptor = ing.descriptor then .ok .existing else .error (.assetConflict ing.assetId))
      (hstaged : record.state = .staged → result = .error (.assetInProgress ing.assetId)) :
      Becomes ing (.finished result)
  | mismatched {written : Bytes} {error : LocalAssetStoreError K} (hphase : ing.phase = .writing written [])
      (hverify : verifyWritten ing.descriptor written = .error error) : Becomes ing (.removing (.error error))
  | stageFailed {error : LocalAssetStoreError K} (hphase : ing.phase = .stageAnswered (.error error)) :
      Becomes ing (.removing (.error error))
  | existing (hphase : ing.phase = .stageAnswered (.ok .existing)) : Becomes ing (.removing (.ok .existing))
  | inserted (hphase : ing.phase = .stageAnswered (.ok .inserted)) : Becomes ing .renaming
  | published (hphase : ing.phase = .publishAnswered (.ok ())) : Becomes ing (.finished (.ok .inserted))
  | publishFailed {error : LocalAssetStoreError K} (hphase : ing.phase = .publishAnswered (.error error)) :
      Becomes ing (.quarantining error)
  | unstaged {error : LocalAssetStoreError K} (hphase : ing.phase = .unstaged error true) :
      Becomes ing (.removing (.error error))
  | withdrawn {error : LocalAssetStoreError K} (hphase : ing.phase = .unstaged error false) :
      Becomes ing (.finished (.error error))

/-- The command that an ingest waits for. -/
inductive Awaits (ing : Ingest K) : Command K → Prop
  | lookup (hphase : ing.phase = .looking) : Awaits ing (.lookup ing.assetId)
  | stage (hphase : ing.phase = .staging) : Awaits ing (.stage ing.descriptor ing.key)
  | publish (hphase : ing.phase = .publishing) : Awaits ing (.publish ing.descriptor ing.key)
  | removeStaged {error : LocalAssetStoreError K} {cleanFile : Bool}
      (hphase : ing.phase = .unstaging error cleanFile) : Awaits ing (.removeStaged ing.assetId)

theorem resume_sends {c : Command K} {sent : Phase K} {refused : LocalAssetStoreError K → Phase K}
    (h : resume ing = some (.send c sent refused)) : Sends ing c sent refused := by
  unfold resume at h
  split at h
  case h_5 written hphase =>
    split at h
    · cases h
    · rename_i hverified
      cases h
      exact .stage hphase hverified
  all_goals cases h
  all_goals rename_i hphase
  · exact .lookup hphase
  · exact .unstage hphase
  · exact .publish hphase
  · exact .withdraw hphase

theorem resume_becomes {p : Phase K} (h : resume ing = some (.become p)) : Becomes ing p := by
  unfold resume at h
  split at h
  case h_5 written hphase =>
    split at h
    · rename_i hverify
      cases h
      exact .mismatched hphase hverify
    · cases h
  all_goals cases h
  all_goals rename_i hphase
  · exact .lookupFailed hphase
  · exact .absent hphase
  · exact .found hphase (fun hstate => by rw [hstate]) (fun hstate => by rw [hstate])
  · exact .stageFailed hphase
  · exact .existing hphase
  · exact .inserted hphase
  · exact .published hphase
  · exact .publishFailed hphase
  · exact .unstaged hphase
  · exact .withdrawn hphase

theorem awaited_awaits {c : Command K} (h : awaited ing = some c) : Awaits ing c := by
  unfold awaited at h
  split at h
  all_goals cases h
  all_goals rename_i hphase
  · exact .lookup hphase
  · exact .stage hphase
  · exact .publish hphase
  · exact .removeStaged hphase

theorem resume_awaited {x : Intent K} (h : resume ing = some x) : awaited ing = none := by
  unfold resume at h
  unfold awaited
  split at h <;> simp_all

/-- Going on to the next await keeps what holds of the ingest. -/
theorem resume_become {p : Phase K} (h : resume ing = some (.become p)) (hc : ing.cancelled = false)
    (hok : IngestOk s i ing) : IngestOk s i { ing with phase := p } ∧ Calmer ing { ing with phase := p } := by
  cases resume_becomes h with
  | inserted hphase =>
    simp only [IngestOk, hphase] at hok
    exact ⟨hok, fun hu => hu.elim, fun _ => .inr hphase⟩
  | publishFailed hphase =>
    simp only [IngestOk, hphase] at hok
    exact ⟨⟨hok.1 hc, hok.2⟩, fun _ => by simpa only [Unsettled, hphase] using hc, by simp⟩
  | lookupFailed _ | absent _ | found _ _ _ | mismatched _ _ | stageFailed _ | existing _ | published _
  | unstaged _ | withdrawn _ => exact ⟨trivial, fun hu => hu.elim, by simp⟩

/-- So does being refused by the queue. -/
theorem resume_refused {c : Command K} {sent : Phase K} {refused : LocalAssetStoreError K → Phase K}
    (h : resume ing = some (.send c sent refused)) (hc : ing.cancelled = false) (hok : IngestOk s i ing)
    (e : LocalAssetStoreError K) :
    IngestOk s i { ing with phase := refused e } ∧ Calmer ing { ing with phase := refused e } := by
  cases resume_sends h with
  | publish hphase =>
    simp only [IngestOk, hphase] at hok
    exact ⟨⟨hok.2.1 hc, fun hl => (hok.2.2 hl).1⟩, fun _ => by simpa only [Unsettled, hphase] using hc, by simp⟩
  | lookup _ | stage _ _ | unstage _ | withdraw _ => exact ⟨trivial, fun hu => hu.elim, by simp⟩

theorem verifyWritten_ok {d : SourceAssetDescriptor K} {written : Bytes} (h : verifyWritten d written = .ok ()) :
    written.length = d.byteLength ∧ K.sha256 written = d.contentHash := by
  unfold verifyWritten at h
  split at h
  · cases h
  · rename_i hlen
    split at h
    · cases h
    · rename_i hhash
      exact ⟨not_not.mp hlen, not_not.mp hhash⟩

/-- A command that the queue took is one that its owner waits for and can rely on. -/
theorem resume_sent {c : Command K} {sent : Phase K} {refused : LocalAssetStoreError K → Phase K}
    (h : resume ing = some (.send c sent refused)) (hc : ing.cancelled = false) (hok : IngestOk s i ing)
    (hl : Live s ing) : IngestOk s i { ing with phase := sent } ∧
      awaited { ing with phase := sent } = some c ∧ QueuedOk s i { ing with phase := sent } := by
  cases resume_sends h with
  | lookup hphase => exact ⟨trivial, rfl, trivial⟩
  | @stage written hphase hverified =>
    simp only [IngestOk, hphase, streamed, List.filterMap_nil, List.flatten_nil, List.append_nil] at hok
    have hgood := verifyWritten_ok hverified
    rw [hok.1] at hgood
    refine ⟨⟨hgood, ?_⟩, rfl, trivial⟩
    intro _
    rw [hok.2 hl, hok.1]
    rfl
  | publish hphase =>
    simp only [IngestOk, hphase] at hok
    exact ⟨⟨hok.1, fun _ => ⟨hok.2.1 hc, fun _ => (hok.2.2 hl).1⟩⟩, rfl, hok.2.2 hl⟩
  | unstage hphase | withdraw hphase =>
    simp only [IngestOk, hphase] at hok
    exact ⟨trivial, rfl, hok hl⟩

/-- Putting a command at the end of the queue. -/
theorem Invariant.enqueue (hs : Invariant s) {q : List (Request K)} (hq : s.worker = some q)
    (hi : s.ingests i = some ing) (hgen : ing.gen = s.gen) {c : Command K} (hawaits : awaited ing = some c)
    (hok : QueuedOk s i ing) (hnew : ∀ c', Request.command i c' ∉ q) :
    Invariant { s with worker := some (q ++ [.command i c]) } where
  rows := hs.rows
  staged := hs.staged
  names := hs.names
  gens := hs.gens
  idle := by simp
  owners := by
    intro q' hq'
    cases hq'
    rw [List.filterMap_append, List.nodup_append]
    refine ⟨hs.owners q hq, by simp [owner], ?_⟩
    intro a ha b hb hab
    simp only [List.filterMap_cons, owner, List.filterMap_nil, List.mem_singleton] at hb
    obtain ⟨r, hr, hro⟩ := List.mem_filterMap.mp ha
    cases r with
    | shutdown => cases hro
    | command j c' =>
      simp only [owner, Option.some.injEq] at hro
      subst hro hab hb
      exact hnew c' hr
  queued := by
    intro q' j c' hq' hc'
    cases hq'
    rcases List.mem_append.mp hc' with hold | hlast
    · exact hs.queued q j c' hq hold
    · rw [List.mem_singleton] at hlast
      cases hlast
      exact ⟨ing, hi, hgen, hawaits, hok⟩
  ingests := by
    intro j x hx
    refine (hs.ingests j x hx).frame ⟨?_, .inl rfl, id, fun _ h => ⟨h, rfl⟩⟩
    intro hl
    exact ⟨hl.1, by simp [hq]⟩
  settled := by
    intro j x hx _ hg
    exact hs.settled j x hx (by simp [hq]) hg

theorem Invariant.with_holder (hs : Invariant s) (holder : Option Nat) : Invariant { s with holder } :=
  ⟨hs.rows, hs.staged, hs.names, hs.gens, hs.idle, hs.owners, hs.queued, hs.ingests, hs.settled⟩

theorem send_step (hs : Invariant s) {q : List (Request K)} {c : Command K} {sent : Phase K}
    {refused : LocalAssetStoreError K → Phase K} (hi : s.ingests i = some ing)
    (hc : ing.cancelled = false) (hr : resume ing = some (.send c sent refused))
    (hgen : ing.gen = s.gen) (hq : s.worker = some q) (holder : Option Nat) :
    Invariant { s.put i { ing with phase := sent } with worker := some (q ++ [.command i c]), holder } := by
  have hl : Live s ing := ⟨hgen, by simp [hq]⟩
  obtain ⟨hok, hawaits, hqueued⟩ := resume_sent hr hc (hs.ingests i ing hi) hl
  have hnone := resume_awaited hr
  have hown : OwnFiles s (s.put i { ing with phase := sent }) i ing { ing with phase := sent } :=
    put_ownFiles hi ⟨rfl, rfl, rfl⟩
  have hput : Invariant (s.put i { ing with phase := sent }) := by
    refine hown.invariant hs hok ?_ ?_
    · intro q' c' hq' hc'
      exact absurd hc' (not_queued hs hi hnone hq')
    · intro _ hne
      exact absurd hgen hne
  have hnew : ∀ c', Request.command i c' ∉ q := fun c' => not_queued hs hi hnone hq
  exact (hput.enqueue hq hown.own hgen hawaits hqueued hnew).with_holder holder

theorem cancel_step (hs : Invariant s) (hi : s.ingests i = some ing) :
    Invariant (s.put i { ing with cancelled := true }) ∧
      Preserves s (s.put i { ing with cancelled := true }) := by
  refine put_step hs hi ⟨rfl, rfl, rfl⟩ ?_ ⟨?_, id⟩ ?_
  · have hok := hs.ingests i ing hi
    unfold IngestOk at hok ⊢
    split at hok
    all_goals try rename_i hphase
    all_goals try simp only [hphase]
    · exact hok
    · exact hok
    · exact hok
    · exact hok
    · exact ⟨hok.1, by simp, hok.2.2⟩
    · exact hok
    · exact ⟨hok.1, by simp⟩
    · exact ⟨by simp, hok.2⟩
    · exact hok
    · exact hok
  · intro hu
    unfold Unsettled at hu ⊢
    split at hu <;> simp_all
  · intro q c hq hc
    obtain ⟨x, hx, -, hawaits, hqueued⟩ := hs.queued q i c hq hc
    rw [hi] at hx
    cases hx
    exact ⟨hawaits, hqueued⟩

theorem not_live (hdead : s.worker = none ∨ ing.gen ≠ s.gen) : ¬ Live s ing := by
  rintro ⟨hgen, hw⟩
  rcases hdead with hnone | hother
  · simp [hnone] at hw
  · exact hother hgen

/-- A reply that will not come any more reads as an error. -/
theorem lost_step (hs : Invariant s) (hi : s.ingests i = some ing) {c : Command K}
    (ha : awaited ing = some c) (hdead : s.worker = none ∨ ing.gen ≠ s.gen) :
    Invariant (s.put i (ing.deliver (lost c))) ∧ Preserves s (s.put i (ing.deliver (lost c))) := by
  have hlive := not_live hdead
  have hqueued : ∀ q c', s.worker = some q → Request.command i c' ∉ q := by
    intro q c' hq hc'
    obtain ⟨x, hx, hgen, -⟩ := hs.queued q i c' hq hc'
    rw [hi] at hx
    cases hx
    exact hlive ⟨hgen, by simp [hq]⟩
  have hnone : ∀ {ing' : Ingest K} q c', s.worker = some q → Request.command i c' ∈ q →
      awaited ing' = some c' ∧ QueuedOk s i ing' := fun q c' hq hc' => absurd hc' (hqueued q c' hq)
  have hok := hs.ingests i ing hi
  unfold Ingest.deliver
  cases hc : ing.cancelled with
  | true => exact put_step hs hi ⟨rfl, rfl, rfl⟩ hok ⟨id, id⟩ hnone
  | false =>
    cases awaited_awaits ha with
    | publish hphase =>
      simp only [IngestOk, hphase] at hok
      simp only [hphase, lost]
      refine put_step hs hi ⟨rfl, rfl, rfl⟩ ⟨fun _ => (hok.2 hc).1, fun hl => absurd hl hlive⟩ ⟨?_, by simp⟩ hnone
      intro _
      simpa only [Unsettled, hphase] using hc
    | lookup hphase | stage hphase | removeStaged hphase =>
      simp only [hphase, lost]
      exact put_step hs hi ⟨rfl, rfl, rfl⟩ trivial ⟨fun hu => hu.elim, by simp⟩ hnone

end Steps

end OrbitRelay.AssetStore
