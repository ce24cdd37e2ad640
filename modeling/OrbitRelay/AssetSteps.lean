import OrbitRelay.AssetIntact

/-!
# The invariant of the Asset store, step by step

The filesystem operations of an ingest, the turns of the worker, and what stops
and reopens a store.
-/
namespace OrbitRelay.AssetStore

open Codec MachineInt Transition

variable {K : AssetKernel} {s t : Store K} {i : Nat} {ing ing' : Ingest K}

/-- A step on files after which the ingest does not rename. -/
theorem OwnFiles.step (h : OwnFiles s t i ing ing') (hs : Invariant s) (hnone : awaited ing = none)
    (hok : IngestOk t i ing') (hcalm : Calmer ing ing')
    (hrename : ing'.phase ≠ .renaming ∧ ing'.phase ≠ .stageAnswered (.ok .inserted)) :
    Invariant t ∧ Preserves s t := by
  refine ⟨h.invariant hs hok ?_ ?_, h.preserves⟩
  · intro q c hq hc
    exact absurd hc (not_queued hs h.found hnone hq)
  · intro hw hgen
    refine ⟨fun hu => (hs.settled i ing h.found hw hgen).1 (hcalm.unsettled hu), ?_⟩
    intro hr
    rcases hr with hr | hr
    · exact absurd hr hrename.1
    · exact absurd hr hrename.2

theorem goOn_same (p : Phase K) : SameCall ing (ing.goOn p) := ⟨rfl, rfl, rfl⟩

theorem goOn_phase {p : Phase K} (h : ing.cancelled = false) : (ing.goOn p).phase = p := by
  simp [Ingest.goOn, h]

/-- Going on from a filesystem operation, when the next await asks nothing of the blob. -/
theorem OwnFiles.goOn {p : Phase K} (h : OwnFiles s t i ing (ing.goOn p)) (hs : Invariant s)
    (hnone : awaited ing = none) (hok : IngestOk t i { ing with phase := p })
    (hu : ¬ Unsettled { ing with phase := p })
    (hrename : p ≠ .renaming ∧ p ≠ .stageAnswered (.ok .inserted)) : Invariant t ∧ Preserves s t := by
  cases hc : ing.cancelled with
  | true =>
    have hp : ing.goOn p = { ing with phase := .dropped } := by simp [Ingest.goOn, hc]
    rw [hp] at h
    exact h.step hs hnone trivial ⟨fun hu => hu.elim, by simp⟩ (by simp)
  | false =>
    have hp : ing.goOn p = { ing with phase := p } := by simp [Ingest.goOn, hc]
    rw [hp] at h
    refine h.step hs hnone hok ⟨fun hu' => absurd hu' hu, ?_⟩ hrename
    intro hr
    rcases hr with hr | hr
    · exact absurd hr hrename.1
    · exact absurd hr hrename.2

theorem create_step (hs : Invariant s) (hi : s.ingests i = some ing) (hphase : ing.phase = .creating) :
    Invariant ((s.setStaging (s.disk.files.staging.insert ing.name (.file []))).put i
        (ing.goOn (.writing [] ing.reads))) ∧
      Preserves s ((s.setStaging (s.disk.files.staging.insert ing.name (.file []))).put i
        (ing.goOn (.writing [] ing.reads))) := by
  have hother : ∀ name, name ≠ ing.name → (s.disk.files.staging.insert ing.name (.file [])).lookup name =
      s.disk.files.staging.lookup name := fun name hname => AList.lookup_insert_ne hname
  refine (staging_ownFiles hi (goOn_same _) hother).goOn hs (by simp [awaited, hphase]) ⟨rfl, ?_⟩
    (fun hu => hu) (by simp)
  intro _
  exact AList.lookup_insert _

theorem goOn_removing (hs : Invariant s) (hi : s.ingests i = some ing) (hnone : awaited ing = none)
    (result : Outcome K) : Invariant (s.put i (ing.goOn (.removing result))) ∧
      Preserves s (s.put i (ing.goOn (.removing result))) :=
  (put_ownFiles hi (goOn_same _)).goOn hs hnone trivial (fun hu => hu) (by simp)

theorem write_step (hs : Invariant s) (hi : s.ingests i = some ing) {written chunk : Bytes}
    {rest : List (Option Bytes)} (hphase : ing.phase = .writing written (some chunk :: rest)) :
    let staging := match s.disk.files.staging.lookup ing.name with
      | some (.file _) => s.disk.files.staging.insert ing.name (.file (written ++ chunk))
      | _ => s.disk.files.staging
    Invariant ((s.setStaging staging).put i (ing.goOn (.writing (written ++ chunk) rest))) ∧
      Preserves s ((s.setStaging staging).put i (ing.goOn (.writing (written ++ chunk) rest))) := by
  intro staging
  have hok := hs.ingests i ing hi
  simp only [IngestOk, hphase] at hok
  have hother : ∀ name, name ≠ ing.name → staging.lookup name = s.disk.files.staging.lookup name := by
    intro name hname
    simp only [staging]
    split
    · exact AList.lookup_insert_ne hname
    · rfl
  refine (staging_ownFiles hi (goOn_same _) hother).goOn hs (by simp [awaited, hphase]) ⟨?_, ?_⟩
    (fun hu => hu) (by simp)
  · have hcontent : ing.content = written ++ streamed (some chunk :: rest) := hok.1.symm
    show written ++ chunk ++ streamed rest = ing.content
    rw [hcontent, List.append_assoc]
    simp [streamed]
  · intro hl
    have hfile := hok.2 hl
    show staging.lookup ing.name = _
    simp only [staging, hfile]
    exact AList.lookup_insert _

/-- Only the ingest that staged a row acts on its blob. -/
theorem free_of (hs : Invariant s)
    (hlive : Live s ing → s.stagedBy ing.assetId = some i)
    (hdead : s.worker.isSome = true → ing.gen ≠ s.gen → False) :
    ∀ j, s.stagedBy ing.assetId = some j → j = i := by
  intro j hj
  cases hw : s.worker with
  | none =>
    rw [hs.idle hw] at hj
    cases hj
  | some q =>
    by_cases hgen : ing.gen = s.gen
    · rw [hlive ⟨hgen, by simp [hw]⟩] at hj
      exact (Option.some.inj hj).symm
    · exact (hdead (by simp [hw]) hgen).elim

theorem rename_step (hs : Invariant s) (hi : s.ingests i = some ing) (hphase : ing.phase = .renaming)
    {node : Node} (hnode : s.disk.files.staging.lookup ing.name = some node) :
    let files : Files := { s.disk.files with
      blobs := s.disk.files.blobs.insert ing.key node
      staging := s.disk.files.staging.erase ing.name }
    Invariant ((s.setFiles files).put i { ing with phase := .renamed (.ok ()) }) ∧
      Preserves s ((s.setFiles files).put i { ing with phase := .renamed (.ok ()) }) := by
  intro files
  have hok := hs.ingests i ing hi
  simp only [IngestOk, hphase] at hok
  obtain ⟨hgood, hlive, hmove⟩ := hok
  have hdead : s.worker.isSome = true → ing.gen ≠ s.gen → False := by
    intro hw hgen
    have hnone := (hs.settled i ing hi hw hgen).2 (.inl hphase)
    rw [hnone] at hnode
    cases hnode
  have hnot : node = .file ing.content ∧ NotPublished s ing.assetId := by
    rcases hmove with hnone | ⟨hfile, hnot⟩
    · rw [hnone] at hnode
      cases hnode
    · rw [hfile] at hnode
      exact ⟨(Option.some.inj hnode).symm, hnot⟩
  have hown : OwnFiles s ((s.setFiles files).put i { ing with phase := .renamed (.ok ()) }) i ing
      { ing with phase := .renamed (.ok ()) } := by
    refine ⟨hi, ⟨rfl, rfl, rfl⟩, rfl, rfl, rfl, rfl, rfl, rfl, ?_, ?_, .inr ⟨hnot.2, ?_⟩⟩
    · intro name hname
      exact AList.lookup_erase_ne hname
    · intro key hkey
      exact AList.lookup_insert_ne hkey
    · exact free_of hs (fun hl => (hlive hl).1) hdead
  refine ⟨hown.invariant hs ⟨hgood, fun _ => hnot.2, ?_⟩ ?_ ?_, hown.preserves⟩
  · intro hl
    refine ⟨(hlive hl).1, ?_⟩
    show files.blobs.lookup ing.key = some (.file ing.content)
    rw [← hnot.1]
    exact AList.lookup_insert _
  · intro q c hq hc
    exact absurd hc (not_queued hs hi (by simp [awaited, hphase]) hq)
  · intro hw hgen
    exact (hdead hw hgen).elim

theorem quarantine_step (hs : Invariant s) (hi : s.ingests i = some ing) {e : LocalAssetStoreError K}
    (hphase : ing.phase = .quarantining e) (quarantine : Dir) :
    let files : Files := { s.disk.files with blobs := s.disk.files.blobs.erase ing.key, quarantine }
    Invariant ((s.setFiles files).put i { ing with phase := .quarantined e }) ∧
      Preserves s ((s.setFiles files).put i { ing with phase := .quarantined e }) := by
  intro files
  have hok := hs.ingests i ing hi
  simp only [IngestOk, hphase] at hok
  obtain ⟨hnot, hlive⟩ := hok
  have hown : OwnFiles s ((s.setFiles files).put i { ing with phase := .quarantined e }) i ing
      { ing with phase := .quarantined e } := by
    refine ⟨hi, ⟨rfl, rfl, rfl⟩, rfl, rfl, rfl, rfl, rfl, rfl, fun _ _ => rfl, ?_, .inr ⟨hnot, ?_⟩⟩
    · intro key hkey
      exact AList.lookup_erase_ne hkey
    · refine free_of hs hlive ?_
      intro hw hgen
      exact (hs.settled i ing hi hw hgen).1 (by simp [Unsettled, hphase])
  exact hown.step hs (by simp [awaited, hphase]) hlive ⟨fun hu => hu.elim, by simp⟩ (by simp)

theorem quarantineFailed_step (hs : Invariant s) (hi : s.ingests i = some ing)
    {e : LocalAssetStoreError K} (hphase : ing.phase = .quarantining e) :
    Invariant (s.put i { ing with phase := .quarantined e }) ∧
      Preserves s (s.put i { ing with phase := .quarantined e }) := by
  have hok := hs.ingests i ing hi
  simp only [IngestOk, hphase] at hok
  have hown : OwnFiles s (s.put i { ing with phase := .quarantined e }) i ing
      { ing with phase := .quarantined e } := put_ownFiles hi ⟨rfl, rfl, rfl⟩
  exact hown.step hs (by simp [awaited, hphase]) hok.2 ⟨fun hu => hu.elim, by simp⟩ (by simp)

theorem renameFailed_step (hs : Invariant s) (hi : s.ingests i = some ing)
    (hphase : ing.phase = .renaming) (e : LocalAssetStoreError K) :
    Invariant (s.put i { ing with phase := .renamed (.error e) }) ∧
      Preserves s (s.put i { ing with phase := .renamed (.error e) }) := by
  have hok := hs.ingests i ing hi
  simp only [IngestOk, hphase] at hok
  have hown : OwnFiles s (s.put i { ing with phase := .renamed (.error e) }) i ing
      { ing with phase := .renamed (.error e) } := put_ownFiles hi ⟨rfl, rfl, rfl⟩
  refine hown.step hs (by simp [awaited, hphase]) ?_ ⟨fun hu => hu.elim, by simp⟩ (by simp)
  intro hl
  exact (hok.2.1 hl).1

theorem remove_step (hs : Invariant s) (hi : s.ingests i = some ing) {result result' : Outcome K}
    (hphase : ing.phase = .removing result) {staging : Dir}
    (hstaging : ∀ name, name ≠ ing.name → staging.lookup name = s.disk.files.staging.lookup name) :
    Invariant ((s.setStaging staging).put i { ing with phase := .finished result' }) ∧
      Preserves s ((s.setStaging staging).put i { ing with phase := .finished result' }) := by
  have hsame : SameCall ing { ing with phase := .finished result' } := ⟨rfl, rfl, rfl⟩
  exact (staging_ownFiles hi hsame hstaging).step hs (by simp [awaited, hphase]) trivial ⟨fun hu => hu.elim, by simp⟩
    (by simp)

/-- An ingest that did not stage the row of its asset asks nothing of it. -/
theorem IngestOk.unowned (hs : Invariant s) {j : Nat} {x : Ingest K} (hx : s.ingests j = some x)
    (hw : s.worker.isSome = true) (hnot : s.stagedBy x.assetId ≠ some j)
    (hlive : Live t x → Live s x)
    (hstaging : t.disk.files.staging.lookup x.name = s.disk.files.staging.lookup x.name) :
    IngestOk t j x := by
  have hok := hs.ingests j x hx
  have hdead : ¬ Live s x → ¬ Unsettled x ∧ (x.phase = .renaming ∨ x.phase = .stageAnswered (.ok .inserted) →
      s.disk.files.staging.lookup x.name = none) := by
    intro hl
    exact hs.settled j x hx hw (fun hgen => hl ⟨hgen, hw⟩)
  have hmovable : Movable s j x → (x.phase = .renaming ∨ x.phase = .stageAnswered (.ok .inserted)) →
      Movable t j x := by
    intro hm hr
    have hl : ¬ Live s x := fun hl => hnot (hm.1 hl).1
    exact ⟨fun hl' => absurd (hlive hl') hl, .inl (by rw [hstaging, (hdead hl).2 hr])⟩
  unfold IngestOk at hok ⊢
  split at hok
  · exact ⟨hok.1, fun hl => by rw [hstaging, hok.2 (hlive hl)]⟩
  · exact ⟨hok.1, fun hl => by rw [hstaging, hok.2 (hlive hl)]⟩
  · rename_i hphase
    exact ⟨hok.1, hmovable hok.2 (.inr hphase)⟩
  · rename_i hphase
    exact ⟨hok.1, hmovable hok.2 (.inl hphase)⟩
  · rename_i hphase
    have hl : ¬ Live s x := fun hl => hnot (hok.2.2 hl).1
    refine ⟨hok.1, ?_, fun hl' => absurd (hlive hl') hl⟩
    intro hc
    exact absurd (by simpa [Unsettled, hphase] using hc) (hdead hl).1
  · exact fun hl => absurd (hok (hlive hl)) hnot
  · rename_i hphase
    refine ⟨hok.1, ?_⟩
    intro hc
    have hl : ¬ Live s x := fun hl => hnot ((hok.2 hc).2 hl)
    exact absurd (by simpa [Unsettled, hphase] using hc) (hdead hl).1
  · rename_i hphase
    have hl : ¬ Live s x := fun hl => hnot (hok.2 hl)
    refine ⟨?_, fun hl' => absurd (hlive hl') hl⟩
    intro hc
    exact absurd (by simpa [Unsettled, hphase] using hc) (hdead hl).1
  · rename_i hphase
    have hl : ¬ Live s x := fun hl => hnot (hok.2 hl)
    exact absurd (by simp [Unsettled, hphase]) (hdead hl).1
  · exact fun hl => absurd (hok (hlive hl)) hnot
  · trivial

/-- The worker has taken a request off its queue. -/
theorem Invariant.dequeue (hs : Invariant s) {r : Request K} {q : List (Request K)}
    (hq : s.worker = some (r :: q)) : Invariant { s with worker := some q } where
  rows := hs.rows
  staged := hs.staged
  names := hs.names
  gens := hs.gens
  idle := by simp
  owners := by
    intro q' hq'
    cases hq'
    refine (hs.owners _ hq).sublist ?_
    exact (List.sublist_cons_self r q).filterMap owner
  queued := by
    intro q' j c hq' hc
    cases hq'
    exact hs.queued _ j c hq (List.mem_cons_of_mem _ hc)
  ingests := by
    intro j x hx
    refine (hs.ingests j x hx).frame ⟨?_, .inl rfl, id, fun _ h => ⟨h, rfl⟩⟩
    intro hl
    exact ⟨hl.1, by simp [hq]⟩
  settled := by
    intro j x hx _ hgen
    exact hs.settled j x hx (by simp [hq]) hgen

theorem dequeued_owner (hs : Invariant s) {c : Command K} {q : List (Request K)}
    (hq : s.worker = some (.command i c :: q)) (c' : Command K) : Request.command i c' ∉ q := by
  intro hc'
  have hnodup := hs.owners _ hq
  rw [List.filterMap_cons_some (show owner (Request.command i c) = some i from rfl), List.nodup_cons] at hnodup
  exact hnodup.1 (List.mem_filterMap.mpr ⟨_, hc', rfl⟩)

/-- A turn of the worker for an ingest: rows and bookkeeping change for its asset alone,
which nobody else has staged and which is not published yet. -/
structure Executed (s t : Store K) (i : Nat) (ing ing' : Ingest K) : Prop where
  found : s.ingests i = some ing
  same : SameCall ing ing'
  ingests : t.ingests = Function.update s.ingests i (some ing')
  files : t.disk.files = s.disk.files
  gen : t.gen = s.gen
  worker : t.worker = s.worker
  running : s.worker.isSome = true
  notQueued : ∀ q c, s.worker = some q → Request.command i c ∉ q
  current : ing.gen = s.gen
  rows : ∀ id, id ≠ K.assetId.text ing.assetId → t.disk.assets.lookup id = s.disk.assets.lookup id
  stagedBy : ∀ a, a ≠ ing.assetId → t.stagedBy a = s.stagedBy a
  origin : ∀ a, a ≠ ing.assetId → t.origin a = s.origin a
  unpublished : NotPublished s ing.assetId
  alone : ∀ j, s.stagedBy ing.assetId = some j → j = i
  row : ∀ row, t.disk.assets.lookup (K.assetId.text ing.assetId) = some row →
    ∃ record, decodeRow (K.assetId.text ing.assetId) row = .ok record ∧
      (record.state = .published → Intact t record)
  staged : ∀ j, t.stagedBy ing.assetId = some j → j = i ∧ ∃ n, toI64 ing.descriptor.byteLength = some n ∧
    t.disk.assets.lookup (K.assetId.text ing.assetId) =
      some (encodeRow ing.descriptor n (blobKey ing.assetId) .staged)
  ok : IngestOk t i ing'

section Executed

variable (h : Executed s t i ing ing')

include h

theorem Executed.live (x : Ingest K) : Live t x ↔ Live s x := by
  simp only [Live, h.gen, h.worker]

theorem Executed.other {j : Nat} (hj : j ≠ i) : t.ingests j = s.ingests j := by
  rw [h.ingests, Function.update_of_ne hj]

theorem Executed.own : t.ingests i = some ing' := by
  rw [h.ingests, Function.update_self]

theorem Executed.frame {x : Ingest K} (j : Nat) (ha : x.assetId ≠ ing.assetId) : Frame s t j x where
  live := (h.live x).mp
  staging := .inl (by rw [h.files])
  published := by
    intro hnot row hrow
    rw [h.rows _ (fun he => ha (K.assetId.text_injective he))] at hrow
    exact hnot row hrow
  owned := by
    intro _ hst
    exact ⟨by rw [h.stagedBy _ ha, hst], by rw [h.files]⟩

theorem Executed.published_id {id : String} {row : AssetRow} {record : AssetRecord K}
    (hrow : s.disk.assets.lookup id = some row) (hd : decodeRow id row = .ok record)
    (hp : record.state = .published) : id ≠ K.assetId.text ing.assetId := by
  intro hid
  rw [hid] at hrow
  refine h.unpublished row hrow ?_
  rw [(decodeRow_eq_ok.mp hd).2.2.2.2.2.2.2, hp]

theorem Executed.preserves : Preserves s t := by
  intro id row record hrow hd hp
  exact ⟨by rw [h.rows id (h.published_id hrow hd hp), hrow], by rw [h.files]⟩

theorem Executed.queuedOk {j : Nat} {x : Ingest K} (hj : j ≠ i) (hgen : x.gen = s.gen)
    (hok : QueuedOk s j x) : QueuedOk t j x := by
  by_cases ha : x.assetId = ing.assetId
  · have hnot : s.stagedBy x.assetId ≠ some j := by
      intro hst
      rw [ha] at hst
      exact hj (h.alone j hst)
    unfold QueuedOk at hok ⊢
    split at hok
    · exact absurd hok.1 hnot
    · exact absurd hok hnot
    · trivial
  · exact hok.frame ((h.live x).mpr ⟨hgen, h.running⟩) (h.frame j ha)

theorem Executed.ingestOk (hs : Invariant s) {j : Nat} {x : Ingest K} (hj : j ≠ i) (hx : s.ingests j = some x) :
    IngestOk t j x := by
  by_cases ha : x.assetId = ing.assetId
  · refine IngestOk.unowned hs hx h.running ?_ (h.live x).mp (by rw [h.files])
    intro hst
    rw [ha] at hst
    exact hj (h.alone j hst)
  · exact (hs.ingests j x hx).frame (h.frame j ha)

theorem Executed.invariant (hs : Invariant s) : Invariant t where
  rows := by
    intro id row hrow
    by_cases hid : id = K.assetId.text ing.assetId
    · subst hid
      exact h.row row hrow
    · rw [h.rows id hid] at hrow
      obtain ⟨record, hd, hintact⟩ := hs.rows id row hrow
      refine ⟨record, hd, ?_⟩
      intro hp
      obtain ⟨bytes, hb, hlen, hhash, horigin⟩ := hintact hp
      have ha : record.descriptor.assetId ≠ ing.assetId := by
        intro ha
        exact hid (by rw [(decodeRow_eq_ok.mp hd).1, ha])
      exact ⟨bytes, by rw [h.files, hb], hlen, hhash, by rw [h.origin _ ha]; exact horigin⟩
  staged := by
    intro a k hst
    by_cases ha : a = ing.assetId
    · subst ha
      obtain ⟨rfl, n, hn, hrow⟩ := h.staged k hst
      refine ⟨ing', n, h.own, ?_, by rw [h.same.descriptor, hn], by rw [h.same.descriptor, hrow]⟩
      rw [Ingest.assetId, h.same.descriptor]
      rfl
    · rw [h.stagedBy a ha] at hst
      obtain ⟨x, n, hx, hxa, hn, hrow⟩ := hs.staged a k hst
      have hk : k ≠ i := by
        rintro rfl
        rw [h.found] at hx
        cases hx
        exact ha hxa.symm
      refine ⟨x, n, by rw [h.other hk, hx], hxa, hn, ?_⟩
      rw [h.rows _ (fun he => ha (K.assetId.text_injective he)), hrow]
  names := by
    refine pairwise_moved h.ingests (fun _ _ => Ne.symm) ?_ hs.names
    intro j x hj hx
    rw [h.same.name]
    exact hs.names i j ing x h.found hx hj.symm
  gens := by
    rw [h.gen]
    refine forall_moved h.ingests ?_ (fun j x _ => hs.gens j x)
    rw [h.same.gen]
    exact hs.gens i ing h.found
  idle := by
    intro hw
    have hrun := h.running
    rw [← h.worker, hw] at hrun
    cases hrun
  owners := by
    rw [h.worker]
    exact hs.owners
  queued := by
    intro q j c hq hc
    rw [h.worker] at hq
    have hj : j ≠ i := by
      rintro rfl
      exact h.notQueued q c hq hc
    obtain ⟨x, hx, hgen, hawaits, hx'⟩ := hs.queued q j c hq hc
    exact ⟨x, by rw [h.other hj, hx], by rw [h.gen, hgen], hawaits, h.queuedOk hj hgen hx'⟩
  ingests := forall_moved h.ingests h.ok (fun j x hj hx => h.ingestOk hs hj hx)
  settled := by
    rw [h.worker, h.gen, h.files]
    refine forall_moved h.ingests ?_ (fun j x _ => hs.settled j x)
    intro _ hgen
    rw [h.same.gen] at hgen
    exact absurd h.current hgen

end Executed

section Work

variable {f : Faults} {c : Command K}

/-- A turn that left the rows alone: the ingest hears its answer, or is no longer there to hear it. -/
theorem heard_step (hs : Invariant s) (hi : s.ingests i = some ing) {p : Phase K}
    (hnone : ∀ q c, s.worker = some q → Request.command i c ∉ q) (hgen : ing.gen = s.gen)
    (hok : ing.cancelled = false → IngestOk s i { ing with phase := p }) :
    let x := if ing.cancelled then ing else { ing with phase := p }
    Invariant (s.put i x) ∧ Preserves s (s.put i x) := by
  intro x
  have hsame : SameCall ing x := by
    simp only [x]
    split <;> exact ⟨rfl, rfl, rfl⟩
  have hx : IngestOk s i x := by
    simp only [x]
    split
    · exact hs.ingests i ing hi
    · rename_i hc
      exact hok (by simpa using hc)
  have hown := put_ownFiles hi hsame
  refine ⟨hown.invariant hs hx ?_ ?_, hown.preserves⟩
  · intro q c hq hc
    exact absurd hc (hnone q c hq)
  · intro _ hne
    exact absurd hgen hne

theorem awaited_lookup {a : K.AssetId} (h : awaited ing = some (.lookup a)) : ing.phase = .looking := by
  cases awaited_awaits h with
  | lookup hphase => exact hphase

theorem awaited_stage {d : SourceAssetDescriptor K} {key : String} (h : awaited ing = some (.stage d key)) :
    ing.phase = .staging ∧ d = ing.descriptor ∧ key = ing.key := by
  cases awaited_awaits h with
  | stage hphase => exact ⟨hphase, rfl, rfl⟩

theorem awaited_publish {d : SourceAssetDescriptor K} {key : String}
    (h : awaited ing = some (.publish d key)) :
    ing.phase = .publishing ∧ d = ing.descriptor ∧ key = ing.key := by
  cases awaited_awaits h with
  | publish hphase => exact ⟨hphase, rfl, rfl⟩

theorem awaited_removeStaged {a : K.AssetId} (h : awaited ing = some (.removeStaged a)) :
    (∃ e b, ing.phase = .unstaging e b) ∧ a = ing.assetId := by
  cases awaited_awaits h with
  | removeStaged hphase => exact ⟨⟨_, _, hphase⟩, rfl⟩

/-- The state after a turn of the worker, seen from the state without the command. -/
def Store.turned (s : Store K) (i : Nat) (ing : Ingest K) (reply : Reply K) (assets : AssetTable) : Store K :=
  { s.put i (ing.deliver reply) with
    disk := ⟨assets, s.disk.files⟩
    stagedBy := (recordExecution s i ing reply).1
    origin := (recordExecution s i ing reply).2 }

/-- What a turn can count on: the ingest is of the running opening, and has no other command queued. -/
structure Turn (s : Store K) (i : Nat) (ing : Ingest K) : Prop where
  inv : Invariant s
  found : s.ingests i = some ing
  running : s.worker.isSome = true
  current : ing.gen = s.gen
  notQueued : ∀ q c, s.worker = some q → Request.command i c ∉ q
  queued : QueuedOk s i ing

theorem Turn.live (h : Turn s i ing) : Live s ing := ⟨h.current, h.running⟩

theorem deliver_same (reply : Reply K) : SameCall ing (ing.deliver reply) := by
  unfold Ingest.deliver
  split
  · exact ⟨rfl, rfl, rfl⟩
  · split <;> exact ⟨rfl, rfl, rfl⟩

/-- A turn that changes neither the rows nor the bookkeeping. -/
theorem Turn.heard (h : Turn s i ing) {reply : Reply K} {p : Phase K}
    (hdeliver : ing.deliver reply = if ing.cancelled then ing else { ing with phase := p })
    (hbook : recordExecution s i ing reply = (s.stagedBy, s.origin))
    (hok : ing.cancelled = false → IngestOk s i { ing with phase := p }) :
    Invariant (s.turned i ing reply s.disk.assets) ∧ Preserves s (s.turned i ing reply s.disk.assets) := by
  unfold Store.turned
  rw [hdeliver, hbook]
  exact heard_step h.inv h.found h.notQueued h.current hok

theorem recordExecution_other (s : Store K) (i : Nat) (reply : Reply K) {a : K.AssetId} (ha : a ≠ ing.assetId) :
    (recordExecution s i ing reply).1 a = s.stagedBy a ∧ (recordExecution s i ing reply).2 a = s.origin a := by
  unfold recordExecution
  split <;> simp [Function.update_of_ne ha]

/-- A turn that writes the row of the asset, which was not published and staged by nobody else. -/
theorem Turn.wrote (h : Turn s i ing) {reply : Reply K} {assets : AssetTable}
    (hrows : ∀ id, id ≠ K.assetId.text ing.assetId → assets.lookup id = s.disk.assets.lookup id)
    (hunpublished : NotPublished s ing.assetId) (halone : ∀ j, s.stagedBy ing.assetId = some j → j = i)
    (hrow : ∀ row, assets.lookup (K.assetId.text ing.assetId) = some row →
      ∃ record, decodeRow (K.assetId.text ing.assetId) row = .ok record ∧
        (record.state = .published → Intact (s.turned i ing reply assets) record))
    (hstaged : ∀ j, (recordExecution s i ing reply).1 ing.assetId = some j →
      j = i ∧ ∃ n, toI64 ing.descriptor.byteLength = some n ∧
        assets.lookup (K.assetId.text ing.assetId) =
          some (encodeRow ing.descriptor n (blobKey ing.assetId) .staged))
    (hok : IngestOk (s.turned i ing reply assets) i (ing.deliver reply)) :
    Invariant (s.turned i ing reply assets) ∧ Preserves s (s.turned i ing reply assets) := by
  have hex : Executed s (s.turned i ing reply assets) i ing (ing.deliver reply) :=
    { found := h.found
      same := deliver_same reply
      ingests := rfl
      files := rfl
      gen := rfl
      worker := rfl
      running := h.running
      notQueued := h.notQueued
      current := h.current
      rows := hrows
      stagedBy := fun _ ha => (recordExecution_other s i reply ha).1
      origin := fun _ ha => (recordExecution_other s i reply ha).2
      unpublished := hunpublished
      alone := halone
      row := hrow
      staged := hstaged
      ok := hok }
  exact ⟨hex.invariant h.inv, hex.preserves⟩

theorem lookup_turn (h : Turn s i ing) (hphase : ing.phase = .looking)
    (result : Except (LocalAssetStoreError K) (Option (AssetRecord K))) :
    Invariant (s.turned i ing (.lookup result) s.disk.assets) ∧
      Preserves s (s.turned i ing (.lookup result) s.disk.assets) := by
  have hd : ing.deliver (.lookup result) = if ing.cancelled then ing else { ing with phase := .looked result } := by
    simp only [Ingest.deliver, hphase]
  exact h.heard hd rfl (fun _ => trivial)

/-- The row that an ingest has staged is its own and not published. -/
theorem Turn.row (h : Turn s i ing) (hst : s.stagedBy ing.assetId = some i) :
    ∃ n, toI64 ing.descriptor.byteLength = some n ∧ s.disk.assets.lookup (K.assetId.text ing.assetId) =
      some (encodeRow ing.descriptor n (blobKey ing.assetId) .staged) := by
  obtain ⟨x, n, hx, ha, hn, hrow⟩ := h.inv.staged _ _ hst
  rw [h.found] at hx
  cases hx
  exact ⟨n, hn, hrow⟩

theorem notPublished_of_staged {a : K.AssetId} {d : SourceAssetDescriptor K} {n : Int} {key : String}
    (h : s.disk.assets.lookup (K.assetId.text a) = some (encodeRow d n key .staged)) : NotPublished s a := by
  intro row hrow
  rw [h] at hrow
  cases hrow
  simp [encodeRow]

theorem stage_turn (h : Turn s i ing) (hphase : ing.phase = .staging) (f : Faults) :
    let r := execute f s.disk.assets (.stage ing.descriptor ing.key)
    Invariant (s.turned i ing r.1 r.2) ∧ Preserves s (s.turned i ing r.1 r.2) := by
  intro r
  have hok := h.inv.ingests i ing h.found
  simp only [IngestOk, hphase] at hok
  have hd : ∀ result, ing.deliver (.stage result) =
      if ing.cancelled then ing else { ing with phase := .stageAnswered result } := by
    intro result
    simp only [Ingest.deliver, hphase]
  cases hr : stageAsset f s.disk.assets ing.descriptor ing.key with
  | error e =>
    have hre : r = (.stage (.error e), s.disk.assets) := by simp only [r, execute, hr]
    rw [hre]
    exact h.heard (hd _) rfl (fun _ => trivial)
  | ok result =>
    obtain ⟨outcome, u⟩ := result
    rcases stageAsset_ok hr with ⟨rfl, rfl⟩ | ⟨rfl, habsent, n, hn, rfl⟩
    · have hre : r = (.stage (.ok .existing), s.disk.assets) := by simp only [r, execute, hr]
      rw [hre]
      exact h.heard (hd _) rfl (fun _ => trivial)
    · have hre : r = (.stage (.ok .inserted), s.disk.assets.insert (K.assetId.text ing.assetId)
          (encodeRow ing.descriptor n (blobKey ing.assetId) .staged)) := by
        simp only [r, execute, hr]
        rfl
      rw [hre]
      have hrow : (s.disk.assets.insert (K.assetId.text ing.assetId)
          (encodeRow ing.descriptor n (blobKey ing.assetId) .staged)).lookup (K.assetId.text ing.assetId) =
          some (encodeRow ing.descriptor n (blobKey ing.assetId) .staged) := AList.lookup_insert _
      have habsent' : s.disk.assets.lookup (K.assetId.text ing.assetId) = none := habsent
      refine h.wrote (fun id hid => AList.lookup_insert_ne hid) ?_ ?_ ?_ ?_ ?_
      · intro row hrow'
        rw [habsent'] at hrow'
        cases hrow'
      · intro j hj
        obtain ⟨_, _, _, _, _, hrow'⟩ := h.inv.staged _ _ hj
        rw [habsent'] at hrow'
        cases hrow'
      · intro row hrow'
        cases hrow.symm.trans hrow'
        exact ⟨_, decodeRow_encodeRow ing.descriptor hn .staged, by simp⟩
      · intro j hj
        simp only [recordExecution, Function.update_self] at hj
        exact ⟨(Option.some.inj hj).symm, n, hn, hrow⟩
      · rw [hd]
        cases hc : ing.cancelled with
        | true =>
          simp only [if_true, IngestOk, hphase]
          exact hok
        | false =>
          refine ⟨hok.1, ?_, .inr ⟨hok.2 h.live, notPublished_of_staged hrow⟩⟩
          intro _
          exact ⟨Function.update_self _ _ _, hok.2 h.live⟩

theorem publish_turn (h : Turn s i ing) (hphase : ing.phase = .publishing) (f : Faults) :
    let r := execute f s.disk.assets (.publish ing.descriptor ing.key)
    Invariant (s.turned i ing r.1 r.2) ∧ Preserves s (s.turned i ing r.1 r.2) := by
  intro r
  have hok := h.inv.ingests i ing h.found
  have hqueued := h.queued
  simp only [IngestOk, hphase] at hok
  simp only [QueuedOk, hphase] at hqueued
  obtain ⟨hst, hblob⟩ := hqueued
  obtain ⟨n, hn, hrow⟩ := h.row hst
  have hd : ∀ result, ing.deliver (.publish result) =
      if ing.cancelled then ing else { ing with phase := .publishAnswered result } := by
    intro result
    simp only [Ingest.deliver, hphase]
  cases hr : publishAsset f s.disk.assets ing.descriptor ing.key with
  | error e =>
    have hre : r = (.publish (.error e), s.disk.assets) := by simp only [r, execute, hr]
    rw [hre]
    refine h.heard (hd _) rfl ?_
    intro hc
    exact ⟨fun _ => (hok.2 hc).1, fun hl => (hok.2 hc).2 hl⟩
  | ok u =>
    obtain ⟨row, hrow', hdecode, rfl⟩ := publishAsset_ok hr
    have hre : r = (.publish (.ok ()), s.disk.assets.insert (K.assetId.text ing.assetId)
        { row with publicationState := PublicationState.published.text }) := by
      simp only [r, execute, hr]
      rfl
    rw [hre]
    refine h.wrote (fun id hid => AList.lookup_insert_ne hid) (notPublished_of_staged hrow)
      (fun j hj => (Option.some.inj (hst.symm.trans hj)).symm) ?_ ?_ ?_
    · intro row' hrow''
      cases (AList.lookup_insert _).symm.trans hrow''
      refine ⟨_, decodeRow_published hdecode, ?_⟩
      intro _
      refine ⟨ing.content, hblob, hok.1.1, hok.1.2, ?_⟩
      intro content hcontent
      have hcontent' : Function.update s.origin ing.assetId (some ing.content) ing.assetId =
        some content := hcontent
      rw [Function.update_self] at hcontent'
      exact Option.some.inj hcontent'
    · intro j hj
      simp only [recordExecution, Function.update_self] at hj
      cases hj
    · rw [hd]
      cases hc : ing.cancelled with
      | true =>
        simp only [if_true, IngestOk, hphase]
        refine ⟨hok.1, ?_⟩
        intro hfalse
        rw [hc] at hfalse
        cases hfalse
      | false => trivial

theorem removeStaged_turn (h : Turn s i ing) {e : LocalAssetStoreError K} {b : Bool}
    (hphase : ing.phase = .unstaging e b) (f : Faults) :
    let r := execute f s.disk.assets (Command.removeStaged ing.assetId)
    Invariant (s.turned i ing r.1 r.2) ∧ Preserves s (s.turned i ing r.1 r.2) := by
  intro r
  have hst := h.queued
  simp only [QueuedOk, hphase] at hst
  obtain ⟨n, hn, hrow⟩ := h.row hst
  have hd : ∀ result, ing.deliver (.removeStaged result) =
      if ing.cancelled then ing else { ing with phase := .unstaged e b } := by
    intro result
    simp only [Ingest.deliver, hphase]
  cases hr : removeStaged f s.disk.assets ing.assetId with
  | error e =>
    have hre : r = (.removeStaged (.error e), s.disk.assets) := by simp only [r, execute, hr]
    rw [hre]
    exact h.heard (hd _) rfl (fun _ => trivial)
  | ok u =>
    obtain ⟨-, -, hu⟩ := bind_ok hr
    have hu' : u = s.disk.assets.erase (K.assetId.text ing.assetId) := by
      cases hu
      simp [deleteStaged, hrow, encodeRow]
    have hre : r = (.removeStaged (.ok ()), s.disk.assets.erase (K.assetId.text ing.assetId)) := by
      simp only [r, execute, hr, hu']
    rw [hre]
    refine h.wrote (fun id hid => AList.lookup_erase_ne hid) (notPublished_of_staged hrow)
      (fun j hj => (Option.some.inj (hst.symm.trans hj)).symm) ?_ ?_ ?_
    · intro row hrow'
      cases (AList.lookup_erase _ _).symm.trans hrow'
    · intro j hj
      simp only [recordExecution, Function.update_self] at hj
      cases hj
    · rw [hd]
      cases hc : ing.cancelled with
      | true => simp only [if_true, IngestOk, hphase]
      | false => trivial

/-- One turn of the worker. -/
theorem work_step (hs : Invariant s) {q : List (Request K)} (f : Faults)
    (hq : s.worker = some (.command i c :: q)) (hi : s.ingests i = some ing) :
    let r := execute f s.disk.assets c
    Invariant (Store.turned { s with worker := some q } i ing r.1 r.2) ∧
      Preserves s (Store.turned { s with worker := some q } i ing r.1 r.2) := by
  obtain ⟨x, hx, hgen, hawaits, hqueued⟩ := hs.queued _ i c hq List.mem_cons_self
  rw [hi] at hx
  cases hx
  have hturn : Turn { s with worker := some q } i ing := by
    refine ⟨hs.dequeue hq, hi, rfl, hgen, ?_, hqueued⟩
    intro q' c' hq' hc'
    cases hq'
    exact dequeued_owner hs hq c' hc'
  cases c with
  | lookup a => exact lookup_turn hturn (awaited_lookup hawaits) _
  | stage d key =>
    obtain ⟨hphase, rfl, rfl⟩ := awaited_stage hawaits
    exact stage_turn hturn hphase f
  | publish d key =>
    obtain ⟨hphase, rfl, rfl⟩ := awaited_publish hawaits
    exact publish_turn hturn hphase f
  | removeStaged a =>
    obtain ⟨⟨e, b, hphase⟩, rfl⟩ := awaited_removeStaged hawaits
    exact removeStaged_turn hturn hphase f

end Work

end OrbitRelay.AssetStore
