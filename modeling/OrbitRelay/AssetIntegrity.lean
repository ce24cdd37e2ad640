import OrbitRelay.AssetSteps

/-!
# Integrity of published assets over whole runs

Beginning an ingest, stopping the worker and reopening the store keep the
invariant, the last one as long as no ingest of an earlier opening can still move
a blob away. Then every run keeps every published asset and its bytes.
-/
namespace OrbitRelay.AssetStore

open Codec MachineInt Transition

variable {K : AssetKernel} {s t : Store K} {i : Nat} {ing : Ingest K}

theorem begin_step (hs : Invariant s) (hi : s.ingests i = none) (hok : IngestOk s i ing)
    (hgen : ing.gen ≤ s.gen) (hname : ∀ j x, s.ingests j = some x → x.name ≠ ing.name)
    (hu : ¬ Unsettled ing) (hr : ing.phase ≠ .renaming ∧ ing.phase ≠ .stageAnswered (.ok .inserted)) :
    Invariant (s.put i ing) ∧ Preserves s (s.put i ing) := by
  have hother : ∀ j, j ≠ i → (s.put i ing).ingests j = s.ingests j := fun j hj => Function.update_of_ne hj _ _
  have hne : ∀ j x, s.ingests j = some x → j ≠ i := by
    rintro j x hx rfl
    rw [hi] at hx
    cases hx
  refine ⟨?_, fun _ _ _ h _ _ => ⟨h, rfl⟩⟩
  constructor
  · exact hs.rows
  · intro a k hst
    obtain ⟨x, n, hx, h⟩ := hs.staged a k hst
    exact ⟨x, n, by rw [hother k (hne k x hx), hx], h⟩
  · exact pairwise_moved rfl (fun _ _ => Ne.symm) (fun j x _ hx => (hname j x hx).symm) hs.names
  · exact forall_moved rfl hgen (fun j x _ => hs.gens j x)
  · exact hs.idle
  · exact hs.owners
  · intro q j c hq hc
    obtain ⟨x, hx, h⟩ := hs.queued q j c hq hc
    exact ⟨x, by rw [hother j (hne j x hx), hx], h⟩
  · exact forall_moved rfl hok (fun j x _ => hs.ingests j x)
  · refine forall_moved rfl ?_ (fun j x _ => hs.settled j x)
    intro _ _
    refine ⟨hu, ?_⟩
    rintro (h | h)
    · exact absurd h hr.1
    · exact absurd h hr.2

theorem close_step (hs : Invariant s) {q : List (Request K)} (hq : s.worker = some q) :
    Invariant { s with worker := some (q ++ [.shutdown]) } where
  rows := hs.rows
  staged := hs.staged
  names := hs.names
  gens := hs.gens
  idle := by simp
  owners := by
    intro q' hq'
    cases hq'
    have hnone : [Request.shutdown (K := K)].filterMap owner = [] := rfl
    rw [List.filterMap_append, hnone, List.append_nil]
    exact hs.owners q hq
  queued := by
    intro q' j c hq' hc
    cases hq'
    refine hs.queued q j c hq ?_
    simpa using hc
  ingests := by
    intro j x hx
    refine (hs.ingests j x hx).frame ⟨?_, .inl rfl, id, fun _ h => ⟨h, rfl⟩⟩
    intro hl
    exact ⟨hl.1, by simp [hq]⟩
  settled := by
    intro j x hx _ hgen
    exact hs.settled j x hx (by simp [hq]) hgen

/-- Without a worker no ingest is live, and only its own staging file matters to it. -/
theorem IngestOk.stopped (h : IngestOk s i ing) (hdead : ¬ Live t ing)
    (hstaging : t.disk.files.staging.lookup ing.name = s.disk.files.staging.lookup ing.name ∨
      t.disk.files.staging.lookup ing.name = none)
    (hnot : NotPublished s ing.assetId → NotPublished t ing.assetId) : IngestOk t i ing :=
  h.frame ⟨fun hl => absurd hl hdead, hstaging.imp_right (fun hn => ⟨hdead, hn⟩), hnot,
    fun hl => absurd hl hdead⟩

theorem stopWorker_step (hs : Invariant s) : Invariant s.stopWorker where
  rows := hs.rows
  staged := by
    intro a k hst
    cases hst
  names := hs.names
  gens := hs.gens
  idle := fun _ _ => rfl
  owners := by
    intro q hq
    cases hq
  queued := by
    intro q j c hq
    cases hq
  ingests := by
    intro j x hx
    refine (hs.ingests j x hx).stopped ?_ (.inl rfl) id
    rintro ⟨-, hw⟩
    cases hw
  settled := by
    intro j x hx hw
    cases hw

theorem crash_step (hs : Invariant s) :
    Invariant { s.stopWorker with holder := none, ingests := fun _ => none } where
  rows := hs.rows
  staged := by
    intro a k hst
    cases hst
  names := by
    intro j k x y hx
    cases hx
  gens := by
    intro j x hx
    cases hx
  idle := fun _ _ => rfl
  owners := by
    intro q hq
    cases hq
  queued := by
    intro q j c hq
    cases hq
  ingests := by
    intro j x hx
    cases hx
  settled := by
    intro j x hx
    cases hx

theorem Recovered.preserves {disk : Disk} (h : Recovered K s.disk disk) (ht : t.disk = disk) :
    Preserves s t := by
  intro id row record hrow hd hp
  rw [ht]
  exact h.published id row record hrow hd hp

/-- The rows after a recovery, finished or not, are rows that were intact before. -/
theorem Recovered.rows_intact {disk : Disk} (h : Recovered K s.disk disk) (hs : Invariant s)
    (ht : t.disk = disk) (horigin : t.origin = s.origin) (id : String) (row : AssetRow)
    (hrow : t.disk.assets.lookup id = some row) :
    ∃ record : AssetRecord K, decodeRow id row = .ok record ∧ (record.state = .published → Intact t record) := by
  rw [ht] at hrow
  obtain ⟨record, hd, hintact⟩ := hs.rows id row (h.rows id row hrow)
  refine ⟨record, hd, ?_⟩
  intro hp
  obtain ⟨bytes, hb, hlen, hhash, hcontent⟩ := hintact hp
  refine ⟨bytes, ?_, hlen, hhash, by rw [horigin]; exact hcontent⟩
  rw [ht, (h.published id row record (h.rows id row hrow) hd hp).2, hb]

theorem Recovered.notPublished {disk : Disk} (h : Recovered K s.disk disk) (ht : t.disk = disk)
    (a : K.AssetId) (hnot : NotPublished s a) : NotPublished t a := by
  intro row hrow
  rw [ht] at hrow
  exact hnot row (h.rows _ row hrow)

theorem openFailed_step (hs : Invariant s) {disk : Disk} (hw : s.worker = none)
    (h : Recovered K s.disk disk) : Invariant { s with disk } where
  rows := h.rows_intact hs rfl rfl
  staged := by
    intro a k hst
    have hnone := hs.idle hw a
    rw [hnone] at hst
    cases hst
  names := hs.names
  gens := hs.gens
  idle := hs.idle
  owners := hs.owners
  queued := by
    intro q j c hq
    rw [hw] at hq
    cases hq
  ingests := by
    intro j x hx
    refine (hs.ingests j x hx).stopped ?_ (h.staging x.name) (h.notPublished rfl x.assetId)
    rintro ⟨-, hw'⟩
    rw [hw] at hw'
    cases hw'
  settled := by
    intro j x hx hw'
    rw [hw] at hw'
    cases hw'

/-- No ingest has moved its blob into place without knowing the outcome of its publication. -/
def Quiet (s : Store K) : Prop := ∀ i ing, s.ingests i = some ing → ¬ Unsettled ing

theorem opened_step (hs : Invariant s) {disk : Disk} (hw : s.worker = none) (hquiet : Quiet s)
    (h : Recovered K s.disk disk) (hclean : Clean K disk) :
    Invariant { s with disk, gen := s.gen + 1, worker := some [], holder := none } where
  rows := h.rows_intact hs rfl rfl
  staged := by
    intro a k hst
    have hnone := hs.idle hw a
    rw [hnone] at hst
    cases hst
  names := hs.names
  gens := by
    intro j x hx
    exact Nat.le_succ_of_le (hs.gens j x hx)
  idle := by simp
  owners := by
    intro q hq
    cases hq
    exact List.nodup_nil
  queued := by
    intro q j c hq hc
    cases hq
    cases hc
  ingests := by
    intro j x hx
    refine (hs.ingests j x hx).stopped ?_ (h.staging x.name) (h.notPublished rfl x.assetId)
    rintro ⟨hgen, -⟩
    have hle := hs.gens j x hx
    have hgen' : x.gen = s.gen + 1 := hgen
    omega
  settled := by
    intro j x hx _ _
    exact ⟨hquiet j x hx, fun _ => hclean.staging x.name⟩

/-- Every step keeps the invariant, a reopen only if no ingest is unsettled. -/
theorem step_invariant (hs : Invariant s) (h : Step s t) (hquiet : t.gen ≠ s.gen → Quiet s) :
    Invariant t ∧ Preserves s t := by
  cases h with
  | begin i gen d reads name hi hgen _ hname _ =>
    by_cases hlen : i64Max < d.byteLength
    · simp only [hlen, if_true]
      exact begin_step hs hi trivial hgen hname (fun hu => hu) (by simp)
    · simp only [hlen, if_false]
      exact begin_step hs hi trivial hgen hname (fun hu => hu) (by simp)
  | send i ing q c sent refused hi hc hr hgen hq _ =>
    exact ⟨send_step hs hi hc hr hgen hq _, fun _ _ _ h _ _ => ⟨h, rfl⟩⟩
  | refuse i ing e c sent refused hi hc hr _ =>
    obtain ⟨hok, hcalm⟩ := resume_refused hr hc (hs.ingests i ing hi) e
    refine put_step hs hi ⟨rfl, rfl, rfl⟩ hok hcalm ?_
    intro q c' hq hc'
    exact absurd hc' (not_queued hs hi (resume_awaited hr) hq)
  | proceed i ing p hi hc hr =>
    obtain ⟨hok, hcalm⟩ := resume_become hr hc (hs.ingests i ing hi)
    refine put_step hs hi ⟨rfl, rfl, rfl⟩ hok hcalm ?_
    intro q c' hq hc'
    exact absurd hc' (not_queued hs hi (resume_awaited hr) hq)
  | cancel i ing hi => exact cancel_step hs hi
  | work f i ing c q hq hi => exact work_step hs f hq hi
  | replyLost i ing c hi ha hdead => exact lost_step hs hi ha hdead
  | close q hq _ => exact ⟨close_step hs hq, fun _ _ _ h _ _ => ⟨h, rfl⟩⟩
  | shutdown q _ => exact ⟨stopWorker_step hs, fun _ _ _ h _ _ => ⟨h, rfl⟩⟩
  | drained _ => exact ⟨stopWorker_step hs, fun _ _ _ h _ _ => ⟨h, rfl⟩⟩
  | create i ing hi hphase _ => exact create_step hs hi hphase
  | createFailed i ing hi hphase => exact goOn_removing hs hi (by simp [awaited, hphase]) _
  | write i ing written chunk rest length hi hphase _ => exact write_step hs hi hphase
  | writeFailed i ing written rest e hi hphase _ => exact goOn_removing hs hi (by simp [awaited, hphase]) _
  | rename i ing node hi hphase hnode => exact rename_step hs hi hphase hnode
  | renameFailed i ing e hi hphase _ => exact renameFailed_step hs hi hphase e
  | quarantine i ing e node orphan hi hphase _ => exact quarantine_step hs hi hphase _
  | quarantineFailed i ing e hi hphase => exact quarantineFailed_step hs hi hphase
  | remove i ing result hi hphase =>
    exact remove_step hs hi hphase (fun name hname => AList.lookup_erase_ne hname)
  | removeFailed i ing result hi hphase => exact remove_step hs hi hphase (fun _ _ => rfl)
  | crash => exact ⟨crash_step hs, fun _ _ _ h _ _ => ⟨h, rfl⟩⟩
  | opened f fresh disk hw hrec =>
    obtain ⟨hr, hclean⟩ := recoverStorage_spec (K := K) f fresh s.disk
    rw [hrec] at hr hclean
    exact ⟨opened_step hs hw (hquiet (Nat.succ_ne_self _)) hr (hclean rfl), hr.preserves rfl⟩
  | openFailed f fresh e disk hw hrec =>
    obtain ⟨hr, -⟩ := recoverStorage_spec (K := K) f fresh s.disk
    rw [hrec] at hr
    exact ⟨openFailed_step hs hw hr, hr.preserves rfl⟩

/-- The runs in which no reopen happens while an ingest is unsettled. -/
def quietSystem (K : AssetKernel) : System (Store K) where
  init := (system K).init
  step s t := Step s t ∧ (t.gen ≠ s.gen → Quiet s)

theorem init_invariant (h : (system K).init s) : Invariant s := by
  obtain ⟨f, fresh, disk, hrec, hgen, hworker, -, hingests, hstaged, horigin⟩ := h
  obtain ⟨-, hclean⟩ := recoverStorage_spec (K := K) f fresh disk
  rw [hrec] at hclean
  have hclean := hclean rfl
  refine .start ?_ hingests hstaged (fun q hq => (Option.some.inj (hworker.symm.trans hq)).symm)
  intro id row hrow
  obtain ⟨record, hd, -, bytes, hb, hlen, hhash⟩ := hclean.rows id row hrow
  refine ⟨record, hd, fun _ => ⟨bytes, hb, hlen, hhash, ?_⟩⟩
  intro content hcontent
  rw [horigin] at hcontent
  cases hcontent

theorem quiet_step (hs : Invariant s) (h : (quietSystem K).step s t) : Invariant t ∧ Preserves s t :=
  step_invariant hs h.1 h.2

theorem reachable_intact (h : (quietSystem K).Reachable s) : Invariant s :=
  System.invariant (S := quietSystem K) (fun _ => init_invariant)
    (fun _ _ hs hstep => (quiet_step hs hstep).1) h

theorem run_preserves (hs : Invariant s) (h : (quietSystem K).Run s t) : Preserves s t :=
  System.run_related (fun _ _ hs hstep => (quiet_step hs hstep).1) Preserves.refl
    (fun _ _ _ => Preserves.trans) (fun _ _ hs hstep => (quiet_step hs hstep).2) hs h

/-- What a lookup dispatched in a state can answer: what the worker finds, or an error. -/
def Answers (s : Store K) (a : K.AssetId)
    (answer : Except (LocalAssetStoreError K) (Option (AssetRecord K))) : Prop :=
  (∃ f, answer = lookupAsset f s.disk.assets a) ∨ ∃ e, answer = .error e

/-- The row of an asset that is published. -/
def PublishedAs (s : Store K) (a : K.AssetId) (d : SourceAssetDescriptor K) : Prop :=
  ∃ row, s.disk.assets.lookup (K.assetId.text a) = some row ∧
    decodeRow (K.assetId.text a) row = .ok ⟨d, blobKey a, .published⟩

theorem Answers.found {a : K.AssetId} {record : AssetRecord K} (h : Answers s a (.ok (some record)))
    (hp : record.state = .published) : PublishedAs s a record.descriptor ∧ record.blobKey = blobKey a := by
  rcases h with ⟨f, h⟩ | ⟨e, h⟩
  · obtain ⟨⟨⟩, -, h⟩ := bind_ok h.symm
    split at h
    · cases h
    · rename_i row hrow
      obtain ⟨record', hd, h⟩ := bind_ok h
      cases h
      obtain ⟨hid, -, -, -, -, hk, hk', -⟩ := decodeRow_eq_ok.mp hd
      have hkey : record.blobKey = blobKey a := by
        rw [hk', hk, K.assetId.text_injective hid]
      refine ⟨⟨row, hrow, ?_⟩, hkey⟩
      rw [hd, ← hkey, ← hp]
  · cases h

theorem getAsset_published {a : K.AssetId} {d : SourceAssetDescriptor K}
    {answer : Except (LocalAssetStoreError K) (Option (AssetRecord K))} (hanswer : Answers s a answer)
    (h : getAsset answer = .ok (some d)) : PublishedAs s a d := by
  unfold getAsset at h
  split at h
  · split at h
    · rename_i hp
      cases h
      exact (hanswer.found hp).1
    · cases h
  · cases h
  · cases h

section ReadRange

variable {a : K.AssetId} {range : AssetByteRange} {inspected opened : Option Node} {seekOk readOk : Bool}
  {answer : Except (LocalAssetStoreError K) (Option (AssetRecord K))}

theorem newChunk_ok {detail : String} {offset total : Nat} {bytes : Bytes} {chunk : AssetByteChunk}
    (h : newChunk K detail offset bytes total = .ok chunk) : chunk = ⟨offset, bytes, total⟩ := by
  unfold newChunk at h
  split at h
  · cases h
    rfl
  · cases h

theorem newChunk_error {detail : String} {offset total : Nat} {bytes : Bytes} {e : AssetReadError K}
    (h : newChunk K detail offset bytes total = .error e) : e = .unavailable detail := by
  unfold newChunk at h
  split at h
  · cases h
  · cases h
    rfl

/-- The part of a content that a read of the range returns. -/
def AssetByteRange.slice (range : AssetByteRange) (content : Bytes) : Bytes :=
  (content.drop range.offset).take (min (range.offset + range.length) content.length - range.offset)

theorem readRange_ok {chunk : AssetByteChunk}
    (h : readRange a range answer inspected opened seekOk readOk = .ok chunk) :
    ∃ record, answer = .ok (some record) ∧ record.state = .published ∧
      range.offset ≤ record.descriptor.byteLength ∧
      ∃ node, opened = some node ∧ ∀ content, node = .file content →
        content.length = record.descriptor.byteLength →
        chunk = ⟨range.offset, range.slice content, record.descriptor.byteLength⟩ := by
  unfold readRange at h
  split at h
  · cases h
  · cases h
  · rename_i record
    split at h
    · cases h
    · rename_i hp
      split at h
      · cases h
      · rename_i hle
        refine ⟨record, rfl, not_not.mp hp, not_lt.mp hle, ?_⟩
        split at h
        · cases h
        · cases h
        · split at h
          · cases h
          · rename_i node
            refine ⟨node, rfl, ?_⟩
            intro content hnode hlen
            split at h
            · rename_i heof
              rw [newChunk_ok h, AssetByteRange.slice, List.drop_of_length_le (by omega), List.take_nil]
            · split at h
              · cases h
              · subst hnode
                dsimp only at h
                split at h
                · cases h
                · rw [newChunk_ok h, AssetByteRange.slice, hlen]

theorem readRange_outOfBounds {a' : K.AssetId} {offset total : Nat} :
    readRange a range answer inspected opened seekOk readOk = .error (.rangeOutOfBounds a' offset total) ↔
      a' = a ∧ offset = range.offset ∧ total < offset ∧ ∃ record, answer = .ok (some record) ∧
        record.state = .published ∧ record.descriptor.byteLength = total := by
  constructor
  · intro h
    unfold readRange at h
    split at h
    · cases h
    · cases h
    · rename_i record
      split at h
      · cases h
      · rename_i hp
        split at h
        · rename_i hlt
          cases h
          exact ⟨rfl, rfl, hlt, record, rfl, not_not.mp hp, rfl⟩
        · exfalso
          split at h
          · cases h
          · cases h
          · split at h
            · cases h
            · split at h
              · cases newChunk_error h
              · split at h
                · cases h
                · dsimp only at h
                  split at h
                  · cases h
                  · split at h
                    · cases h
                    · cases newChunk_error h
  · rintro ⟨rfl, rfl, hlt, record, rfl, hp, rfl⟩
    simp [readRange, hp, hlt]

end ReadRange

/-- A chunk of a published asset is the requested part of its bytes, whenever its
blob was inspected and opened. -/
theorem readRange_slice {u : Store K} (hs : (quietSystem K).Reachable s) (hst : (quietSystem K).Run s t)
    (htu : (quietSystem K).Run t u) {a : K.AssetId} {range : AssetByteRange} {seekOk readOk : Bool}
    {answer : Except (LocalAssetStoreError K) (Option (AssetRecord K))} (hanswer : Answers s a answer)
    {inspected opened : Option Node} (hopened : opened = none ∨ opened = u.disk.files.blobs.lookup (blobKey a))
    {chunk : AssetByteChunk} (h : readRange a range answer inspected opened seekOk readOk = .ok chunk) :
    ∃ d bytes, PublishedAs s a d ∧ s.disk.files.blobs.lookup (blobKey a) = some (.file bytes) ∧
      bytes.length = d.byteLength ∧ range.offset ≤ d.byteLength ∧
      chunk = ⟨range.offset, range.slice bytes, d.byteLength⟩ := by
  obtain ⟨record, rfl, hp, hle, node, rfl, hchunk⟩ := readRange_ok h
  obtain ⟨⟨row, hrow, hd⟩, hkey⟩ := hanswer.found hp
  have hinv := reachable_intact hs
  obtain ⟨record', hd', hintact⟩ := hinv.rows _ row hrow
  rw [hd] at hd'
  cases hd'
  obtain ⟨bytes, hbytes, hlen, -, -⟩ := hintact rfl
  have hkept := (run_preserves hinv (hst.trans htu) _ row _ hrow hd rfl).2
  refine ⟨record.descriptor, bytes, ⟨row, hrow, hd⟩, hbytes, hlen, hle, hchunk bytes ?_ hlen⟩
  rcases hopened with hnone | hsome
  · cases hnone
  · have hfile : some node = some (.file bytes) := by rw [hsome, ← hbytes]; exact hkept
    exact Option.some.inj hfile

theorem some_id (s : String) : some (id s) = some s := rfl

/-- Identities and hashes that are their own texts; SHA-256 is the real one at one byte `a`. -/
def textAssets : AssetKernel where
  AssetId := String
  ContentHash := String
  assetId := TextForm.self
  hashText := id
  hashParse := some
  hashParse_text := some_id
  sha256 bytes := if bytes = [0x61] then "ca978112ca1bbdcafac231b39a23dc4da786eff8147c4e72b9807785afee48bb"
    else "e3b0c44298fc1c149afbf4c8996fb92427ae41e4649b934ca495991b7852b855"
  acceptsDescriptor _ mediaType _ _ _ := mediaType != ""
  acceptsChunk offset bytes total := decide (offset + bytes.length ≤ total)

def sampleDescriptor : SourceAssetDescriptor textAssets where
  assetId := "aaaaaaaa-asset"
  mediaType := "application/pdf"
  byteLength := 1
  contentHash := "ca978112ca1bbdcafac231b39a23dc4da786eff8147c4e72b9807785afee48bb"
  originalFilename := none
  length_le := by decide
  valid := rfl

def sampleEmpty : Store textAssets where
  disk := ⟨∅, ⟨∅, ∅, ∅⟩⟩
  gen := 1
  worker := some []
  holder := none
  ingests := fun _ => none
  stagedBy := fun _ => none
  origin := fun _ => none

def sampleIngest (gen : Nat) (name : String) (phase : Phase textAssets) : Ingest textAssets :=
  ⟨gen, sampleDescriptor, [some [0x61]], name, phase, false⟩

theorem sampleEmpty_init : (system textAssets).init sampleEmpty :=
  ⟨Faults.none, fun _ => "", ⟨∅, ⟨∅, ∅, ∅⟩⟩, rfl, rfl, rfl, rfl, fun _ => rfl, fun _ => rfl, fun _ => rfl⟩

theorem onward (h : (quietSystem K).Reachable s) (hst : Step s t) (hgen : t.gen = s.gen) :
    (quietSystem K).Reachable t := h.next ⟨hst, fun hne => absurd hgen hne⟩

theorem quiet_reachable (h : (quietSystem K).Reachable s) : (system K).Reachable s :=
  System.invariant (S := quietSystem K) (fun _ h₀ => .start h₀) (fun _ _ hs hst => hs.next hst.1) h

/-- The row of the sample asset once it is published. -/
def sampleRow : AssetRow := encodeRow sampleDescriptor 1 (blobKey sampleDescriptor.assetId) .published

/-- An ingest that has moved its blob into place publishes it; or the store is closed and
reopened first, another ingest publishes the same asset, and the first one, told that its
store is closed, moves the published blob into the quarantine. -/
theorem sampleRuns :
    (∃ s, (quietSystem textAssets).Reachable s ∧
      s.disk.assets.lookup "aaaaaaaa-asset" = some sampleRow ∧
      s.disk.files.blobs.lookup "aaaaaaaa-asset.blob" = some (.file [0x61])) ∧
    ∃ s, (system textAssets).Reachable s ∧
      s.disk.assets.lookup "aaaaaaaa-asset" = some sampleRow ∧
      s.disk.files.blobs.lookup "aaaaaaaa-asset.blob" = none := by
  have h₀ : (quietSystem textAssets).Reachable sampleEmpty := .start sampleEmpty_init
  have h₁ := onward h₀ (.begin _ 0 1 sampleDescriptor [some [0x61]] "first" rfl (by decide)
    (by simp [readBufferSize]) (by simp [sampleEmpty]) rfl) rfl
  have h₂ := onward h₁ (.send _ 0 (sampleIngest 1 "first" .waiting) [] _ _ _ rfl rfl rfl rfl rfl
    (fun _ => rfl)) rfl
  have h₃ := onward h₂ (.work _ Faults.none 0 (sampleIngest 1 "first" .looking) _ [] rfl rfl) rfl
  have h₄ := onward h₃ (.proceed _ 0 (sampleIngest 1 "first" (.looked (.ok none))) _ rfl rfl rfl) rfl
  have h₅ := onward h₄ (.create _ 0 (sampleIngest 1 "first" .creating) rfl rfl rfl) rfl
  have h₆ := onward h₅ (.write _ 0 (sampleIngest 1 "first" (.writing [] [some [0x61]])) [] [0x61] [] 1
    rfl rfl rfl) rfl
  have h₇ := onward h₆ (.send _ 0 (sampleIngest 1 "first" (.writing [0x61] [])) [] _ _ _ rfl rfl rfl rfl rfl
    (fun h => by cases h)) rfl
  have h₈ := onward h₇ (.work _ Faults.none 0 (sampleIngest 1 "first" .staging) _ [] rfl rfl) rfl
  have h₉ := onward h₈ (.proceed _ 0 (sampleIngest 1 "first" (.stageAnswered (.ok .inserted))) _
    rfl rfl rfl) rfl
  have h₁₀ := onward h₉ (.rename _ 0 (sampleIngest 1 "first" .renaming) (.file [0x61]) rfl rfl rfl) rfl
  refine ⟨?_, ?_⟩
  · have h₁₁ := onward h₁₀ (.send _ 0 (sampleIngest 1 "first" (.renamed (.ok ()))) [] _ _ _ rfl rfl rfl rfl
      rfl (fun h => by cases h)) rfl
    have h₁₂ := onward h₁₁ (.work _ Faults.none 0 (sampleIngest 1 "first" .publishing) _ [] rfl rfl) rfl
    exact ⟨_, h₁₂, rfl, rfl⟩
  · have g₁ := (quiet_reachable h₁₀).next (.close _ [] rfl (by simp))
    have g₂ := g₁.next (.shutdown _ [] rfl)
    have g₃ := g₂.next (.opened _ Faults.none (fun _ => "orphan-1") _ rfl rfl)
    have g₄ := g₃.next (.begin _ 1 2 sampleDescriptor [some [0x61]] "second" rfl (by decide)
      (by simp [readBufferSize]) (by
        rintro (_ | j) x hx
        · obtain rfl : sampleIngest 1 "first" (.renamed (.ok ())) = x := Option.some.inj hx
          decide
        · have hnone : none = some x := hx
          cases hnone) rfl)
    have g₅ := g₄.next (.send _ 1 (sampleIngest 2 "second" .waiting) [] _ _ _ rfl rfl rfl rfl rfl
      (fun _ => rfl))
    have g₆ := g₅.next (.work _ Faults.none 1 (sampleIngest 2 "second" .looking) _ [] rfl rfl)
    have g₇ := g₆.next (.proceed _ 1 (sampleIngest 2 "second" (.looked (.ok none))) _ rfl rfl rfl)
    have g₈ := g₇.next (.create _ 1 (sampleIngest 2 "second" .creating) rfl rfl rfl)
    have g₉ := g₈.next (.write _ 1 (sampleIngest 2 "second" (.writing [] [some [0x61]])) [] [0x61] [] 1
      rfl rfl rfl)
    have g₁₀ := g₉.next (.send _ 1 (sampleIngest 2 "second" (.writing [0x61] [])) [] _ _ _
      rfl rfl rfl rfl rfl (fun h => by cases h))
    have g₁₁ := g₁₀.next (.work _ Faults.none 1 (sampleIngest 2 "second" .staging) _ [] rfl rfl)
    have g₁₂ := g₁₁.next (.proceed _ 1 (sampleIngest 2 "second" (.stageAnswered (.ok .inserted))) _
      rfl rfl rfl)
    have g₁₃ := g₁₂.next (.rename _ 1 (sampleIngest 2 "second" .renaming) (.file [0x61]) rfl rfl rfl)
    have g₁₄ := g₁₃.next (.send _ 1 (sampleIngest 2 "second" (.renamed (.ok ()))) [] _ _ _ rfl rfl rfl rfl
      rfl (fun h => by cases h))
    have g₁₅ := g₁₄.next (.work _ Faults.none 1 (sampleIngest 2 "second" .publishing) _ [] rfl rfl)
    have g₁₆ := g₁₅.next (.refuse _ 0 (sampleIngest 1 "first" (.renamed (.ok ())))
      (.backendUnavailable "local Asset store is closed") _ _ _ rfl rfl rfl (by simp [dispatchErrors]))
    have g₁₇ := g₁₆.next (.quarantine _ 0 (sampleIngest 1 "first"
      (.quarantining (.backendUnavailable "local Asset store is closed"))) _ (.file [0x61]) "orphan-2"
      rfl rfl rfl)
    exact ⟨_, g₁₇, rfl, rfl⟩

end OrbitRelay.AssetStore
