import OrbitRelay.AssetStore

/-!
# What the worker and recovery do to rows and files

One lemma for each operation of the store: what a successful command has done to
the table, and what recovery keeps of a disk whether it succeeds or stops half way.
-/
namespace OrbitRelay.AssetStore

open Codec MachineInt Relational

variable {K : AssetKernel}

@[simp] theorem parse_text (state : PublicationState) :
    PublicationState.parse (K := K) state.text = .ok state := by
  cases state <;> rfl

theorem parse_ok {value : String} {state : PublicationState}
    (h : PublicationState.parse (K := K) value = .ok state) : value = state.text := by
  unfold PublicationState.parse at h
  split at h
  · cases h
    assumption
  · split at h
    · cases h
      assumption
    · cases h

@[simp] theorem text_inj {a b : PublicationState} : a.text = b.text ↔ a = b := by
  cases a <;> cases b <;> decide

theorem blobKey_injective {a b : K.AssetId} (h : blobKey a = blobKey b) : a = b := by
  simpa [blobKey] using h

/-- The fields of a row that decodes. -/
theorem decodeRow_eq_ok {id : String} {row : AssetRow} {record : AssetRecord K} :
    decodeRow id row = .ok record ↔
      id = K.assetId.text record.descriptor.assetId ∧ row.mediaType = record.descriptor.mediaType ∧
      toU64 row.byteLength = some record.descriptor.byteLength ∧
      K.hashParse row.contentHash = some record.descriptor.contentHash ∧
      row.originalFilename = record.descriptor.originalFilename ∧
      row.blobKey = blobKey record.descriptor.assetId ∧ record.blobKey = row.blobKey ∧
      row.publicationState = record.state.text := by
  unfold decodeRow
  constructor
  · intro h
    obtain ⟨assetId, ha, h⟩ := bind_ok h
    obtain ⟨byteLength, hb, h⟩ := bind_ok h
    obtain ⟨contentHash, hc, h⟩ := bind_ok h
    rw [okOr_eq_ok] at ha hb hc
    split at h
    · split at h
      · cases h
      · rename_i hkey
        obtain ⟨state, hs, h⟩ := bind_ok h
        cases h
        exact ⟨(K.assetId.parse_eq_some_iff.mp ha), rfl, hb, hc, rfl, not_not.mp hkey, rfl, parse_ok hs⟩
    · cases h
  · rintro ⟨rfl, hm, hb, hc, hf, hk, hk', hs⟩
    obtain ⟨d, key, state⟩ := record
    have hvalid := d.valid
    have hlen := d.length_le
    simp only at hm hb hc hf hk hk' hs
    simp only [PrintedForm.parse_text, okOr_some, ok_bind, hb, hc, hm, hf, hs]
    rw [dif_pos ⟨hlen, hvalid⟩, if_neg (not_not.mpr hk), parse_text, ok_bind]
    simp [hk']

theorem decodeRow_encodeRow (d : SourceAssetDescriptor K) {n : Int} (hn : toI64 d.byteLength = some n)
    (state : PublicationState) :
    decodeRow (K.assetId.text d.assetId) (encodeRow d n (blobKey d.assetId) state) =
      .ok ⟨d, blobKey d.assetId, state⟩ := by
  rw [decodeRow_eq_ok]
  refine ⟨rfl, rfl, ?_, K.hashParse_text _, rfl, rfl, rfl, rfl⟩
  unfold toI64 at hn
  split at hn
  · cases hn
    exact toU64_natCast _
  · cases hn

/-- A staged row, published. -/
theorem decodeRow_published {id : String} {row : AssetRow} {record : AssetRecord K}
    (h : decodeRow id row = .ok record) :
    decodeRow id { row with publicationState := PublicationState.published.text } =
      .ok { record with state := .published } := by
  rw [decodeRow_eq_ok] at h ⊢
  obtain ⟨hid, hm, hb, hc, hf, hk, hk', -⟩ := h
  exact ⟨hid, hm, hb, hc, hf, hk, hk', rfl⟩

/-! Commands that SQLite does not fail, on a table without the row and with a staged one. -/

theorem lookupAsset_absent {t : AssetTable} {a : K.AssetId} (h : t.lookup (K.assetId.text a) = none) :
    lookupAsset (K := K) Faults.none t a = .ok none := by
  simp [lookupAsset, call, Faults.none, h]

theorem stageAsset_absent {t : AssetTable} {d : SourceAssetDescriptor K} (key : String)
    (h : t.lookup (K.assetId.text d.assetId) = none) (hfits : d.byteLength ≤ i64Max) :
    stageAsset Faults.none t d key = .ok (.inserted,
      t.insert (K.assetId.text d.assetId) (encodeRow d d.byteLength key .staged)) := by
  simp [stageAsset, call, Faults.none, h, toI64, hfits]

theorem publishAsset_encoded {t : AssetTable} {d : SourceAssetDescriptor K} {n : Int}
    (hn : toI64 d.byteLength = some n)
    (h : t.lookup (K.assetId.text d.assetId) = some (encodeRow d n (blobKey d.assetId) .staged)) :
    publishAsset Faults.none t d (blobKey d.assetId) =
      .ok (t.insert (K.assetId.text d.assetId) (encodeRow d n (blobKey d.assetId) .published)) := by
  have hdecode := decodeRow_encodeRow d hn .staged
  simp [publishAsset, call, Faults.none, h, hdecode]
  rfl

theorem stageAsset_ok {f : Faults} {t u : AssetTable} {d : SourceAssetDescriptor K} {key : String}
    {outcome : AssetInsertOutcome} (h : stageAsset f t d key = .ok (outcome, u)) :
    (outcome = .existing ∧ u = t) ∨
      (outcome = .inserted ∧ t.lookup (K.assetId.text d.assetId) = none ∧
        ∃ n, toI64 d.byteLength = some n ∧
          u = t.insert (K.assetId.text d.assetId) (encodeRow d n key .staged)) := by
  unfold stageAsset at h
  obtain ⟨-, -, h⟩ := bind_ok h
  obtain ⟨-, -, h⟩ := bind_ok h
  split at h
  · obtain ⟨existing, -, h⟩ := bind_ok h
    split at h
    · split at h
      · obtain ⟨-, -, h⟩ := bind_ok h
        cases h
        exact .inl ⟨rfl, rfl⟩
      · cases h
    · cases h
  · rename_i hnone
    obtain ⟨n, hn, h⟩ := bind_ok h
    obtain ⟨-, -, h⟩ := bind_ok h
    obtain ⟨-, -, h⟩ := bind_ok h
    cases h
    exact .inr ⟨rfl, hnone, n, okOr_eq_ok.mp hn, rfl⟩

theorem publishAsset_ok {f : Faults} {t u : AssetTable} {d : SourceAssetDescriptor K} {key : String}
    (h : publishAsset f t d key = .ok u) :
    ∃ row, t.lookup (K.assetId.text d.assetId) = some row ∧
      decodeRow (K.assetId.text d.assetId) row = .ok ⟨d, key, .staged⟩ ∧
      u = t.insert (K.assetId.text d.assetId)
        { row with publicationState := PublicationState.published.text } := by
  unfold publishAsset at h
  obtain ⟨-, -, h⟩ := bind_ok h
  obtain ⟨-, -, h⟩ := bind_ok h
  split at h
  · cases h
  · rename_i row hrow
    obtain ⟨existing, hd, h⟩ := bind_ok h
    split at h
    · cases h
    · rename_i hsame
      rw [not_or, not_or, not_not, not_not, not_not] at hsame
      obtain ⟨hs, hdesc, hkey⟩ := hsame
      obtain ⟨-, -, h⟩ := bind_ok h
      obtain ⟨-, -, h⟩ := bind_ok h
      cases h
      refine ⟨row, hrow, ?_, rfl⟩
      rw [hd, ← hs, ← hdesc, ← hkey]

/-- A conditional delete removes at most a staged row of its key. -/
theorem lookup_deleteStaged (t : AssetTable) (id key : String) :
    (deleteStaged t id).lookup key = t.lookup key ∨
      (key = id ∧ (deleteStaged t id).lookup key = none ∧
        ∃ row, t.lookup key = some row ∧ row.publicationState = PublicationState.staged.text) := by
  unfold deleteStaged
  cases hrow : t.lookup id with
  | none => exact .inl rfl
  | some row =>
    by_cases hs : row.publicationState = PublicationState.staged.text
    · simp only [hs, if_true]
      by_cases hk : key = id
      · subst hk
        exact .inr ⟨rfl, AList.lookup_erase _ _, row, hrow, hs⟩
      · exact .inl (AList.lookup_erase_ne hk)
    · simp [hs]

/-- Deleting staged rows one after the other. -/
theorem lookup_deleteAll (ids : List K.AssetId) (t : AssetTable) (key : String) :
    (ids.foldl (fun t id => deleteStaged t (K.assetId.text id)) t).lookup key = t.lookup key ∨
      ((ids.foldl (fun t id => deleteStaged t (K.assetId.text id)) t).lookup key = none ∧
        ∃ row, t.lookup key = some row ∧ row.publicationState = PublicationState.staged.text) := by
  induction ids generalizing t with
  | nil => exact .inl rfl
  | cons a ids ih =>
    rw [List.foldl_cons]
    rcases lookup_deleteStaged t (K.assetId.text a) key with h | ⟨-, h, hrow⟩
    · rw [← h]
      exact ih _
    · refine .inr ⟨?_, hrow⟩
      rcases ih (deleteStaged t (K.assetId.text a)) with h' | ⟨h', -⟩
      · rw [h', h]
      · exact h'

theorem lookup_deleteAll_mem {ids : List K.AssetId} {a : K.AssetId} (ha : a ∈ ids) (t : AssetTable)
    {row : AssetRow} (h : (ids.foldl (fun t id => deleteStaged t (K.assetId.text id)) t).lookup
      (K.assetId.text a) = some row) : row.publicationState ≠ PublicationState.staged.text := by
  induction ids generalizing t with
  | nil => cases ha
  | cons b ids ih =>
    rw [List.foldl_cons] at h
    rcases List.mem_cons.mp ha with rfl | hmem
    · intro hs
      rcases lookup_deleteAll ids (deleteStaged t (K.assetId.text a)) (K.assetId.text a) with h' | ⟨h', -⟩
      · rw [h'] at h
        rcases lookup_deleteStaged t (K.assetId.text a) (K.assetId.text a) with h₁ | ⟨-, h₁, -⟩
        · rw [h₁] at h
          unfold deleteStaged at h₁
          simp only [h, hs, if_true, AList.lookup_erase] at h₁
          cases h₁
        · rw [h₁] at h
          cases h
      · rw [h'] at h
        cases h
    · exact ih hmem _ h

/-- Quarantining empties what it names, up to where it stopped, and nothing else. -/
theorem quarantineEntries_spec (f : Faults) (fresh : Nat → String) (entry : Nat → Call)
    (published : List String) (index : Nat) (names : List String) (dir quarantine : Dir)
    {result : Except (LocalAssetStoreError K) Unit} {dir' quarantine' : Dir}
    (h : quarantineEntries f fresh entry published index names dir quarantine = (result, dir', quarantine')) :
    (∀ name, name ∉ names ∨ name ∈ published → dir'.lookup name = dir.lookup name) ∧
    (∀ name, dir'.lookup name = dir.lookup name ∨ dir'.lookup name = none) ∧
    (result = .ok () → ∀ name ∈ names, name ∉ published → dir'.lookup name = none) := by
  fun_induction quarantineEntries f fresh entry published index names dir quarantine with
  | case1 _ dir quarantine =>
    cases h
    exact ⟨fun _ _ => rfl, fun _ => .inl rfl, fun _ _ h => by cases h⟩
  | case2 => cases h; exact ⟨fun _ _ => rfl, fun _ => .inl rfl, nofun⟩
  | case3 index name rest dir quarantine _ hpublished ih =>
    obtain ⟨hother, heach, hall⟩ := ih h
    refine ⟨?_, heach, ?_⟩
    · intro n hn
      apply hother
      exact hn.imp_left (fun hn hrest => hn (List.mem_cons_of_mem name hrest))
    · intro hok n hn hnp
      rcases List.mem_cons.mp hn with rfl | hmem
      · exact absurd hpublished hnp
      · exact hall hok n hmem hnp
  | case4 index name rest dir quarantine _ hpublished slot node hnode _ ih =>
    obtain ⟨hother, heach, hall⟩ := ih h
    refine ⟨?_, ?_, ?_⟩
    · intro n hn
      have hne : n ≠ name := by
        rintro rfl
        rcases hn with hn | hn
        · exact hn List.mem_cons_self
        · exact hpublished hn
      rw [hother n (hn.imp_left (fun hn hrest => hn (List.mem_cons_of_mem name hrest))),
        AList.lookup_erase_ne hne]
    · intro n
      rcases heach n with h | h
      · by_cases hn : n = name
        · subst hn
          exact .inr (by rw [h, AList.lookup_erase])
        · exact .inl (by rw [h, AList.lookup_erase_ne hn])
      · exact .inr h
    · intro hok n hn hnp
      rcases List.mem_cons.mp hn with rfl | hmem
      · rcases heach n with h | h
        · rw [h, AList.lookup_erase]
        · exact h
      · exact hall hok n hmem hnp
  | case5 => cases h; exact ⟨fun _ _ => rfl, fun _ => .inl rfl, nofun⟩
  | case6 => cases h; exact ⟨fun _ _ => rfl, fun _ => .inl rfl, nofun⟩

/-- A published record whose blob has passed the check of recovery. -/
def Verified (blobs : Dir) (record : AssetRecord K) : Prop :=
  ∃ bytes, blobs.lookup record.blobKey = some (.file bytes) ∧
    bytes.length = record.descriptor.byteLength ∧ K.sha256 bytes = record.descriptor.contentHash

theorem verifyBlob_ok {f : Faults} {blobs : Dir} {record : AssetRecord K}
    (h : verifyBlob f blobs record = .ok ()) : Verified blobs record := by
  unfold verifyBlob at h
  obtain ⟨-, -, h⟩ := bind_ok h
  split at h
  · cases h
  · cases h
  · rename_i bytes hbytes
    split at h
    · cases h
    · rename_i hlen
      obtain ⟨-, -, h⟩ := bind_ok h
      obtain ⟨-, -, h⟩ := bind_ok h
      split at h
      · cases h
      · rename_i hhash
        exact ⟨bytes, hbytes, not_not.mp hlen, not_not.mp hhash⟩

def AssetRecord.isPublished (record : AssetRecord K) : Bool := record.state = .published

/-- The first loop of recovery: the keys of the published records, each verified, and
the identities of the staged ones. -/
theorem classify_ok {f : Faults} {blobs : Dir} {records : List (AssetRecord K)} {keys : List String}
    {ids : List K.AssetId} (h : classify f blobs records = .ok (keys, ids)) :
    keys = (records.filter AssetRecord.isPublished).map (·.blobKey) ∧
    ids = (records.filter (fun record => !record.isPublished)).map (·.descriptor.assetId) ∧
    ∀ record ∈ records, record.state = .published → Verified blobs record := by
  induction records generalizing keys ids with
  | nil =>
    cases h
    exact ⟨rfl, rfl, by simp⟩
  | cons record records ih =>
    rw [classify] at h
    cases hs : record.state with
    | published =>
      rw [hs] at h
      obtain ⟨⟨⟩, hv, h⟩ := bind_ok h
      obtain ⟨⟨keys', ids'⟩, hrest, h⟩ := bind_ok h
      cases h
      obtain ⟨rfl, rfl, hverified⟩ := ih hrest
      have hp : record.isPublished = true := by simp [AssetRecord.isPublished, hs]
      refine ⟨by simp [hp], by simp [hp], ?_⟩
      intro r hr hpublished
      rcases List.mem_cons.mp hr with rfl | hr
      · exact verifyBlob_ok hv
      · exact hverified r hr hpublished
    | staged =>
      rw [hs] at h
      obtain ⟨⟨keys', ids'⟩, hrest, h⟩ := bind_ok h
      cases h
      obtain ⟨rfl, rfl, hverified⟩ := ih hrest
      have hp : record.isPublished = false := by simp [AssetRecord.isPublished, hs]
      refine ⟨by simp [hp], by simp [hp], ?_⟩
      intro r hr hpublished
      rcases List.mem_cons.mp hr with rfl | hr
      · rw [hs] at hpublished
        cases hpublished
      · exact hverified r hr hpublished

theorem decodeRows_ok {f : Faults} {n : Nat} {rows : List (Sigma fun _ : String => AssetRow)}
    {records : List (AssetRecord K)} (h : decodeRows f n rows = .ok records) :
    rows.mapM (fun entry => decodeRow entry.1 entry.2) = .ok records := by
  induction rows generalizing n records with
  | nil =>
    cases h
    rfl
  | cons entry rows ih =>
    rw [decodeRows] at h
    obtain ⟨-, -, h⟩ := bind_ok h
    obtain ⟨record, hd, h⟩ := bind_ok h
    obtain ⟨rest, hrest, h⟩ := bind_ok h
    cases h
    rw [List.mapM_cons, hd, ok_bind, ih hrest, ok_bind]
    rfl

/-- The records that are loaded are those of the rows, and every row has one. -/
theorem loadAllRecords_ok {f : Faults} {t : AssetTable} {records : List (AssetRecord K)}
    (h : loadAllRecords f t = .ok records) :
    (∀ id row, t.lookup id = some row → ∃ record ∈ records, decodeRow id row = .ok record) ∧
    ∀ record ∈ records, ∃ id row, t.lookup id = some row ∧ decodeRow id row = .ok record := by
  unfold loadAllRecords at h
  obtain ⟨-, -, h⟩ := bind_ok h
  have hmap := decodeRows_ok h
  constructor
  · intro id row hrow
    have hmem : Sigma.mk id row ∈ orderBy Sigma.fst t.entries :=
      (mem_orderBy _).mpr (AList.mem_lookup_iff.mp hrow)
    exact image_of_mapM_ok hmap hmem
  · intro record hrecord
    obtain ⟨⟨id, row⟩, hmem, hd⟩ := (mem_of_mapM_ok hmap record).mp hrecord
    exact ⟨id, row, AList.mem_lookup_iff.mpr ((mem_orderBy _).mp hmem), hd⟩

/-- What a run of recovery leaves behind, finished or not: published rows and their
blobs stay, and nothing appears in the table, `blobs` or `staging`. -/
structure Recovered (K : AssetKernel) (disk disk' : Disk) : Prop where
  rows : ∀ id row, disk'.assets.lookup id = some row → disk.assets.lookup id = some row
  published : ∀ id row record, disk.assets.lookup id = some row → decodeRow (K := K) id row = .ok record →
    record.state = .published → disk'.assets.lookup id = some row ∧
      disk'.files.blobs.lookup record.blobKey = disk.files.blobs.lookup record.blobKey
  staging : ∀ name, disk'.files.staging.lookup name = disk.files.staging.lookup name ∨
    disk'.files.staging.lookup name = none

theorem Recovered.refl (K : AssetKernel) (disk : Disk) : Recovered K disk disk :=
  ⟨fun _ _ h => h, fun _ _ _ h _ _ => ⟨h, rfl⟩, fun _ => .inl rfl⟩

/-- A finished recovery has verified every published row, removed every staged one
and emptied `staging`. -/
structure Clean (K : AssetKernel) (disk' : Disk) : Prop where
  rows : ∀ id row, disk'.assets.lookup id = some row →
    ∃ record : AssetRecord K, decodeRow id row = .ok record ∧ record.state = .published ∧
      Verified disk'.files.blobs record
  staging : ∀ name, disk'.files.staging.lookup name = none

theorem deleteStagedRows_ok {f : Faults} {t u : AssetTable} {ids : List K.AssetId}
    (h : deleteStagedRows f t ids = .ok u) :
    u = ids.foldl (fun t id => deleteStaged t (K.assetId.text id)) t := by
  unfold deleteStagedRows at h
  split at h
  · rename_i hnil
    cases h
    rw [hnil]
    rfl
  · obtain ⟨-, -, h⟩ := bind_ok h
    obtain ⟨-, -, h⟩ := bind_ok h
    obtain ⟨-, -, h⟩ := bind_ok h
    cases h
    rfl

/-- The table and the keys that recovery works with once the rows are classified. -/
theorem recovery_rows {f : Faults} {disk : Disk} {keys : List String} {ids : List K.AssetId}
    {assets : AssetTable}
    (hload : (do let records ← loadAllRecords (K := K) f disk.assets; classify f disk.files.blobs records) =
      .ok (keys, ids)) (hdelete : deleteStagedRows f disk.assets ids = .ok assets) :
    (∀ id row, assets.lookup id = some row → disk.assets.lookup id = some row ∧
      ∃ record : AssetRecord K, decodeRow id row = .ok record ∧ record.state = .published ∧
        Verified disk.files.blobs record ∧ record.blobKey ∈ keys) ∧
    ∀ id row, ∀ record : AssetRecord K, disk.assets.lookup id = some row → decodeRow id row = .ok record →
      record.state = .published → assets.lookup id = some row ∧ record.blobKey ∈ keys := by
  obtain ⟨records, hrecords, hclassify⟩ := bind_ok hload
  have hrow := (loadAllRecords_ok hrecords).1
  obtain ⟨hkeys, hids, hverified⟩ := classify_ok hclassify
  have hkey : ∀ record ∈ records, record.state = .published → record.blobKey ∈ keys := by
    intro record hmem hs
    rw [hkeys]
    exact List.mem_map_of_mem (List.mem_filter.mpr ⟨hmem, decide_eq_true hs⟩)
  rw [deleteStagedRows_ok hdelete]
  constructor
  · intro id row hlookup
    have hold : disk.assets.lookup id = some row := by
      rcases lookup_deleteAll ids disk.assets id with h | ⟨h, -⟩
      · rw [← h, hlookup]
      · rw [h] at hlookup
        cases hlookup
    obtain ⟨record, hmem, hd⟩ := hrow id row hold
    obtain ⟨hid, -, -, -, -, -, -, hstate⟩ := decodeRow_eq_ok.mp hd
    refine ⟨hold, record, hd, ?_⟩
    cases hs : record.state with
    | published => exact ⟨rfl, hverified record hmem hs, hkey record hmem hs⟩
    | staged =>
      have hmem' : record.descriptor.assetId ∈ ids := by
        rw [hids]
        exact List.mem_map_of_mem (List.mem_filter.mpr ⟨hmem, by simp [AssetRecord.isPublished, hs]⟩)
      rw [hid] at hlookup
      refine absurd ?_ (lookup_deleteAll_mem hmem' disk.assets hlookup)
      rw [hstate, hs]
  · intro id row record hold hd hs
    obtain ⟨record', hmem, hd'⟩ := hrow id row hold
    obtain rfl : record' = record := Except.ok.inj (hd'.symm.trans hd)
    refine ⟨?_, hkey record' hmem hs⟩
    rcases lookup_deleteAll ids disk.assets id with h | ⟨-, row', hrow', hstaged⟩
    · rw [h, hold]
    · rw [hold] at hrow'
      cases hrow'
      rw [(decodeRow_eq_ok.mp hd).2.2.2.2.2.2.2, text_inj, hs] at hstaged
      cases hstaged

/-- The rows are settled and some entries of the two directories have been moved. -/
theorem recovered_of {disk : Disk} {keys : List String} {ids : List K.AssetId} {f : Faults}
    {assets : AssetTable} {blobs staging quarantine : Dir}
    (hload : (do let records ← loadAllRecords (K := K) f disk.assets; classify f disk.files.blobs records) =
      .ok (keys, ids)) (hdelete : deleteStagedRows f disk.assets ids = .ok assets)
    (hblobs : ∀ name ∈ keys, blobs.lookup name = disk.files.blobs.lookup name)
    (hstaging : ∀ name, staging.lookup name = disk.files.staging.lookup name ∨ staging.lookup name = none) :
    Recovered K disk ⟨assets, ⟨blobs, staging, quarantine⟩⟩ := by
  obtain ⟨hrows, hpublished⟩ := recovery_rows hload hdelete
  refine ⟨fun id row h => (hrows id row h).1, ?_, hstaging⟩
  intro id row record hrow hd hs
  obtain ⟨hkept, hkey⟩ := hpublished id row record hrow hd hs
  exact ⟨hkept, hblobs _ hkey⟩

/-- `recover_storage` keeps what was published, and a success leaves nothing else. -/
theorem recoverStorage_spec (f : Faults) (fresh : Nat → String) (disk : Disk) :
    Recovered K disk (recoverStorage K f fresh disk).2 ∧
      ((recoverStorage K f fresh disk).1 = .ok () → Clean K (recoverStorage K f fresh disk).2) := by
  unfold recoverStorage
  cases hload : (do let records ← loadAllRecords (K := K) f disk.assets
                    classify f disk.files.blobs records) with
  | error e => exact ⟨.refl K disk, by simp⟩
  | ok found =>
    obtain ⟨keys, ids⟩ := found
    dsimp only
    cases hdelete : deleteStagedRows f disk.assets ids with
    | error e => exact ⟨.refl K disk, by simp⟩
    | ok assets =>
      dsimp only
      cases call (K := K) f .readStaging with
      | error e =>
        exact ⟨recovered_of hload hdelete (fun _ _ => rfl) (fun _ => .inl rfl), by simp⟩
      | ok u =>
        rcases hq : quarantineEntries (K := K) f fresh .stagingEntry [] 0 disk.files.staging.keys
          disk.files.staging disk.files.quarantine with ⟨result, staging, quarantine⟩
        obtain ⟨-, heach, hall⟩ := quarantineEntries_spec f fresh _ _ _ _ _ _ hq
        cases result with
        | error e => exact ⟨recovered_of hload hdelete (fun _ _ => rfl) heach, by simp⟩
        | ok u =>
          dsimp only
          cases call (K := K) f .readBlobs with
          | error e => exact ⟨recovered_of hload hdelete (fun _ _ => rfl) heach, by simp⟩
          | ok u =>
            dsimp only
            rcases hb : quarantineEntries (K := K) f fresh .blobEntry keys disk.files.staging.keys.length
              disk.files.blobs.keys disk.files.blobs quarantine with ⟨result, blobs, quarantine'⟩
            obtain ⟨hother, -, -⟩ := quarantineEntries_spec f fresh _ _ _ _ _ _ hb
            have hkeep : ∀ name ∈ keys, blobs.lookup name = disk.files.blobs.lookup name :=
              fun name hname => hother name (.inr hname)
            refine ⟨recovered_of hload hdelete hkeep heach, ?_⟩
            intro _
            constructor
            · intro id row hlookup
              obtain ⟨-, record, hd, hs, ⟨bytes, hbytes, hv⟩, hkey⟩ := (recovery_rows hload hdelete).1 id row hlookup
              exact ⟨record, hd, hs, bytes, by rw [hkeep _ hkey, hbytes], hv⟩
            · intro name
              by_cases hn : name ∈ disk.files.staging.keys
              · exact hall rfl name hn List.not_mem_nil
              · rcases heach name with h | h
                · rw [h]
                  exact AList.lookup_eq_none.mpr hn
                · exact h

end OrbitRelay.AssetStore
