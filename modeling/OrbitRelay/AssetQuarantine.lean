import OrbitRelay.AssetIntegrity

/-!
# Recovery loses nothing

What a finished recovery has done to the rows and to the three directories, that
the next recovery finds nothing to do, and that a corruption is reported before
anything is deleted or moved.
-/
namespace OrbitRelay.AssetStore

open Codec MachineInt Relational

variable {K : AssetKernel}

/-- The directories that recovery takes entries from. -/
inductive Place where
  | staging | blobs
  deriving DecidableEq, Repr

def Files.dir (files : Files) : Place → Dir
  | .staging => files.staging
  | .blobs => files.blobs

/-- Quarantine names that were never used before. -/
structure Fresh (fresh : Nat → String) (quarantine : Dir) : Prop where
  injective : Function.Injective fresh
  unused : ∀ n, quarantine.lookup (fresh n) = none

/-- Every entry that left its directory has a quarantine entry of its own, with the same
content, and what was in quarantine before is still there. -/
structure Moved (files files' : Files) : Prop where
  kept : ∀ place name node, (files'.dir place).lookup name = some node →
    (files.dir place).lookup name = some node
  moved : ∃ target : Place → String → String,
    (∀ place name node, (files.dir place).lookup name = some node → (files'.dir place).lookup name = none →
      files.quarantine.lookup (target place name) = none ∧
        files'.quarantine.lookup (target place name) = some node) ∧
    ∀ place name place' name', (files.dir place).lookup name ≠ none → (files'.dir place).lookup name = none →
      (files.dir place').lookup name' ≠ none → (files'.dir place').lookup name' = none →
      target place name = target place' name' → place = place' ∧ name = name'
  earlier : ∀ name node, files.quarantine.lookup name = some node → files'.quarantine.lookup name = some node

/-- What a finished recovery has made of a disk. -/
structure Exact (K : AssetKernel) (disk disk' : Disk) : Prop where
  published : ∀ id row, disk.assets.lookup id = some row →
    row.publicationState = PublicationState.published.text → disk'.assets.lookup id = some row
  rows : ∀ id row, disk'.assets.lookup id = some row → disk.assets.lookup id = some row ∧
    ∃ record : AssetRecord K, decodeRow id row = .ok record ∧ record.state = .published ∧
      Verified disk'.files.blobs record
  staging : disk'.files.staging = ∅
  blobs : ∀ name, name ∈ disk'.files.blobs ↔
    ∃ id row, disk'.assets.lookup id = some row ∧ row.blobKey = name
  moved : Moved disk.files disk'.files

/-! ## Moving entries -/

theorem quarantineEntry_ok {f : Faults} {index tries slot : Nat} (htries : tries ≤ 8)
    (h : quarantineEntry (K := K) f index tries = .ok slot) : slot / 8 = index := by
  induction tries with
  | zero => cases h
  | succ tries ih =>
    rw [quarantineEntry] at h
    split at h
    · exact ih (by omega) h
    · obtain ⟨-, -, h⟩ := bind_ok h
      cases h
      omega

/-- Each entry has its own eight names, and only the one it was moved to is written. -/
structure Slotted (fresh : Nat → String) (published : List String) (index : Nat) (names : List String)
    (dir quarantine quarantine' : Dir) (slot : String → Nat) : Prop where
  place : ∀ name ∈ names, slot name / 8 = index + names.idxOf name
  moved : ∀ name ∈ names, name ∉ published → ∀ node, dir.lookup name = some node →
    quarantine'.lookup (fresh (slot name)) = some node
  other : ∀ target, (∀ name ∈ names, target ≠ fresh (slot name)) →
    quarantine'.lookup target = quarantine.lookup target

theorem Slotted.cons_place {fresh : Nat → String} {published : List String} {index n : Nat} {name : String}
    {rest : List String} {dir quarantine quarantine' : Dir} {slot : String → Nat}
    (h : Slotted fresh published (index + 1) rest dir quarantine quarantine' slot) (hname : name ∉ rest)
    (hn : n / 8 = index) : ∀ other ∈ name :: rest,
      Function.update slot name n other / 8 = index + (name :: rest).idxOf other := by
  intro other hmem
  by_cases he : other = name
  · subst he
    simp [hn]
  · have hrest : other ∈ rest := (List.mem_cons.mp hmem).resolve_left he
    rw [Function.update_of_ne he, h.place other hrest, List.idxOf_cons_ne rest (Ne.symm he)]
    omega

theorem quarantineEntries_slotted {f : Faults} {fresh : Nat → String} (hfresh : Function.Injective fresh)
    {entry : Nat → Call} {published : List String} {index : Nat} {names : List String} (hnodup : names.Nodup)
    {dir quarantine dir' quarantine' : Dir}
    (h : quarantineEntries (K := K) f fresh entry published index names dir quarantine =
      (.ok (), dir', quarantine')) :
    ∃ slot, Slotted fresh published index names dir quarantine quarantine' slot := by
  fun_induction quarantineEntries (K := K) f fresh entry published index names dir quarantine with
  | case1 =>
    cases h
    exact ⟨fun _ => 0, by simp, by simp, fun _ _ => rfl⟩
  | case2 => cases h
  | case3 index name rest dir quarantine _ hpublished ih =>
    rw [List.nodup_cons] at hnodup
    obtain ⟨slot, hslot⟩ := ih hnodup.2 h
    refine ⟨Function.update slot name (8 * index), hslot.cons_place hnodup.1 (by omega), ?_, ?_⟩
    · intro other hmem hnp node hnode
      have hne : other ≠ name := by
        rintro rfl
        exact hnp hpublished
      rw [Function.update_of_ne hne]
      exact hslot.moved other ((List.mem_cons.mp hmem).resolve_left hne) hnp node hnode
    · intro target htarget
      apply hslot.other
      intro other hmem
      have hne : other ≠ name := fun he => hnodup.1 (he ▸ hmem)
      have h := htarget other (List.mem_cons_of_mem name hmem)
      rwa [Function.update_of_ne hne] at h
  | case4 index name rest dir quarantine _ hpublished used node hnode hused ih =>
    rw [List.nodup_cons] at hnodup
    obtain ⟨slot, hslot⟩ := ih hnodup.2 h
    have hindex := quarantineEntry_ok (le_refl 8) hused
    -- later entries have later slots, so what was just moved is not written again
    have hlater : ∀ other ∈ rest, fresh used ≠ fresh (slot other) := by
      intro other hmem he
      have hplace := hslot.place other hmem
      rw [← hfresh he] at hplace
      omega
    refine ⟨Function.update slot name used, hslot.cons_place hnodup.1 hindex, ?_, ?_⟩
    · intro other hmem hnp content hcontent
      by_cases he : other = name
      · subst he
        rw [Function.update_self, hslot.other _ hlater, AList.lookup_insert, ← hnode, hcontent]
      · rw [Function.update_of_ne he]
        refine hslot.moved other ((List.mem_cons.mp hmem).resolve_left he) hnp content ?_
        rw [AList.lookup_erase_ne he, hcontent]
    · intro target htarget
      have hname := htarget name List.mem_cons_self
      rw [Function.update_self] at hname
      rw [hslot.other target, AList.lookup_insert_ne hname]
      intro other hmem
      have hne : other ≠ name := fun he => hnodup.1 (he ▸ hmem)
      have h := htarget other (List.mem_cons_of_mem name hmem)
      rwa [Function.update_of_ne hne] at h
  | case5 => cases h
  | case6 => cases h

theorem Slotted.injective {fresh : Nat → String} {published : List String} {index : Nat} {names : List String}
    {dir quarantine quarantine' : Dir} {slot : String → Nat}
    (h : Slotted fresh published index names dir quarantine quarantine' slot) {a b : String} (ha : a ∈ names)
    (hb : b ∈ names) (he : slot a = slot b) : a = b := by
  have hplace := h.place a ha
  rw [he, h.place b hb] at hplace
  exact ((List.idxOf_inj hb).mp (by omega)).symm

theorem Slotted.range {fresh : Nat → String} {published : List String} {index : Nat} {names : List String}
    {dir quarantine quarantine' : Dir} {slot : String → Nat}
    (h : Slotted fresh published index names dir quarantine quarantine' slot) {name : String}
    (hname : name ∈ names) : index ≤ slot name / 8 ∧ slot name / 8 < index + names.length := by
  have hplace := h.place name hname
  have hlt := List.idxOf_lt_length_of_mem hname
  omega

/-- Everything that a finished recovery went through. -/
theorem recoverStorage_ok {f : Faults} {fresh : Nat → String} {disk : Disk}
    (h : (recoverStorage K f fresh disk).1 = .ok ()) :
    ∃ keys ids assets staging quarantine blobs quarantine',
      (do let records ← loadAllRecords (K := K) f disk.assets; classify f disk.files.blobs records) =
        .ok (keys, ids) ∧
      deleteStagedRows f disk.assets ids = .ok assets ∧
      quarantineEntries (K := K) f fresh .stagingEntry [] 0 disk.files.staging.keys disk.files.staging
        disk.files.quarantine = (.ok (), staging, quarantine) ∧
      quarantineEntries (K := K) f fresh .blobEntry keys disk.files.staging.keys.length disk.files.blobs.keys
        disk.files.blobs quarantine = (.ok (), blobs, quarantine') ∧
      (recoverStorage K f fresh disk).2 = ⟨assets, ⟨blobs, staging, quarantine'⟩⟩ := by
  unfold recoverStorage at h ⊢
  split at h
  · cases h
  · rename_i keys ids hload
    split at h
    · cases h
    · rename_i assets hdelete
      split at h
      · cases h
      · split at h
        · cases h
        · rename_i staging quarantine hstaging
          split at h
          · cases h
          · dsimp only at h ⊢
            rcases hblobs : quarantineEntries (K := K) f fresh .blobEntry keys disk.files.staging.keys.length
              disk.files.blobs.keys disk.files.blobs quarantine with ⟨result, blobs, quarantine'⟩
            rw [hblobs] at h
            dsimp only at h
            subst h
            refine ⟨keys, ids, assets, staging, quarantine, blobs, quarantine', hload, hdelete, hstaging, hblobs, ?_⟩
            simp only [*]

theorem mem_keys_of_lookup {dir : Dir} {name : String} (h : dir.lookup name ≠ none) : name ∈ dir.keys := by
  by_contra hname
  exact h (AList.lookup_eq_none.mpr hname)

/-- The two loops together. -/
theorem moved_of {f : Faults} {fresh : Nat → String} {keys : List String} {files : Files}
    {staging quarantine blobs quarantine' : Dir} (hfresh : Fresh fresh files.quarantine)
    (hstaging : quarantineEntries (K := K) f fresh .stagingEntry [] 0 files.staging.keys files.staging
      files.quarantine = (.ok (), staging, quarantine))
    (hblobs : quarantineEntries (K := K) f fresh .blobEntry keys files.staging.keys.length files.blobs.keys
      files.blobs quarantine = (.ok (), blobs, quarantine')) : Moved files ⟨blobs, staging, quarantine'⟩ := by
  obtain ⟨-, hkeptS, -⟩ := quarantineEntries_spec f fresh _ _ _ _ _ _ hstaging
  obtain ⟨hotherB, hkeptB, -⟩ := quarantineEntries_spec f fresh _ _ _ _ _ _ hblobs
  obtain ⟨slotS, hS⟩ := quarantineEntries_slotted hfresh.injective files.staging.keys_nodup hstaging
  obtain ⟨slotB, hB⟩ := quarantineEntries_slotted hfresh.injective files.blobs.keys_nodup hblobs
  have hapart : ∀ a ∈ files.staging.keys, ∀ b ∈ files.blobs.keys, slotS a ≠ slotB b := by
    intro a ha b hb he
    have hlt := (hS.range ha).2
    have hle := (hB.range hb).1
    rw [he] at hlt
    omega
  refine ⟨?_, ⟨fun place name => fresh (match place with | .staging => slotS name | .blobs => slotB name), ?_, ?_⟩, ?_⟩
  · intro place name node hnode
    cases place with
    | staging =>
      rcases hkeptS name with h | h
      · exact h.symm.trans hnode
      · exact absurd (h.symm.trans hnode) (by simp)
    | blobs =>
      rcases hkeptB name with h | h
      · exact h.symm.trans hnode
      · exact absurd (h.symm.trans hnode) (by simp)
  · intro place name node hnode hgone
    refine ⟨hfresh.unused _, ?_⟩
    cases place with
    | staging =>
      have hname : name ∈ files.staging.keys :=
        mem_keys_of_lookup (by rw [show files.staging.lookup name = _ from hnode]; simp)
      show quarantine'.lookup (fresh (slotS name)) = some node
      rw [hB.other _ (fun b hb he => hapart name hname b hb (hfresh.injective he))]
      exact hS.moved name hname List.not_mem_nil node hnode
    | blobs =>
      have hname : name ∈ files.blobs.keys :=
        mem_keys_of_lookup (by rw [show files.blobs.lookup name = _ from hnode]; simp)
      refine hB.moved name hname (fun hkey => ?_) node hnode
      have hsame := hotherB name (.inr hkey)
      rw [show files.blobs.lookup name = _ from hnode, show blobs.lookup name = _ from hgone] at hsame
      cases hsame
  · intro place name place' name' hold _ hold' _ htarget
    have hslot := hfresh.injective htarget
    cases place with
    | staging =>
      cases place' with
      | staging => exact ⟨rfl, hS.injective (mem_keys_of_lookup hold) (mem_keys_of_lookup hold') hslot⟩
      | blobs => exact absurd hslot (hapart _ (mem_keys_of_lookup hold) _ (mem_keys_of_lookup hold'))
    | blobs =>
      cases place' with
      | staging => exact absurd hslot.symm (hapart _ (mem_keys_of_lookup hold') _ (mem_keys_of_lookup hold))
      | blobs => exact ⟨rfl, hB.injective (mem_keys_of_lookup hold) (mem_keys_of_lookup hold') hslot⟩
  · intro name node hnode
    have hne : ∀ n, name ≠ fresh n := by
      rintro n rfl
      rw [hfresh.unused n] at hnode
      cases hnode
    show quarantine'.lookup name = some node
    rw [hB.other name (fun _ _ => hne _), hS.other name (fun _ _ => hne _), hnode]

/-! ## The next recovery -/

/-- With only published entries there is nothing to move, whatever fails. -/
theorem quarantineEntries_idle {f : Faults} {fresh : Nat → String} {entry : Nat → Call}
    {published names : List String} (h : ∀ name ∈ names, name ∈ published) (index : Nat) (dir quarantine : Dir) :
    (quarantineEntries (K := K) f fresh entry published index names dir quarantine).2 = (dir, quarantine) := by
  induction names generalizing index with
  | nil => rfl
  | cons name names ih =>
    rw [quarantineEntries]
    split
    · rfl
    · rw [if_pos (h name List.mem_cons_self)]
      exact ih (fun n hn => h n (List.mem_cons_of_mem name hn)) (index + 1)

theorem quarantineEntries_idle_none {fresh : Nat → String} {entry : Nat → Call} {published names : List String}
    (h : ∀ name ∈ names, name ∈ published) (index : Nat) (dir quarantine : Dir) :
    quarantineEntries (K := K) Faults.none fresh entry published index names dir quarantine =
      (.ok (), dir, quarantine) := by
  induction names generalizing index with
  | nil => rfl
  | cons name names ih =>
    rw [quarantineEntries]
    simp only [call, Faults.none, if_pos (h name List.mem_cons_self)]
    exact ih (fun n hn => h n (List.mem_cons_of_mem name hn)) (index + 1)

theorem verifyBlob_verified {blobs : Dir} {record : AssetRecord K} (h : Verified blobs record) :
    verifyBlob Faults.none blobs record = .ok () := by
  obtain ⟨bytes, hbytes, hlength, hhash⟩ := h
  simp [verifyBlob, call, Faults.none, hbytes, hlength, hhash]

theorem classify_verified {blobs : Dir} {records : List (AssetRecord K)}
    (h : ∀ record ∈ records, record.state = .published → Verified blobs record) :
    ∃ found, classify Faults.none blobs records = .ok found := by
  induction records with
  | nil => exact ⟨_, rfl⟩
  | cons record records ih =>
    obtain ⟨found, hfound⟩ := ih (fun r hr => h r (List.mem_cons_of_mem record hr))
    rw [classify]
    split
    · rename_i hs
      rw [verifyBlob_verified (h record List.mem_cons_self hs), ok_bind, hfound]
      exact ⟨_, rfl⟩
    · rw [hfound]
      exact ⟨_, rfl⟩

theorem decodeRows_none (n : Nat) (rows : List (Sigma fun _ : String => AssetRow)) :
    decodeRows (K := K) Faults.none n rows = rows.mapM (fun entry => decodeRow entry.1 entry.2) := by
  induction rows generalizing n with
  | nil => rfl
  | cons entry rows ih =>
    rw [decodeRows, List.mapM_cons, ih]
    rfl

theorem loadAllRecords_decoded {t : AssetTable}
    (h : ∀ id row, t.lookup id = some row → ∃ record : AssetRecord K, decodeRow id row = .ok record) :
    ∃ records, loadAllRecords (K := K) Faults.none t = .ok records := by
  show ∃ records, decodeRows (K := K) Faults.none 0 (orderBy Sigma.fst t.entries) = .ok records
  rw [decodeRows_none]
  apply exists_mapM_ok
  intro entry hentry
  exact h entry.1 entry.2 (AList.mem_lookup_iff.mpr ((mem_orderBy _).mp hentry))

/-- The first two steps of recovery on a disk that was recovered: every entry of `blobs`
is a published key, and no row is staged. -/
theorem Exact.classified {disk disk' : Disk} (h : Exact K disk disk') {f : Faults} {keys : List String}
    {ids : List K.AssetId}
    (hload : (do let records ← loadAllRecords (K := K) f disk'.assets; classify f disk'.files.blobs records) =
      .ok (keys, ids)) : ids = [] ∧ ∀ name ∈ disk'.files.blobs.keys, name ∈ keys := by
  obtain ⟨records, hrecords, hclassify⟩ := bind_ok hload
  obtain ⟨hrow, hrecord⟩ := loadAllRecords_ok hrecords
  obtain ⟨rfl, rfl, -⟩ := classify_ok hclassify
  have hpublished : ∀ record ∈ records, record.isPublished = true := by
    intro record hmem
    obtain ⟨id, row, hlookup, hd⟩ := hrecord record hmem
    obtain ⟨-, record', hd', hs, -⟩ := h.rows id row hlookup
    rw [hd] at hd'
    cases hd'
    exact decide_eq_true hs
  constructor
  · rw [List.map_eq_nil_iff, List.filter_eq_nil_iff]
    intro record hmem
    simp [hpublished record hmem]
  · intro name hname
    obtain ⟨id, row, hlookup, rfl⟩ := (h.blobs name).mp hname
    obtain ⟨record, hmem, hd⟩ := hrow id row hlookup
    rw [← (decodeRow_eq_ok.mp hd).2.2.2.2.2.2.1]
    exact List.mem_map_of_mem (List.mem_filter.mpr ⟨hmem, hpublished record hmem⟩)

/-- Whatever fails in it, a second recovery changes nothing. -/
theorem Exact.again {disk disk' : Disk} (h : Exact K disk disk') (f : Faults) (fresh : Nat → String) :
    (recoverStorage K f fresh disk').2 = disk' := by
  obtain ⟨assets, ⟨blobs, staging, quarantine⟩⟩ := disk'
  obtain rfl : staging = ∅ := h.staging
  unfold recoverStorage
  split
  · rfl
  · rename_i keys ids hload
    obtain ⟨rfl, hkeys⟩ := h.classified hload
    dsimp only at hkeys
    rw [deleteStagedRows, if_pos rfl]
    dsimp only
    split
    · rfl
    · rw [show (∅ : Dir).keys = [] from rfl, quarantineEntries]
      dsimp only
      split
      · rfl
      · have hidle : (quarantineEntries (K := K) f fresh .blobEntry keys 0 blobs.keys blobs quarantine).2 =
            (blobs, quarantine) := quarantineEntries_idle hkeys 0 blobs quarantine
        simp only [List.length_nil, hidle]

theorem Exact.again_ok {disk disk' : Disk} (h : Exact K disk disk') (fresh : Nat → String) :
    (recoverStorage K Faults.none fresh disk').1 = .ok () := by
  obtain ⟨records, hrecords⟩ := loadAllRecords_decoded (K := K) (t := disk'.assets) (by
    intro id row hlookup
    obtain ⟨-, record, hd, -⟩ := h.rows id row hlookup
    exact ⟨record, hd⟩)
  have hverified : ∀ record ∈ records, record.state = .published → Verified disk'.files.blobs record := by
    intro record hmem _
    obtain ⟨id, row, hlookup, hd⟩ := (loadAllRecords_ok hrecords).2 record hmem
    obtain ⟨-, record', hd', -, hv⟩ := h.rows id row hlookup
    rw [hd] at hd'
    cases hd'
    exact hv
  obtain ⟨⟨keys, ids⟩, hfound⟩ := classify_verified hverified
  have hload : (do let records ← loadAllRecords (K := K) Faults.none disk'.assets
                   classify Faults.none disk'.files.blobs records) = .ok (keys, ids) := by
    rw [hrecords, ok_bind, hfound]
  obtain ⟨rfl, hkeys⟩ := h.classified hload
  obtain ⟨assets, ⟨blobs, staging, quarantine⟩⟩ := disk'
  obtain rfl : staging = ∅ := h.staging
  dsimp only at hkeys
  unfold recoverStorage
  rw [hload]
  dsimp only
  rw [deleteStagedRows, if_pos rfl]
  dsimp only [call, Faults.none]
  rw [show (∅ : Dir).keys = [] from rfl, quarantineEntries]
  dsimp only
  rw [quarantineEntries_idle_none hkeys]

/-! ## A finished recovery -/

theorem dir_eq_empty {dir : Dir} (h : ∀ name, dir.lookup name = none) : dir = ∅ := by
  apply AList.ext
  rw [AList.empty_entries, List.eq_nil_iff_forall_not_mem]
  rintro ⟨name, node⟩ hmem
  have hlookup := AList.mem_lookup_iff.mpr hmem
  rw [h name] at hlookup
  cases hlookup

theorem recoverStorage_exact {f : Faults} {fresh : Nat → String} {disk : Disk}
    (hfresh : Fresh fresh disk.files.quarantine) (h : (recoverStorage K f fresh disk).1 = .ok ()) :
    Exact K disk (recoverStorage K f fresh disk).2 := by
  obtain ⟨hrecovered, hclean⟩ := recoverStorage_spec (K := K) f fresh disk
  have hclean := hclean h
  obtain ⟨keys, ids, assets, staging, quarantine, blobs, quarantine', hload, -, hstaging, hblobs, heq⟩ :=
    recoverStorage_ok h
  rw [heq] at hrecovered hclean ⊢
  obtain ⟨records, hrecords, hclassify⟩ := bind_ok hload
  obtain ⟨hrow, hrecord⟩ := loadAllRecords_ok hrecords
  obtain ⟨hkeys, -, -⟩ := classify_ok hclassify
  refine ⟨?_, fun id row hlookup => ⟨hrecovered.rows id row hlookup, hclean.rows id row hlookup⟩,
    dir_eq_empty hclean.staging, ?_, moved_of hfresh hstaging hblobs⟩
  · intro id row hlookup hstate
    obtain ⟨record, -, hd⟩ := hrow id row hlookup
    rw [(decodeRow_eq_ok.mp hd).2.2.2.2.2.2.2, text_inj] at hstate
    exact (hrecovered.published id row record hlookup hd hstate).1
  · intro name
    obtain ⟨hother, -, hall⟩ := quarantineEntries_spec f fresh _ _ _ _ _ _ hblobs
    constructor
    · intro hname
      have hkey : name ∈ keys := by
        by_contra hkey
        apply AList.lookup_eq_none.mp _ hname
        by_cases hold : name ∈ disk.files.blobs.keys
        · exact hall rfl name hold hkey
        · rw [hother name (.inl hold)]
          exact AList.lookup_eq_none.mpr hold
      rw [hkeys, List.mem_map] at hkey
      obtain ⟨record, hmem, rfl⟩ := hkey
      obtain ⟨hmem, hpublished⟩ := List.mem_filter.mp hmem
      obtain ⟨id, row, hlookup, hd⟩ := hrecord record hmem
      have hkept := (hrecovered.published id row record hlookup hd (of_decide_eq_true hpublished)).1
      exact ⟨id, row, hkept, (decodeRow_eq_ok.mp hd).2.2.2.2.2.2.1.symm⟩
    · rintro ⟨id, row, hlookup, rfl⟩
      obtain ⟨record, hd, -, bytes, hbytes, -⟩ := hclean.rows id row hlookup
      rw [(decodeRow_eq_ok.mp hd).2.2.2.2.2.2.1] at hbytes
      exact mem_keys_of_lookup (by rw [hbytes]; simp)

/-! ## Corruption -/

theorem call_error {f : Faults} {c : Call} {e : LocalAssetStoreError K} (h : call f c = .error e) :
    ∃ error, e = c.report error := by
  unfold call at h
  split at h
  · cases h
    exact ⟨_, rfl⟩
  · cases h

theorem quarantineEntry_error {f : Faults} {index tries : Nat} {e : LocalAssetStoreError K}
    (h : quarantineEntry f index tries = .error e) : ∃ detail, e = .filesystem detail := by
  induction tries with
  | zero =>
    cases h
    exact ⟨_, rfl⟩
  | succ tries ih =>
    rw [quarantineEntry] at h
    split at h
    · exact ih h
    · cases hcall : call (K := K) f (.rename index) with
      | error e' =>
        rw [hcall] at h
        cases h
        obtain ⟨error, rfl⟩ := call_error hcall
        exact ⟨_, rfl⟩
      | ok u =>
        rw [hcall] at h
        cases h

/-- Once entries are being moved every failure is one of the filesystem. -/
theorem quarantineEntries_error {f : Faults} {fresh : Nat → String} {entry : Nat → Call}
    (hentry : ∀ index error, ∃ detail, (entry index).report (K := K) error = .filesystem detail)
    {published names : List String} {index : Nat} {dir quarantine : Dir} {e : LocalAssetStoreError K}
    (h : (quarantineEntries f fresh entry published index names dir quarantine).1 = .error e) :
    ∃ detail, e = .filesystem detail := by
  fun_induction quarantineEntries f fresh entry published index names dir quarantine with
  | case1 => cases h
  | case2 index name rest dir quarantine e' hcall =>
    cases h
    obtain ⟨error, rfl⟩ := call_error hcall
    exact hentry index error
  | case3 index name rest dir quarantine _ _ ih => exact ih h
  | case4 index name rest dir quarantine _ _ slot node _ _ ih => exact ih h
  | case5 =>
    cases h
    exact ⟨_, rfl⟩
  | case6 index name rest dir quarantine _ _ e' hslot =>
    cases h
    exact quarantineEntry_error hslot

/-- A corruption is found before anything is deleted or moved. -/
theorem recoverStorage_corruption {f : Faults} {fresh : Nat → String} {disk : Disk} {detail : String}
    (h : (recoverStorage K f fresh disk).1 = .error (.corruption detail)) :
    (recoverStorage K f fresh disk).2 = disk := by
  unfold recoverStorage at h ⊢
  split at h
  · rfl
  · rename_i keys ids hload
    split at h
    · rfl
    · rename_i assets hdelete
      split at h
      · rename_i e hcall
        obtain ⟨error, rfl⟩ := call_error hcall
        cases h
      · split at h
        · rename_i e staging quarantine hstaging
          have hfailed : (quarantineEntries (K := K) f fresh .stagingEntry [] 0 disk.files.staging.keys
            disk.files.staging disk.files.quarantine).1 = .error e := by rw [hstaging]
          obtain ⟨d, rfl⟩ := quarantineEntries_error (fun _ _ => ⟨_, rfl⟩) hfailed
          cases h
        · rename_i staging quarantine hstaging
          split at h
          · rename_i e hcall
            obtain ⟨error, rfl⟩ := call_error hcall
            cases h
          · obtain ⟨d, he⟩ := quarantineEntries_error (K := K) (fun _ _ => ⟨_, rfl⟩) h
            cases he

def orphanName (n : Nat) : String := "orphan-" ++ String.ofList (List.replicate n 'a')

theorem orphanName_length (n : Nat) : (orphanName n).length = n + 7 := by
  have hhead : "orphan-".length = 7 := rfl
  simp [orphanName, hhead, Nat.add_comm]

/-- A published asset beside what an interrupted ingest, and others, left behind. -/
def leftovers : Disk where
  assets := ((∅ : AssetTable).insert "bbbbbbbb-asset"
    { sampleRow with blobKey := "bbbbbbbb-asset.blob", publicationState := "staged" }).insert
      "aaaaaaaa-asset" sampleRow
  files :=
    { blobs := ((∅ : Dir).insert "bbbbbbbb-asset.blob" (.file [0x62])).insert "aaaaaaaa-asset.blob" (.file [0x61])
      staging := (∅ : Dir).insert "upload" (.file [0x63])
      quarantine := (∅ : Dir).insert "old" .other }

theorem leftovers_fresh : Fresh orphanName leftovers.files.quarantine := by
  constructor
  · intro a b h
    have hlength := congrArg String.length h
    rw [orphanName_length, orphanName_length] at hlength
    omega
  · intro n
    have hne : orphanName n ≠ "old" := by
      intro h
      have hlength := congrArg String.length h
      rw [orphanName_length, show "old".length = 3 from rfl] at hlength
      omega
    exact AList.lookup_insert_ne hne

end OrbitRelay.AssetStore
