import OrbitRelay.AssetQuarantine

/-!
# Recovery can be interrupted

A recovery that fails, or a process that stops in the middle of one, leaves a disk that
the next recovery takes to the same end. No entry is lost on the way, and no disk that
could be recovered becomes one that cannot.
-/
namespace OrbitRelay.AssetStore

open Codec MachineInt Relational

variable {K : AssetKernel} {disk mid disk' : Disk}

/-! ## Moves compose -/

theorem Moved.refl (files : Files) : Moved files files where
  kept := fun _ _ _ h => h
  moved := by
    refine ⟨fun _ name => name, ?_, ?_⟩
    · intro place name node hnode hgone
      rw [hgone] at hnode
      cases hnode
    · intro place name place' name' hold hgone
      exact absurd hgone hold
  earlier := fun _ _ h => h

/-- The second leg finds the entries of the first in quarantine, so it moves nothing onto them. -/
theorem Moved.trans {files mid files' : Files} (h : Moved files mid) (h' : Moved mid files') : Moved files files' := by
  obtain ⟨hkept, ⟨target, htarget, hinj⟩, hearlier⟩ := h
  obtain ⟨hkept', ⟨target', htarget', hinj'⟩, hearlier'⟩ := h'
  -- an entry that went on the second leg is still there before it
  have hstill : ∀ {place name node}, (files.dir place).lookup name = some node →
      (mid.dir place).lookup name ≠ none → (mid.dir place).lookup name = some node := by
    intro place name node hnode hmid
    obtain ⟨node', hnode'⟩ := Option.ne_none_iff_exists'.mp hmid
    rw [hnode', ← hkept place name node' hnode', hnode]
  have hexists : ∀ {place name}, (files.dir place).lookup name ≠ none →
      ∃ node, (files.dir place).lookup name = some node := Option.ne_none_iff_exists'.mp
  refine ⟨fun place name node hnode => hkept place name node (hkept' place name node hnode),
    ⟨fun place name => if (mid.dir place).lookup name = none then target place name else target' place name, ?_, ?_⟩,
    fun name node hnode => hearlier' name node (hearlier name node hnode)⟩
  · intro place name node hnode hgone
    dsimp only
    by_cases hmid : (mid.dir place).lookup name = none
    · rw [if_pos hmid]
      obtain ⟨hfree, hthere⟩ := htarget place name node hnode hmid
      exact ⟨hfree, hearlier' _ _ hthere⟩
    · rw [if_neg hmid]
      obtain ⟨hfree, hthere⟩ := htarget' place name node (hstill hnode hmid) hgone
      refine ⟨?_, hthere⟩
      cases hold : files.quarantine.lookup (target' place name) with
      | none => rfl
      | some earlier =>
        rw [hearlier _ _ hold] at hfree
        cases hfree
  · intro place name place' name' hold hgone hold' hgone' heq
    dsimp only at heq
    obtain ⟨node, hnode⟩ := hexists hold
    obtain ⟨node', hnode'⟩ := hexists hold'
    by_cases hmid : (mid.dir place).lookup name = none
    · rw [if_pos hmid] at heq
      by_cases hmid' : (mid.dir place').lookup name' = none
      · rw [if_pos hmid'] at heq
        exact hinj place name place' name' hold hmid hold' hmid' heq
      · rw [if_neg hmid'] at heq
        have hthere := (htarget place name node hnode hmid).2
        rw [heq, (htarget' place' name' node' (hstill hnode' hmid') hgone').1] at hthere
        cases hthere
    · rw [if_neg hmid] at heq
      by_cases hmid' : (mid.dir place').lookup name' = none
      · rw [if_pos hmid'] at heq
        have hthere := (htarget place' name' node' hnode' hmid').2
        rw [← heq, (htarget' place name node (hstill hnode hmid) hgone).1] at hthere
        cases hthere
      · rw [if_neg hmid'] at heq
        exact hinj' place name place' name' hmid hgone hmid' hgone' heq

/-- The files, with another content of one directory and of the quarantine. -/
def Files.put (files : Files) (place : Place) (dir quarantine : Dir) : Files :=
  match place with
  | .staging => { files with staging := dir, quarantine := quarantine }
  | .blobs => { files with blobs := dir, quarantine := quarantine }

@[simp] theorem Files.put_dir (files : Files) (place : Place) (dir quarantine : Dir) :
    (files.put place dir quarantine).dir place = dir := by
  cases place <;> rfl

@[simp] theorem Files.put_quarantine (files : Files) (place : Place) (dir quarantine : Dir) :
    (files.put place dir quarantine).quarantine = quarantine := by
  cases place <;> rfl

theorem Files.put_dir_ne (files : Files) {place other : Place} (h : other ≠ place) (dir quarantine : Dir) :
    (files.put place dir quarantine).dir other = files.dir other := by
  cases place with
  | staging =>
    cases other with
    | staging => exact absurd rfl h
    | blobs => rfl
  | blobs =>
    cases other with
    | staging => rfl
    | blobs => exact absurd rfl h

theorem Moved.one (files : Files) (place : Place) {dir quarantine : Dir} {name target : String} {node : Node}
    (hnode : dir.lookup name = some node) (htarget : quarantine.lookup target = none) :
    Moved (files.put place dir quarantine) (files.put place (dir.erase name) (quarantine.insert target node)) := by
  -- only the entry that was moved has gone
  have hgone : ∀ {place' name'}, ((files.put place dir quarantine).dir place').lookup name' ≠ none →
      ((files.put place (dir.erase name) (quarantine.insert target node)).dir place').lookup name' = none →
      place' = place ∧ name' = name := by
    intro place' name' hold hnone
    by_cases hplace : place' = place
    · subst hplace
      rw [Files.put_dir] at hold hnone
      by_cases hname : name' = name
      · exact ⟨rfl, hname⟩
      · rw [AList.lookup_erase_ne hname] at hnone
        exact absurd hnone hold
    · rw [Files.put_dir_ne _ hplace] at hold hnone
      exact absurd hnone hold
  refine ⟨?_, ⟨fun _ _ => target, ?_, ?_⟩, ?_⟩
  · intro place' name' node' hnode'
    by_cases hplace : place' = place
    · subst hplace
      rw [Files.put_dir] at hnode' ⊢
      by_cases hname : name' = name
      · rw [hname, AList.lookup_erase] at hnode'
        cases hnode'
      · rwa [AList.lookup_erase_ne hname] at hnode'
    · rw [Files.put_dir_ne _ hplace] at hnode' ⊢
      exact hnode'
  · intro place' name' node' hnode' hnone
    have hold : ((files.put place dir quarantine).dir place').lookup name' ≠ none := by
      rw [hnode']
      exact Option.some_ne_none node'
    obtain ⟨rfl, rfl⟩ := hgone hold hnone
    rw [Files.put_dir, hnode] at hnode'
    rw [Files.put_quarantine, Files.put_quarantine, AList.lookup_insert]
    exact ⟨htarget, hnode'⟩
  · intro place₁ name₁ place₂ name₂ hold₁ hnone₁ hold₂ hnone₂ _
    obtain ⟨rfl, rfl⟩ := hgone hold₁ hnone₁
    obtain ⟨rfl, rfl⟩ := hgone hold₂ hnone₂
    exact ⟨rfl, rfl⟩
  · intro other node' hnode'
    rw [Files.put_quarantine] at hnode' ⊢
    rw [AList.lookup_insert_ne, hnode']
    rintro rfl
    rw [htarget] at hnode'
    cases hnode'

/-- However a loop ends, what it took away it has moved, and only to names that were its turn. -/
theorem quarantineEntries_moved {f : Faults} {fresh : Nat → String} (hfresh : Function.Injective fresh)
    {entry : Nat → Call} {published : List String} {index : Nat} {names : List String} {dir quarantine : Dir}
    (hunused : ∀ n, 8 * index ≤ n → quarantine.lookup (fresh n) = none)
    {result : Except (LocalAssetStoreError K) Unit} {dir' quarantine' : Dir}
    (h : quarantineEntries f fresh entry published index names dir quarantine = (result, dir', quarantine'))
    (files : Files) (place : Place) :
    Moved (files.put place dir quarantine) (files.put place dir' quarantine') ∧
      ∀ n, 8 * (index + names.length) ≤ n → quarantine'.lookup (fresh n) = none := by
  have hstop : ∀ {count : Nat} n, 8 * (index + count) ≤ n → quarantine.lookup (fresh n) = none :=
    fun n hn => hunused n (by omega)
  fun_induction quarantineEntries f fresh entry published index names dir quarantine with
  | case1 index dir quarantine =>
    cases h
    exact ⟨.refl _, hstop⟩
  | case2 index name rest dir quarantine e _ =>
    cases h
    exact ⟨.refl _, hstop⟩
  | case3 index name rest dir quarantine _ _ ih =>
    obtain ⟨hmoved, hlater⟩ := ih (fun n hn => hunused n (by omega)) h (fun n hn => hunused n (by omega))
    refine ⟨hmoved, fun n hn => hlater n ?_⟩
    rw [List.length_cons] at hn
    omega
  | case4 index name rest dir quarantine _ _ slot node hnode hslot ih =>
    have hturn := quarantineEntry_ok (le_refl 8) hslot
    have hrest : ∀ n, 8 * (index + 1) ≤ n → (quarantine.insert (fresh slot) node).lookup (fresh n) = none := by
      intro n hn
      have hne : n ≠ slot := by omega
      rw [AList.lookup_insert_ne (fun he => hne (hfresh he))]
      exact hunused n (by omega)
    obtain ⟨hmoved, hlater⟩ := ih hrest h (fun n hn => hrest n (by omega))
    refine ⟨(Moved.one files place hnode (hunused slot (by omega))).trans hmoved, fun n hn => hlater n ?_⟩
    rw [List.length_cons] at hn
    omega
  | case5 index name rest dir quarantine _ _ _ _ _ =>
    cases h
    exact ⟨.refl _, hstop⟩
  | case6 index name rest dir quarantine _ _ e _ =>
    cases h
    exact ⟨.refl _, hstop⟩

/-- Whatever fails, recovery moves entries and loses none. -/
theorem recoverStorage_moved (f : Faults) {fresh : Nat → String} (hfresh : Fresh fresh disk.files.quarantine) :
    Moved disk.files (recoverStorage K f fresh disk).2.files := by
  unfold recoverStorage
  cases (do let records ← loadAllRecords (K := K) f disk.assets; classify f disk.files.blobs records) with
  | error e => exact .refl _
  | ok found =>
    obtain ⟨keys, ids⟩ := found
    dsimp only
    cases deleteStagedRows f disk.assets ids with
    | error e => exact .refl _
    | ok assets =>
      dsimp only
      cases call (K := K) f .readStaging with
      | error e => exact .refl _
      | ok u =>
        rcases hstaging : quarantineEntries (K := K) f fresh .stagingEntry [] 0 disk.files.staging.keys
          disk.files.staging disk.files.quarantine with ⟨result, staging, quarantine⟩
        obtain ⟨hmoved, hunused⟩ := quarantineEntries_moved hfresh.injective (fun n _ => hfresh.unused n) hstaging
          disk.files .staging
        cases result with
        | error e => exact hmoved
        | ok u =>
          dsimp only
          cases call (K := K) f .readBlobs with
          | error e => exact hmoved
          | ok u =>
            rcases hblobs : quarantineEntries (K := K) f fresh .blobEntry keys disk.files.staging.keys.length
              disk.files.blobs.keys disk.files.blobs quarantine with ⟨result, blobs, quarantine'⟩
            rw [Nat.zero_add] at hunused
            exact hmoved.trans (quarantineEntries_moved hfresh.injective hunused hblobs
              ⟨disk.files.blobs, staging, quarantine⟩ .blobs).1

/-! ## Disks that can be recovered -/

/-- Every row decodes, and every published blob is intact. -/
def Recoverable (K : AssetKernel) (disk : Disk) : Prop :=
  ∀ id row, disk.assets.lookup id = some row → ∃ record : AssetRecord K, decodeRow id row = .ok record ∧
    (record.state = .published → Verified disk.files.blobs record)

theorem Recoverable.of_classified {f : Faults} {keys : List String} {ids : List K.AssetId}
    (h : (do let records ← loadAllRecords (K := K) f disk.assets; classify f disk.files.blobs records) =
      .ok (keys, ids)) : Recoverable K disk := by
  obtain ⟨records, hrecords, hclassify⟩ := bind_ok h
  obtain ⟨-, -, hverified⟩ := classify_ok hclassify
  intro id row hrow
  obtain ⟨record, hmem, hd⟩ := (loadAllRecords_ok hrecords).1 id row hrow
  exact ⟨record, hd, hverified record hmem⟩

/-- Recovery touches nothing of a disk that it cannot recover. -/
theorem recoverStorage_untouched (f : Faults) (fresh : Nat → String) :
    (recoverStorage K f fresh disk).2 = disk ∨ Recoverable K disk := by
  unfold recoverStorage
  split
  · exact .inl rfl
  · rename_i keys ids hload
    exact .inr (.of_classified hload)

theorem quarantineEntries_none {fresh : Nat → String} {entry : Nat → Call} {published names : List String}
    (hnodup : names.Nodup) (index : Nat) {dir : Dir} (hthere : ∀ name ∈ names, dir.lookup name ≠ none)
    (quarantine : Dir) :
    (quarantineEntries (K := K) Faults.none fresh entry published index names dir quarantine).1 = .ok () := by
  induction names generalizing index dir quarantine with
  | nil => rfl
  | cons name names ih =>
    obtain ⟨hname, hnodup⟩ := List.nodup_cons.mp hnodup
    have hrest : ∀ other ∈ names, dir.lookup other ≠ none :=
      fun other hmem => hthere other (List.mem_cons_of_mem name hmem)
    rw [quarantineEntries]
    dsimp only [call, Faults.none]
    by_cases hpublished : name ∈ published
    · rw [if_pos hpublished]
      exact ih hnodup (index + 1) hrest quarantine
    · rw [if_neg hpublished]
      obtain ⟨node, hnode⟩ := Option.ne_none_iff_exists'.mp (hthere name List.mem_cons_self)
      rw [hnode]
      refine ih hnodup (index + 1) ?_ _
      intro other hmem
      have hne : other ≠ name := by
        rintro rfl
        exact hname hmem
      rw [AList.lookup_erase_ne hne]
      exact hrest other hmem

theorem lookup_of_mem_keys {dir : Dir} {name : String} (h : name ∈ dir.keys) : dir.lookup name ≠ none :=
  fun hnone => AList.lookup_eq_none.mp hnone h

theorem Recoverable.recovers (h : Recoverable K disk) (fresh : Nat → String) :
    (recoverStorage K Faults.none fresh disk).1 = .ok () := by
  obtain ⟨records, hrecords⟩ := loadAllRecords_decoded (K := K) (t := disk.assets) (by
    intro id row hrow
    obtain ⟨record, hd, -⟩ := h id row hrow
    exact ⟨record, hd⟩)
  have hverified : ∀ record ∈ records, record.state = .published → Verified disk.files.blobs record := by
    intro record hmem
    obtain ⟨id, row, hrow, hd⟩ := (loadAllRecords_ok hrecords).2 record hmem
    obtain ⟨record', hd', hv⟩ := h id row hrow
    rw [hd] at hd'
    cases hd'
    exact hv
  obtain ⟨⟨keys, ids⟩, hfound⟩ := classify_verified hverified
  have hdelete : ∃ assets, deleteStagedRows (K := K) Faults.none disk.assets ids = .ok assets := by
    unfold deleteStagedRows
    split
    · exact ⟨_, rfl⟩
    · exact ⟨_, rfl⟩
  obtain ⟨assets, hassets⟩ := hdelete
  have hstaging : (quarantineEntries (K := K) Faults.none fresh .stagingEntry [] 0 disk.files.staging.keys
      disk.files.staging disk.files.quarantine).1 = .ok () :=
    quarantineEntries_none disk.files.staging.keys_nodup 0 (fun _ => lookup_of_mem_keys) disk.files.quarantine
  unfold recoverStorage
  rw [hrecords, ok_bind, hfound]
  dsimp only
  rw [hassets]
  dsimp only [call, Faults.none]
  generalize quarantineEntries (K := K) Faults.none fresh .stagingEntry [] 0 disk.files.staging.keys disk.files.staging
    disk.files.quarantine = moved at hstaging
  obtain ⟨result, staging, quarantine⟩ := moved
  cases hstaging
  exact quarantineEntries_none disk.files.blobs.keys_nodup _ (fun _ => lookup_of_mem_keys) quarantine

theorem recovers_iff (fresh : Nat → String) :
    (recoverStorage K Faults.none fresh disk).1 = .ok () ↔ Recoverable K disk := by
  constructor
  · intro h
    obtain ⟨keys, ids, -, -, -, -, -, hload, -⟩ := recoverStorage_ok h
    exact .of_classified hload
  · exact fun h => h.recovers fresh

/-! ## What an interrupted recovery leaves -/

/-- `disk'` is what recoveries, finished or not, may have made of `disk`. -/
structure Resumes (K : AssetKernel) (disk disk' : Disk) : Prop where
  rows : ∀ id row, disk'.assets.lookup id = some row → disk.assets.lookup id = some row
  published : ∀ id row, disk.assets.lookup id = some row →
    row.publicationState = PublicationState.published.text → disk'.assets.lookup id = some row
  blobs : ∀ id row, disk.assets.lookup id = some row →
    row.publicationState = PublicationState.published.text →
    disk'.files.blobs.lookup row.blobKey = disk.files.blobs.lookup row.blobKey
  moved : Moved disk.files disk'.files
  untouched : disk' = disk ∨ Recoverable K disk

theorem Resumes.refl (K : AssetKernel) (disk : Disk) : Resumes K disk disk :=
  ⟨fun _ _ h => h, fun _ _ h _ => h, fun _ _ _ _ => rfl, .refl _, .inl rfl⟩

theorem Resumes.trans (h : Resumes K disk mid) (h' : Resumes K mid disk') : Resumes K disk disk' where
  rows := fun id row hrow => h.rows id row (h'.rows id row hrow)
  published := fun id row hrow hs => h'.published id row (h.published id row hrow hs) hs
  blobs := fun id row hrow hs => (h'.blobs id row (h.published id row hrow hs) hs).trans (h.blobs id row hrow hs)
  moved := h.moved.trans h'.moved
  untouched := by
    obtain rfl | hrecoverable := h.untouched
    · exact h'.untouched
    · exact .inr hrecoverable

theorem recoverStorage_resumes (f : Faults) {fresh : Nat → String} (hfresh : Fresh fresh disk.files.quarantine) :
    Resumes K disk (recoverStorage K f fresh disk).2 := by
  have huntouched : (recoverStorage K f fresh disk).2 = disk ∨ Recoverable K disk := recoverStorage_untouched f fresh
  obtain hsame | hrecoverable := huntouched
  · rw [hsame]
    exact .refl K disk
  · have hrecovered := (recoverStorage_spec (K := K) f fresh disk).1
    -- a row that says it is published decodes to a published record
    have hrecord : ∀ id row, disk.assets.lookup id = some row →
        row.publicationState = PublicationState.published.text →
        ∃ record : AssetRecord K, decodeRow id row = .ok record ∧ record.state = .published ∧
          record.blobKey = row.blobKey := by
      intro id row hrow hs
      obtain ⟨record, hd, -⟩ := hrecoverable id row hrow
      obtain ⟨-, -, -, -, -, -, hkey, hstate⟩ := decodeRow_eq_ok.mp hd
      rw [hs, text_inj] at hstate
      exact ⟨record, hd, hstate.symm, hkey⟩
    refine ⟨hrecovered.rows, ?_, ?_, recoverStorage_moved f hfresh, .inr hrecoverable⟩
    · intro id row hrow hs
      obtain ⟨record, hd, hpublished, -⟩ := hrecord id row hrow hs
      exact (hrecovered.published id row record hrow hd hpublished).1
    · intro id row hrow hs
      obtain ⟨record, hd, hpublished, hkey⟩ := hrecord id row hrow hs
      rw [← hkey]
      exact (hrecovered.published id row record hrow hd hpublished).2

theorem Resumes.recoverable_iff (h : Resumes K disk mid) : Recoverable K disk ↔ Recoverable K mid := by
  constructor
  · intro hdisk id row hrow
    have hold := h.rows id row hrow
    obtain ⟨record, hd, hverified⟩ := hdisk id row hold
    refine ⟨record, hd, ?_⟩
    intro hs
    obtain ⟨-, -, -, -, -, -, hkey, hstate⟩ := decodeRow_eq_ok.mp hd
    obtain ⟨bytes, hbytes, hv⟩ := hverified hs
    refine ⟨bytes, ?_, hv⟩
    rw [hkey, h.blobs id row hold (by rw [hstate, hs]), ← hkey, hbytes]
  · intro hmid
    obtain rfl | hdisk := h.untouched
    · exact hmid
    · exact hdisk

theorem Resumes.exact (h : Resumes K disk mid) (hexact : Exact K mid disk') : Exact K disk disk' where
  published := fun id row hrow hs => hexact.published id row (h.published id row hrow hs) hs
  rows := fun id row hrow => ⟨h.rows id row (hexact.rows id row hrow).1, (hexact.rows id row hrow).2⟩
  staging := hexact.staging
  blobs := hexact.blobs
  moved := h.moved.trans hexact.moved

/-- The same rows, and the same files where the store reads them. -/
structure SameContents (disk disk' : Disk) : Prop where
  rows : ∀ id, disk.assets.lookup id = disk'.assets.lookup id
  blobs : ∀ name, disk.files.blobs.lookup name = disk'.files.blobs.lookup name
  staging : disk.files.staging = disk'.files.staging

theorem lookup_eq_of_subset {α β : Type} [DecidableEq α] {s t : AList (fun _ : α => β)}
    (hst : ∀ a b, s.lookup a = some b → t.lookup a = some b)
    (hts : ∀ a b, t.lookup a = some b → s.lookup a = some b) (a : α) : s.lookup a = t.lookup a := by
  cases hs : s.lookup a with
  | some b => exact (hst a b hs).symm
  | none =>
    cases ht : t.lookup a with
    | none => rfl
    | some b =>
      rw [hts a b ht] at hs
      cases hs

theorem Exact.rows_subset {once : Disk} (h : Exact K disk once) (h' : Exact K disk disk') (id : String)
    (row : AssetRow) (hrow : once.assets.lookup id = some row) : disk'.assets.lookup id = some row := by
  obtain ⟨hold, record, hd, hs, -⟩ := h.rows id row hrow
  refine h'.published id row hold ?_
  rw [(decodeRow_eq_ok.mp hd).2.2.2.2.2.2.2, hs]

theorem Exact.blobs_subset {once : Disk} (h : Exact K disk once) (h' : Exact K disk disk') (name : String)
    (node : Node) (hnode : once.files.blobs.lookup name = some node) : disk'.files.blobs.lookup name = some node := by
  have hkept := h.moved.kept .blobs name node hnode
  obtain ⟨id, row, hrow, rfl⟩ := (h.blobs name).mp (mem_keys_of_lookup (by rw [hnode]; exact Option.some_ne_none node))
  have hmem : row.blobKey ∈ disk'.files.blobs := (h'.blobs row.blobKey).mpr ⟨id, row, h.rows_subset h' id row hrow, rfl⟩
  obtain ⟨node', hnode'⟩ := Option.ne_none_iff_exists'.mp (lookup_of_mem_keys hmem)
  have hkept' := h'.moved.kept .blobs row.blobKey node' hnode'
  rw [hnode', ← hkept', hkept]

/-- Two finished recoveries of one disk differ at most in the names they gave in quarantine. -/
theorem Exact.same {once : Disk} (h : Exact K disk once) (h' : Exact K disk disk') : SameContents once disk' where
  rows := lookup_eq_of_subset (h.rows_subset h') (h'.rows_subset h)
  blobs := lookup_eq_of_subset (h.blobs_subset h') (h'.blobs_subset h)
  staging := h.staging.trans h'.staging.symm

/-- A recovery that may fail at any call. A process that stops in one leaves what a failure
of the next call leaves. -/
inductive Attempt (K : AssetKernel) (disk : Disk) : Disk → Prop
  | recover (f : Faults) {fresh : Nat → String} : Fresh fresh disk.files.quarantine →
      Attempt K disk (recoverStorage K f fresh disk).2

theorem Attempts.resumes (h : Relation.ReflTransGen (Attempt K) disk mid) : Resumes K disk mid := by
  induction h with
  | refl => exact .refl K disk
  | tail _ hattempt ih =>
    cases hattempt with
    | recover f hfresh => exact ih.trans (recoverStorage_resumes f hfresh)

/-- However often recovery is interrupted, the disk stays as recoverable as it was, and the
recovery that finishes has done what one uninterrupted recovery would have done. -/
theorem recovery_restartable (h : Relation.ReflTransGen (Attempt K) disk mid) :
    (∀ fresh fresh', (recoverStorage K Faults.none fresh disk).1 = .ok () ↔
      (recoverStorage K Faults.none fresh' mid).1 = .ok ()) ∧
    ∀ f fresh, Fresh fresh mid.files.quarantine → (recoverStorage K f fresh mid).1 = .ok () →
      Exact K disk (recoverStorage K f fresh mid).2 ∧
      ∀ f' fresh', Fresh fresh' disk.files.quarantine → (recoverStorage K f' fresh' disk).1 = .ok () →
        SameContents (recoverStorage K f' fresh' disk).2 (recoverStorage K f fresh mid).2 := by
  have hresumes := Attempts.resumes h
  constructor
  · intro fresh fresh'
    rw [recovers_iff, recovers_iff]
    exact hresumes.recoverable_iff
  · intro f fresh hfresh hok
    have hexact := hresumes.exact (recoverStorage_exact hfresh hok)
    exact ⟨hexact, fun f' fresh' hfresh' hok' => (recoverStorage_exact hfresh' hok').same hexact⟩

/-- The directory of blobs cannot be read any more once `staging` has been emptied. -/
def unreadableBlobs : Faults := fun c => if c = .readBlobs then some .other else none

def interrupted : Disk := (recoverStorage textAssets unreadableBlobs orphanName leftovers).2

theorem interrupted_fresh : Fresh (fun n => orphanName (n + 100)) interrupted.files.quarantine := by
  constructor
  · intro a b h
    have hlength := congrArg String.length h
    rw [orphanName_length, orphanName_length] at hlength
    omega
  · intro n
    apply AList.lookup_eq_none.mpr
    intro hmem
    have hshort : ∀ name ∈ interrupted.files.quarantine.keys, name.length < 100 := by decide +kernel
    have hlength := hshort _ hmem
    rw [orphanName_length] at hlength
    omega

theorem recovery_restartable_sample :
    (recoverStorage textAssets unreadableBlobs orphanName leftovers).1 =
      .error (.filesystem "Asset blob directory could not be read") ∧
    interrupted.files.staging.keys = [] ∧ interrupted.files.blobs.keys.length = 2 ∧
    Exact textAssets leftovers (recoverStorage textAssets Faults.none (fun n => orphanName (n + 100)) interrupted).2 := by
  have hattempts : Relation.ReflTransGen (Attempt textAssets) leftovers interrupted :=
    .single (.recover unreadableBlobs leftovers_fresh)
  have hok : (recoverStorage textAssets Faults.none (fun n => orphanName (n + 100)) interrupted).1 = .ok () := by
    decide +kernel
  exact ⟨by decide +kernel, by decide +kernel, by decide +kernel,
    ((recovery_restartable hattempts).2 Faults.none _ interrupted_fresh hok).1⟩

end OrbitRelay.AssetStore
