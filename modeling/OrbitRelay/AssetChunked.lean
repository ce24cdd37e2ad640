import OrbitRelay.AssetConcurrent

/-!
# Ingests of a divided stream

One call of `ingest` that nothing disturbs, on a source that may never end. The file
in the staging directory, the bytes given to the hasher and the counted length are
three accumulators; every read moves them together.
-/
namespace OrbitRelay.AssetStore

open Codec MachineInt

variable {K : AssetKernel}

/-- What the `k`-th read of the source gives; nothing when it has ended. -/
abbrev ByteReader := Nat → Bytes

structure StagedWrite where
  file : Bytes
  hashed : Bytes
  length : Nat

structure VerifiedWrite (K : AssetKernel) where
  length : Nat
  hash : K.ContentHash

/-- The loop of `write_staging`, from the `k`-th read on. It returns how many reads were requested. -/
def writeLoop (d : SourceAssetDescriptor K) (reader : ByteReader) :
    Nat → Nat → StagedWrite → Option (Except (LocalAssetStoreError K) Unit × StagedWrite × Nat)
  | 0, _, _ => none
  | fuel + 1, k, w =>
    if reader k = [] then some (.ok (), w, k + 1)
    else match acceptRead d w.length (reader k).length with
      | .error e => some (.error e, w, k + 1)
      | .ok next => writeLoop d reader fuel (k + 1) ⟨w.file ++ reader k, w.hashed ++ reader k, next⟩

def writeStaging (fuel : Nat) (d : SourceAssetDescriptor K) (reader : ByteReader) (name : String) (staging : Dir) :
    Option (Except (LocalAssetStoreError K) (VerifiedWrite K) × Dir × Nat) :=
  if (staging.lookup name).isSome then
    some (.error (.filesystem "staging blob could not be created"), staging, 0)
  else match writeLoop d reader fuel 0 ⟨[], [], 0⟩ with
    | none => none
    | some (.error e, w, reads) => some (.error e, staging.insert name (.file w.file), reads)
    | some (.ok (), w, reads) =>
      some (.ok ⟨w.length, K.sha256 w.hashed⟩, staging.insert name (.file w.file), reads)

/-- `remove_file_if_present` of the staging file. -/
def Disk.removeStagingFile (disk : Disk) (name : String) : Disk :=
  ⟨disk.assets, { disk.files with staging := disk.files.staging.erase name }⟩

/-- The end of `ingest`: the renamed blob is published, or put in quarantine. -/
def publishRenamed (f : Faults) (d : SourceAssetDescriptor K) (orphan : String) (disk : Disk) : Outcome K × Disk :=
  let unstaged := match removeStaged f disk.assets d.assetId with
    | .ok u => u
    | .error _ => disk.assets
  match publishAsset f disk.assets d (blobKey d.assetId) with
  | .ok u => (.ok .inserted, ⟨u, disk.files⟩)
  | .error e =>
    match disk.files.blobs.lookup (blobKey d.assetId) with
    | some node => (.error e, ⟨unstaged, { disk.files with
        blobs := disk.files.blobs.erase (blobKey d.assetId)
        quarantine := disk.files.quarantine.insert orphan node }⟩)
    | none => (.error e, ⟨unstaged, disk.files⟩)

/-- The part of `ingest` after the staging file was written. -/
def publishVerified (f : Faults) (d : SourceAssetDescriptor K) (name orphan : String) (verified : VerifiedWrite K)
    (disk : Disk) : Outcome K × Disk :=
  if verified.length ≠ d.byteLength then
    (.error (.lengthMismatch d.assetId d.byteLength verified.length), disk.removeStagingFile name)
  else if verified.hash ≠ d.contentHash then
    (.error (.hashMismatch d.assetId d.contentHash verified.hash), disk.removeStagingFile name)
  else match stageAsset f disk.assets d (blobKey d.assetId) with
    | .error e => (.error e, disk.removeStagingFile name)
    | .ok (.existing, _) => (.ok .existing, disk.removeStagingFile name)
    | .ok (.inserted, assets) =>
      match disk.files.staging.lookup name with
      | none =>
        let unstaged := match removeStaged f assets d.assetId with
          | .ok u => u
          | .error _ => assets
        (.error (.filesystem "Asset blob rename failed"), Disk.removeStagingFile ⟨unstaged, disk.files⟩ name)
      | some node =>
        publishRenamed f d orphan ⟨assets, { disk.files with
          blobs := disk.files.blobs.insert (blobKey d.assetId) node
          staging := disk.files.staging.erase name }⟩

/-- `ingest` on a disk that no one else uses, whose filesystem does not fail. -/
def ingest (f : Faults) (fuel : Nat) (d : SourceAssetDescriptor K) (reader : ByteReader) (name orphan : String)
    (disk : Disk) : Option (Outcome K × Disk × Nat) :=
  if i64Max < d.byteLength then some (.error (.lengthOverflow d.assetId d.byteLength), disk, 0)
  else match lookupAsset f disk.assets d.assetId with
    | .error e => some (.error e, disk, 0)
    | .ok (some existing) =>
      some (match existing.state with
        | .published => if existing.descriptor = d then .ok .existing else .error (.assetConflict d.assetId)
        | .staged => .error (.assetInProgress d.assetId), disk, 0)
    | .ok none =>
      match writeStaging fuel d reader name disk.files.staging with
      | none => none
      | some (.error e, staging, reads) =>
        some (.error e, Disk.removeStagingFile ⟨disk.assets, { disk.files with staging }⟩ name, reads)
      | some (.ok verified, staging, reads) =>
        let (result, after) := publishVerified f d name orphan verified
          ⟨disk.assets, { disk.files with staging }⟩
        some (result, after, reads)

/-! ## Streams -/

/-- The bytes of the first reads. -/
def received (reader : ByteReader) : Nat → Bytes
  | 0 => []
  | n + 1 => received reader n ++ reader n

/-- The stream that the reads divide: its bytes, or nothing if it never ends. -/
def Delivers (reader : ByteReader) : Option Bytes → Prop
  | some content => ∃ n, reader n = [] ∧ (∀ k, k < n → reader k ≠ []) ∧ received reader n = content
  | none => ∀ k, reader k ≠ []

theorem exists_delivers (reader : ByteReader) : ∃ stream, Delivers reader stream := by
  by_cases h : ∃ n, reader n = []
  · exact ⟨some (received reader (Nat.find h)), Nat.find h, Nat.find_spec h, fun k hk => Nat.find_min h hk, rfl⟩
  · exact ⟨none, fun k hk => h ⟨k, hk⟩⟩

theorem received_mono (reader : ByteReader) {m n : Nat} (h : m ≤ n) :
    (received reader m).length ≤ (received reader n).length := by
  induction n with
  | zero =>
    rw [Nat.le_zero.mp h]
  | succ n ih =>
    rcases Nat.lt_or_ge m (n + 1) with hlt | hge
    · have hshort := ih (by omega)
      rw [received, List.length_append]
      omega
    · rw [Nat.le_antisymm h hge]

/-- The state of the loop after some bytes. -/
def stagedOf (bytes : Bytes) : StagedWrite := ⟨bytes, bytes, bytes.length⟩

/-- Where the loop stops: at the end of the source, or at the read that passes the declared length. -/
inductive Stops (d : SourceAssetDescriptor K) (reader : ByteReader) (n : Nat) :
    Except (LocalAssetStoreError K) Unit → Prop where
  | ended : reader n = [] → Stops d reader n (.ok ())
  | passed : reader n ≠ [] → d.byteLength < (received reader (n + 1)).length →
      Stops d reader n (.error (.lengthMismatch d.assetId d.byteLength (received reader (n + 1)).length))

theorem acceptRead_fits {d : SourceAssetDescriptor K} {length read : Nat} (hd : d.byteLength ≤ i64Max)
    (h : length + read ≤ d.byteLength) : acceptRead d length read = .ok (length + read) := by
  have hfits : length + read ≤ u64Max := by
    simp only [i64Max, u64Max] at *
    omega
  simp [acceptRead, checkedAddU64, hfits, h]

theorem acceptRead_passed {d : SourceAssetDescriptor K} {length read : Nat} (hd : d.byteLength ≤ i64Max)
    (hlength : length ≤ d.byteLength) (hread : read ≤ readBufferSize) (h : d.byteLength < length + read) :
    acceptRead d length read = .error (.lengthMismatch d.assetId d.byteLength (length + read)) := by
  have hfits : length + read ≤ u64Max := by
    simp only [i64Max, u64Max, readBufferSize] at *
    omega
  simp [acceptRead, checkedAddU64, hfits, h]

theorem writeLoop_stops {d : SourceAssetDescriptor K} {reader : ByteReader}
    (hreads : ∀ k, (reader k).length ≤ readBufferSize) (hd : d.byteLength ≤ i64Max) {k : Nat}
    (hk : (received reader k).length ≤ d.byteLength) :
    ∃ n result, k ≤ n ∧ n - k ≤ d.byteLength - (received reader k).length ∧ (∀ j, k ≤ j → j < n → reader j ≠ []) ∧
      (received reader n).length ≤ d.byteLength ∧ Stops d reader n result ∧
      ∀ fuel, n - k < fuel →
        writeLoop d reader fuel k (stagedOf (received reader k)) =
          some (result, stagedOf (received reader n), n + 1) := by
  induction hleft : d.byteLength - (received reader k).length using Nat.strong_induction_on generalizing k with
  | h left ih =>
    by_cases hend : reader k = []
    · refine ⟨k, .ok (), Nat.le_refl k, by omega, by omega, hk, .ended hend, ?_⟩
      intro fuel hfuel
      cases fuel with
      | zero => omega
      | succ fuel => rw [writeLoop, if_pos hend]
    · have hpos := List.length_pos_of_ne_nil hend
      have hread := hreads k
      have hnext : (received reader (k + 1)).length = (received reader k).length + (reader k).length := by
        rw [received, List.length_append]
      by_cases hpass : d.byteLength < (received reader (k + 1)).length
      · refine ⟨k, _, Nat.le_refl k, by omega, by omega, hk, .passed hend hpass, ?_⟩
        intro fuel hfuel
        cases fuel with
        | zero => omega
        | succ fuel =>
          have haccept := acceptRead_passed hd hk hread (hnext ▸ hpass)
          rw [writeLoop, if_neg hend, stagedOf, haccept, hnext]
      · obtain ⟨n, result, hkn, hshort, hmore, hn, hstops, hrun⟩ :=
          ih (d.byteLength - (received reader (k + 1)).length) (by omega) (k := k + 1) (by omega) rfl
        refine ⟨n, result, by omega, by omega, ?_, hn, hstops, ?_⟩
        · intro j hj hjn
          rcases Nat.lt_or_ge k j with hlt | hge
          · exact hmore j hlt hjn
          · rw [Nat.le_antisymm hge hj]
            exact hend
        · intro fuel hfuel
          cases fuel with
          | zero => omega
          | succ fuel =>
            have haccept : acceptRead d (received reader k).length (reader k).length = .ok _ :=
              acceptRead_fits hd (by omega)
            rw [writeLoop, if_neg hend, stagedOf, haccept, ← hnext]
            exact hrun fuel (by omega)

/-! ## One call -/

inductive Kind where
  | inserted | lengthOverflow | lengthMismatch | hashMismatch
  deriving DecidableEq

def Outcome.kind : Outcome K → Option Kind
  | .ok .inserted => some .inserted
  | .error (.lengthOverflow _ _) => some .lengthOverflow
  | .error (.lengthMismatch _ _ _) => some .lengthMismatch
  | .error (.hashMismatch _ _ _) => some .hashMismatch
  | _ => none

/-- What the descriptor says about a stream, however it is divided. -/
def SourceAssetDescriptor.judge (d : SourceAssetDescriptor K) (stream : Option Bytes) : Kind :=
  if i64Max < d.byteLength then .lengthOverflow
  else match stream with
    | none => .lengthMismatch
    | some content =>
      if content.length ≠ d.byteLength then .lengthMismatch
      else if K.sha256 content ≠ d.contentHash then .hashMismatch
      else .inserted

theorem insert_erase {dir : Dir} {name : String} (h : dir.lookup name = none) (node : Node) :
    (dir.insert name node).erase name = dir := by
  have hfresh : name ∉ dir := AList.lookup_eq_none.mp h
  apply AList.ext
  change (dir.insert name node).entries.kerase name = dir.entries
  rw [AList.entries_insert_of_notMem hfresh]
  exact List.kerase_cons_eq rfl

/-- The staging directory is left as it was found. -/
theorem removeStagingFile_insert {disk : Disk} {name : String} (h : disk.files.staging.lookup name = none)
    (node : Node) :
    Disk.removeStagingFile ⟨disk.assets, { disk.files with staging := disk.files.staging.insert name node }⟩ name =
      disk := by
  unfold Disk.removeStagingFile
  rw [insert_erase h]

/-- The result that a stream deserves. -/
inductive Judged (d : SourceAssetDescriptor K) (stream : Option Bytes) : Outcome K → Prop where
  | overflow : i64Max < d.byteLength → Judged d stream (.error (.lengthOverflow d.assetId d.byteLength))
  | inserted (content : Bytes) : d.byteLength ≤ i64Max → stream = some content →
      content.length = d.byteLength → K.sha256 content = d.contentHash → Judged d stream (.ok .inserted)
  | lengthMismatch (actual : Nat) : d.byteLength ≤ i64Max →
      (∀ content, stream = some content → content.length ≠ d.byteLength) →
      Judged d stream (.error (.lengthMismatch d.assetId d.byteLength actual))
  | hashMismatch (content : Bytes) : d.byteLength ≤ i64Max → stream = some content →
      content.length = d.byteLength → K.sha256 content ≠ d.contentHash →
      Judged d stream (.error (.hashMismatch d.assetId d.contentHash (K.sha256 content)))

section judged

variable {d : SourceAssetDescriptor K} {stream : Option Bytes} {result : Outcome K} (h : Judged d stream result)

include h

theorem Judged.overflow_eq (hd : i64Max < d.byteLength) : result = .error (.lengthOverflow d.assetId d.byteLength) := by
  cases h with
  | overflow _ => rfl
  | inserted content hle _ _ _ => omega
  | lengthMismatch actual hle _ => omega
  | hashMismatch content hle _ _ _ => omega

theorem Judged.inserted_iff (hd : d.byteLength ≤ i64Max) : result = .ok .inserted ↔
    ∃ content, stream = some content ∧ content.length = d.byteLength ∧ K.sha256 content = d.contentHash := by
  cases h with
  | overflow hover => omega
  | inserted content _ hstream hlength hhash => exact ⟨fun _ => ⟨content, hstream, hlength, hhash⟩, fun _ => rfl⟩
  | lengthMismatch actual _ hne =>
    exact ⟨nofun, fun ⟨content, hstream, hlength, _⟩ => absurd hlength (hne content hstream)⟩
  | hashMismatch content _ hstream _ hne =>
    refine ⟨nofun, fun ⟨other, hother, _, hhash⟩ => ?_⟩
    cases hstream.symm.trans hother
    exact absurd hhash hne

theorem Judged.lengthMismatch_iff (hd : d.byteLength ≤ i64Max) :
    (∃ actual, result = .error (.lengthMismatch d.assetId d.byteLength actual)) ↔
      ∀ content, stream = some content → content.length ≠ d.byteLength := by
  cases h with
  | overflow hover => omega
  | inserted content _ hstream hlength _ => exact ⟨nofun, fun hne => absurd hlength (hne content hstream)⟩
  | lengthMismatch actual _ hne => exact ⟨fun _ => hne, fun _ => ⟨actual, rfl⟩⟩
  | hashMismatch content _ hstream hlength _ => exact ⟨nofun, fun hne => absurd hlength (hne content hstream)⟩

theorem Judged.hashMismatch_iff (hd : d.byteLength ≤ i64Max) :
    (∃ actual, result = .error (.hashMismatch d.assetId d.contentHash actual)) ↔
      ∃ content, stream = some content ∧ content.length = d.byteLength ∧ K.sha256 content ≠ d.contentHash := by
  cases h with
  | overflow hover => omega
  | inserted content _ hstream _ hhash =>
    refine ⟨nofun, fun ⟨other, hother, _, hne⟩ => ?_⟩
    cases hstream.symm.trans hother
    exact absurd hhash hne
  | lengthMismatch actual _ hne =>
    exact ⟨nofun, fun ⟨content, hstream, hlength, _⟩ => absurd hlength (hne content hstream)⟩
  | hashMismatch content _ hstream hlength hne =>
    exact ⟨fun _ => ⟨content, hstream, hlength, hne⟩, fun _ => ⟨_, rfl⟩⟩

theorem Judged.kind_eq : result.kind = some (d.judge stream) := by
  unfold SourceAssetDescriptor.judge
  cases h with
  | overflow hover => rw [if_pos hover]; rfl
  | inserted content hle hstream hlength hhash =>
    subst hstream
    rw [if_neg (by omega)]
    dsimp only
    rw [if_neg (not_not.mpr hlength), if_neg (not_not.mpr hhash)]
    rfl
  | lengthMismatch actual hle hne =>
    rw [if_neg (by omega)]
    cases stream with
    | none => rfl
    | some content =>
      dsimp only
      rw [if_pos (hne content rfl)]
      rfl
  | hashMismatch content hle hstream hlength hne =>
    subst hstream
    rw [if_neg (by omega)]
    dsimp only
    rw [if_neg (not_not.mpr hlength), if_pos hne]
    rfl

end judged

/-- The courses that a call can take on a disk without a row and a staging file of its own. -/
inductive Course (d : SourceAssetDescriptor K) (reader : ByteReader) (disk : Disk) :
    Outcome K → Disk → Nat → Prop where
  | overflow : i64Max < d.byteLength →
      Course d reader disk (.error (.lengthOverflow d.assetId d.byteLength)) disk 0
  | passed (n : Nat) : d.byteLength ≤ i64Max → (∀ j, j < n → reader j ≠ []) →
      (received reader n).length ≤ d.byteLength → reader n ≠ [] → d.byteLength < (received reader (n + 1)).length →
      Course d reader disk (.error (.lengthMismatch d.assetId d.byteLength (received reader (n + 1)).length)) disk
        (n + 1)
  | refused (n : Nat) (e : LocalAssetStoreError K) : d.byteLength ≤ i64Max → (∀ j, j < n → reader j ≠ []) →
      (received reader n).length ≤ d.byteLength → reader n = [] → verifyWritten d (received reader n) = .error e →
      Course d reader disk (.error e) disk (n + 1)
  | published (n : Nat) : d.byteLength ≤ i64Max → (∀ j, j < n → reader j ≠ []) →
      (received reader n).length ≤ d.byteLength → reader n = [] → verifyWritten d (received reader n) = .ok () →
      Course d reader disk (.ok .inserted)
        ⟨disk.assets.insert (K.assetId.text d.assetId) (encodeRow d d.byteLength (blobKey d.assetId) .published),
          { disk.files with blobs := disk.files.blobs.insert (blobKey d.assetId) (.file (received reader n)) }⟩
        (n + 1)

section course

variable {d : SourceAssetDescriptor K} {reader : ByteReader} {disk after : Disk} {result : Outcome K} {requests : Nat}

theorem verifyWritten_error {content : Bytes} {e : LocalAssetStoreError K} (h : verifyWritten d content = .error e) :
    (content.length ≠ d.byteLength ∧ e = .lengthMismatch d.assetId d.byteLength content.length) ∨
    (content.length = d.byteLength ∧ K.sha256 content ≠ d.contentHash ∧
      e = .hashMismatch d.assetId d.contentHash (K.sha256 content)) := by
  unfold verifyWritten at h
  split at h
  · cases h
    exact .inl ⟨by assumption, rfl⟩
  · rename_i hlength
    split at h
    · cases h
      exact .inr ⟨not_not.mp hlength, by assumption, rfl⟩
    · cases h

theorem Delivers.ended {stream : Option Bytes} (h : Delivers reader stream) {n : Nat} (hend : reader n = [])
    (hmore : ∀ j, j < n → reader j ≠ []) : stream = some (received reader n) := by
  cases stream with
  | none => exact absurd hend (h n)
  | some content =>
    obtain ⟨m, hm, hbefore, rfl⟩ := h
    rcases Nat.lt_trichotomy m n with hlt | heq | hgt
    · exact absurd hm (hmore m hlt)
    · rw [heq]
    · exact absurd hend (hbefore n hgt)

theorem Delivers.longer {content : Bytes} (h : Delivers reader (some content)) {n : Nat}
    (hmore : ∀ j, j < n + 1 → reader j ≠ []) : (received reader (n + 1)).length ≤ content.length := by
  obtain ⟨m, hm, -, rfl⟩ := h
  apply received_mono
  by_contra hlt
  exact hmore m (by omega) hm

theorem Course.judged (h : Course d reader disk result after requests) {stream : Option Bytes}
    (hstream : Delivers reader stream) : Judged d stream result := by
  cases h with
  | overflow hover => exact .overflow hover
  | passed n hd hmore hlength hread hpass =>
    apply Judged.lengthMismatch _ hd
    rintro content rfl hsame
    have hlong := hstream.longer (n := n) (fun j hj => by
      rcases Nat.lt_or_ge j n with hlt | hge
      · exact hmore j hlt
      · rw [show j = n by omega]
        exact hread)
    omega
  | refused n e hd hmore hlength hend hverify =>
    cases hstream.ended hend hmore
    rcases verifyWritten_error hverify with ⟨hne, rfl⟩ | ⟨hsame, hhash, rfl⟩
    · apply Judged.lengthMismatch _ hd
      rintro content ⟨⟩
      exact hne
    · exact .hashMismatch _ hd rfl hsame hhash
  | published n hd hmore hlength hend hverify =>
    obtain ⟨hsame, hhash⟩ := verifyWritten_ok hverify
    exact .inserted _ hd (hstream.ended hend hmore) hsame hhash

theorem Course.unchanged (h : Course d reader disk result after requests) :
    ∀ e, result = .error e → after = disk := by
  cases h with
  | published => nofun
  | _ => exact fun _ _ => rfl

theorem Course.blob (h : Course d reader disk result after requests) {stream : Option Bytes}
    (hstream : Delivers reader stream) (hresult : result = .ok .inserted) (content : Bytes)
    (hcontent : stream = some content) :
    after.files.blobs.lookup (blobKey d.assetId) = some (.file content) := by
  cases h with
  | published n hd hmore hlength hend hverify =>
    cases hcontent.symm.trans (hstream.ended hend hmore)
    exact AList.lookup_insert _
  | _ => cases hresult

theorem Course.requested (h : Course d reader disk result after requests) (n : Nat)
    (hn : d.byteLength < (received reader (n + 1)).length) : requests ≤ n + 1 := by
  have hbound : ∀ m, (received reader m).length ≤ d.byteLength → m + 1 ≤ n + 1 := by
    intro m hm
    by_contra hlt
    have hmono := received_mono reader (show n + 1 ≤ m by omega)
    omega
  cases h with
  | overflow => exact Nat.zero_le _
  | passed m _ _ hm => exact hbound m hm
  | refused m _ _ _ hm => exact hbound m hm
  | published m _ _ hm => exact hbound m hm

end course

section call

variable {d : SourceAssetDescriptor K} {name : String} (orphan : String) {disk : Disk}
  (hrow : disk.assets.lookup (K.assetId.text d.assetId) = none)
  (hname : disk.files.staging.lookup name = none)

include hrow hname

/-- The bytes that the descriptor describes are published. -/
theorem publishVerified_described {content : Bytes} (hd : d.byteLength ≤ i64Max)
    (h : verifyWritten d content = .ok ()) :
    publishVerified Faults.none d name orphan ⟨content.length, K.sha256 content⟩
        ⟨disk.assets, { disk.files with staging := disk.files.staging.insert name (.file content) }⟩ =
      (.ok .inserted, ⟨(disk.assets.insert (K.assetId.text d.assetId)
          (encodeRow d d.byteLength (blobKey d.assetId) .published)),
        { disk.files with blobs := disk.files.blobs.insert (blobKey d.assetId) (.file content) }⟩) := by
  obtain ⟨hlength, hhash⟩ := verifyWritten_ok h
  have hpublish := publishAsset_encoded (toI64_of_le hd)
    (AList.lookup_insert (b := encodeRow d d.byteLength (blobKey d.assetId) .staged) disk.assets)
  rw [AList.insert_insert] at hpublish
  unfold publishVerified
  rw [if_neg (not_not.mpr hlength), if_neg (not_not.mpr hhash)]
  dsimp only
  rw [stageAsset_absent (blobKey d.assetId) hrow hd]
  dsimp only
  rw [AList.lookup_insert]
  dsimp only
  unfold publishRenamed
  dsimp only
  rw [hpublish, insert_erase hname]

omit hrow in
theorem publishVerified_refused {content : Bytes} {e : LocalAssetStoreError K}
    (h : verifyWritten d content = .error e) :
    publishVerified Faults.none d name orphan ⟨content.length, K.sha256 content⟩
        ⟨disk.assets, { disk.files with staging := disk.files.staging.insert name (.file content) }⟩ =
      (.error e, disk) := by
  rcases verifyWritten_error h with ⟨hne, rfl⟩ | ⟨hsame, hhash, rfl⟩
  · rw [publishVerified, if_pos hne, removeStagingFile_insert hname]
  · rw [publishVerified, if_neg (not_not.mpr hsame), if_pos hhash, removeStagingFile_insert hname]

theorem ingest_passed (hd : d.byteLength ≤ i64Max) {reader : ByteReader} {fuel n : Nat}
    {e : LocalAssetStoreError K} {bytes : Bytes}
    (hrun : writeLoop d reader fuel 0 ⟨[], [], 0⟩ = some (.error e, stagedOf bytes, n)) :
    ingest Faults.none fuel d reader name orphan disk = some (.error e, disk, n) := by
  unfold ingest
  rw [if_neg (by omega), lookupAsset_absent hrow]
  dsimp only
  rw [writeStaging, hname, if_neg (by simp), hrun]
  dsimp only
  rw [removeStagingFile_insert hname]

theorem ingest_written (hd : d.byteLength ≤ i64Max) {reader : ByteReader} {fuel n : Nat} {bytes : Bytes}
    (hrun : writeLoop d reader fuel 0 ⟨[], [], 0⟩ = some (.ok (), stagedOf bytes, n)) :
    ingest Faults.none fuel d reader name orphan disk =
      let published := publishVerified Faults.none d name orphan ⟨bytes.length, K.sha256 bytes⟩
        ⟨disk.assets, { disk.files with staging := disk.files.staging.insert name (.file bytes) }⟩
      some (published.1, published.2, n) := by
  unfold ingest
  rw [if_neg (by omega), lookupAsset_absent hrow]
  dsimp only
  rw [writeStaging, hname, if_neg (by simp), hrun]
  rfl

/-- The call ends, whatever the source gives. -/
theorem ingest_course {reader : ByteReader} (hreads : ∀ k, (reader k).length ≤ readBufferSize) :
    ∃ result after requests, Course d reader disk result after requests ∧ ∀ fuel, d.byteLength < fuel →
      ingest Faults.none fuel d reader name orphan disk = some (result, after, requests) := by
  by_cases hover : i64Max < d.byteLength
  · exact ⟨_, disk, 0, .overflow hover, fun fuel _ => if_pos hover⟩
  have hd : d.byteLength ≤ i64Max := by omega
  obtain ⟨n, result, -, hshort, hmore, hlength, hstops, hrun⟩ := writeLoop_stops hreads hd (k := 0) (Nat.zero_le _)
  have hmore' : ∀ j, j < n → reader j ≠ [] := fun j hj => hmore j (Nat.zero_le j) hj
  cases hstops with
  | passed hread hpass =>
    exact ⟨_, disk, n + 1, .passed n hd hmore' hlength hread hpass,
      fun fuel hfuel => ingest_passed orphan hrow hname hd (hrun fuel (by omega))⟩
  | ended hend =>
    have hcall : ∀ fuel, d.byteLength < fuel → ingest Faults.none fuel d reader name orphan disk = _ :=
      fun fuel hfuel => ingest_written orphan hrow hname hd (hrun fuel (by omega))
    cases hverify : verifyWritten d (received reader n) with
    | error e =>
      rw [publishVerified_refused orphan hname hverify] at hcall
      exact ⟨_, disk, n + 1, .refused n e hd hmore' hlength hend hverify, hcall⟩
    | ok _ =>
      rw [publishVerified_described orphan hrow hname hd hverify] at hcall
      exact ⟨_, _, n + 1, .published n hd hmore' hlength hend hverify, hcall⟩

end call

/-- For every descriptor and every stream, divided in any way: the call ends, its result depends on the descriptor and
the stream alone, the published blob is the stream, and an error leaves the disk as it was. -/
theorem ingest_accepts_described (d : SourceAssetDescriptor K) (reader : ByteReader)
    (hreads : ∀ k, (reader k).length ≤ readBufferSize) (stream : Option Bytes) (hstream : Delivers reader stream)
    (name orphan : String) (disk : Disk) (hrow : disk.assets.lookup (K.assetId.text d.assetId) = none)
    (hname : disk.files.staging.lookup name = none) :
    ∃ result after requests, (∀ fuel, d.byteLength < fuel →
        ingest Faults.none fuel d reader name orphan disk = some (result, after, requests)) ∧
      (i64Max < d.byteLength → result = .error (.lengthOverflow d.assetId d.byteLength)) ∧
      (d.byteLength ≤ i64Max →
        (result = .ok .inserted ↔
          ∃ content, stream = some content ∧ content.length = d.byteLength ∧ K.sha256 content = d.contentHash) ∧
        ((∃ actual, result = .error (.lengthMismatch d.assetId d.byteLength actual)) ↔
          ∀ content, stream = some content → content.length ≠ d.byteLength) ∧
        ((∃ actual, result = .error (.hashMismatch d.assetId d.contentHash actual)) ↔
          ∃ content, stream = some content ∧ content.length = d.byteLength ∧ K.sha256 content ≠ d.contentHash)) ∧
      (result = .ok .inserted → ∀ content, stream = some content →
        after.files.blobs.lookup (blobKey d.assetId) = some (.file content)) ∧
      (∀ e, result = .error e → after = disk) ∧
      (∀ n, d.byteLength < (received reader (n + 1)).length → requests ≤ n + 1) ∧
      result.kind = some (d.judge stream) := by
  obtain ⟨result, after, requests, h, hcall⟩ := ingest_course orphan hrow hname hreads
  have hjudged := h.judged hstream
  exact ⟨result, after, requests, hcall, hjudged.overflow_eq,
    fun hd => ⟨hjudged.inserted_iff hd, hjudged.lengthMismatch_iff hd, hjudged.hashMismatch_iff hd⟩,
    h.blob hstream, h.unchanged, h.requested, hjudged.kind_eq⟩

/-- One byte and the end. -/
def sampleReader : ByteReader := fun k => if k = 0 then [0x61] else []

theorem sampleReader_delivers : Delivers sampleReader (some [0x61]) := by
  refine ⟨1, rfl, ?_, rfl⟩
  intro k hk
  rw [Nat.lt_one_iff.mp hk]
  exact List.cons_ne_nil _ _

theorem sampleReader_reads (k : Nat) : (sampleReader k).length ≤ readBufferSize := by
  unfold sampleReader
  split
  · decide
  · exact Nat.zero_le _

theorem ingest_accepts_described_sample :
    ∃ result after requests, (∀ fuel, 1 < fuel →
        ingest Faults.none fuel sampleDescriptor sampleReader "first" "orphan" sampleEmpty.disk =
          some (result, after, requests)) ∧
      result = .ok .inserted ∧
      after.files.blobs.lookup "aaaaaaaa-asset.blob" = some (.file [0x61]) := by
  obtain ⟨result, after, requests, hcall, -, hfits, hblob, -⟩ := ingest_accepts_described sampleDescriptor
    sampleReader sampleReader_reads (some [0x61]) sampleReader_delivers "first" "orphan" sampleEmpty.disk rfl rfl
  have hinserted : result = .ok .inserted := (hfits (by decide)).1.mpr ⟨[0x61], rfl, rfl, by decide⟩
  exact ⟨result, after, requests, hcall, hinserted, hblob hinserted [0x61] rfl⟩

/-! ## The call as a run of the store -/

/-- An ingest that holds the lock of a store whose queue is empty. -/
structure Holds (t : Store K) (i : Nat) (ing : Ingest K) (disk : Disk) : Prop where
  disk : t.disk = disk
  worker : t.worker = some []
  holder : t.holder = some i
  ingest : t.ingests i = some ing
  gen : ing.gen = t.gen
  kept : ing.cancelled = false

variable {t : Store K} {i : Nat} {ing : Ingest K} {disk : Disk} {p : Phase K}

theorem Holds.put (h : Holds t i ing disk) (hp : p.isFinished = false) {u : Store K} (hworker : u.worker = some [])
    (hholder : u.holder = some i) (hgen : u.gen = t.gen) :
    Holds (u.put i { ing with phase := p }) i { ing with phase := p } u.disk where
  disk := rfl
  worker := hworker
  holder := by simp [Store.put, hholder, h.kept, hp]
  ingest := Function.update_self _ _ _
  gen := h.gen.trans hgen.symm
  kept := h.kept

theorem Holds.proceed (h : Holds t i ing disk) (hr : resume ing = some (.become p)) (hp : p.isFinished = false) :
    ∃ u, (system K).Run t u ∧ Holds u i { ing with phase := p } disk := by
  have hput := h.put hp h.worker h.holder rfl
  rw [h.disk] at hput
  exact ⟨_, .single (Step.proceed t i ing p h.ingest h.kept hr), hput⟩

/-- An ingest that may send a command: it holds the lock, or takes it now. -/
structure Poised (t : Store K) (i : Nat) (ing : Ingest K) (disk : Disk) : Prop where
  disk : t.disk = disk
  worker : t.worker = some []
  holder : (ing.phase ≠ .waiting ∧ t.holder = some i) ∨ (ing.phase = .waiting ∧ t.holder = none)
  ingest : t.ingests i = some ing
  gen : ing.gen = t.gen
  kept : ing.cancelled = false

theorem Holds.poised (h : Holds t i ing disk) (hphase : ing.phase ≠ .waiting) : Poised t i ing disk :=
  ⟨h.disk, h.worker, .inl ⟨hphase, h.holder⟩, h.ingest, h.gen, h.kept⟩

/-- A command is sent, executed and answered. -/
theorem Poised.command (h : Poised t i ing disk) {c : Command K} {sent : Phase K}
    {refused : LocalAssetStoreError K → Phase K} (hr : resume ing = some (.send c sent refused))
    {reply : Reply K} {assets : AssetTable}
    (hexecute : execute Faults.none disk.assets c = (reply, assets))
    (hdeliver : ({ ing with phase := sent } : Ingest K).deliver reply = { ing with phase := p })
    (hp : p.isFinished = false) :
    ∃ u, (system K).Run t u ∧ Holds u i { ing with phase := p } ⟨assets, disk.files⟩ := by
  have hsend := Step.send t i ing [] c sent refused h.ingest h.kept hr h.gen h.worker
    (fun hwaiting => (h.holder.resolve_left (fun hp => hp.1 hwaiting)).2)
  generalize hu : ({ t.put i { ing with phase := sent } with
    worker := some ([] ++ [.command i c]), holder := _ } : Store K) = u at hsend
  have hholder : u.holder = some i := by
    subst hu
    dsimp only
    rcases h.holder with ⟨hphase, hholder⟩ | ⟨hphase, -⟩
    · split
      · contradiction
      · exact hholder
    · rw [hphase]
  have hdisk : u.disk = disk := hu ▸ h.disk
  have hgen : u.gen = t.gen := hu ▸ rfl
  have hsent : u.ingests i = some { ing with phase := sent } := hu ▸ Function.update_self _ _ _
  have hwork := Step.work u Faults.none i { ing with phase := sent } c [] (hu ▸ rfl) hsent
  refine ⟨_, (Relation.ReflTransGen.single hsend).tail hwork, ?_⟩
  rw [hdisk, hexecute, hdeliver]
  refine ⟨rfl, rfl, ?_, Function.update_self _ _ _, h.gen.trans hgen.symm, h.kept⟩
  simp [Store.put, hholder, h.kept, hp]

/-- A filesystem operation of the ingest on the disk. -/
theorem Holds.operate (h : Holds t i ing disk) (p : Phase K) (hp : p.isFinished = false) {u : Store K}
    (hstep : Step t (u.put i { ing with phase := p })) (hworker : u.worker = t.worker)
    (hholder : u.holder = t.holder) (hgen : u.gen = t.gen) :
    ∃ v, (system K).Run t v ∧ Holds v i { ing with phase := p } u.disk :=
  ⟨_, .single hstep, h.put hp (hworker.trans h.worker) (hholder.trans h.holder) hgen⟩

/-- The call has returned. -/
structure Returned (t : Store K) (i : Nat) (ing : Ingest K) (result : Outcome K) (disk : Disk) : Prop where
  disk : t.disk = disk
  ingest : t.ingests i = some { ing with phase := .finished result }

theorem Holds.finish (h : Holds t i ing disk) {result : Outcome K} (hr : resume ing = some (.become (.finished result))) :
    ∃ u, (system K).Run t u ∧ Returned u i ing result disk :=
  ⟨_, .single (Step.proceed t i ing _ h.ingest h.kept hr), h.disk, Function.update_self _ _ _⟩

/-- The staging file is removed, and the call returns. -/
theorem Holds.remove (h : Holds t i ing disk) {result : Outcome K} (hphase : ing.phase = .removing result) :
    ∃ u, (system K).Run t u ∧ Returned u i ing result (disk.removeStagingFile ing.name) := by
  refine ⟨_, .single (Step.remove t i ing result h.ingest hphase), ?_, Function.update_self _ _ _⟩
  change Disk.removeStagingFile t.disk ing.name = _
  rw [h.disk]

theorem Holds.create (h : Holds t i ing disk) (hphase : ing.phase = .creating)
    (hname : disk.files.staging.lookup ing.name = none) :
    ∃ u, (system K).Run t u ∧ Holds u i { ing with phase := .writing [] ing.reads }
      ⟨disk.assets, { disk.files with staging := disk.files.staging.insert ing.name (.file []) }⟩ := by
  have hstep := Step.create t i ing h.ingest hphase (by rw [h.disk]; exact hname)
  rw [h.disk, goOn_calm h.kept] at hstep
  have hdone := h.operate (.writing [] ing.reads) rfl hstep rfl rfl rfl
  rw [Store.setStaging, h.disk] at hdone
  exact hdone

theorem Holds.write (h : Holds t i ing disk) (staging : Dir) {written chunk : Bytes} {rest : List (Option Bytes)}
    {length : Nat}
    (hphase : ing.phase = .writing written (some chunk :: rest))
    (haccept : acceptRead ing.descriptor written.length chunk.length = .ok length)
    (hstaging : disk.files.staging = staging.insert ing.name (.file written)) :
    ∃ u, (system K).Run t u ∧ Holds u i { ing with phase := .writing (written ++ chunk) rest }
      ⟨disk.assets, { disk.files with staging := staging.insert ing.name (.file (written ++ chunk)) }⟩ := by
  have hstep := Step.write t i ing written chunk rest length h.ingest hphase haccept
  rw [h.disk, hstaging, AList.lookup_insert, goOn_calm h.kept] at hstep
  dsimp only at hstep
  rw [AList.insert_insert] at hstep
  have hdone := h.operate (.writing (written ++ chunk) rest) rfl hstep rfl rfl rfl
  rw [Store.setStaging, h.disk] at hdone
  exact hdone

theorem Holds.rename (h : Holds t i ing disk) (hphase : ing.phase = .renaming) {node : Node}
    (hnode : disk.files.staging.lookup ing.name = some node) :
    ∃ u, (system K).Run t u ∧ Holds u i { ing with phase := .renamed (.ok ()) }
      ⟨disk.assets, { disk.files with
        blobs := disk.files.blobs.insert ing.key node
        staging := disk.files.staging.erase ing.name }⟩ := by
  have hstep := Step.rename t i ing node h.ingest hphase (by rw [h.disk]; exact hnode)
  rw [h.disk] at hstep
  have hdone := h.operate (.renamed (.ok ())) rfl hstep rfl rfl rfl
  rw [Store.setFiles, h.disk] at hdone
  exact hdone

/-- The reads that were requested, as the ingest of the store has them. -/
def requestedReads (reader : ByteReader) (n : Nat) : List (Option Bytes) :=
  (List.range n).map (fun k => some (reader k))

/-- The loop of `write_staging`, read by read. -/
theorem Holds.writes {reader : ByteReader} {staging : Dir} {n : Nat} {rest : List (Option Bytes)}
    (h : Holds t i { ing with phase := .writing [] (requestedReads reader n ++ rest) }
      ⟨disk.assets, { disk.files with staging := staging.insert ing.name (.file []) }⟩)
    (hd : ing.descriptor.byteLength ≤ i64Max) (hfits : (received reader n).length ≤ ing.descriptor.byteLength) :
    ∃ u, (system K).Run t u ∧ Holds u i { ing with phase := .writing (received reader n) rest }
      ⟨disk.assets, { disk.files with staging := staging.insert ing.name (.file (received reader n)) }⟩ := by
  induction n generalizing rest with
  | zero => exact ⟨t, .refl, h⟩
  | succ n ih =>
    have hreads : requestedReads reader (n + 1) ++ rest = requestedReads reader n ++ (some (reader n) :: rest) := by
      simp [requestedReads, List.range_succ]
    have hlength : (received reader (n + 1)).length = (received reader n).length + (reader n).length := by
      rw [received, List.length_append]
    rw [hreads] at h
    obtain ⟨u, hu, hheld⟩ := ih h (by omega)
    have haccept : acceptRead ing.descriptor (received reader n).length (reader n).length = .ok _ :=
      acceptRead_fits hd (by omega)
    obtain ⟨v, hv, hdone⟩ := hheld.write staging rfl haccept rfl
    exact ⟨v, hu.trans hv, hdone⟩

section run

variable {s : Store K} {d : SourceAssetDescriptor K} {reads : List (Option Bytes)} {name : String}

/-- A store in which nothing is going on, and a new call. -/
structure Idle (s : Store K) (i : Nat) (reads : List (Option Bytes)) (name : String) : Prop where
  worker : s.worker = some []
  holder : s.holder = none
  unused : s.ingests i = none
  names : ∀ j ing, s.ingests j = some ing → ing.name ≠ name
  staging : s.disk.files.staging.lookup name = none
  chunks : ∀ chunk, some chunk ∈ reads → 1 ≤ chunk.length ∧ chunk.length ≤ readBufferSize

def soloIngest (gen : Nat) (d : SourceAssetDescriptor K) (reads : List (Option Bytes)) (name : String)
    (p : Phase K) : Ingest K := ⟨gen, d, reads, name, p, false⟩

theorem Idle.begins (h : Idle s i reads name) (hd : d.byteLength ≤ i64Max) :
    ∃ u, (system K).Run s u ∧ Poised u i (soloIngest s.gen d reads name .waiting) s.disk := by
  have hstep := Step.begin s i s.gen d reads name h.unused (Nat.le_refl _) h.chunks h.names h.staging
  rw [if_neg (by omega)] at hstep
  refine ⟨_, .single hstep, rfl, h.worker, .inr ⟨rfl, ?_⟩, Function.update_self _ _ _, rfl, rfl⟩
  simp [Store.put, h.holder]

/-- Up to the staging file: the lock is taken, and the asset has no row. -/
theorem Idle.creates (h : Idle s i reads name) (hd : d.byteLength ≤ i64Max)
    (hrow : s.disk.assets.lookup (K.assetId.text d.assetId) = none) :
    ∃ u, (system K).Run s u ∧ Holds u i (soloIngest s.gen d reads name (.writing [] reads))
      ⟨s.disk.assets, { s.disk.files with staging := s.disk.files.staging.insert name (.file []) }⟩ := by
  obtain ⟨t₁, h₁, hpoised⟩ := h.begins hd
  have hexecute : execute (K := K) Faults.none s.disk.assets (.lookup d.assetId) = (.lookup (.ok none), s.disk.assets) := by
    simp [execute, lookupAsset_absent hrow]
  obtain ⟨t₂, h₂, hlooked⟩ := hpoised.command (p := .looked (.ok none)) rfl hexecute rfl rfl
  obtain ⟨t₃, h₃, hcreating⟩ := hlooked.proceed rfl rfl
  obtain ⟨t₄, h₄, hwriting⟩ := hcreating.create rfl h.staging
  exact ⟨t₄, h₁.trans (h₂.trans (h₃.trans h₄)), hwriting⟩

/-- Up to the end of the loop. -/
theorem Idle.writes {reader : ByteReader} {n : Nat} {rest : List (Option Bytes)}
    (h : Idle s i (requestedReads reader n ++ rest) name) (hd : d.byteLength ≤ i64Max)
    (hrow : s.disk.assets.lookup (K.assetId.text d.assetId) = none)
    (hfits : (received reader n).length ≤ d.byteLength) :
    ∃ u, (system K).Run s u ∧
      Holds u i (soloIngest s.gen d (requestedReads reader n ++ rest) name (.writing (received reader n) rest))
        ⟨s.disk.assets, { s.disk.files with staging := s.disk.files.staging.insert name (.file (received reader n)) }⟩ := by
  obtain ⟨t, ht, hcreated⟩ := h.creates hd hrow
  let ing := soloIngest s.gen d (requestedReads reader n ++ rest) name .creating
  have hstart : Holds t i { ing with phase := .writing [] (requestedReads reader n ++ rest) }
      ⟨s.disk.assets, { s.disk.files with staging := s.disk.files.staging.insert ing.name (.file []) }⟩ := hcreated
  obtain ⟨u, hu, hwritten⟩ := hstart.writes hd hfits
  exact ⟨u, ht.trans hu, hwritten⟩

/-- The staged bytes are refused. -/
theorem Holds.refuse {content : Bytes} {e : LocalAssetStoreError K}
    (h : Holds t i (soloIngest s.gen d reads name (.writing content []))
      ⟨s.disk.assets, { s.disk.files with staging := s.disk.files.staging.insert name (.file content) }⟩)
    (hname : s.disk.files.staging.lookup name = none) (hverify : verifyWritten d content = .error e) :
    ∃ u, (system K).Run t u ∧ Returned u i (soloIngest s.gen d reads name .waiting) (.error e) s.disk := by
  have hr : resume (soloIngest s.gen d reads name (.writing content [])) = some (.become (.removing (.error e))) := by
    simp [resume, soloIngest, hverify]
  obtain ⟨t₁, h₁, hremoving⟩ := h.proceed hr rfl
  obtain ⟨t₂, h₂, hdone⟩ := hremoving.remove rfl
  exact ⟨t₂, h₁.trans h₂, hdone.disk.trans (removeStagingFile_insert hname _), hdone.ingest⟩

/-- The staged bytes are published. -/
theorem Holds.publish {content : Bytes}
    (h : Holds t i (soloIngest s.gen d reads name (.writing content []))
      ⟨s.disk.assets, { s.disk.files with staging := s.disk.files.staging.insert name (.file content) }⟩)
    (hd : d.byteLength ≤ i64Max) (hrow : s.disk.assets.lookup (K.assetId.text d.assetId) = none)
    (hname : s.disk.files.staging.lookup name = none) (hverify : verifyWritten d content = .ok ()) :
    ∃ u, (system K).Run t u ∧ Returned u i (soloIngest s.gen d reads name .waiting) (.ok .inserted)
      ⟨s.disk.assets.insert (K.assetId.text d.assetId) (encodeRow d d.byteLength (blobKey d.assetId) .published),
        { s.disk.files with blobs := s.disk.files.blobs.insert (blobKey d.assetId) (.file content) }⟩ := by
  have hr : resume (soloIngest s.gen d reads name (.writing content [])) =
      some (.send (.stage d (blobKey d.assetId)) .staging (fun e => .removing (.error e))) := by
    simp [resume, soloIngest, hverify, Ingest.key, Ingest.assetId]
  have hstage : execute Faults.none s.disk.assets (.stage d (blobKey d.assetId)) = (.stage (.ok .inserted),
      s.disk.assets.insert (K.assetId.text d.assetId) (encodeRow d d.byteLength (blobKey d.assetId) .staged)) := by
    simp [execute, stageAsset_absent (blobKey d.assetId) hrow hd]
  obtain ⟨t₁, h₁, hstaged⟩ :=
    (h.poised (fun h => by cases h)).command (p := .stageAnswered (.ok .inserted)) hr hstage rfl rfl
  obtain ⟨t₂, h₂, hrenaming⟩ := hstaged.proceed rfl rfl
  obtain ⟨t₃, h₃, hrenamed⟩ := hrenaming.rename rfl (AList.lookup_insert _)
  have hpublish : execute Faults.none (s.disk.assets.insert (K.assetId.text d.assetId)
        (encodeRow d d.byteLength (blobKey d.assetId) .staged)) (.publish d (blobKey d.assetId)) =
      (.publish (.ok ()), s.disk.assets.insert (K.assetId.text d.assetId)
        (encodeRow d d.byteLength (blobKey d.assetId) .published)) := by
    have hencoded := publishAsset_encoded (toI64_of_le hd)
      (AList.lookup_insert (b := encodeRow d d.byteLength (blobKey d.assetId) .staged) s.disk.assets)
    rw [AList.insert_insert] at hencoded
    simp [execute, hencoded]
  obtain ⟨t₄, h₄, hpublished⟩ :=
    (hrenamed.poised (fun h => by cases h)).command (p := .publishAnswered (.ok ())) rfl hpublish rfl rfl
  obtain ⟨t₅, h₅, hdone⟩ := hpublished.finish rfl
  refine ⟨t₅, h₁.trans (h₂.trans (h₃.trans (h₄.trans h₅))), hdone.disk.trans ?_, hdone.ingest⟩
  have herased : (s.disk.files.staging.insert name (.file content)).erase name = s.disk.files.staging :=
    insert_erase hname _
  simp only [soloIngest, herased, Ingest.key, Ingest.assetId]

/-- A read passes the declared length. -/
theorem Holds.exceed {content chunk : Bytes} {rest : List (Option Bytes)} {e : LocalAssetStoreError K}
    (h : Holds t i (soloIngest s.gen d reads name (.writing content (some chunk :: rest)))
      ⟨s.disk.assets, { s.disk.files with staging := s.disk.files.staging.insert name (.file content) }⟩)
    (hname : s.disk.files.staging.lookup name = none)
    (haccept : acceptRead d content.length chunk.length = .error e) :
    ∃ u, (system K).Run t u ∧ Returned u i (soloIngest s.gen d reads name .waiting) (.error e) s.disk := by
  have hstep := Step.writeFailed t i _ content (some chunk :: rest) e h.ingest rfl (.inl ⟨chunk, rfl, haccept⟩)
  rw [goOn_calm h.kept] at hstep
  obtain ⟨t₁, h₁, hremoving⟩ := h.operate (.removing (.error e)) rfl hstep rfl rfl rfl
  obtain ⟨t₂, h₂, hdone⟩ := hremoving.remove rfl
  rw [h.disk] at hdone
  exact ⟨t₂, h₁.trans h₂, hdone.disk.trans (removeStagingFile_insert hname _), hdone.ingest⟩

end run

/-- What one call does is a run of the store with its worker, in which the call is alone. -/
theorem Course.run {d : SourceAssetDescriptor K} {reader : ByteReader} {s : Store K} {after : Disk}
    {result : Outcome K} {requests : Nat} (h : Course d reader s.disk result after requests)
    (hreads : ∀ k, (reader k).length ≤ readBufferSize) {name : String}
    (hidle : ∀ n, (∀ j, j < n → reader j ≠ []) → Idle s i (requestedReads reader n) name)
    (hrow : s.disk.assets.lookup (K.assetId.text d.assetId) = none) :
    ∃ n u, n ≤ requests ∧ (system K).Run s u ∧
      Returned u i (soloIngest s.gen d (requestedReads reader n) name .waiting) result after := by
  cases h with
  | overflow hover =>
    have hfree := hidle 0 (fun j hj => absurd hj (Nat.not_lt_zero j))
    have hstep := Step.begin s i s.gen d (requestedReads reader 0) name hfree.unused (Nat.le_refl _) hfree.chunks
      hfree.names hfree.staging
    rw [if_pos hover] at hstep
    exact ⟨0, _, Nat.le_refl 0, .single hstep, rfl, Function.update_self _ _ _⟩
  | passed n hd hmore hlength hread hpass =>
    have hmore' : ∀ j, j < n + 1 → reader j ≠ [] := fun j hj => by
      rcases Nat.lt_or_ge j n with hlt | hge
      · exact hmore j hlt
      · rw [show j = n by omega]
        exact hread
    have hfree := hidle (n + 1) hmore'
    have hlast : requestedReads reader (n + 1) = requestedReads reader n ++ [some (reader n)] := by
      simp [requestedReads, List.range_succ]
    have hnext : (received reader (n + 1)).length = (received reader n).length + (reader n).length := by
      rw [received, List.length_append]
    have haccept := acceptRead_passed hd hlength (hreads n) (hnext ▸ hpass)
    rw [hlast] at hfree
    obtain ⟨u, hu, hwritten⟩ := hfree.writes hd hrow hlength
    obtain ⟨v, hv, hdone⟩ := hwritten.exceed hfree.staging haccept
    rw [← hnext, ← hlast] at hdone
    exact ⟨n + 1, v, Nat.le_refl _, hu.trans hv, hdone⟩
  | refused n e hd hmore hlength hend hverify =>
    have hfree := hidle n hmore
    rw [← List.append_nil (requestedReads reader n)] at hfree
    obtain ⟨u, hu, hwritten⟩ := hfree.writes hd hrow hlength
    obtain ⟨v, hv, hdone⟩ := hwritten.refuse hfree.staging hverify
    rw [List.append_nil] at hdone
    exact ⟨n, v, Nat.le_succ n, hu.trans hv, hdone⟩
  | published n hd hmore hlength hend hverify =>
    have hfree := hidle n hmore
    rw [← List.append_nil (requestedReads reader n)] at hfree
    obtain ⟨u, hu, hwritten⟩ := hfree.writes hd hrow hlength
    obtain ⟨v, hv, hdone⟩ := hwritten.publish hd hrow hfree.staging hverify
    rw [List.append_nil] at hdone
    exact ⟨n, v, Nat.le_succ n, hu.trans hv, hdone⟩

end OrbitRelay.AssetStore
