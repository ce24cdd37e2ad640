import OrbitRelay.AssetIntegrity

/-!
# Ingests side by side

Ingests and reads on the clones of one open store when nothing fails and nobody
gives up. The ingest lock lets one ingest at a time through; what that one has done
so far can be read off its phase, and everything else is settled.
-/
namespace OrbitRelay.AssetStore

open Codec MachineInt Transition

variable {K : AssetKernel}

/-- The source gives exactly the bytes that the descriptor describes. -/
structure Matches (ing : Ingest K) : Prop where
  readable : none ∉ ing.reads
  chunks : ∀ chunk, some chunk ∈ ing.reads → 1 ≤ chunk.length ∧ chunk.length ≤ readBufferSize
  length : ing.content.length = ing.descriptor.byteLength
  hash : K.sha256 ing.content = ing.descriptor.contentHash

/-- The length fits the column that stores it. -/
def Fits (ing : Ingest K) : Prop := ing.descriptor.byteLength ≤ i64Max

instance (ing : Ingest K) : Decidable (Fits ing) := by
  unfold Fits
  infer_instance

def overflowed (ing : Ingest K) : Outcome K :=
  .error (.lengthOverflow ing.assetId ing.descriptor.byteLength)

/-- A call that has not taken the lock, or never will because its length is refused. -/
def Resting (ing : Ingest K) : Prop :=
  ing.phase = if i64Max < ing.descriptor.byteLength then .finished (overflowed ing) else .waiting

/-- A finite set of calls on an open store, for assets that it does not have. -/
structure Start (s : Store K) : Prop where
  finite : ∃ n, ∀ i, n ≤ i → s.ingests i = none
  calls : ∀ i ing, s.ingests i = some ing → ing.cancelled = false ∧ ing.gen = s.gen ∧ Matches ing ∧ Resting ing
  absent : ∀ i ing, s.ingests i = some ing → s.disk.assets.lookup (K.assetId.text ing.assetId) = none
  names : ∀ i j x y, s.ingests i = some x → s.ingests j = some y → x.name = y.name → i = j
  unused : ∀ i ing, s.ingests i = some ing → s.disk.files.staging.lookup ing.name = none
  worker : s.worker = some []
  holder : s.holder = none

/-- The steps of ingests and worker in which nothing fails. -/
inductive Calm : Store K → Store K → Prop where
  | send (s : Store K) (i : Nat) (ing : Ingest K) (q : List (Request K)) (c : Command K)
      (sent : Phase K) (refused : LocalAssetStoreError K → Phase K) :
      s.ingests i = some ing → ing.cancelled = false → resume ing = some (.send c sent refused) →
      ing.gen = s.gen → s.worker = some q → (ing.phase = .waiting → s.holder = none) →
      Calm s { s.put i { ing with phase := sent } with
        worker := some (q ++ [.command i c])
        holder := match ing.phase with
          | .waiting => some i
          | _ => s.holder }
  | proceed (s : Store K) (i : Nat) (ing : Ingest K) (p : Phase K) :
      s.ingests i = some ing → ing.cancelled = false → resume ing = some (.become p) →
      Calm s (s.put i { ing with phase := p })
  | work (s : Store K) (i : Nat) (ing : Ingest K) (c : Command K) (q : List (Request K)) :
      s.worker = some (.command i c :: q) → s.ingests i = some ing →
      Calm s { s.put i (ing.deliver (execute Faults.none s.disk.assets c).1) with
        disk := ⟨(execute Faults.none s.disk.assets c).2, s.disk.files⟩
        worker := some q
        stagedBy := (recordExecution s i ing (execute Faults.none s.disk.assets c).1).1
        origin := (recordExecution s i ing (execute Faults.none s.disk.assets c).1).2 }
  | create (s : Store K) (i : Nat) (ing : Ingest K) : s.ingests i = some ing → ing.phase = .creating →
      s.disk.files.staging.lookup ing.name = none →
      Calm s ((s.setStaging (s.disk.files.staging.insert ing.name (.file []))).put i
        (ing.goOn (.writing [] ing.reads)))
  | write (s : Store K) (i : Nat) (ing : Ingest K) (written chunk : Bytes) (rest : List (Option Bytes))
      (length : Nat) : s.ingests i = some ing → ing.phase = .writing written (some chunk :: rest) →
      acceptRead ing.descriptor written.length chunk.length = .ok length →
      Calm s ((s.setStaging (match s.disk.files.staging.lookup ing.name with
          | some (.file _) => s.disk.files.staging.insert ing.name (.file (written ++ chunk))
          | _ => s.disk.files.staging)).put i
        (ing.goOn (.writing (written ++ chunk) rest)))
  | rename (s : Store K) (i : Nat) (ing : Ingest K) (node : Node) : s.ingests i = some ing →
      ing.phase = .renaming → s.disk.files.staging.lookup ing.name = some node →
      Calm s ((s.setFiles { s.disk.files with
          blobs := s.disk.files.blobs.insert ing.key node
          staging := s.disk.files.staging.erase ing.name }).put i { ing with phase := .renamed (.ok ()) })
  | remove (s : Store K) (i : Nat) (ing : Ingest K) (result : Outcome K) : s.ingests i = some ing →
      ing.phase = .removing result →
      Calm s ((s.setStaging (s.disk.files.staging.erase ing.name)).put i { ing with phase := .finished result })

/-- They are steps of the store. -/
theorem Calm.step {s t : Store K} (h : Calm s t) : Step s t := by
  cases h with
  | send i ing q c sent refused hi hc hr hg hq hw => exact .send s i ing q c sent refused hi hc hr hg hq hw
  | proceed i ing p hi hc hr => exact .proceed s i ing p hi hc hr
  | work i ing c q hq hi => exact .work s Faults.none i ing c q hq hi
  | create i ing hi hp hn => exact .create s i ing hi hp hn
  | write i ing written chunk rest length hi hp ha => exact .write s i ing written chunk rest length hi hp ha
  | rename i ing node hi hp hn => exact .rename s i ing node hi hp hn
  | remove i ing result hi hp => exact .remove s i ing result hi hp

/-- The lookups of `get_asset` and `read_range`, whose callers are no ingests. -/
inductive Read : Store K → Store K → Prop where
  | ask (s : Store K) (r : Nat) (a : K.AssetId) (q : List (Request K)) : s.ingests r = none →
      s.worker = some q → Read s { s with worker := some (q ++ [.command r (.lookup a)]) }
  | answer (s : Store K) (r : Nat) (a : K.AssetId) (q : List (Request K)) : s.ingests r = none →
      s.worker = some (.command r (.lookup a) :: q) → Read s { s with worker := some q }

def calmSystem (K : AssetKernel) : System (Store K) where
  init := Start
  step s t := Calm s t ∨ Read s t

/-- What an ingest of an asset with this descriptor is told. -/
def verdict (ing : Ingest K) (d : SourceAssetDescriptor K) : Outcome K :=
  if d = ing.descriptor then .ok .existing else .error (.assetConflict ing.assetId)

/-! ## Settled assets -/

/-- The asset is published as this ingest described it, with the bytes that it read. -/
def Stored (s : Store K) (ing : Ingest K) : Prop :=
  ∃ row, s.disk.assets.lookup (K.assetId.text ing.assetId) = some row ∧
    decodeRow (K.assetId.text ing.assetId) row = .ok ⟨ing.descriptor, ing.key, .published⟩ ∧
    s.disk.files.blobs.lookup ing.key = some (.file ing.content)

/-- Nobody but `x` has had the lock for this asset yet. -/
def Alone (s : Store K) (x : Option Nat) (a : K.AssetId) : Prop :=
  ∀ j ing, s.ingests j = some ing → ing.assetId = a → some j ≠ x → Resting ing

def Untouched (s : Store K) (x : Option Nat) (a : K.AssetId) : Prop :=
  s.disk.assets.lookup (K.assetId.text a) = none ∧ Alone s x a

/-- Ingest `w` has published the asset and every other one but `x` was judged by that. -/
structure Won (s : Store K) (x : Option Nat) (a : K.AssetId) (w : Nat) (winner : Ingest K) : Prop where
  ingest : s.ingests w = some winner
  other : some w ≠ x
  asset : winner.assetId = a
  fits : Fits winner
  inserted : winner.phase = .finished (.ok .inserted)
  stored : Stored s winner
  judged : ∀ j ing, s.ingests j = some ing → ing.assetId = a → j ≠ w → some j ≠ x →
    Resting ing ∨ Fits ing ∧ ing.phase = .finished (verdict ing winner.descriptor)

def Settled (s : Store K) (x : Option Nat) (a : K.AssetId) : Prop :=
  Untouched s x a ∨ ∃ w winner, Won s x a w winner

/-- The row that the holder of the lock has staged. -/
def Staged (s : Store K) (ing : Ingest K) : Prop :=
  ∃ n, toI64 ing.descriptor.byteLength = some n ∧
    s.disk.assets.lookup (K.assetId.text ing.assetId) = some (encodeRow ing.descriptor n ing.key .staged)

def HasFile (s : Store K) (ing : Ingest K) (bytes : Bytes) : Prop :=
  s.disk.files.staging.lookup ing.name = some (.file bytes)

def HasBlob (s : Store K) (ing : Ingest K) : Prop :=
  s.disk.files.blobs.lookup ing.key = some (.file ing.content)

/-- How far the holder of the lock is. The other phases are those of failures. -/
def At (s : Store K) (i : Nat) (ing : Ingest K) : Prop :=
  match ing.phase with
  | .looking => Settled s (some i) ing.assetId ∧ s.disk.files.staging.lookup ing.name = none
  | .looked r =>
    (r = .ok none ∧ Untouched s (some i) ing.assetId ∧ s.disk.files.staging.lookup ing.name = none) ∨
    ∃ w winner, Won s (some i) ing.assetId w winner ∧ r = .ok (some ⟨winner.descriptor, winner.key, .published⟩)
  | .creating => Untouched s (some i) ing.assetId ∧ s.disk.files.staging.lookup ing.name = none
  | .writing written rest => Untouched s (some i) ing.assetId ∧ HasFile s ing written ∧
      none ∉ rest ∧ written ++ streamed rest = ing.content
  | .staging => Untouched s (some i) ing.assetId ∧ HasFile s ing ing.content
  | .stageAnswered r => r = .ok .inserted ∧ Alone s (some i) ing.assetId ∧ Staged s ing ∧
      HasFile s ing ing.content
  | .renaming => Alone s (some i) ing.assetId ∧ Staged s ing ∧ HasFile s ing ing.content
  | .renamed r => r = .ok () ∧ Alone s (some i) ing.assetId ∧ Staged s ing ∧ HasBlob s ing
  | .publishing => Alone s (some i) ing.assetId ∧ Staged s ing ∧ HasBlob s ing
  | .publishAnswered r => r = .ok () ∧ Alone s (some i) ing.assetId ∧ Stored s ing
  | _ => False

/-! ## The queue -/

/-- The commands of ingests among the requests. -/
def owned (s : Store K) : Request K → Option (Nat × Command K)
  | .command i c => if (s.ingests i).isSome then some (i, c) else none
  | .shutdown => none

/-- The command that the holder of the lock waits for. -/
def pending (s : Store K) : List (Nat × Command K) :=
  match s.holder with
  | none => []
  | some i => ((s.ingests i).bind awaited).toList.map (fun c => (i, c))

structure Queued (s : Store K) (q : List (Request K)) : Prop where
  commands : q.filterMap (owned s) = pending s
  reads : ∀ r ∈ q, r ≠ .shutdown ∧ ∀ j c, r = .command j c → s.ingests j = none → ∃ a, c = .lookup a

structure Inv (s : Store K) : Prop where
  calls : ∀ i ing, s.ingests i = some ing → ing.cancelled = false ∧ ing.gen = s.gen ∧ Matches ing
  names : ∀ i j x y, s.ingests i = some x → s.ingests j = some y → x.name = y.name → i = j
  unused : ∀ i ing, s.ingests i = some ing → ing.phase = .waiting →
    s.disk.files.staging.lookup ing.name = none
  queue : ∃ q, s.worker = some q ∧ Queued s q
  settled : ∀ j y, s.ingests j = some y →
    (∀ i ing, s.holder = some i → s.ingests i = some ing → ing.assetId ≠ y.assetId) → Settled s none y.assetId
  held : ∀ i, s.holder = some i → ∃ ing, s.ingests i = some ing ∧ Fits ing ∧ At s i ing

variable {s t : Store K} {i : Nat} {ing : Ingest K} {a : K.AssetId} {x : Option Nat}

/-! ## Frames -/

/-- The ingests of one asset are the same in both states, but for `x`. -/
def SameIngests (s t : Store K) (x : Option Nat) (a : K.AssetId) : Prop :=
  ∀ j ing, ing.assetId = a → some j ≠ x → (t.ingests j = some ing ↔ s.ingests j = some ing)

/-- So are its row and its blob. -/
structure SameAsset (s t : Store K) (x : Option Nat) (a : K.AssetId) : Prop where
  ingests : SameIngests s t x a
  row : t.disk.assets.lookup (K.assetId.text a) = s.disk.assets.lookup (K.assetId.text a)
  blob : t.disk.files.blobs.lookup (blobKey a) = s.disk.files.blobs.lookup (blobKey a)

theorem Alone.frame (h : Alone s x a) (hsame : SameIngests s t x a) : Alone t x a := by
  intro j ing hj ha hx
  exact h j ing ((hsame j ing ha hx).mp hj) ha hx

theorem Untouched.frame (h : Untouched s x a) (hsame : SameAsset s t x a) : Untouched t x a :=
  ⟨hsame.row.trans h.1, h.2.frame hsame.ingests⟩

theorem Stored.frame (h : Stored s ing)
    (hrow : t.disk.assets.lookup (K.assetId.text ing.assetId) = s.disk.assets.lookup (K.assetId.text ing.assetId))
    (hblob : t.disk.files.blobs.lookup ing.key = s.disk.files.blobs.lookup ing.key) : Stored t ing := by
  obtain ⟨row, hlookup, hd, hbytes⟩ := h
  exact ⟨row, hrow.trans hlookup, hd, hblob.trans hbytes⟩

theorem Won.frame {w : Nat} {winner : Ingest K} (h : Won s x a w winner) (hsame : SameAsset s t x a) :
    Won t x a w winner := by
  obtain ⟨hw, hother, rfl, hfits, hinserted, hstored, hjudged⟩ := h
  refine ⟨(hsame.ingests w winner rfl hother).mpr hw, hother, rfl, hfits, hinserted,
    hstored.frame hsame.row hsame.blob, ?_⟩
  intro j ing hj ha hne hx
  exact hjudged j ing ((hsame.ingests j ing ha hx).mp hj) ha hne hx

theorem Settled.frame (h : Settled s x a) (hsame : SameAsset s t x a) : Settled t x a := by
  rcases h with h | ⟨w, winner, h⟩
  · exact .inl (h.frame hsame)
  · exact .inr ⟨w, winner, h.frame hsame⟩

/-- Who has just taken the lock is an exception from now on. -/
theorem Settled.except (h : Settled s none a) (hi : s.ingests i = some ing) (hwaiting : ing.phase = .waiting) :
    Settled s (some i) a := by
  rcases h with ⟨hrow, hal⟩ | ⟨w, winner, hw⟩
  · exact .inl ⟨hrow, fun j x hj ha _ => hal j x hj ha (by simp)⟩
  · refine .inr ⟨w, winner, hw.ingest, ?_, hw.asset, hw.fits, hw.inserted, hw.stored, ?_⟩
    · intro he
      cases he
      have hphase := hw.inserted
      rw [Option.some.inj (hw.ingest.symm.trans hi), hwaiting] at hphase
      cases hphase
    · intro j x hj ha hne _
      exact hw.judged j x hj ha hne (by simp)

theorem Staged.frame (h : Staged s ing) (hsame : SameAsset s t x ing.assetId) : Staged t ing := by
  obtain ⟨n, hn, hrow⟩ := h
  exact ⟨n, hn, hsame.row.trans hrow⟩

theorem At.frame (h : At s i ing) (hsame : SameAsset s t (some i) ing.assetId)
    (hfile : t.disk.files.staging.lookup ing.name = s.disk.files.staging.lookup ing.name) : At t i ing := by
  unfold At at h ⊢
  split at h
  · exact ⟨h.1.frame hsame, hfile.trans h.2⟩
  · rcases h with ⟨hr, h, hnone⟩ | ⟨w, winner, hw, hr⟩
    · exact .inl ⟨hr, h.frame hsame, hfile.trans hnone⟩
    · exact .inr ⟨w, winner, hw.frame hsame, hr⟩
  · exact ⟨h.1.frame hsame, hfile.trans h.2⟩
  · exact ⟨h.1.frame hsame, hfile.trans h.2.1, h.2.2⟩
  · exact ⟨h.1.frame hsame, hfile.trans h.2⟩
  · exact ⟨h.1, h.2.1.frame hsame.ingests, h.2.2.1.frame hsame, hfile.trans h.2.2.2⟩
  · exact ⟨h.1.frame hsame.ingests, h.2.1.frame hsame, hfile.trans h.2.2⟩
  · exact ⟨h.1, h.2.1.frame hsame.ingests, h.2.2.1.frame hsame, hsame.blob.trans h.2.2.2⟩
  · exact ⟨h.1.frame hsame.ingests, h.2.1.frame hsame, hsame.blob.trans h.2.2⟩
  · exact ⟨h.1, h.2.1.frame hsame.ingests, h.2.2.frame hsame.row hsame.blob⟩
  · exact h.elim

/-- One ingest, which has the lock, moves on: its row, its blob and its staging file
are all that may change with it. -/
structure Own (s t : Store K) (i : Nat) (ing : Ingest K) (p : Phase K) : Prop where
  ingest : s.ingests i = some ing
  ingests : t.ingests = Function.update s.ingests i (some { ing with phase := p })
  gen : t.gen = s.gen
  rows : ∀ b, b ≠ ing.assetId →
    t.disk.assets.lookup (K.assetId.text b) = s.disk.assets.lookup (K.assetId.text b)
  blobs : ∀ b, b ≠ ing.assetId → t.disk.files.blobs.lookup (blobKey b) = s.disk.files.blobs.lookup (blobKey b)
  staging : ∀ name, name ≠ ing.name → t.disk.files.staging.lookup name = s.disk.files.staging.lookup name

variable {p : Phase K}

theorem Own.self (h : Own s t i ing p) : t.ingests i = some { ing with phase := p } := by
  rw [h.ingests, Function.update_self]

theorem Own.sameIngests (h : Own s t i ing p) (a : K.AssetId) : SameIngests s t (some i) a := by
  intro j x _ hx
  have hne : j ≠ i := fun he => hx (by rw [he])
  rw [h.ingests, Function.update_of_ne hne]

/-- Other assets do not notice. -/
theorem Own.sameAsset (h : Own s t i ing p) (ha : a ≠ ing.assetId) : SameAsset s t none a := by
  refine ⟨?_, h.rows a ha, h.blobs a ha⟩
  intro j x hx _
  by_cases hj : j = i
  · subst hj
    rw [h.self, h.ingest]
    constructor
    · intro he
      cases he
      exact absurd hx (Ne.symm ha)
    · intro he
      cases he
      exact absurd hx (Ne.symm ha)
  · rw [h.ingests, Function.update_of_ne hj]

theorem Own.ingest_of {j : Nat} {y : Ingest K} (h : Own s t i ing p) (hj : t.ingests j = some y) :
    ∃ y', s.ingests j = some y' ∧ y.gen = y'.gen ∧ y.name = y'.name ∧ y.descriptor = y'.descriptor ∧
      y.reads = y'.reads ∧ y.cancelled = y'.cancelled ∧ (j ≠ i → y = y') ∧ (j = i → y.phase = p) := by
  by_cases hji : j = i
  · subst hji
    rw [h.self] at hj
    cases hj
    exact ⟨ing, h.ingest, rfl, rfl, rfl, rfl, rfl, fun hne => absurd rfl hne, fun _ => rfl⟩
  · rw [h.ingests, Function.update_of_ne hji] at hj
    exact ⟨y, hj, rfl, rfl, rfl, rfl, rfl, fun _ => rfl, fun he => absurd he hji⟩

theorem Own.isSome (h : Own s t i ing p) (j : Nat) : (t.ingests j).isSome = (s.ingests j).isSome := by
  rw [h.ingests]
  by_cases hj : j = i
  · subst hj
    rw [Function.update_self, h.ingest]
    rfl
  · rw [Function.update_of_ne hj]

theorem Own.owned (h : Own s t i ing p) : owned t = owned s := by
  funext r
  cases r with
  | command j c => simp only [AssetStore.owned, h.isSome j]
  | shutdown => rfl

theorem Own.none_iff (h : Own s t i ing p) (j : Nat) : t.ingests j = none ↔ s.ingests j = none := by
  rw [← Option.not_isSome_iff_eq_none, h.isSome j, Option.not_isSome_iff_eq_none]

/-- The holder of the lock moves on, or leaves the lock with its asset settled. -/
theorem Inv.own (hs : Inv s) (h : Own s t i ing p) (hholder : ∀ j, s.holder = some j → j = i)
    (hfits : Fits ing) (hp : p ≠ .waiting) (hqueue : ∃ q, t.worker = some q ∧ Queued t q)
    (hnext : (t.holder = some i ∧ At t i { ing with phase := p }) ∨
      (t.holder = none ∧ Settled t none ing.assetId)) : Inv t where
  calls := by
    intro j y hj
    obtain ⟨y', hy', hgen, hname, hdesc, hreads, hcancel, -⟩ := h.ingest_of hj
    obtain ⟨hc, hg, hm⟩ := hs.calls j y' hy'
    refine ⟨hcancel.trans hc, by rw [hgen, hg, h.gen], ?_⟩
    obtain ⟨h₁, h₂, h₃, h₄⟩ := hm
    unfold Ingest.content at h₃ h₄
    constructor
    · rwa [hreads]
    · rwa [hreads]
    · rwa [Ingest.content, hreads, hdesc]
    · rwa [Ingest.content, hreads, hdesc]
  names := by
    intro j k y z hj hk hname
    obtain ⟨y', hy', -, hy, -⟩ := h.ingest_of hj
    obtain ⟨z', hz', -, hz, -⟩ := h.ingest_of hk
    exact hs.names j k y' z' hy' hz' (by rw [← hy, ← hz, hname])
  unused := by
    intro j y hj hwaiting
    obtain ⟨y', hy', -, hname, -, -, -, hother, hself⟩ := h.ingest_of hj
    by_cases hji : j = i
    · rw [hself hji] at hwaiting
      exact absurd hwaiting hp
    · obtain rfl := hother hji
      have hne : y.name ≠ ing.name := fun he => hji (hs.names j i y ing hy' h.ingest he)
      rw [h.staging y.name hne]
      exact hs.unused j y hy' hwaiting
  queue := hqueue
  settled := by
    intro j y hj hy
    obtain ⟨y', hy', -, -, hdesc, -⟩ := h.ingest_of hj
    have hasset : y'.assetId = y.assetId := by rw [Ingest.assetId, Ingest.assetId, hdesc]
    have hold : y.assetId ≠ ing.assetId → Settled t none y.assetId := by
      intro hne
      rw [← hasset] at hne ⊢
      refine (hs.settled j y' hy' ?_).frame (h.sameAsset hne)
      intro k z hk hz
      obtain rfl := hholder k hk
      rw [Option.some.inj (hz.symm.trans h.ingest)]
      exact Ne.symm hne
    rcases hnext with ⟨hheld, -⟩ | ⟨-, hsettled⟩
    · exact hold (fun he => hy i _ hheld h.self he.symm)
    · by_cases hne : y.assetId = ing.assetId
      · rw [hne]
        exact hsettled
      · exact hold hne
  held := by
    intro j hj
    rcases hnext with ⟨hheld, hat⟩ | ⟨hnone, -⟩
    · rw [hheld] at hj
      cases hj
      exact ⟨_, h.self, hfits, hat⟩
    · rw [hnone] at hj
      cases hj

/-! ## What the queue holds -/

theorem pending_held (hh : s.holder = some i) (hi : s.ingests i = some ing) :
    pending s = (awaited ing).toList.map (fun c => (i, c)) := by
  rw [pending, hh]
  simp only [hi, Option.bind_some]

/-- A move that leaves the queue alone, from a phase that waits for no reply to another. -/
theorem Queued.own {q : List (Request K)} (hq : Queued s q) (h : Own s t i ing p) (hh : s.holder = some i)
    (hnone : awaited ing = none)
    (hpending : pending t = []) : Queued t q := by
  constructor
  · rw [h.owned, hq.commands, pending_held hh h.ingest, hnone, hpending]
    rfl
  · intro r hr
    refine ⟨(hq.reads r hr).1, fun j c hc hj => (hq.reads r hr).2 j c hc ((h.none_iff j).mp hj)⟩

/-- A command is sent. -/
theorem Queued.send {q : List (Request K)} {c : Command K} (hq : Queued s q) (h : Own s t i ing p)
    (hempty : pending s = []) (hh : t.holder = some i) (hawaited : awaited { ing with phase := p } = some c) :
    Queued t (q ++ [.command i c]) := by
  have hsome : (s.ingests i).isSome = true := by
    rw [h.ingest]
    rfl
  constructor
  · rw [h.owned, List.filterMap_append, hq.commands, hempty, pending_held hh h.self, hawaited]
    simp [owned, hsome]
  · intro r hr
    rcases List.mem_append.mp hr with hr | hr
    · exact ⟨(hq.reads r hr).1, fun j c hc hj => (hq.reads r hr).2 j c hc ((h.none_iff j).mp hj)⟩
    · rw [List.mem_singleton] at hr
      subst hr
      refine ⟨nofun, ?_⟩
      intro j c' hc hj
      cases hc
      rw [h.self] at hj
      cases hj

/-- A command of an ingest that reaches the worker is the one that the holder waits for. -/
theorem Queued.head {q : List (Request K)} {c : Command K} (hq : Queued s (.command i c :: q))
    (hi : s.ingests i = some ing) : s.holder = some i ∧ awaited ing = some c ∧ q.filterMap (owned s) = [] := by
  have howned := hq.commands
  rw [List.filterMap_cons_some (b := (i, c)) (by simp [owned, hi])] at howned
  unfold pending at howned
  cases hholder : s.holder with
  | none =>
    rw [hholder] at howned
    cases howned
  | some j =>
    rw [hholder] at howned
    cases hj : (s.ingests j).bind awaited with
    | none =>
      simp only [hj] at howned
      cases howned
    | some c' =>
      simp only [hj, Option.toList_some, List.map_cons, List.map_nil, List.cons.injEq, Prod.mk.injEq] at howned
      obtain ⟨⟨rfl, rfl⟩, hrest⟩ := howned
      rw [hi, Option.bind_some] at hj
      exact ⟨rfl, hj, hrest⟩

theorem Queued.work {q : List (Request K)} {c : Command K} (hq : Queued s (.command i c :: q))
    (h : Own s t i ing p) (hpending : pending t = []) : Queued t q := by
  constructor
  · rw [h.owned, (hq.head h.ingest).2.2, hpending]
  · intro r hr
    have hreads := hq.reads r (List.mem_cons_of_mem _ hr)
    exact ⟨hreads.1, fun j c hc hj => hreads.2 j c hc ((h.none_iff j).mp hj)⟩

theorem pending_none (h : s.holder = none) : pending s = [] := by
  rw [pending, h]

/-! ## Who has the lock -/

/-- What an ingest is that does not have the lock. -/
def Rests (ing : Ingest K) : Prop :=
  Resting ing ∨ ing.phase = .finished (.ok .inserted) ∨ ∃ d, ing.phase = .finished (verdict ing d)

theorem Rests.idle (h : Rests ing) : ing.phase = .waiting ∨ ing.phase.isFinished = true := by
  rcases h with h | h | ⟨d, h⟩
  · unfold Resting at h
    split at h
    · exact .inr (by rw [h]; rfl)
    · exact .inl h
  · exact .inr (by rw [h]; rfl)
  · exact .inr (by rw [h]; rfl)

theorem Settled.rests (h : Settled s x a) (hi : s.ingests i = some ing) (ha : ing.assetId = a)
    (hx : some i ≠ x) : Rests ing := by
  rcases h with ⟨-, hal⟩ | ⟨w, winner, hw⟩
  · exact .inl (hal i ing hi ha hx)
  · by_cases he : i = w
    · subst he
      rw [Option.some.inj (hi.symm.trans hw.ingest)]
      exact .inr (.inl hw.inserted)
    · rcases hw.judged i ing hi ha he hx with h | ⟨-, h⟩
      · exact .inl h
      · exact .inr (.inr ⟨_, h⟩)

/-- So are the other ingests of the asset that the holder of the lock is about. -/
theorem At.rests {j : Nat} {y : Ingest K} (h : At s j y) (hi : s.ingests i = some ing)
    (ha : ing.assetId = y.assetId) (hne : i ≠ j) : Rests ing := by
  have hx : some i ≠ some j := fun he => hne (Option.some.inj he)
  have halone : Alone s (some j) y.assetId → Rests ing := fun hal => .inl (hal i ing hi ha hx)
  unfold At at h
  split at h
  · exact h.1.rests hi ha hx
  · rcases h with ⟨-, h, -⟩ | ⟨w, winner, h, -⟩
    · exact halone h.2
    · exact Settled.rests (.inr ⟨w, winner, h⟩) hi ha hx
  · exact halone h.1.2
  · exact halone h.1.2
  · exact halone h.1.2
  · exact halone h.2.1
  · exact halone h.1
  · exact halone h.2.1
  · exact halone h.1
  · exact halone h.2.1
  · exact h.elim

theorem Inv.rests (hs : Inv s) (hi : s.ingests i = some ing) (hh : s.holder ≠ some i) : Rests ing := by
  cases hholder : s.holder with
  | none => exact (hs.settled i ing hi (by simp [hholder])).rests hi rfl (by simp)
  | some j =>
    obtain ⟨y, hy, -, hat⟩ := hs.held j hholder
    have hij : i ≠ j := by
      rintro rfl
      exact hh hholder
    by_cases ha : ing.assetId = y.assetId
    · exact hat.rests hi ha hij
    · refine (hs.settled i ing hi ?_).rests hi rfl (by simp)
      intro k z hk hz
      rw [hholder] at hk
      cases hk
      rw [Option.some.inj (hz.symm.trans hy)]
      exact Ne.symm ha

theorem resume_unfinished {x : Intent K} (hr : resume ing = some x) : ing.phase.isFinished = false := by
  cases hphase : ing.phase with
  | finished r =>
    rw [resume, hphase] at hr
    cases hr
  | _ => rfl

/-- An ingest that is neither waiting for the lock nor over has the lock. -/
theorem Inv.active (hs : Inv s) (hi : s.ingests i = some ing) (hwaiting : ing.phase ≠ .waiting)
    (hfinished : ing.phase.isFinished = false) : s.holder = some i ∧ Fits ing ∧ At s i ing := by
  have hh : s.holder = some i := by
    by_contra hh
    rcases (hs.rests hi hh).idle with h | h
    · exact hwaiting h
    · rw [hfinished] at h
      cases h
  obtain ⟨y, hy, hfits, hat⟩ := hs.held i hh
  obtain rfl : y = ing := Option.some.inj (hy.symm.trans hi)
  exact ⟨hh, hfits, hat⟩

/-- Only a call whose length fits ever waits for the lock. -/
theorem Inv.waiting_fits (hs : Inv s) (hh : s.holder = none) (hi : s.ingests i = some ing)
    (hwaiting : ing.phase = .waiting) : Fits ing := by
  have hrest : Resting ing → Fits ing := by
    intro h
    unfold Resting at h
    split at h
    · rw [hwaiting] at h
      cases h
    · exact Nat.le_of_not_lt ‹_›
  rcases hs.settled i ing hi (by simp [hh]) with ⟨-, hal⟩ | ⟨w, winner, hw⟩
  · exact hrest (hal i ing hi rfl (by simp))
  · by_cases he : i = w
    · subst he
      have hphase := hw.inserted
      rw [Option.some.inj (hw.ingest.symm.trans hi), hwaiting] at hphase
      cases hphase
    · rcases hw.judged i ing hi rfl he (by simp) with h | ⟨h, -⟩
      · exact hrest h
      · exact h

/-! ## Steps -/

theorem put_holder {y : Ingest K} (hc : y.cancelled = false) (hp : y.phase.isFinished = false) :
    (s.put i y).holder = s.holder := by
  simp [Store.put, hc, hp]

theorem put_released {y : Ingest K} (hh : s.holder = some i) (hp : y.phase.isFinished = true) :
    (s.put i y).holder = none := by
  simp [Store.put, hh, hp]

theorem put_own (hi : s.ingests i = some ing) (p : Phase K) : Own s (s.put i { ing with phase := p }) i ing p :=
  ⟨hi, rfl, rfl, fun _ _ => rfl, fun _ _ => rfl, fun _ _ => rfl⟩

theorem Own.sameOwn (h : Own s t i ing p)
    (hrow : t.disk.assets.lookup (K.assetId.text ing.assetId) = s.disk.assets.lookup (K.assetId.text ing.assetId))
    (hblob : t.disk.files.blobs.lookup ing.key = s.disk.files.blobs.lookup ing.key) :
    SameAsset s t (some i) ing.assetId := ⟨h.sameIngests ing.assetId, hrow, hblob⟩

theorem Matches.verified (h : Matches ing) : verifyWritten ing.descriptor ing.content = .ok () := by
  simp [verifyWritten, h.length, h.hash]

/-- The lock is taken and the lookup sent. -/
theorem take_step (hs : Inv s) (hi : s.ingests i = some ing) (hwaiting : ing.phase = .waiting)
    (hh : s.holder = none) {q : List (Request K)} (hq : s.worker = some q) :
    Inv { s.put i { ing with phase := .looking } with
      worker := some (q ++ [.command i (.lookup ing.assetId)]), holder := some i } := by
  obtain ⟨q', hq', hqueued⟩ := hs.queue
  obtain rfl : q' = q := Option.some.inj (hq'.symm.trans hq)
  have hown : Own s { s.put i { ing with phase := .looking } with
      worker := some (q' ++ [.command i (.lookup ing.assetId)]), holder := some i } i ing .looking :=
    ⟨hi, rfl, rfl, fun _ _ => rfl, fun _ _ => rfl, fun _ _ => rfl⟩
  refine hs.own hown (by simp [hh]) (hs.waiting_fits hh hi hwaiting) nofun
    ⟨_, rfl, hqueued.send hown (pending_none hh) rfl rfl⟩ (.inl ⟨rfl, ?_, hs.unused i ing hi hwaiting⟩)
  have hsettled := (hs.settled i ing hi (by simp [hh])).except hi hwaiting
  exact hsettled.frame (hown.sameOwn rfl rfl)

/-- The holder of the lock sends its next command. -/
theorem command_step (hs : Inv s) (hi : s.ingests i = some ing) (hh : s.holder = some i) (hfits : Fits ing)
    {q : List (Request K)} (hq : s.worker = some q) {c : Command K} (hnone : awaited ing = none)
    (hp : p ≠ .waiting) (hawaited : awaited { ing with phase := p } = some c)
    (hat : At s i { ing with phase := p }) :
    Inv { s.put i { ing with phase := p } with worker := some (q ++ [.command i c]), holder := some i } := by
  obtain ⟨q', hq', hqueued⟩ := hs.queue
  obtain rfl : q' = q := Option.some.inj (hq'.symm.trans hq)
  have hown : Own s { s.put i { ing with phase := p } with
      worker := some (q' ++ [.command i c]), holder := some i } i ing p :=
    ⟨hi, rfl, rfl, fun _ _ => rfl, fun _ _ => rfl, fun _ _ => rfl⟩
  have hpending : pending s = [] := by
    rw [pending_held hh hi, hnone]
    rfl
  refine hs.own hown (fun j hj => Option.some.inj (hj.symm.trans hh)) hfits hp
    ⟨_, rfl, hqueued.send hown hpending rfl hawaited⟩ (.inl ⟨rfl, ?_⟩)
  exact hat.frame (hown.sameOwn rfl rfl) rfl

/-- The phases from which the holder of the lock goes on. -/
theorem At.cases (h : At s i ing) (hnone : awaited ing = none) :
    (∃ r, ing.phase = .looked r) ∨ ing.phase = .creating ∨ (∃ written rest, ing.phase = .writing written rest) ∨
      (∃ r, ing.phase = .stageAnswered r) ∨ ing.phase = .renaming ∨ (∃ r, ing.phase = .renamed r) ∨
      ∃ r, ing.phase = .publishAnswered r := by
  unfold awaited at hnone
  unfold At at h
  split at h <;> simp_all

theorem calm_send (hs : Inv s) (hi : s.ingests i = some ing) {q : List (Request K)} {c : Command K}
    {sent : Phase K} {refused : LocalAssetStoreError K → Phase K}
    (hr : resume ing = some (.send c sent refused)) (hq : s.worker = some q)
    (hw : ing.phase = .waiting → s.holder = none) :
    Inv { s.put i { ing with phase := sent } with
      worker := some (q ++ [.command i c])
      holder := match ing.phase with
        | .waiting => some i
        | _ => s.holder } := by
  have hnone := resume_awaited hr
  have hactive := fun hwaiting => hs.active hi hwaiting (resume_unfinished hr)
  cases resume_sends hr with
  | lookup hphase =>
    rw [hphase]
    exact take_step hs hi hphase (hw hphase) hq
  | @stage written hphase _ =>
    obtain ⟨hh, hfits, hat⟩ := hactive (by simp [hphase])
    simp only [At, hphase] at hat
    obtain ⟨huntouched, hfile, -, hcontent⟩ := hat
    obtain rfl : written = ing.content := by simpa [streamed] using hcontent
    simp only [hphase, hh]
    exact command_step hs hi hh hfits hq hnone (fun h => by cases h) rfl ⟨huntouched, hfile⟩
  | publish hphase =>
    obtain ⟨hh, hfits, hat⟩ := hactive (by simp [hphase])
    simp only [At, hphase] at hat
    obtain ⟨-, halone, hstaged, hblob⟩ := hat
    simp only [hphase, hh]
    exact command_step hs hi hh hfits hq hnone (fun h => by cases h) rfl ⟨halone, hstaged, hblob⟩
  | unstage hphase =>
    obtain ⟨-, -, hat⟩ := hactive (by simp [hphase])
    simp only [At, hphase] at hat
    cases hat.1
  | withdraw hphase =>
    obtain ⟨-, -, hat⟩ := hactive (by simp [hphase])
    simp only [At, hphase] at hat

/-- The holder of the lock moves on without the worker. -/
theorem move_step (hs : Inv s) (h : Own s t i ing p) (hh : s.holder = some i) (hfits : Fits ing)
    (hnone : awaited ing = none) (hworker : t.worker = s.worker)
    (hnone' : awaited { ing with phase := p } = none) (hp : p ≠ .waiting)
    (hnext : (t.holder = some i ∧ At t i { ing with phase := p }) ∨
      (t.holder = none ∧ Settled t none ing.assetId)) : Inv t := by
  obtain ⟨q, hq, hqueued⟩ := hs.queue
  have hpending : pending t = [] := by
    rcases hnext with ⟨hheld, -⟩ | ⟨hnone, -⟩
    · rw [pending_held hheld h.self, hnone']
      rfl
    · exact pending_none hnone
  exact hs.own h (fun j hj => Option.some.inj (hj.symm.trans hh)) hfits hp
    ⟨q, hworker.trans hq, hqueued.own h hh hnone hpending⟩ hnext

/-- An ingest that came too late is told what the winner's descriptor means for it. -/
theorem Won.join {w : Nat} {winner : Ingest K} (h : Won s (some i) ing.assetId w winner)
    (hown : Own s t i ing (.finished (verdict ing winner.descriptor)))
    (hsame : SameAsset s t (some i) ing.assetId) (hfits : Fits ing) : Won t none ing.assetId w winner := by
  have hframed := h.frame hsame
  refine ⟨hframed.ingest, by simp, hframed.asset, hframed.fits, hframed.inserted, hframed.stored, ?_⟩
  intro j y hj ha hne _
  by_cases hji : j = i
  · subst hji
    obtain rfl := Option.some.inj (hj.symm.trans hown.self)
    exact .inr ⟨hfits, rfl⟩
  · exact hframed.judged j y hj ha hne (fun he => hji (Option.some.inj he))

/-- The first ingest through has won. -/
theorem Alone.win (h : Alone s (some i) ing.assetId) (hown : Own s t i ing (.finished (.ok .inserted)))
    (hstored : Stored t ing) (hfits : Fits ing) :
    Won t none ing.assetId i { ing with phase := .finished (.ok .inserted) } := by
  refine ⟨hown.self, by simp, rfl, hfits, rfl, hstored, ?_⟩
  intro j y hj ha hne _
  have hx : some j ≠ some i := fun he => hne (Option.some.inj he)
  exact .inl (h.frame (hown.sameIngests ing.assetId) j y hj ha hx)

theorem calm_proceed (hs : Inv s) (hi : s.ingests i = some ing) (hr : resume ing = some (.become p)) :
    Inv (s.put i { ing with phase := p }) := by
  have hnone := resume_awaited hr
  have hwaiting : ing.phase ≠ .waiting := by
    intro hphase
    rw [resume, hphase] at hr
    cases hr
  obtain ⟨hh, hfits, hat⟩ := hs.active hi hwaiting (resume_unfinished hr)
  obtain ⟨hc, -, hmatches⟩ := hs.calls i ing hi
  have hown := put_own hi p
  have hsame := hown.sameOwn rfl rfl
  -- where the lock is kept
  have hkeep : p.isFinished = false → awaited { ing with phase := p } = none → p ≠ .waiting →
      At s i { ing with phase := p } → Inv (s.put i { ing with phase := p }) := by
    intro hp hnone' hwait hat'
    exact move_step hs hown hh hfits hnone rfl hnone' hwait
      (.inl ⟨(put_holder (y := { ing with phase := p }) hc hp).trans hh, hat'.frame hsame rfl⟩)
  cases resume_becomes hr with
  | lookupFailed hphase =>
    simp only [At, hphase] at hat
    rcases hat with ⟨hother, -⟩ | ⟨w, winner, -, hother⟩ <;> cases hother
  | absent hphase =>
    simp only [At, hphase] at hat
    rcases hat with ⟨-, huntouched, hfile⟩ | ⟨w, winner, -, hother⟩
    · exact hkeep rfl rfl (fun h => by cases h) ⟨huntouched, hfile⟩
    · cases hother
  | @found record result hphase hpublished _ =>
    simp only [At, hphase] at hat
    rcases hat with ⟨hother, -⟩ | ⟨w, winner, hw, heq⟩
    · cases hother
    · cases heq
      obtain rfl : result = verdict ing winner.descriptor := hpublished rfl
      exact move_step hs hown hh hfits hnone rfl rfl (fun h => by cases h)
        (.inr ⟨put_released hh rfl, .inr ⟨w, winner, hw.join hown hsame hfits⟩⟩)
  | @mismatched written error hphase hverify =>
    simp only [At, hphase] at hat
    obtain rfl : written = ing.content := by simpa [streamed] using hat.2.2.2
    rw [hmatches.verified] at hverify
    cases hverify
  | inserted hphase =>
    simp only [At, hphase] at hat
    obtain ⟨-, halone, hstaged, hfile⟩ := hat
    exact hkeep rfl rfl (fun h => by cases h) ⟨halone, hstaged, hfile⟩
  | published hphase =>
    simp only [At, hphase] at hat
    obtain ⟨-, halone, hstored⟩ := hat
    exact move_step hs hown hh hfits hnone rfl rfl (fun h => by cases h) (.inr ⟨put_released hh rfl,
      .inr ⟨i, _, halone.win hown (hstored.frame rfl rfl) hfits⟩⟩)
  | stageFailed hphase | existing hphase | publishFailed hphase =>
    simp only [At, hphase] at hat
    cases hat.1
  | unstaged hphase | withdrawn hphase => simp only [At, hphase] at hat

theorem goOn_calm (hc : ing.cancelled = false) (p : Phase K) : ing.goOn p = { ing with phase := p } := by
  simp [Ingest.goOn, hc]

theorem calm_create (hs : Inv s) (hi : s.ingests i = some ing) (hphase : ing.phase = .creating) :
    Inv ((s.setStaging (s.disk.files.staging.insert ing.name (.file []))).put i
      (ing.goOn (.writing [] ing.reads))) := by
  obtain ⟨hh, hfits, hat⟩ := hs.active hi (by simp [hphase]) (by simp [hphase, Phase.isFinished])
  obtain ⟨hc, -, hmatches⟩ := hs.calls i ing hi
  simp only [At, hphase] at hat
  rw [goOn_calm hc]
  have hown : Own s ((s.setStaging (s.disk.files.staging.insert ing.name (.file []))).put i
      { ing with phase := .writing [] ing.reads }) i ing (.writing [] ing.reads) :=
    ⟨hi, rfl, rfl, fun _ _ => rfl, fun _ _ => rfl, fun name hne => AList.lookup_insert_ne hne⟩
  refine move_step hs hown hh hfits (by simp [awaited, hphase]) rfl rfl nofun (.inl ⟨?_, ?_⟩)
  · exact (put_holder (y := { ing with phase := .writing [] ing.reads }) hc rfl).trans hh
  · exact ⟨hat.1.frame (hown.sameOwn rfl rfl), AList.lookup_insert _, hmatches.readable, rfl⟩

theorem calm_write (hs : Inv s) (hi : s.ingests i = some ing) {written chunk : Bytes} {rest : List (Option Bytes)}
    (hphase : ing.phase = .writing written (some chunk :: rest)) :
    Inv ((s.setStaging (match s.disk.files.staging.lookup ing.name with
        | some (.file _) => s.disk.files.staging.insert ing.name (.file (written ++ chunk))
        | _ => s.disk.files.staging)).put i (ing.goOn (.writing (written ++ chunk) rest))) := by
  obtain ⟨hh, hfits, hat⟩ := hs.active hi (by simp [hphase]) (by simp [hphase, Phase.isFinished])
  obtain ⟨hc, -, -⟩ := hs.calls i ing hi
  simp only [At, hphase] at hat
  obtain ⟨huntouched, hfile, hrest, hcontent⟩ := hat
  rw [goOn_calm hc, show s.disk.files.staging.lookup ing.name = some (.file written) from hfile]
  have hown : Own s ((s.setStaging (s.disk.files.staging.insert ing.name (.file (written ++ chunk)))).put i
      { ing with phase := .writing (written ++ chunk) rest }) i ing (.writing (written ++ chunk) rest) :=
    ⟨hi, rfl, rfl, fun _ _ => rfl, fun _ _ => rfl, fun name hne => AList.lookup_insert_ne hne⟩
  refine move_step hs hown hh hfits (by simp [awaited, hphase]) rfl rfl nofun (.inl ⟨?_, ?_⟩)
  · exact (put_holder (y := { ing with phase := .writing (written ++ chunk) rest }) hc rfl).trans hh
  · refine ⟨huntouched.frame (hown.sameOwn rfl rfl), AList.lookup_insert _,
      fun h => hrest (List.mem_cons_of_mem _ h), ?_⟩
    show (written ++ chunk) ++ streamed rest = ing.content
    rw [← hcontent, List.append_assoc]
    rfl

theorem calm_rename (hs : Inv s) (hi : s.ingests i = some ing) (hphase : ing.phase = .renaming) {node : Node}
    (hnode : s.disk.files.staging.lookup ing.name = some node) :
    Inv ((s.setFiles { s.disk.files with
      blobs := s.disk.files.blobs.insert ing.key node
      staging := s.disk.files.staging.erase ing.name }).put i { ing with phase := .renamed (.ok ()) }) := by
  obtain ⟨hh, hfits, hat⟩ := hs.active hi (by simp [hphase]) (by simp [hphase, Phase.isFinished])
  obtain ⟨hc, -, -⟩ := hs.calls i ing hi
  simp only [At, hphase] at hat
  obtain ⟨halone, hstaged, hfile⟩ := hat
  obtain rfl : node = .file ing.content := Option.some.inj (hnode.symm.trans hfile)
  have hown : Own s ((s.setFiles { s.disk.files with
      blobs := s.disk.files.blobs.insert ing.key (.file ing.content)
      staging := s.disk.files.staging.erase ing.name }).put i { ing with phase := .renamed (.ok ()) }) i ing
      (.renamed (.ok ())) :=
    ⟨hi, rfl, rfl, fun _ _ => rfl, fun b hb => AList.lookup_insert_ne (fun he => hb (blobKey_injective he)),
      fun name hne => AList.lookup_erase_ne hne⟩
  refine move_step hs hown hh hfits (by simp [awaited, hphase]) rfl rfl nofun (.inl ⟨?_, ?_⟩)
  · exact (put_holder (y := { ing with phase := .renamed (.ok ()) }) hc rfl).trans hh
  · exact ⟨rfl, halone.frame (hown.sameIngests _), hstaged, AList.lookup_insert _⟩

/-! ## Turns of the worker -/

/-- The worker answers the holder of the lock. -/
theorem turn_step (hs : Inv s) {q : List (Request K)} {c : Command K} (hq : s.worker = some (.command i c :: q))
    (h : Own s t i ing p) (hworker : t.worker = some q) (hheld : t.holder = some i)
    (hnone : awaited { ing with phase := p } = none) (hp : p ≠ .waiting)
    (hat : At t i { ing with phase := p }) : Inv t := by
  obtain ⟨q', hq', hqueued⟩ := hs.queue
  obtain rfl : q' = .command i c :: q := Option.some.inj (hq'.symm.trans hq)
  obtain ⟨hh, -, -⟩ := hqueued.head h.ingest
  obtain ⟨y, hy, hfits, -⟩ := hs.held i hh
  obtain rfl : y = ing := Option.some.inj (hy.symm.trans h.ingest)
  have hpending : pending t = [] := by
    rw [pending_held hheld h.self, hnone]
    rfl
  exact hs.own h (fun j hj => Option.some.inj (hj.symm.trans hh)) hfits hp
    ⟨q, hworker, hqueued.work h hpending⟩ (.inl ⟨hheld, hat⟩)

theorem lookupAsset_stored (h : Stored s ing) :
    lookupAsset Faults.none s.disk.assets ing.assetId = .ok (some ⟨ing.descriptor, ing.key, .published⟩) := by
  obtain ⟨row, hrow, hd, -⟩ := h
  simp [lookupAsset, call, Faults.none, hrow, hd]

theorem publishAsset_staged (h : Staged s ing) :
    ∃ row, publishAsset Faults.none s.disk.assets ing.descriptor ing.key =
        .ok (s.disk.assets.insert (K.assetId.text ing.assetId) row) ∧
      decodeRow (K.assetId.text ing.assetId) row = .ok ⟨ing.descriptor, ing.key, .published⟩ := by
  obtain ⟨n, hn, hrow⟩ := h
  exact ⟨_, publishAsset_encoded hn hrow, decodeRow_encodeRow ing.descriptor hn .published⟩

/-- What one turn of the worker makes of the store. -/
def Store.answered (s : Store K) (i : Nat) (ing : Ingest K) (c : Command K) (q : List (Request K)) : Store K :=
  { s.put i (ing.deliver (execute Faults.none s.disk.assets c).1) with
    disk := ⟨(execute Faults.none s.disk.assets c).2, s.disk.files⟩
    worker := some q
    stagedBy := (recordExecution s i ing (execute Faults.none s.disk.assets c).1).1
    origin := (recordExecution s i ing (execute Faults.none s.disk.assets c).1).2 }

theorem answered_own {q : List (Request K)} {c : Command K} {reply : Reply K} {assets : AssetTable}
    (hi : s.ingests i = some ing) (hexecute : execute Faults.none s.disk.assets c = (reply, assets))
    (hdeliver : ing.deliver reply = { ing with phase := p })
    (hrows : ∀ b, b ≠ ing.assetId →
      assets.lookup (K.assetId.text b) = s.disk.assets.lookup (K.assetId.text b)) :
    Own s (s.answered i ing c q) i ing p := by
  refine ⟨hi, ?_, rfl, ?_, fun _ _ => rfl, fun _ _ => rfl⟩
  · simp only [Store.answered, hexecute, hdeliver]
    rfl
  · intro b hb
    simp only [Store.answered, hexecute]
    exact hrows b hb

theorem answered_holder {q : List (Request K)} {c : Command K} {reply : Reply K} {assets : AssetTable}
    (hexecute : execute Faults.none s.disk.assets c = (reply, assets))
    (hdeliver : ing.deliver reply = { ing with phase := p }) (hc : ing.cancelled = false)
    (hp : p.isFinished = false) : (s.answered i ing c q).holder = s.holder := by
  simp only [Store.answered, hexecute, hdeliver]
  exact put_holder (y := { ing with phase := p }) hc hp

/-- The holder of the lock is answered and goes on. -/
theorem answered_step (hs : Inv s) {q : List (Request K)} {c : Command K} {reply : Reply K} {assets : AssetTable}
    (hq : s.worker = some (.command i c :: q)) (hi : s.ingests i = some ing) (hh : s.holder = some i)
    (hc : ing.cancelled = false) (hexecute : execute Faults.none s.disk.assets c = (reply, assets))
    (hdeliver : ing.deliver reply = { ing with phase := p }) (hp : p.isFinished = false) (hwaiting : p ≠ .waiting)
    (hnone : awaited { ing with phase := p } = none)
    (hrows : ∀ b, b ≠ ing.assetId → assets.lookup (K.assetId.text b) = s.disk.assets.lookup (K.assetId.text b))
    (hat : Own s (s.answered i ing c q) i ing p → At (s.answered i ing c q) i { ing with phase := p }) :
    Inv (s.answered i ing c q) := by
  have hown := answered_own (q := q) hi hexecute hdeliver hrows
  have hheld : (s.answered i ing c q).holder = some i := (answered_holder hexecute hdeliver hc hp).trans hh
  exact turn_step hs hq hown rfl hheld hnone hwaiting (hat hown)

theorem calm_work (hs : Inv s) {q : List (Request K)} {c : Command K}
    (hq : s.worker = some (.command i c :: q)) (hi : s.ingests i = some ing) : Inv (s.answered i ing c q) := by
  obtain ⟨q', hq', hqueued⟩ := hs.queue
  obtain rfl : q' = .command i c :: q := Option.some.inj (hq'.symm.trans hq)
  obtain ⟨hh, hawaited, -⟩ := hqueued.head hi
  obtain ⟨y, hy, hfits, hat⟩ := hs.held i hh
  obtain rfl : y = ing := Option.some.inj (hy.symm.trans hi)
  obtain ⟨hc, -, -⟩ := hs.calls i y hi
  cases awaited_awaits hawaited with
  | lookup hphase =>
    simp only [At, hphase] at hat
    obtain ⟨hsettled, hfile⟩ := hat
    have hdeliver : y.deliver (.lookup (lookupAsset Faults.none s.disk.assets y.assetId)) =
        { y with phase := .looked (lookupAsset Faults.none s.disk.assets y.assetId) } := by
      simp [Ingest.deliver, hc, hphase]
    refine answered_step hs hq hi hh hc rfl hdeliver rfl (fun h => by cases h) rfl (fun _ _ => rfl) ?_
    intro hown
    have hsame := hown.sameOwn rfl rfl
    rcases hsettled with huntouched | ⟨w, winner, hw⟩
    · exact .inl ⟨lookupAsset_absent huntouched.1, huntouched.frame hsame, hfile⟩
    · refine .inr ⟨w, winner, hw.frame hsame, ?_⟩
      have hlookup := lookupAsset_stored hw.stored
      rw [hw.asset] at hlookup
      exact hlookup
  | stage hphase =>
    simp only [At, hphase] at hat
    obtain ⟨huntouched, hfile⟩ := hat
    have hexecute : execute Faults.none s.disk.assets (.stage y.descriptor y.key) =
        (.stage (.ok .inserted), s.disk.assets.insert (K.assetId.text y.assetId)
          (encodeRow y.descriptor y.descriptor.byteLength y.key .staged)) := by
      have hstage := stageAsset_absent y.key (show s.disk.assets.lookup
        (K.assetId.text y.descriptor.assetId) = none from huntouched.1) hfits
      simp only [execute, hstage]
      rfl
    have hdeliver : y.deliver (.stage (.ok .inserted)) = { y with phase := .stageAnswered (.ok .inserted) } := by
      simp [Ingest.deliver, hc, hphase]
    refine answered_step hs hq hi hh hc hexecute hdeliver rfl (fun h => by cases h) rfl
      (fun b hb => AList.lookup_insert_ne (fun he => hb (K.assetId.text_inj.mp he))) ?_
    intro hown
    refine ⟨rfl, huntouched.2.frame (hown.sameIngests _), ⟨_, if_pos hfits, ?_⟩, hfile⟩
    simp only [Store.answered, hexecute]
    exact AList.lookup_insert _
  | publish hphase =>
    simp only [At, hphase] at hat
    obtain ⟨halone, hstaged, hblob⟩ := hat
    obtain ⟨row, hpublish, hd⟩ := publishAsset_staged hstaged
    have hexecute : execute Faults.none s.disk.assets (.publish y.descriptor y.key) =
        (.publish (.ok ()), s.disk.assets.insert (K.assetId.text y.assetId) row) := by
      simp only [execute, hpublish]
    have hdeliver : y.deliver (.publish (.ok ())) = { y with phase := .publishAnswered (.ok ()) } := by
      simp [Ingest.deliver, hc, hphase]
    refine answered_step hs hq hi hh hc hexecute hdeliver rfl (fun h => by cases h) rfl
      (fun b hb => AList.lookup_insert_ne (fun he => hb (K.assetId.text_inj.mp he))) ?_
    intro hown
    refine ⟨rfl, halone.frame (hown.sameIngests _), row, ?_, hd, hblob⟩
    simp only [Store.answered, hexecute]
    exact AList.lookup_insert _
  | removeStaged hphase => simp only [At, hphase] at hat

/-! ## Runs -/

theorem calm_inv (hs : Inv s) (h : Calm s t) : Inv t := by
  cases h with
  | send i ing q c sent refused hi hc hr hg hq hw => exact calm_send hs hi hr hq hw
  | proceed i ing p hi hc hr => exact calm_proceed hs hi hr
  | work i ing c q hq hi => exact calm_work hs hq hi
  | create i ing hi hp hn => exact calm_create hs hi hp
  | write i ing written chunk rest length hi hp ha => exact calm_write hs hi hp
  | rename i ing node hi hp hn => exact calm_rename hs hi hp hn
  | remove i ing result hi hp =>
    obtain ⟨-, -, hat⟩ := hs.active hi (by simp [hp]) (by simp [hp, Phase.isFinished])
    simp [At, hp] at hat

theorem Inv.requeue (hs : Inv s) {q : List (Request K)} (hq : Queued s q) : Inv { s with worker := some q } := by
  have hsame : ∀ x a, SameAsset s { s with worker := some q } x a :=
    fun _ _ => ⟨fun _ _ _ _ => Iff.rfl, rfl, rfl⟩
  refine ⟨hs.calls, hs.names, hs.unused, ⟨q, rfl, hq.commands, hq.reads⟩, ?_, ?_⟩
  · intro j y hj hy
    exact (hs.settled j y hj hy).frame (hsame none _)
  · intro i hi
    obtain ⟨ing, hing, hfits, hat⟩ := hs.held i hi
    exact ⟨ing, hing, hfits, hat.frame (hsame _ _) rfl⟩

theorem read_inv (hs : Inv s) (h : Read s t) : Inv t := by
  obtain ⟨q', hq', hqueued⟩ := hs.queue
  cases h with
  | ask r a q hr hq =>
    obtain rfl : q' = q := Option.some.inj (hq'.symm.trans hq)
    refine hs.requeue ⟨?_, ?_⟩
    · rw [List.filterMap_append, hqueued.commands]
      simp [owned, hr]
    · intro x hx
      rcases List.mem_append.mp hx with hx | hx
      · exact hqueued.reads x hx
      · rw [List.mem_singleton] at hx
        subst hx
        refine ⟨nofun, ?_⟩
        intro j c hc _
        cases hc
        exact ⟨a, rfl⟩
  | answer r a q hr hq =>
    obtain rfl : q' = _ := Option.some.inj (hq'.symm.trans hq)
    refine hs.requeue ⟨?_, fun x hx => hqueued.reads x (List.mem_cons_of_mem _ hx)⟩
    rw [← hqueued.commands, List.filterMap_cons_none (by simp [owned, hr])]

theorem start_inv (h : Start s) : Inv s where
  calls i ing hi := ⟨(h.calls i ing hi).1, (h.calls i ing hi).2.1, (h.calls i ing hi).2.2.1⟩
  names := h.names
  unused i ing hi _ := h.unused i ing hi
  queue := by
    refine ⟨[], h.worker, ?_, by simp⟩
    rw [pending_none h.holder]
    rfl
  settled j y hj _ := .inl ⟨h.absent j y hj, fun k ing hk _ _ => (h.calls k ing hk).2.2.2⟩
  held i hi := by
    rw [h.holder] at hi
    cases hi

theorem calmSystem_step (hs : Inv s) (h : (calmSystem K).step s t) : Inv t := by
  rcases h with h | h
  · exact calm_inv hs h
  · exact read_inv hs h

theorem calmSystem_run (hs : Inv s) (h : (calmSystem K).Run s t) : Inv t :=
  System.preserved (S := calmSystem K) (fun _ _ => calmSystem_step) hs h

end OrbitRelay.AssetStore
