import OrbitRelay.AssetHttpSlice
import OrbitRelay.AssetHttpStream
import OrbitRelay.AssetOrigin

/-!
# Downloads from a store that goes on

A download reads its asset piece by piece, and between two reads other ingests, closes,
process stops and reopens go on. What it sends are still the bytes that were published,
and after an ingest has returned `Ok` an authorised download gets all of them.
-/
namespace OrbitRelay.AssetHttp

open AssetStore Codec Grant MachineInt Text Transition

variable {K : AssetKernel} {G : GrantKernel K.AssetId}

section History

/-- The states in which the calls of a connection find the store, in the order of time. -/
structure History (states : Nat → Store K) : Prop where
  start : (quietSystem K).Reachable (states 0)
  next : ∀ n, (quietSystem K).Run (states n) (states (n + 1))

/-- An asset that is published, and its bytes. -/
structure Holds (s : Store K) (a : K.AssetId) (d : SourceAssetDescriptor K) (content : Bytes) : Prop where
  published : PublishedAs s a d
  blob : s.disk.files.blobs.lookup (blobKey a) = some (.file content)
  length : content.length = d.byteLength
  hash : K.sha256 content = d.contentHash

variable {states : Nat → Store K} {s t : Store K} {a : K.AssetId} {d d' : SourceAssetDescriptor K}
  {content content' : Bytes}

theorem History.run (h : History states) {m n : Nat} (hle : m ≤ n) :
    (quietSystem K).Run (states m) (states n) := by
  induction n, hle using Nat.le_induction with
  | base => exact .refl
  | succ n _ ih => exact ih.trans (h.next n)

theorem History.reachable (h : History states) (n : Nat) : (quietSystem K).Reachable (states n) :=
  h.start.run (h.run (Nat.zero_le n))

theorem History.preserves (h : History states) {m n : Nat} (hle : m ≤ n) : Preserves (states m) (states n) :=
  run_preserves (reachable_intact (h.reachable m)) (h.run hle)

theorem Holds.of_published (hs : Invariant s) (h : PublishedAs s a d) : ∃ content, Holds s a d content := by
  obtain ⟨bytes, hblob, hlength, hhash⟩ := h.intact hs
  exact ⟨bytes, h, hblob, hlength, hhash⟩

theorem Holds.lookup (h : Holds s a d content) :
    lookupAsset Faults.none s.disk.assets a = .ok (some ⟨d, blobKey a, .published⟩) := by
  obtain ⟨row, hrow, hd⟩ := h.published
  simp [lookupAsset, call, Faults.none, hrow, hd]

theorem Holds.kept (h : Holds s a d content) (hkept : Preserves s t) : Holds t a d content where
  published := h.published.kept hkept
  blob := by
    obtain ⟨row, hrow, hd⟩ := h.published
    rw [← h.blob]
    exact (hkept _ row _ hrow hd rfl).2
  length := h.length
  hash := h.hash

theorem Holds.unique (h : Holds s a d content) (h' : Holds s a d' content') : d = d' ∧ content = content' := by
  obtain ⟨row, hrow, hd⟩ := h.published
  obtain ⟨row', hrow', hd'⟩ := h'.published
  rw [hrow] at hrow'
  cases hrow'
  rw [hd] at hd'
  cases hd'
  have hblob := h.blob
  rw [h'.blob] at hblob
  cases hblob
  exact ⟨rfl, rfl⟩

/-- At any two moments at which an asset is published it is the same. -/
theorem History.same (h : History states) {m n : Nat} (hm : Holds (states m) a d content)
    (hn : Holds (states n) a d' content') : d = d' ∧ content = content' := by
  obtain hle | hle := Nat.le_total m n
  · exact (hm.kept (h.preserves hle)).unique hn
  · exact hm.unique (hn.kept (h.preserves hle))

/-- One call of `read_range`. Its lookup, its inspection of the blob and its opening of it each
find the store at a moment of their own, and each of them may fail. -/
inductive ReadAt (states : Nat → Store K) (a : K.AssetId) (range : AssetByteRange) :
    Except (AssetReadError K) AssetByteChunk → Prop
  | read {m m' m'' : Nat} {answer : Except (LocalAssetStoreError K) (Option (AssetRecord K))}
      {inspected opened : Option Node} (seekOk readOk : Bool) : m ≤ m' → m' ≤ m'' → Answers (states m) a answer →
      inspected = none ∨ inspected = (states m').disk.files.blobs.lookup (blobKey a) →
      opened = none ∨ opened = (states m'').disk.files.blobs.lookup (blobKey a) →
      ReadAt states a range (readRange a range answer inspected opened seekOk readOk)

theorem ReadAt.chunk (h : History states) {n : Nat} (hn : Holds (states n) a d content) {range : AssetByteRange}
    {result : Except (AssetReadError K) AssetByteChunk} (hread : ReadAt states a range result)
    {chunk : AssetByteChunk} (hok : result = .ok chunk) : chunk.bytes <+: content.drop range.offset := by
  cases hread with
  | @read m m' m'' answer inspected opened seekOk readOk hle hle' hanswer _ hopened =>
    obtain ⟨d', bytes, hpublished, hblob, hlength, -, rfl⟩ :=
      readRange_slice (h.reachable m) (h.run hle) (h.run hle') hanswer hopened hok
    obtain ⟨content', hm⟩ := Holds.of_published (reachable_intact (h.reachable m)) hpublished
    have hsame : bytes = content' := by
      have hblob' := hm.blob
      rw [hblob] at hblob'
      cases hblob'
      rfl
    obtain ⟨rfl, rfl⟩ := h.same hn hm
    rw [hsame]
    exact List.take_prefix _ _

end History

section Stream

variable {link : Link G} {reader : Reader K} {a : K.AssetId} {chunkSize offset remaining : Nat} {content : Bytes}

theorem append_follows {u v l : Bytes} (hu : u <+: l) (hv : v <+: l.drop u.length) : u ++ v <+: l := by
  obtain ⟨w, rfl⟩ := hu
  rw [List.drop_left] at hv
  exact (List.prefix_append_right_inj u).mpr hv

/-- A reader that only ever answers with bytes of `content`, from the requested offset on. -/
def ReadsFrom (reader : Reader K) (a : K.AssetId) (content : Bytes) : Prop :=
  ∀ index range chunk, reader index a range = .ok chunk → chunk.bytes <+: content.drop range.offset

theorem Tracks.follows {s t : Loop} (hs : Tracks reader a offset remaining s) (hreads : ReadsFrom reader a content)
    (hfollows : s.written <+: content.drop offset) (h : pass link reader a chunkSize s = .inl t) :
    t.written <+: content.drop offset := by
  obtain ⟨range, chunk, hrequest, hread, -, rfl⟩ := pass_next h
  have hoffset := (requested_eq_some.mp hrequest).2.1
  have hbytes := hreads _ _ _ hread
  rw [hoffset, hs.place, ← List.drop_drop] at hbytes
  have hwritten : Loop.written ⟨s.index + 1, s.offset + chunk.bytes.length, s.remaining - chunk.bytes.length,
      s.sent ++ [chunk]⟩ = s.written ++ chunk.bytes := by
    simp [Loop.written]
  rw [hwritten]
  exact append_follows hfollows hbytes

theorem loop_follows (hreads : ReadsFrom reader a content) {s : Loop}
    (h : (loop link reader a chunkSize offset remaining).Reachable s) :
    Tracks reader a offset remaining s ∧ s.written <+: content.drop offset := by
  refine System.invariant (P := fun s => Tracks reader a offset remaining s ∧ s.written <+: content.drop offset)
    ?_ ?_ h
  · intro s hs
    refine ⟨reachable_tracks (.start hs), ?_⟩
    cases hs
    exact List.nil_prefix
  · intro s t hs hst
    exact ⟨hs.1.next hst, hs.1.follows hreads hs.2 hst⟩

/-- The loop writes the beginning of its slice, and all of it when it ends well on its own. -/
theorem streamAsset_follows (link : Link G) (chunkSize : Nat) (hreads : ReadsFrom reader a content)
    (hle : offset + remaining ≤ content.length) :
    (streamAsset link reader a chunkSize 0 offset remaining).written <+: (content.drop offset).take remaining ∧
    ((streamAsset link reader a chunkSize 0 offset remaining).result = .ok () →
      (∀ n, link.cancelled n = false ∧ link.interrupted n = false) →
      (streamAsset link reader a chunkSize 0 offset remaining).written = (content.drop offset).take remaining) := by
  obtain ⟨s, ending, hrun, hend, houtcome⟩ :=
    exists_end link reader a chunkSize offset remaining ⟨0, offset, remaining, []⟩
  obtain ⟨htracks, hfollows⟩ := loop_follows hreads ⟨_, rfl, hrun⟩
  have hbalance := htracks.balance
  have hstream : streamAsset link reader a chunkSize 0 offset remaining = ⟨s.written ++ ending.written, ending.result⟩ :=
    houtcome
  rw [hstream]
  dsimp only
  have hwhole : ((content.drop offset).take remaining).length = remaining := by
    rw [List.length_take, List.length_drop]
    omega
  rcases pass_ending hend with ⟨hnil, hwhy⟩ | ⟨hfailed, range, chunk, hrequest, hread, hfit, hbegin⟩
  · rw [hnil, List.append_nil]
    have hbegins : s.written <+: (content.drop offset).take remaining :=
      List.prefix_take_iff.mpr ⟨hfollows, by omega⟩
    refine ⟨hbegins, ?_⟩
    intro hok hsteady
    have hdone : s.remaining = 0 := by simpa [hsteady] using hwhy hok
    exact hbegins.eq_of_length (by omega)
  · obtain ⟨-, hoffset, hlength⟩ := requested_eq_some.mp hrequest
    have hbytes := hreads _ _ _ hread
    rw [hoffset, htracks.place, ← List.drop_drop] at hbytes
    have hshort := hbegin.length_le
    simp only [Misfit, not_or] at hfit
    refine ⟨List.prefix_take_iff.mpr ⟨append_follows hfollows (hbegin.trans hbytes), ?_⟩, ?_⟩
    · rw [List.length_append]
      omega
    · intro hok
      cases hok.symm.trans hfailed

end Stream

section Window

variable {config : Config} {link : Link G} {server : Server G} {request : HttpRequest} {a other : K.AssetId}
  {d : SourceAssetDescriptor K} {status start length : Nat} {headers : Headers}

/-- A reply that sends bytes describes the asset, and sends a part of it that is not empty. -/
structure Window (d : SourceAssetDescriptor K) (headers : Headers) (start length : Nat) : Prop where
  describes : ∀ entry ∈ sliceHeaders d length, entry ∈ headers
  nonempty : 0 < length
  inside : start + length ≤ d.byteLength

theorem answerSlice_window {permit : Bool} {origin range : Option Str} {status' start' length' : Nat}
    (hinside : start' + length' ≤ d.byteLength)
    (h : answerSlice permit origin d a status' start' length' range = .content status headers other start length) :
    other = a ∧ Window d headers start length := by
  unfold answerSlice at h
  dsimp only at h
  split at h
  · rename_i hnonempty
    split at h
    · cases h
    · cases h
      exact ⟨rfl, fun entry hmem => List.mem_append_left _ (List.mem_append_left _ hmem), hnonempty, hinside⟩
  · cases h

theorem answerAsset_window {permit : Bool}
    (h : answerAsset permit request d a = .content status headers other start length) :
    other = a ∧ Window d headers start length := by
  have hwhole : answerResolved permit (request.header "origin") d a none = .content status headers other start length →
      other = a ∧ Window d headers start length := by
    intro h
    rw [answerResolved] at h
    exact answerSlice_window (by omega) h
  unfold answerAsset at h
  dsimp only at h
  split at h
  · cases h
  · split at h
    · cases h
    · split at h
      · exact hwhole h
      · split at h
        · rename_i resolved hparse
          obtain ⟨range, rfl, hle, hlt⟩ := parseRange_ok hparse
          rw [answerResolved] at h
          exact answerSlice_window (length_bounds hle hlt) h
        · cases h
        · cases h
        · cases h

/-- What reaches the peer of a response is a beginning of it, and all of it if nothing fails. -/
theorem send_content {reader : Reader K} {content : Bytes} (hreads : ReadsFrom reader a content)
    (hinside : start + length ≤ content.length) :
    (send config link reader (.content status headers a start length)).written <+:
      utf8 (responseHead status headers) ++ (content.drop start).take length ∧
    ((send config link reader (.content status headers a start length)).result = .ok () →
      (∀ n, link.cancelled n = false ∧ link.interrupted n = false) →
      (send config link reader (.content status headers a start length)).written =
        utf8 (responseHead status headers) ++ (content.drop start).take length) := by
  obtain ⟨hbegins, hwhole⟩ := streamAsset_follows link config.chunkSize hreads hinside
  rw [send, writeResponse]
  cases hrender : renderHead status headers with
  | none => exact ⟨List.nil_prefix, fun hok => by cases hok⟩
  | some head =>
    have hhead : head = responseHead status headers := by
      unfold renderHead at hrender
      split at hrender
      · cases hrender
      · exact (Option.some.inj hrender).symm
    subst hhead
    cases hfails : link.fails 0 with
    | some n =>
      simp only [writeAll, hfails, Outcome.andThen]
      exact ⟨(List.take_prefix n _).trans (List.prefix_append _ _), fun hok => by cases hok⟩
    | none =>
      simp only [writeAll, hfails, Outcome.andThen, Outcome.done, List.append_nil]
      refine ⟨(List.prefix_append_right_inj _).mpr hbegins, ?_⟩
      intro hok hsteady
      rw [hwhole hok hsteady]

end Window

/-! ## What a download sends -/

/-- The server of a connection over a store that goes on. -/
structure Serves (states : Nat → Store K) (server : Server G) : Prop where
  catalog : ∀ a, ∃ m answer, Answers (states m) a answer ∧ server.catalog a = getAsset answer
  reader : ∀ index a range, ReadAt states a range (server.reader index a range)

theorem readRange_blobNode {disk : Disk} {f : Faults} {a : K.AssetId} {range : AssetByteRange} {seekOk readOk : Bool} :
    readRange a range (lookupAsset f disk.assets a) (blobNode disk (lookupAsset f disk.assets a))
        (blobNode disk (lookupAsset f disk.assets a)) seekOk readOk =
      readRange a range (lookupAsset f disk.assets a) (disk.files.blobs.lookup (blobKey a))
        (disk.files.blobs.lookup (blobKey a)) seekOk readOk := by
  cases hlookup : lookupAsset f disk.assets a with
  | error e => rfl
  | ok found =>
    cases found with
    | none => rfl
    | some record => rw [blobNode, lookupAsset_blobKey hlookup]

/-- A store at rest is one that a connection may find. -/
theorem localServer_serves (s : Store K) (entries : Entries G) (f : Nat → Faults) (seekOk readOk : Nat → Bool) :
    Serves (fun _ => s) (localServer entries f seekOk readOk s.disk) where
  catalog := fun a => ⟨0, _, .inl ⟨f 0, rfl⟩, rfl⟩
  reader := by
    intro index a range
    show ReadAt _ a range (readRange a range _ _ _ _ _)
    rw [readRange_blobNode]
    exact .read (m := 0) (seekOk index) (readOk index) (le_refl 0) (le_refl 0) (.inl ⟨f index, rfl⟩) (.inr rfl) (.inr rfl)

/-- An ingest of one byte, from the beginning to its answer. -/
theorem sampleIngested : ∃ s, (quietSystem textAssets).Reachable s ∧
    s.ingests 0 = some (sampleIngest 1 "first" (.finished (.ok .inserted))) := by
  have h₀ : (quietSystem textAssets).Reachable sampleEmpty := .start sampleEmpty_init
  have h₁ := onward h₀ (.begin _ 0 1 sampleDescriptor [some [0x61]] "first" rfl (by decide)
    (by simp [readBufferSize]) (by simp [sampleEmpty]) rfl) rfl
  have h₂ := onward h₁ (.send _ 0 (sampleIngest 1 "first" .waiting) [] _ _ _ rfl rfl rfl rfl rfl (fun _ => rfl)) rfl
  have h₃ := onward h₂ (.work _ Faults.none 0 (sampleIngest 1 "first" .looking) _ [] rfl rfl) rfl
  have h₄ := onward h₃ (.proceed _ 0 (sampleIngest 1 "first" (.looked (.ok none))) _ rfl rfl rfl) rfl
  have h₅ := onward h₄ (.create _ 0 (sampleIngest 1 "first" .creating) rfl rfl rfl) rfl
  have h₆ := onward h₅ (.write _ 0 (sampleIngest 1 "first" (.writing [] [some [0x61]])) [] [0x61] [] 1
    rfl rfl rfl) rfl
  have h₇ := onward h₆ (.send _ 0 (sampleIngest 1 "first" (.writing [0x61] [])) [] _ _ _ rfl rfl rfl rfl rfl
    (fun h => by cases h)) rfl
  have h₈ := onward h₇ (.work _ Faults.none 0 (sampleIngest 1 "first" .staging) _ [] rfl rfl) rfl
  have h₉ := onward h₈ (.proceed _ 0 (sampleIngest 1 "first" (.stageAnswered (.ok .inserted))) _ rfl rfl rfl) rfl
  have h₁₀ := onward h₉ (.rename _ 0 (sampleIngest 1 "first" .renaming) (.file [0x61]) rfl rfl rfl) rfl
  have h₁₁ := onward h₁₀ (.send _ 0 (sampleIngest 1 "first" (.renamed (.ok ()))) [] _ _ _ rfl rfl rfl rfl rfl
    (fun h => by cases h)) rfl
  have h₁₂ := onward h₁₁ (.work _ Faults.none 0 (sampleIngest 1 "first" .publishing) _ [] rfl rfl) rfl
  have h₁₃ := onward h₁₂ (.proceed _ 0 (sampleIngest 1 "first" (.publishAnswered (.ok ()))) _ rfl rfl rfl) rfl
  exact ⟨_, h₁₃, rfl⟩

theorem sampleHistory {s : Store textAssets} (hs : (quietSystem textAssets).Reachable s) : History (fun _ => s) :=
  ⟨hs, fun _ => .refl⟩

theorem sampleAuthorised (disk : Disk) : Authorised (K := textAssets) ⟨[], 1⟩ sampleLink
    (soundServer sampleEntries disk) sampleRequest "aaaaaaaa-asset" where
  method := .inl rfl
  target := ⟨"aaaaaaaa-asset".toList, rfl, by decide, by decide, rfl⟩
  exact := by decide
  origin := fun origin h => by rw [sampleRequest_origin] at h; cases h
  grant := ⟨sampleToken, _, sampleRequest_token, sampleGrant⟩

/-- The listener answers for the asset that the ingest has published. -/
theorem sampleServed {s : Store textAssets} (hs : (quietSystem textAssets).Reachable s)
    (hi : s.ingests 0 = some (sampleIngest 1 "first" (.finished (.ok .inserted)))) :
    (soundServer sampleEntries s.disk).catalog "aaaaaaaa-asset" = .ok (some sampleDescriptor) := by
  obtain ⟨content, hholds⟩ := Holds.of_published (reachable_intact hs) (ingest_ok_published hs hi rfl .refl)
  exact congrArg getAsset hholds.lookup

/-- The server of a connection none of whose calls to the store fails. -/
structure ServesSoundly (states : Nat → Store K) (server : Server G) : Prop where
  catalog : ∀ a, ∃ m, server.catalog a = getAsset (lookupAsset Faults.none (states m).disk.assets a)
  reader : ∀ index a range, ∃ m m' m'', m ≤ m' ∧ m' ≤ m'' ∧ server.reader index a range =
    readRange a range (lookupAsset Faults.none (states m).disk.assets a)
      ((states m').disk.files.blobs.lookup (blobKey a)) ((states m'').disk.files.blobs.lookup (blobKey a)) true true

theorem soundServer_serves (s : Store K) (entries : Entries G) :
    ServesSoundly (fun _ => s) (soundServer entries s.disk) where
  catalog := fun _ => ⟨0, rfl⟩
  reader := fun _ _ _ => ⟨0, 0, 0, le_refl 0, le_refl 0, readRange_blobNode⟩

variable {states : Nat → Store K} {server : Server G} {a : K.AssetId} {d : SourceAssetDescriptor K} {content : Bytes}

/-- Once the asset is published the moments of the calls make no difference. -/
theorem ServesSoundly.settled (hserves : ServesSoundly states server) (h : History states)
    (hholds : Holds (states 0) a d content) : server.catalog a = .ok (some d) ∧
      ∀ index range, server.reader index a range = soundReader (states 0).disk index a range := by
  have hkept : ∀ m, Holds (states m) a d content := fun m => hholds.kept (h.preserves (Nat.zero_le m))
  constructor
  · obtain ⟨m, hcatalog⟩ := hserves.catalog a
    rw [hcatalog, (hkept m).lookup]
    rfl
  · intro index range
    obtain ⟨m, m', m'', -, -, hread⟩ := hserves.reader index a range
    rw [hread, (hkept m).lookup, (hkept m').blob, (hkept m'').blob, soundReader, localReader, readRange_blobNode,
      hholds.lookup, hholds.blob]

/-- An authorised request on a connection where nothing goes wrong. -/
structure Unhindered (config : Config) (link : Link G) (server : Server G) (request : HttpRequest)
    (a : K.AssetId) : Prop where
  chunkSize : 1 ≤ config.chunkSize
  read : readRequest link.reads = .ok request
  authorised : Authorised config link server request a
  writes : link.fails = unfailing
  steady : ∀ n, link.cancelled n = false ∧ link.interrupted n = false
  permit : link.permit = true

variable {config : Config} {link : Link G} {request : HttpRequest}

theorem Unhindered.delivery (h : Unhindered config link server request a) (hholds : Holds (states 0) a d content)
    (hmedia : OneLine d.mediaType.toList) :
    Delivery config link server.entries (states 0).disk request a d content where
  chunkSize := h.chunkSize
  published := ⟨hholds.lookup, hholds.blob, hholds.length⟩
  mediaType := hmedia
  read := h.read
  authorised :=
    { method := h.authorised.method
      target := h.authorised.target
      exact := h.authorised.exact
      origin := h.authorised.origin
      grant := h.authorised.grant }
  writes := h.writes
  steady := h.steady
  permit := h.permit

/-- The connection answers as one to a store that does nothing else. -/
theorem Unhindered.outcome (h : Unhindered config link server request a) (hserves : ServesSoundly states server)
    (hhistory : History states) (hholds : Holds (states 0) a d content) :
    (handleConnection config link server).1 =
      send config link (soundReader (states 0).disk) (answerAsset true request d a) := by
  obtain ⟨hcatalog, hreader⟩ := hserves.settled hhistory hholds
  rw [handleConnection, h.read]
  dsimp only
  rw [h.authorised.answer hcatalog, h.permit]
  apply send_congr
  intro status headers other start length hreply index range
  obtain ⟨rfl, -⟩ := answerAsset_window hreply
  exact hreader index range

end OrbitRelay.AssetHttp
