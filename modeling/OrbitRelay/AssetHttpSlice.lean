import OrbitRelay.AssetHttpGuard
import OrbitRelay.AssetIntegrity

/-!
# The bytes of a download

Inclusive positions in the header, a start and a length in the listener, half-open
ranges in the reader and chunks on the wire all name the same slice of the asset.
-/
namespace OrbitRelay.AssetHttp

open AssetStore Codec Grant MachineInt Text

/-- The three forms of a byte range. -/
inductive RangeSpec where
  | span (first last : Nat)
  | «from» (first : Nat)
  | suffix (length : Nat)
  deriving DecidableEq, Repr

/-- A decimal number of 64 bits, written with any number of leading zeros. -/
def Denotes (digits : Str) (n : Nat) : Prop := decimal digits = some n ∧ n ≤ u64Max

/-- The header values that spell a range. -/
def RangeSpec.Spells : RangeSpec → Str → Prop
  | .span first last, value => ∃ a b, value = "bytes=".toList ++ (a ++ '-' :: b) ∧ Denotes a first ∧ Denotes b last
  | .from first, value => ∃ a, value = "bytes=".toList ++ (a ++ ['-']) ∧ Denotes a first
  | .suffix length, value => ∃ a, value = "bytes=".toList ++ '-' :: a ∧ Denotes a length

/-- First and last position of the slice, when there is one. -/
def RangeSpec.slice (total : Nat) : RangeSpec → Option (Nat × Nat)
  | .span first last => if first < total ∧ first ≤ last then some (first, min last (total - 1)) else none
  | .from first => if first < total then some (first, total - 1) else none
  | .suffix length => if 0 < length ∧ 0 < total then some (total - min length total, total - 1) else none

section Ranges

theorem Denotes.digits {digits : Str} {n : Nat} (h : Denotes digits n) :
    digits ≠ [] ∧ ∀ c ∈ digits, c.isDigit = true :=
  exists_decimal.mp ⟨n, h.1⟩

theorem Denotes.parse {digits : Str} {n : Nat} (h : Denotes digits n) : parseU64 digits = some n := by
  obtain ⟨hne, hdigits⟩ := h.digits
  unfold parseU64
  split
  · exact absurd (hdigits '+' List.mem_cons_self) (by decide)
  · rw [h.1, Option.bind_some, if_pos h.2]

theorem Denotes.not_mem {digits : Str} {n : Nat} (h : Denotes digits n) {c : Char} (hc : c.isDigit = false) :
    c ∉ digits :=
  decimal_not_mem h.1 hc

theorem resolvedRange_new {first last : Nat} (h : first ≤ last) : ResolvedRange.new first last = .ok ⟨first, last⟩ := by
  rw [ResolvedRange.new, if_neg (not_lt.mpr h)]

/-- The inclusive bounds are resolved as the slice. -/
theorem parseRange_spells {spec : RangeSpec} {value : Str} (h : spec.Spells value) (total : Nat) :
    parseRange value total = match spec.slice total with
      | some (first, last) => .ok (some ⟨first, last⟩)
      | none => .error .unsatisfiable := by
  cases spec with
  | span first last =>
    obtain ⟨a, b, rfl, ha, hb⟩ := h
    have hcomma : ',' ∉ a ++ '-' :: b := by
      simp [ha.not_mem (c := ',') (by decide), hb.not_mem (c := ',') (by decide)]
    simp only [parseRange, stripPrefix_append, okOr_some, ok_bind, if_neg hcomma,
      splitOnce_char (ha.not_mem (c := '-') (by decide)), if_neg ha.digits.1, if_neg hb.digits.1,
      ha.parse, hb.parse, RangeSpec.slice]
    by_cases hlt : first < total
    · rw [if_neg (by omega)]
      by_cases hle : first ≤ last
      · rw [if_pos ⟨hlt, hle⟩, resolvedRange_new (by omega), ok_bind]
      · rw [if_neg (by omega), ResolvedRange.new, if_pos (by omega)]
        rfl
    · rw [if_pos (by omega), if_neg (by omega)]
  | «from» first =>
    obtain ⟨a, rfl, ha⟩ := h
    have hcomma : ',' ∉ a ++ ['-'] := by simp [ha.not_mem (c := ',') (by decide)]
    simp only [parseRange, stripPrefix_append, okOr_some, ok_bind, if_neg hcomma,
      splitOnce_char (ha.not_mem (c := '-') (by decide)), if_neg ha.digits.1, if_true, ha.parse, RangeSpec.slice]
    by_cases hlt : first < total
    · rw [if_neg (by omega), if_pos hlt, resolvedRange_new (by omega), ok_bind]
    · rw [if_pos (by omega), if_neg hlt]
  | suffix length =>
    obtain ⟨a, rfl, ha⟩ := h
    have hcomma : ',' ∉ '-' :: a := by simp [ha.not_mem (c := ',') (by decide)]
    have hsplit : splitOnce ['-'] ('-' :: a) = some ([], a) := splitOnce_char List.not_mem_nil a
    simp only [parseRange, stripPrefix_append, okOr_some, ok_bind, if_neg hcomma, hsplit, if_true, ha.parse,
      RangeSpec.slice]
    by_cases hpos : 0 < length ∧ 0 < total
    · have hstart : total - length = total - min length total := by omega
      rw [if_neg (by omega), if_pos hpos, hstart, resolvedRange_new (by omega), ok_bind]
    · rw [if_pos (by omega), if_neg hpos]

theorem resolvedRange_ok {first last : Nat} {range : ResolvedRange} (h : ResolvedRange.new first last = .ok range) :
    first ≤ last ∧ range = ⟨first, last⟩ := by
  unfold ResolvedRange.new at h
  split at h
  · cases h
  · cases h
    exact ⟨not_lt.mp ‹_›, rfl⟩

/-- Whatever was spelled, a resolved range lies within the asset. -/
theorem parseRange_ok {value : Str} {total : Nat} {resolved : Option ResolvedRange}
    (h : parseRange value total = .ok resolved) :
    ∃ range, resolved = some range ∧ range.start ≤ range.end ∧ range.end < total := by
  unfold parseRange at h
  obtain ⟨spec, -, h⟩ := bind_ok h
  split at h
  · cases h
  · obtain ⟨⟨first, second⟩, -, h⟩ := bind_ok h
    dsimp only at h
    split at h
    · obtain ⟨suffix, -, h⟩ := bind_ok h
      split at h
      · cases h
      · obtain ⟨found, hfound, h⟩ := bind_ok h
        cases h
        obtain ⟨hle, rfl⟩ := resolvedRange_ok hfound
        exact ⟨_, rfl, hle, by dsimp only; omega⟩
    · obtain ⟨start, -, h⟩ := bind_ok h
      split at h
      · cases h
      · split at h
        · obtain ⟨found, hfound, h⟩ := bind_ok h
          cases h
          obtain ⟨hle, rfl⟩ := resolvedRange_ok hfound
          exact ⟨_, rfl, hle, by dsimp only; omega⟩
        · obtain ⟨last, -, h⟩ := bind_ok h
          obtain ⟨found, hfound, h⟩ := bind_ok h
          cases h
          obtain ⟨hle, rfl⟩ := resolvedRange_ok hfound
          exact ⟨_, rfl, hle, by dsimp only; omega⟩

end Ranges

section Streaming

variable {K : AssetKernel} {G : GrantKernel K.AssetId}

/-- `AssetByteChunk::new` takes every chunk that lies within the asset. -/
def TakesChunks (K : AssetKernel) : Prop :=
  ∀ offset bytes total, offset + List.length bytes ≤ total → K.acceptsChunk offset bytes total = true

/-- No call to the store fails. -/
def soundReader (disk : Disk) : Reader K := localReader (fun _ => Faults.none) (fun _ => true) (fun _ => true) disk

/-- The asset is published with this descriptor and this content. -/
structure PublishedWith (disk : Disk) (assetId : K.AssetId) (d : SourceAssetDescriptor K) (content : Bytes) :
    Prop where
  row : lookupAsset Faults.none disk.assets assetId = .ok (some ⟨d, blobKey assetId, .published⟩)
  blob : disk.files.blobs.lookup (blobKey assetId) = some (.file content)
  length : content.length = d.byteLength

variable {disk : Disk} {assetId : K.AssetId} {d : SourceAssetDescriptor K} {content : Bytes}

theorem PublishedWith.read (h : PublishedWith disk assetId d content) (hK : TakesChunks K) (index : Nat)
    {range : AssetByteRange} (hend : range.offset + range.length ≤ content.length) :
    soundReader disk index assetId range =
      .ok ⟨range.offset, (content.drop range.offset).take range.length, d.byteLength⟩ := by
  have hpos := range.length_pos
  have hlen := h.length
  have hmin : min (range.offset + range.length) d.byteLength - range.offset = range.length := by omega
  have hchunk : K.acceptsChunk range.offset ((content.drop range.offset).take range.length) d.byteLength = true :=
    hK _ _ _ (by rw [List.length_take, List.length_drop]; omega)
  simp only [soundReader, localReader, h.row, blobNode, h.blob, readRange]
  rw [if_neg (not_not.mpr rfl), if_neg (by omega), if_neg (by omega), if_neg (by decide), hmin,
    if_neg (by simp; omega), newChunk, if_pos hchunk]

/-- The loop sends the window and nothing else. -/
theorem PublishedWith.stream (h : PublishedWith disk assetId d content) (hK : TakesChunks K) {link : Link G}
    (hwrites : link.fails = unfailing) (hsteady : ∀ n, link.cancelled n = false ∧ link.interrupted n = false)
    {chunkSize : Nat} (hchunk : 1 ≤ chunkSize) {remaining : Nat} :
    ∀ {index offset : Nat}, offset + remaining ≤ content.length →
      streamAsset link (soundReader disk) assetId chunkSize index offset remaining =
        ⟨(content.drop offset).take remaining, .ok ()⟩ := by
  induction remaining using Nat.strong_induction_on with
  | _ remaining ih =>
    intro index offset hle
    rw [streamAsset]
    by_cases hzero : remaining = 0
    · rw [if_pos hzero, hzero, List.take_zero]
      rfl
    · have hu64 : content.length ≤ u64Max := h.length ▸ d.length_le
      rw [if_neg hzero, if_neg (by simp [hsteady])]
      have hrange : AssetByteRange.new offset (min remaining chunkSize) =
          some ⟨offset, min remaining chunkSize, by omega, by omega⟩ := dif_pos (by omega)
      rw [hrange]
      dsimp only
      rw [if_neg (by simp [hsteady]), h.read hK index (by dsimp only; omega)]
      dsimp only
      have hlen : ((content.drop offset).take (min remaining chunkSize)).length = min remaining chunkSize := by
        rw [List.length_take, List.length_drop]
        omega
      rw [dif_neg (by rw [← List.length_eq_zero_iff]; omega), hlen, checkedAddU64, if_pos (by omega)]
      dsimp only
      rw [ih (remaining - min remaining chunkSize) (by omega) (by omega), hwrites, writeAll]
      simp only [unfailing, Outcome.andThen, Outcome.mk.injEq, and_true]
      rw [← List.drop_drop, ← List.take_add, Nat.add_sub_cancel' (Nat.min_le_left _ _)]

end Streaming

section Lines

/-- A text that stays on its line. -/
def OneLine (s : Str) : Prop := '\r' ∉ s ∧ '\n' ∉ s

instance (s : Str) : Decidable (OneLine s) := inferInstanceAs (Decidable (_ ∧ _))

theorem oneLine_append {s t : Str} (hs : OneLine s) (ht : OneLine t) : OneLine (s ++ t) := by
  simp only [OneLine, List.mem_append, not_or]
  exact ⟨⟨hs.1, ht.1⟩, hs.2, ht.2⟩

theorem oneLine_number (n : Nat) : OneLine (number n) := by
  have hdigit : ∀ c ∈ number n, c.isDigit = true := by
    intro c hc
    rw [number, Nat.toString_eq_repr, Nat.toList_repr] at hc
    exact Nat.isDigit_of_mem_toDigits (by decide) (by decide) hc
  exact ⟨fun h => absurd (hdigit _ h) (by decide), fun h => absurd (hdigit _ h) (by decide)⟩

theorem renderHead_oneLine {headers : Headers} (h : ∀ entry ∈ headers, OneLine entry.2) (status : Nat) :
    renderHead status headers = some (responseHead status headers) := by
  rw [renderHead, if_neg]
  rw [List.any_eq_true]
  rintro ⟨⟨name, value⟩, hmem, hbad⟩
  have hline := h _ hmem
  simp only [Bool.or_eq_true, List.contains_iff_mem] at hbad
  exact hbad.elim hline.1 hline.2

theorem mem_trim {c : Char} {s : Str} (h : c ∈ trim s) : c ∈ s :=
  (List.dropWhile_suffix _).subset ((List.rdropWhile_prefix _ _).subset h)

theorem parseHeader_oneLine {headers headers' : AList (fun _ : Str => Str)} {line : Str}
    (hline : ∀ name value, headers.lookup name = some value → OneLine value)
    (h : parseHeader headers line = .ok headers') :
    ∀ name value, headers'.lookup name = some value → OneLine value := by
  unfold parseHeader at h
  obtain ⟨⟨key, text⟩, -, h⟩ := bind_ok h
  dsimp only at h
  split at h
  · cases h
  · rename_i hbad
    cases h
    intro name value hvalue
    by_cases hname : name = toAsciiLowercase (trim key)
    · subst hname
      rw [AList.lookup_insert] at hvalue
      cases hvalue
      exact ⟨fun hr => hbad (.inr (.inl (mem_trim hr))), fun hn => hbad (.inr (.inr (mem_trim hn)))⟩
    · rw [AList.lookup_insert_ne hname] at hvalue
      exact hline name value hvalue

theorem parseHeaders_oneLine {lines : List Str} {headers headers' : AList (fun _ : Str => Str)}
    (hline : ∀ name value, headers.lookup name = some value → OneLine value)
    (h : lines.foldlM parseHeader headers = .ok headers') :
    ∀ name value, headers'.lookup name = some value → OneLine value := by
  induction lines generalizing headers with
  | nil =>
    cases h
    exact hline
  | cons line lines ih =>
    rw [List.foldlM_cons] at h
    obtain ⟨next, hnext, h⟩ := bind_ok h
    exact ih (parseHeader_oneLine hline hnext) h

/-- The header values of a request that was read stay on their lines. -/
theorem readRequest_oneLine {reads : List Bytes} {request : HttpRequest} (h : readRequest reads = .ok request)
    {name : String} {value : Str} (hvalue : request.header name = some value) : OneLine value := by
  unfold readRequest at h
  obtain ⟨buffer, -, h⟩ := bind_ok h
  obtain ⟨text, -, h⟩ := bind_ok h
  unfold parseHead at h
  split at h
  · cases h
  · obtain ⟨⟨method, target⟩, -, h⟩ := bind_ok h
    obtain ⟨headers, hheaders, h⟩ := bind_ok h
    have hlines := parseHeaders_oneLine (fun name value h => by simp at h) hheaders
    split at h
    · split at h
      · cases h
      · cases h
        exact hlines _ _ hvalue
    · cases h
      exact hlines _ _ hvalue

theorem corsHeaders_oneLine {origin : Option Str} (h : ∀ value, origin = some value → OneLine value) :
    ∀ entry ∈ corsHeaders origin, OneLine entry.2 := by
  cases origin with
  | none => exact fun entry hmem => absurd hmem List.not_mem_nil
  | some value =>
    have hvalue := h value rfl
    simp only [corsHeaders, List.forall_mem_cons, List.not_mem_nil, false_implies, implies_true, and_true]
    exact ⟨hvalue, by decide, by decide, by decide, by decide⟩

theorem baseHeaders_oneLine {mediaType hash : Str} (hmedia : OneLine mediaType) (hhash : OneLine hash)
    (length : Nat) : ∀ entry ∈ baseHeaders mediaType length hash, OneLine entry.2 := by
  simp only [baseHeaders, List.forall_mem_cons, List.not_mem_nil, false_implies, implies_true, and_true]
  exact ⟨hmedia, oneLine_number length, by decide,
    oneLine_append (oneLine_append (by decide) hhash) (by decide), by decide⟩

end Lines

section Delivery

variable {K : AssetKernel} {G : GrantKernel K.AssetId}

/-- The local store without I/O errors. -/
def soundServer (entries : Entries G) (disk : Disk) : Server G :=
  localServer entries (fun _ => Faults.none) (fun _ => true) (fun _ => true) disk

/-- An authorised request for a published asset, with nothing going wrong on the way. -/
structure Delivery (config : Config) (link : Link G) (entries : Entries G) (disk : Disk) (request : HttpRequest)
    (assetId : K.AssetId) (d : SourceAssetDescriptor K) (content : Bytes) : Prop where
  chunkSize : 1 ≤ config.chunkSize
  published : PublishedWith disk assetId d content
  mediaType : OneLine d.mediaType.toList
  read : readRequest link.reads = .ok request
  authorised : Authorised config link (soundServer entries disk) request assetId
  writes : link.fails = unfailing
  steady : ∀ n, link.cancelled n = false ∧ link.interrupted n = false
  permit : link.permit = true

/-- The headers that describe `length` bytes of an asset. -/
def sliceHeaders (d : SourceAssetDescriptor K) (length : Nat) : Headers :=
  baseHeaders d.mediaType.toList length (K.hashText d.contentHash).toList

def contentRange (first last total : Nat) : Str × Str :=
  ("Content-Range".toList,
    "bytes ".toList ++ number first ++ ['-'] ++ number last ++ ['/'] ++ number total)

def unsatisfied (total : Nat) : Headers :=
  simpleHeaders "range not satisfiable" [("Content-Range".toList, "bytes */".toList ++ number total)]

variable {config : Config} {link : Link G} {entries : Entries G} {disk : Disk} {request : HttpRequest}
  {assetId : K.AssetId} {d : SourceAssetDescriptor K} {content : Bytes}

theorem Delivery.outcome (h : Delivery config link entries disk request assetId d content) :
    (handleConnection config link (soundServer entries disk)).1 =
      send config link (soundReader disk) (answerAsset true request d assetId) := by
  have hcatalog : (soundServer entries disk).catalog assetId = .ok (some d) := by
    simp only [soundServer, localServer, localCatalog, h.published.row, getAsset, if_true]
  rw [handleConnection, h.read]
  dsimp only
  rw [h.authorised.answer hcatalog, h.permit]
  rfl

theorem writeResponse_unfailing {headers : Headers} (h : ∀ entry ∈ headers, OneLine entry.2) (status : Nat) :
    writeResponse unfailing status headers none = ⟨utf8 (responseHead status headers), .ok ()⟩ := by
  rw [writeResponse, renderHead_oneLine h]
  simp only [writeAll, unfailing, Outcome.andThen, Outcome.done, List.append_nil]

theorem Delivery.headers_oneLine (h : Delivery config link entries disk request assetId d content)
    (hhash : OneLine (K.hashText d.contentHash).toList) (length : Nat) {extra : Headers}
    (hextra : ∀ entry ∈ extra, OneLine entry.2) :
    ∀ entry ∈ sliceHeaders d length ++ extra ++ corsHeaders (request.header "origin"), OneLine entry.2 := by
  intro entry hmem
  rcases List.mem_append.mp hmem with hmem | hmem
  · rcases List.mem_append.mp hmem with hmem | hmem
    · exact baseHeaders_oneLine h.mediaType hhash length entry hmem
    · exact hextra entry hmem
  · exact corsHeaders_oneLine (fun value hvalue => readRequest_oneLine h.read hvalue) entry hmem

/-- The head with the length of the slice, and the slice. -/
theorem Delivery.sendSlice (h : Delivery config link entries disk request assetId d content)
    (hK : TakesChunks K) (hhash : OneLine (K.hashText d.contentHash).toList) (status : Nat)
    {start length : Nat} (hle : start + length ≤ content.length) {range : Option Str}
    (hrange : ∀ value, range = some value → OneLine value) :
    send config link (soundReader disk)
        (answerSlice true (request.header "origin") d assetId status start length range) =
      ⟨utf8 (responseHead status (sliceHeaders d length ++
          range.toList.map (fun value => ("Content-Range".toList, value)) ++
          corsHeaders (request.header "origin"))) ++ (content.drop start).take length, .ok ()⟩ := by
  have hextra : ∀ entry ∈ range.toList.map (fun value => ("Content-Range".toList, value)), OneLine entry.2 := by
    intro entry hmem
    obtain ⟨value, hvalue, rfl⟩ := List.mem_map.mp hmem
    exact hrange value (Option.mem_toList.mp hvalue)
  have hlines := h.headers_oneLine hhash length hextra
  unfold answerSlice
  dsimp only
  split
  · rw [if_neg (by decide), send, h.writes, ← sliceHeaders, writeResponse_unfailing hlines,
      h.published.stream hK h.writes h.steady h.chunkSize hle]
    rfl
  · have hzero : length = 0 := by omega
    subst hzero
    rw [send, h.writes, ← sliceHeaders, writeResponse_unfailing hlines, List.take_zero, List.append_nil]

/-- What the peer gets for each kind of request. -/
structure ExactSlices (config : Config) (link : Link G) (entries : Entries G) (disk : Disk)
    (request : HttpRequest) (d : SourceAssetDescriptor K) (content : Bytes) : Prop where
  whole : request.method = "GET".toList → request.header "range" = none →
    (handleConnection config link (soundServer entries disk)).1 =
      ⟨utf8 (responseHead 200 (sliceHeaders d content.length ++ corsHeaders (request.header "origin"))) ++
        content, .ok ()⟩
  slice : request.method = "GET".toList → ∀ value (spec : RangeSpec), request.header "range" = some value →
    spec.Spells value → ∀ first last, spec.slice content.length = some (first, last) →
    (handleConnection config link (soundServer entries disk)).1 =
      ⟨utf8 (responseHead 206 (sliceHeaders d (last - first + 1) ++ [contentRange first last content.length] ++
        corsHeaders (request.header "origin"))) ++ (content.drop first).take (last - first + 1), .ok ()⟩ ∧
    first ≤ last ∧ last < content.length
  unsatisfiable : request.method = "GET".toList → ∀ value (spec : RangeSpec), request.header "range" = some value →
    spec.Spells value → spec.slice content.length = none →
    (handleConnection config link (soundServer entries disk)).1 =
      ⟨utf8 (responseHead 416 (unsatisfied content.length)) ++ simpleBody "range not satisfiable", .ok ()⟩
  head : request.method = "HEAD".toList →
    (handleConnection config link (soundServer entries disk)).1 =
      ⟨utf8 (responseHead 200 (sliceHeaders d content.length ++ corsHeaders (request.header "origin"))), .ok ()⟩
  /-- Whatever the range header says, the announced length is the length of the body. -/
  announced : request.method = "GET".toList → ∃ status headers body,
    (handleConnection config link (soundServer entries disk)).1 =
      ⟨utf8 (responseHead status headers) ++ body, .ok ()⟩ ∧
    ("Content-Length".toList, number body.length) ∈ headers
  /-- No position, length or end leaves the 64 bits, and no difference is negative. -/
  arithmetic : content.length ≤ u64Max ∧ ∀ value range, parseRange value content.length = .ok (some range) →
    range.start ≤ range.end ∧ range.end < content.length ∧ range.start + range.length ≤ content.length

theorem length_bounds {range : ResolvedRange} {total : Nat} (hle : range.start ≤ range.end)
    (hlt : range.end < total) : range.start + range.length ≤ total := by
  unfold ResolvedRange.length
  omega

theorem slice_bounds {spec : RangeSpec} {total first last : Nat} (h : spec.slice total = some (first, last)) :
    first ≤ last ∧ last < total := by
  cases spec with
  | span a b =>
    simp only [RangeSpec.slice, Option.ite_none_right_eq_some, Option.some.injEq, Prod.mk.injEq] at h
    omega
  | «from» a =>
    simp only [RangeSpec.slice, Option.ite_none_right_eq_some, Option.some.injEq, Prod.mk.injEq] at h
    omega
  | suffix n =>
    simp only [RangeSpec.slice, Option.ite_none_right_eq_some, Option.some.injEq, Prod.mk.injEq] at h
    omega

theorem contentRange_oneLine (first last total : Nat) : OneLine (contentRange first last total).2 :=
  oneLine_append (oneLine_append (oneLine_append (oneLine_append (oneLine_append (by decide)
    (oneLine_number first)) (by decide)) (oneLine_number last)) (by decide)) (oneLine_number total)

theorem Delivery.sendWhole (h : Delivery config link entries disk request assetId d content)
    (hK : TakesChunks K) (hhash : OneLine (K.hashText d.contentHash).toList) :
    send config link (soundReader disk) (answerResolved true (request.header "origin") d assetId none) =
      ⟨utf8 (responseHead 200 (sliceHeaders d content.length ++ corsHeaders (request.header "origin"))) ++
        content, .ok ()⟩ := by
  have hlen := h.published.length
  rw [answerResolved, h.sendSlice hK hhash 200 (by omega) (fun value hvalue => by cases hvalue), ← hlen,
    List.drop_zero, List.take_length, Option.toList_none, List.map_nil, List.append_nil]

theorem Delivery.sendResolved (h : Delivery config link entries disk request assetId d content)
    (hK : TakesChunks K) (hhash : OneLine (K.hashText d.contentHash).toList) {range : ResolvedRange}
    (hle : range.start ≤ range.end) (hlt : range.end < content.length) :
    send config link (soundReader disk) (answerResolved true (request.header "origin") d assetId (some range)) =
      ⟨utf8 (responseHead 206 (sliceHeaders d range.length ++
        [contentRange range.start range.end content.length] ++ corsHeaders (request.header "origin"))) ++
        (content.drop range.start).take range.length, .ok ()⟩ := by
  have hvalue : ∀ value, some (contentRange range.start range.end content.length).2 = some value → OneLine value := by
    intro value hvalue
    cases hvalue
    exact contentRange_oneLine range.start range.end content.length
  rw [answerResolved, ← h.published.length]
  exact h.sendSlice hK hhash 206 (length_bounds hle hlt) hvalue

theorem Delivery.plain (h : Delivery config link entries disk request assetId d content) (status : Nat)
    (message : String) {extra : Headers} (hextra : ∀ entry ∈ extra, OneLine entry.2) :
    send config link (soundReader disk) (.simple status message extra : Reply K) =
      ⟨utf8 (responseHead status (simpleHeaders message extra)) ++ simpleBody message, .ok ()⟩ := by
  have hlines : ∀ entry ∈ simpleHeaders message extra, OneLine entry.2 := by
    simp only [simpleHeaders, List.cons_append, List.nil_append, List.forall_mem_cons]
    exact ⟨by decide, oneLine_number _, by decide, hextra⟩
  rw [send, writeSimpleResponse, writeResponse, renderHead_oneLine hlines, h.writes]
  rfl

theorem Delivery.answer_get (h : Delivery config link entries disk request assetId d content)
    (hget : request.method = "GET".toList) :
    answerAsset true request d assetId = match request.header "range" with
      | none => answerResolved true (request.header "origin") d assetId none
      | some value => match parseRange value d.byteLength with
        | .ok resolved => answerResolved true (request.header "origin") d assetId resolved
        | .error .malformed => .simple 400 "bad range" []
        | .error .unsatisfiable | .error .multiple =>
          .simple 416 "range not satisfiable"
            [("Content-Range".toList, "bytes */".toList ++ number d.byteLength)] := by
  have hhead : request.method ≠ "HEAD".toList := by
    rw [hget]
    decide
  unfold answerAsset
  dsimp only
  rw [if_neg (not_or.mpr h.mediaType)]
  exact if_neg hhead

/-- Each authorised request gets exactly the bytes that it asks for. -/
theorem delivers_exact_slices (hK : TakesChunks K) (hhash : OneLine (K.hashText d.contentHash).toList)
    (h : Delivery config link entries disk request assetId d content) :
    ExactSlices config link entries disk request d content := by
  have hlen := h.published.length
  have hunsatisfied : ∀ total, ∀ entry ∈ [("Content-Range".toList, "bytes */".toList ++ number total)],
      OneLine entry.2 := by
    intro total entry hmem
    rw [List.mem_singleton.mp hmem]
    exact oneLine_append (by decide) (oneLine_number total)
  constructor
  case whole =>
    intro hget hrange
    rw [h.outcome, h.answer_get hget, hrange]
    dsimp only
    exact h.sendWhole hK hhash
  case slice =>
    intro hget value spec hrange hspells first last hslice
    obtain ⟨hle, hlt⟩ := slice_bounds hslice
    rw [h.outcome, h.answer_get hget, hrange]
    dsimp only
    rw [← hlen, parseRange_spells hspells, hslice]
    dsimp only
    exact ⟨h.sendResolved hK hhash hle hlt, hle, hlt⟩
  case unsatisfiable =>
    intro hget value spec hrange hspells hslice
    rw [h.outcome, h.answer_get hget, hrange]
    dsimp only
    rw [← hlen, parseRange_spells hspells, hslice]
    exact h.plain 416 _ (hunsatisfied _)
  case head =>
    intro hhead
    rw [h.outcome]
    unfold answerAsset
    dsimp only
    have hlines := h.headers_oneLine hhash content.length (List.forall_mem_nil _)
    rw [if_neg (not_or.mpr h.mediaType), if_pos hhead, send, h.writes, ← hlen, ← sliceHeaders]
    rw [List.append_nil] at hlines
    exact writeResponse_unfailing hlines 200
  case announced =>
    intro hget
    rw [h.outcome, h.answer_get hget]
    have hlength : ∀ {n}, ("Content-Length".toList, number n) ∈ sliceHeaders d n :=
      List.mem_cons_of_mem _ List.mem_cons_self
    cases hrange : request.header "range" with
    | none => exact ⟨_, _, _, h.sendWhole hK hhash, List.mem_append_left _ hlength⟩
    | some value =>
      dsimp only
      cases hparse : parseRange value d.byteLength with
      | ok resolved =>
        obtain ⟨range, rfl, hle, hlt⟩ := parseRange_ok hparse
        rw [← hlen] at hlt
        have hbounds := length_bounds hle hlt
        refine ⟨_, _, _, h.sendResolved hK hhash hle hlt, List.mem_append_left _ (List.mem_append_left _ ?_)⟩
        rw [List.length_take, List.length_drop, Nat.min_eq_left (by omega)]
        exact hlength
      | error e =>
        cases e with
        | malformed => exact ⟨_, _, _, h.plain 400 _ (by simp), List.mem_cons_of_mem _ List.mem_cons_self⟩
        | unsatisfiable =>
          exact ⟨_, _, _, h.plain 416 _ (hunsatisfied _), List.mem_cons_of_mem _ List.mem_cons_self⟩
        | multiple => exact ⟨_, _, _, h.plain 416 _ (hunsatisfied _), List.mem_cons_of_mem _ List.mem_cons_self⟩
  case arithmetic =>
    refine ⟨hlen ▸ d.length_le, ?_⟩
    intro value range hparse
    obtain ⟨found, heq, hle, hlt⟩ := parseRange_ok hparse
    cases heq
    exact ⟨hle, hlt, length_bounds hle hlt⟩

end Delivery

section Sample

/-- A head that comes in one piece. -/
theorem readRequest_single {front : Str} {request : HttpRequest}
    (h : parseHead (front ++ headEnd) = .ok request) : readRequest [utf8 (front ++ headEnd)] = .ok request := by
  have hne : utf8 (front ++ headEnd) ≠ [] := by
    rw [utf8_append]
    exact List.append_ne_nil_of_right_ne_nil _ (by decide)
  have hend : utf8 headEnd <:+: [] ++ utf8 (front ++ headEnd) := by
    rw [List.nil_append, utf8_append]
    exact (List.suffix_append _ _).isInfix
  rw [readRequest, readHead, if_neg (by decide), if_neg hne, if_pos hend, List.nil_append, ok_bind,
    fromUtf8_utf8, okOr_some, ok_bind, h]

def sampleToken : Str := List.replicate 43 'A'

def sampleText : Str :=
  "GET /assets/aaaaaaaa-asset HTTP/1.1\r\nRange: bytes=0-7\r\nAuthorization: Bearer ".toList ++ sampleToken ++
    headEnd

def sampleRequest : HttpRequest where
  method := "GET".toList
  target := "/assets/aaaaaaaa-asset".toList
  headers := ((∅ : AList (fun _ : Str => Str)).insert "range".toList "bytes=0-7".toList).insert
    "authorization".toList ("Bearer ".toList ++ sampleToken)

set_option maxRecDepth 20000 in
theorem sampleRequest_parsed : parseHead sampleText = .ok sampleRequest := rfl

def sampleLink : Link (sampleKernel String) where
  reads := [utf8 sampleText]
  fails := unfailing
  cancelled := fun _ => false
  interrupted := fun _ => false
  now := sampleTime
  permit := true

theorem sampleLink_read : readRequest sampleLink.reads = .ok sampleRequest :=
  readRequest_single sampleRequest_parsed

def sampleDisk : Disk :=
  ⟨(∅ : AssetTable).insert "aaaaaaaa-asset" sampleRow,
    ⟨(∅ : Dir).insert "aaaaaaaa-asset.blob" (.file [0x61]), ∅, ∅⟩⟩

def sampleEntries : Entries (sampleKernel String) :=
  (issue sampleIssuer ∅ sampleTime (some zeroBytes) "aaaaaaaa-asset" () () ()).1

theorem sampleToken_eq : Base64Url.base64url zeroBytes.1 = sampleToken := by
  rw [Base64Url.base64url_eq]
  rfl

theorem sampleRequest_origin : sampleRequest.header "origin" = none := by decide

theorem sampleRequest_token : bearerToken (sampleRequest.header "authorization") = some sampleToken := by
  decide

theorem sampleEntries_lookup : sampleEntries.lookup zeroDigest =
    some ⟨"aaaaaaaa-asset", (), (), (), ⟨1700000600, by decide⟩⟩ := rfl

theorem sampleGrant : (validate sampleEntries sampleTime sampleToken "aaaaaaaa-asset").2 =
    .ok ⟨"aaaaaaaa-asset", (), (), (), ⟨1700000600, by decide⟩⟩ :=
  validate_ok_iff.mpr ⟨zeroBytes, sampleToken_eq, sampleEntries_lookup, by decide, rfl⟩

theorem sampleDelivery :
    Delivery (K := textAssets) ⟨[], 1⟩ sampleLink sampleEntries sampleDisk sampleRequest "aaaaaaaa-asset"
      sampleDescriptor [0x61] where
  chunkSize := by decide
  published := ⟨rfl, rfl, rfl⟩
  mediaType := by decide
  read := sampleLink_read
  authorised :=
    { method := .inl rfl
      target := ⟨"aaaaaaaa-asset".toList, rfl, by decide, by decide, rfl⟩
      exact := by decide
      origin := fun origin h => by rw [sampleRequest_origin] at h; cases h
      grant := ⟨sampleToken, _, sampleRequest_token, sampleGrant⟩ }
  writes := rfl
  steady := fun _ => ⟨rfl, rfl⟩
  permit := rfl

/-- The first eight bytes of an asset of one byte. -/
theorem delivers_exact_slices_sample :
    Delivery (K := textAssets) ⟨[], 1⟩ sampleLink sampleEntries sampleDisk sampleRequest "aaaaaaaa-asset"
      sampleDescriptor [0x61] ∧
    (RangeSpec.span 0 7).Spells "bytes=0-7".toList ∧ (RangeSpec.span 0 7).slice 1 = some (0, 0) ∧
    ExactSlices (K := textAssets) ⟨[], 1⟩ sampleLink sampleEntries sampleDisk sampleRequest sampleDescriptor
      [0x61] := by
  refine ⟨sampleDelivery, ⟨['0'], ['7'], rfl, ⟨rfl, by decide⟩, ⟨rfl, by decide⟩⟩, rfl, ?_⟩
  exact delivers_exact_slices (fun offset bytes total h => decide_eq_true h) (by decide) sampleDelivery

end Sample

end OrbitRelay.AssetHttp
