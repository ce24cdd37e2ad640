import OrbitRelay.AssetHttp
import OrbitRelay.AssetRecovery

/-!
# What leaves the Asset listener without a Grant

Every reply is either one of a few fixed texts or is made for an asset whose Grant
was checked in the same connection; and the fixed texts come first. So two servers
that differ in nothing the request may read answer it with the same bytes.
-/
namespace OrbitRelay.AssetHttp

open AssetStore Codec Grant Text Transition

variable {K : AssetKernel} {G : GrantKernel K.AssetId}

/-- All the checks that stand before the catalog is asked about an asset. -/
structure Authorised (config : Config) (link : Link G) (server : Server G) (request : HttpRequest)
    (assetId : K.AssetId) : Prop where
  method : request.method = "GET".toList ∨ request.method = "HEAD".toList
  target : ∃ text, request.target = "/assets/".toList ++ text ∧ text ≠ [] ∧ '/' ∉ text ∧
    K.assetId.parse (String.ofList text) = some assetId
  exact : '?' ∉ request.target ∧ '#' ∉ request.target
  origin : ∀ origin, request.header "origin" = some origin → origin ∈ config.allowedOrigins
  grant : ∃ token grant, bearerToken (request.header "authorization") = some token ∧
    (validate server.entries link.now token assetId).2 = .ok grant

/-- The texts of the fixed refusals. -/
def refusals : List (Nat × String) :=
  [(400, "bad request"), (400, "bad range"), (401, "unauthorized"), (403, "forbidden"),
    (404, "not found"), (405, "method not allowed"), (500, "internal server error"),
    (503, "service unavailable"), (503, "server busy")]

/-- Replies that depend on the origin of the request and on nothing else. -/
inductive Plain (origin : Option Str) : Reply K → Prop
  | refusal {status : Nat} {message : String} (h : (status, message) ∈ refusals) :
      Plain origin (.simple status message [])
  | options : Plain origin (.head 204 (corsHeaders origin ++ [("Content-Length".toList, ['0'])]))

theorem Plain.status {origin : Option Str} {reply : Reply K} (h : Plain origin reply) :
    reply.status ∈ [204, 400, 401, 403, 404, 405, 500, 503] := by
  cases h with
  | refusal h =>
    simp only [refusals, List.mem_cons, Prod.mk.injEq, List.not_mem_nil, or_false] at h
    simp only [Reply.status, List.mem_cons, List.not_mem_nil, or_false]
    omega
  | options => exact List.mem_cons_self

section Branches

variable {config : Config} {link : Link G} {server : Server G} {request : HttpRequest}

theorem answerSlice_cases {permit : Bool} {origin : Option Str} {asset : SourceAssetDescriptor K}
    {assetId : K.AssetId} {status start length : Nat} {contentRange : Option Str} :
    Plain origin (answerSlice permit origin asset assetId status start length contentRange) ∨
      (answerSlice permit origin asset assetId status start length contentRange).status = status := by
  unfold answerSlice
  dsimp only
  split
  · split
    · exact .inl (.refusal (by decide))
    · exact .inr rfl
  · exact .inr rfl

theorem answerResolved_cases {permit : Bool} {origin : Option Str} {asset : SourceAssetDescriptor K}
    {assetId : K.AssetId} {resolved : Option ResolvedRange} :
    Plain origin (answerResolved permit origin asset assetId resolved) ∨
      (answerResolved permit origin asset assetId resolved).status ∈ [200, 206, 416] := by
  cases resolved with
  | none =>
    rw [answerResolved]
    refine answerSlice_cases.imp_right fun h => ?_
    rw [h]
    exact List.mem_cons_self
  | some range =>
    rw [answerResolved]
    refine answerSlice_cases.imp_right fun h => ?_
    rw [h]
    exact List.mem_cons_of_mem _ List.mem_cons_self

theorem answerAsset_cases (permit : Bool) (asset : SourceAssetDescriptor K) (assetId : K.AssetId) :
    Plain (request.header "origin") (answerAsset permit request asset assetId) ∨
      (answerAsset permit request asset assetId).status ∈ [200, 206, 416] := by
  unfold answerAsset
  dsimp only
  split
  · exact .inl (.refusal (by decide))
  · split
    · exact .inr List.mem_cons_self
    · split
      · exact answerResolved_cases
      · split
        · exact answerResolved_cases
        · exact .inl (.refusal (by decide))
        · exact .inr (by simp [Reply.status])
        · exact .inr (by simp [Reply.status])

/-- The reply is fixed, or all checks passed and the asset was found. -/
theorem answer_cases (config : Config) (link : Link G) (server : Server G) (request : HttpRequest) :
    Plain (request.header "origin") (answer config link server request).1 ∨
      ∃ assetId asset, Authorised config link server request assetId ∧
        server.catalog assetId = .ok (some asset) ∧
        (answer config link server request).1 = answerAsset link.permit request asset assetId := by
  unfold answer
  dsimp only
  split
  · exact .inl (.refusal (by decide))
  · rename_i horigin
    split
    · exact .inl .options
    · split
      · exact .inl (.refusal (by decide))
      · rename_i hmethod
        split
        · exact .inl (.refusal (by decide))
        · rename_i hexact
          split
          · exact .inl (.refusal (by decide))
          · rename_i text htext
            split
            · exact .inl (.refusal (by decide))
            · rename_i hshape
              split
              · exact .inl (.refusal (by decide))
              · rename_i assetId hparse
                split
                · exact .inl (.refusal (by decide))
                · rename_i token htoken
                  split
                  · exact .inl (.refusal (by decide))
                  · rename_i entries grant hgrant
                    split
                    · exact .inl (.refusal (by decide))
                    · exact .inl (.refusal (by decide))
                    · rename_i asset hasset
                      have hauthorised : Authorised config link server request assetId :=
                        { method := or_iff_not_and_not.mpr hmethod
                          target := ⟨text, stripPrefix_eq_some.mp htext, (not_or.mp hshape).1,
                            (not_or.mp hshape).2, hparse⟩
                          exact := not_or.mp hexact
                          origin := fun origin ho => by simpa [ho] using horigin
                          grant := ⟨token, grant, htoken, congrArg Prod.snd hgrant⟩ }
                      exact .inr ⟨assetId, asset, hauthorised, hasset, rfl⟩

/-- After the checks the reply depends on the catalog only. -/
theorem Authorised.answer {assetId : K.AssetId} (h : Authorised config link server request assetId)
    {asset : SourceAssetDescriptor K} (hasset : server.catalog assetId = .ok (some asset)) :
    (answer config link server request).1 = answerAsset link.permit request asset assetId := by
  obtain ⟨text, htarget, hne, hslash, hparse⟩ := h.target
  obtain ⟨token, grant, htoken, hgrant⟩ := h.grant
  have horigin : ¬ (request.header "origin").any (fun origin => !config.allowedOrigins.contains origin) = true := by
    cases ho : request.header "origin" with
    | none => simp
    | some origin => simp [h.origin origin ho]
  have hmethod : ¬ (request.method ≠ "GET".toList ∧ request.method ≠ "HEAD".toList) :=
    or_iff_not_and_not.mp h.method
  have hoptions : request.method ≠ "OPTIONS".toList := by
    rcases h.method with hget | hhead
    · rw [hget]
      decide
    · rw [hhead]
      decide
  unfold AssetHttp.answer
  dsimp only
  rw [if_neg horigin, if_neg hoptions, if_neg hmethod, if_neg (not_or.mpr h.exact), htarget, stripPrefix_append]
  dsimp only
  rw [if_neg (not_or.mpr ⟨hne, hslash⟩), hparse]
  dsimp only
  rw [htoken]
  dsimp only
  cases hvalidate : validate server.entries link.now token assetId with
  | mk entries result =>
    rw [hvalidate] at hgrant
    cases hgrant
    dsimp only
    rw [hasset]

end Branches

section Writing

/-- Every write goes through. -/
def unfailing : Nat → Option Nat := fun _ => none

/-- The whole text of a reply that has no asset bytes behind it. -/
def Reply.text : Reply K → Bytes
  | .simple status message extra => (writeSimpleResponse unfailing status message extra).written
  | .head status headers | .content status headers _ _ _ => (writeResponse unfailing status headers none).written

theorem writeAll_prefix (fails : Nat → Option Nat) (index : Nat) (bytes : Bytes) :
    (writeAll fails index bytes).written <+: bytes := by
  unfold writeAll
  split
  · exact List.prefix_rfl
  · exact List.take_prefix _ bytes

theorem writeAll_ok {fails : Nat → Option Nat} {index : Nat} {bytes : Bytes}
    (h : (writeAll fails index bytes).result = .ok ()) : (writeAll fails index bytes).written = bytes := by
  unfold writeAll at h ⊢
  split at h
  · rfl
  · cases h

/-- What is written before a write fails is a beginning of the whole response. -/
theorem writeResponse_prefix (fails : Nat → Option Nat) (status : Nat) (headers : Headers)
    (body : Option Bytes) :
    (writeResponse fails status headers body).written <+:
      (writeResponse unfailing status headers body).written := by
  unfold writeResponse
  split
  · exact List.prefix_rfl
  · rename_i head _
    have hwhole : writeAll unfailing 0 (utf8 head) = ⟨utf8 head, .ok ()⟩ := rfl
    rw [hwhole]
    cases hresult : (writeAll fails 0 (utf8 head)).result with
    | error e =>
      rw [Outcome.andThen, hresult]
      exact List.IsPrefix.trans ( writeAll_prefix fails 0 _) (List.prefix_append _ _)
    | ok _ =>
      rw [Outcome.andThen, hresult, writeAll_ok hresult]
      apply (List.prefix_append_right_inj _).mpr
      cases body with
      | none => exact List.prefix_rfl
      | some body => exact writeAll_prefix fails 1 body

theorem Plain.written {origin : Option Str} {reply : Reply K} (h : Plain origin reply) (config : Config)
    (link : Link G) (reader : Reader K) : (send config link reader reply).written <+: reply.text := by
  cases h with
  | refusal => exact writeResponse_prefix link.fails _ _ _
  | options => exact writeResponse_prefix link.fails _ _ _

end Writing

/-- Whether the request carries a token that is good for this asset. -/
def HoldsGrant (link : Link G) (server : Server G) (assetId : K.AssetId) : Prop :=
  ∃ request token grant, readRequest link.reads = .ok request ∧
    bearerToken (request.header "authorization") = some token ∧
    (validate server.entries link.now token assetId).2 = .ok grant

/-- The two servers answer alike about these assets. -/
def AgreeOn (P : K.AssetId → Prop) (server server' : Server G) : Prop :=
  ∀ assetId, P assetId → server'.catalog assetId = server.catalog assetId ∧
    ∀ index range, server'.reader index assetId range = server.reader index assetId range

section Interference

variable {config : Config} {link : Link G} {server server' : Server G} {request : HttpRequest}

theorem streamAsset_congr {reader reader' : Reader K} {assetId : K.AssetId}
    (h : ∀ index range, reader' index assetId range = reader index assetId range) (chunkSize : Nat)
    (index offset remaining : Nat) :
    streamAsset link reader' assetId chunkSize index offset remaining =
      streamAsset link reader assetId chunkSize index offset remaining := by
  fun_induction streamAsset link reader assetId chunkSize index offset remaining with
  | case1 => rw [streamAsset, if_pos rfl]
  | case2 _ _ _ hrem hcancelled => rw [streamAsset, if_neg hrem, if_pos hcancelled]
  | case3 _ _ _ hrem hcancelled hrange =>
    rw [streamAsset]
    simp only [if_neg hrem, if_neg hcancelled, hrange]
  | case4 _ _ _ hrem hcancelled _ hrange hinterrupted =>
    rw [streamAsset]
    simp only [if_neg hrem, if_neg hcancelled, hrange, if_pos hinterrupted]
  | case5 _ _ _ hrem hcancelled _ hrange hinterrupted _ hread =>
    rw [streamAsset]
    simp only [if_neg hrem, if_neg hcancelled, hrange, if_neg hinterrupted, h, hread]
  | case6 _ _ _ hrem hcancelled _ hrange hinterrupted _ hread hchunk =>
    rw [streamAsset]
    simp only [if_neg hrem, if_neg hcancelled, hrange, if_neg hinterrupted, h, hread, dif_pos hchunk]
  | case7 _ _ _ hrem hcancelled _ hrange hinterrupted _ hread hchunk ih =>
    rw [streamAsset]
    simp only [if_neg hrem, if_neg hcancelled, hrange, if_neg hinterrupted, h, hread, dif_neg hchunk, ih]

theorem send_congr {reader reader' : Reader K} {reply : Reply K}
    (h : ∀ status headers assetId start length, reply = .content status headers assetId start length →
      ∀ index range, reader' index assetId range = reader index assetId range) :
    send config link reader' reply = send config link reader reply := by
  cases reply with
  | simple => rfl
  | head => rfl
  | content status headers assetId start length =>
    rw [send, send, streamAsset_congr (h status headers assetId start length rfl)]

theorem answerSlice_content {permit : Bool} {origin contentRange : Option Str}
    {asset : SourceAssetDescriptor K} {assetId other : K.AssetId} {status status' start start' length length' : Nat}
    {headers : Headers}
    (h : answerSlice permit origin asset assetId status start length contentRange =
      .content status' headers other start' length') :
    other = assetId ∧ ("Content-Length".toList, number length') ∈ headers := by
  unfold answerSlice at h
  dsimp only at h
  split at h
  · split at h
    · cases h
    · cases h
      exact ⟨rfl, by simp [baseHeaders]⟩
  · cases h

/-- A reply to `assetId` that sends bytes sends those of `assetId`, as many as it announces. -/
theorem answerAsset_content {permit : Bool} {asset : SourceAssetDescriptor K} {assetId other : K.AssetId}
    {status start length : Nat} {headers : Headers}
    (h : answerAsset permit request asset assetId = .content status headers other start length) :
    other = assetId ∧ ("Content-Length".toList, number length) ∈ headers := by
  have hslice : ∀ {resolved}, answerResolved permit (request.header "origin") asset assetId resolved =
      .content status headers other start length →
      other = assetId ∧ ("Content-Length".toList, number length) ∈ headers := by
    intro resolved h
    cases resolved with
    | none =>
      rw [answerResolved] at h
      exact answerSlice_content h
    | some range =>
      rw [answerResolved] at h
      exact answerSlice_content h
  unfold answerAsset at h
  dsimp only at h
  split at h
  · cases h
  · split at h
    · cases h
    · split at h
      · exact hslice h
      · split at h
        · exact hslice h
        · cases h
        · cases h
        · cases h

/-- Only an asset with a good token is asked for. -/
theorem answer_congr (hentries : server'.entries = server.entries)
    (hcatalog : ∀ assetId token grant, bearerToken (request.header "authorization") = some token →
      (validate server.entries link.now token assetId).2 = .ok grant →
      server'.catalog assetId = server.catalog assetId) :
    answer config link server' request = answer config link server request := by
  unfold answer
  dsimp only
  rw [hentries]
  split
  · rfl
  · split
    · rfl
    · split
      · rfl
      · split
        · rfl
        · split
          · rfl
          · split
            · rfl
            · split
              · rfl
              · rename_i assetId _
                split
                · rfl
                · rename_i token htoken
                  split
                  · rfl
                  · rename_i entries grant hgrant
                    rw [hcatalog assetId token grant htoken (congrArg Prod.snd hgrant)]

theorem handleConnection_congr (hentries : server'.entries = server.entries)
    (hagree : AgreeOn (HoldsGrant link server) server server') :
    handleConnection config link server' = handleConnection config link server := by
  unfold handleConnection
  cases hrequest : readRequest link.reads with
  | error e => simp only [hentries]
  | ok request =>
    have hanswer : answer config link server' request = answer config link server request :=
      answer_congr hentries fun assetId token grant htoken hgrant =>
        (hagree assetId ⟨request, token, grant, hrequest, htoken, hgrant⟩).1
    dsimp only
    rw [hanswer]
    congr 1
    apply send_congr
    intro status headers assetId start length hreply
    rcases answer_cases config link server request with hplain | ⟨other, asset, hauth, -, heq⟩
    · rw [hreply] at hplain
      cases hplain
    · obtain ⟨rfl, -⟩ := answerAsset_content (heq.symm.trans hreply)
      obtain ⟨token, grant, htoken, hgrant⟩ := hauth.grant
      exact (hagree _ ⟨request, token, grant, hrequest, htoken, hgrant⟩).2

/-- Disks with the same row and the same blob for these assets. -/
def SameAssets (P : K.AssetId → Prop) (disk disk' : Disk) : Prop :=
  ∀ assetId, P assetId → disk'.assets.lookup (K.assetId.text assetId) = disk.assets.lookup (K.assetId.text assetId) ∧
    disk'.files.blobs.lookup (blobKey assetId) = disk.files.blobs.lookup (blobKey assetId)

theorem lookupAsset_congr {f : Faults} {t t' : AssetTable} {assetId : K.AssetId}
    (h : t'.lookup (K.assetId.text assetId) = t.lookup (K.assetId.text assetId)) :
    lookupAsset f t' assetId = lookupAsset f t assetId := by
  unfold lookupAsset
  rw [h]

theorem lookupAsset_blobKey {f : Faults} {t : AssetTable} {assetId : K.AssetId} {record : AssetRecord K}
    (h : lookupAsset f t assetId = .ok (some record)) : record.blobKey = blobKey assetId := by
  unfold lookupAsset at h
  obtain ⟨-, -, h⟩ := bind_ok h
  split at h
  · cases h
  · obtain ⟨found, hrow, h⟩ := bind_ok h
    cases h
    obtain ⟨hid, -, -, -, -, hkey, hrecord, -⟩ := AssetStore.decodeRow_eq_ok.mp hrow
    rw [hrecord, hkey, K.assetId.text_injective hid]

theorem blobNode_congr {disk disk' : Disk} {f : Faults} {t : AssetTable} {assetId : K.AssetId}
    (h : disk'.files.blobs.lookup (blobKey assetId) = disk.files.blobs.lookup (blobKey assetId)) :
    blobNode disk' (lookupAsset f t assetId) = blobNode disk (lookupAsset f t assetId) := by
  cases hlookup : lookupAsset f t assetId with
  | error e => rfl
  | ok found =>
    cases found with
    | none => rfl
    | some record =>
      rw [blobNode, blobNode, lookupAsset_blobKey hlookup]
      exact h

end Interference

/-- A connection of a server over a local store. -/
def localServer (entries : Entries G) (f : Nat → Faults) (seekOk readOk : Nat → Bool) (disk : Disk) : Server G :=
  ⟨entries, localCatalog (f 0) disk, localReader f seekOk readOk disk⟩

theorem localServer_agree {P : K.AssetId → Prop} {disk disk' : Disk} (h : SameAssets P disk disk')
    (entries : Entries G) (f : Nat → Faults) (seekOk readOk : Nat → Bool) :
    AgreeOn P (localServer entries f seekOk readOk disk) (localServer entries f seekOk readOk disk') := by
  intro assetId hP
  obtain ⟨hrow, hblob⟩ := h assetId hP
  constructor
  · simp only [localServer, localCatalog]
    rw [lookupAsset_congr hrow]
  · intro index range
    simp only [localServer, localReader]
    rw [lookupAsset_congr hrow, blobNode_congr hblob]

/-- The origin that the request names, if it can be read. -/
def requestOrigin (reads : List Bytes) : Option Str :=
  match readRequest reads with
  | .ok request => request.header "origin"
  | .error _ => none

structure Confidential (config : Config) (link : Link G) (server : Server G) : Prop where
  /-- A reply about an asset needs all the checks; any other reply is a fixed text. -/
  answered : (∃ request assetId reply, readRequest link.reads = .ok request ∧
      Authorised config link server request assetId ∧ reply.status ∈ [200, 206, 416] ∧
      (handleConnection config link server).1 = send config link server.reader reply) ∨
    ∃ reply : Reply K, Plain (requestOrigin link.reads) reply ∧
      reply.status ∈ [204, 400, 401, 403, 404, 405, 500, 503] ∧
      (handleConnection config link server).1.written <+: reply.text
  /-- A token that passed was given out for the asset and has not lapsed. -/
  issued : ∀ I seen (registry : Grant.State G) request assetId, Set.InjOn G.sha256 seen → 0 < I.ttlSeconds →
    (Grant.system I seen).Reachable registry → registry.entries = server.entries →
    registry.time ≤ G.unixTimestamp link.now →
    (∀ token raw, bearerToken (request.header "authorization") = some token →
      tokenBytes token = some raw → raw ∈ seen) →
    Authorised config link server request assetId →
    ∃ token grant, bearerToken (request.header "authorization") = some token ∧
      Grant.Valid I registry token assetId (G.unixTimestamp link.now) grant
  /-- Assets without a good token make no difference. -/
  noninterference : ∀ server', server'.entries = server.entries →
    AgreeOn (HoldsGrant link server) server server' →
    handleConnection config link server' = handleConnection config link server

theorem handleConnection_answered (config : Config) (link : Link G) (server : Server G) :
    (∃ request assetId reply, readRequest link.reads = .ok request ∧
      Authorised config link server request assetId ∧ reply.status ∈ [200, 206, 416] ∧
      (handleConnection config link server).1 = send config link server.reader reply) ∨
    ∃ reply : Reply K, Plain (requestOrigin link.reads) reply ∧
      (handleConnection config link server).1.written <+: reply.text := by
  unfold handleConnection requestOrigin
  cases hrequest : readRequest link.reads with
  | error e => exact .inr ⟨.simple 400 "bad request" [], .refusal (by decide), writeResponse_prefix link.fails _ _ _⟩
  | ok request =>
    dsimp only
    rcases answer_cases config link server request with hplain | ⟨assetId, asset, hauth, -, heq⟩
    · exact .inr ⟨_, hplain, hplain.written config link server.reader⟩
    · rw [heq]
      rcases answerAsset_cases link.permit asset assetId with hplain | hstatus
      · exact .inr ⟨_, hplain, hplain.written config link server.reader⟩
      · exact .inl ⟨request, assetId, _, rfl, hauth, hstatus, rfl⟩

/-- Nothing about an asset leaves the listener without a Grant for it. -/
theorem asset_data_needs_grant (config : Config) (link : Link G) (server : Server G) :
    Confidential config link server ∧
      ∀ entries f seekOk readOk disk disk', server = localServer entries f seekOk readOk disk →
        SameAssets (HoldsGrant link server) disk disk' →
        handleConnection config link (localServer entries f seekOk readOk disk') =
          handleConnection config link server := by
  refine ⟨⟨?_, ?_, ?_⟩, ?_⟩
  · rcases handleConnection_answered config link server with hauth | ⟨reply, hplain, hwritten⟩
    · exact .inl hauth
    · exact .inr ⟨reply, hplain, hplain.status, hwritten⟩
  · intro I seen registry request assetId hinj httl hreach hentries htime hseen hauth
    obtain ⟨token, grant, htoken, hgrant⟩ := hauth.grant
    have hinv := Grant.reachable_invariant hinj httl hreach
    rw [← hentries] at hgrant
    exact ⟨token, grant, htoken, (hinv.accepts hinj htime (hseen token · htoken) assetId grant).mp hgrant⟩
  · exact fun server' hentries hagree => handleConnection_congr hentries hagree
  · rintro entries f seekOk readOk disk disk' rfl hsame
    exact handleConnection_congr rfl (localServer_agree hsame entries f seekOk readOk)

end OrbitRelay.AssetHttp
