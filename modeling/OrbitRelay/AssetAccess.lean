import OrbitRelay.AssetHttpHead
import OrbitRelay.AssetPublicUrl
import OrbitRelay.GrantToken

/-!
# Resolving access to an Asset

`asset.access.resolve` behind its ports: which checks stand before a Grant is
issued, and that the listener takes the locator it hands out.
-/
namespace OrbitRelay.AssetDelivery

open AssetHttp AssetStore Base64Url Codec Grant Text

variable {K : AssetKernel} {G : GrantKernel K.AssetId}

def assetAccessResolveQueryType : Str := "asset.access.resolve".toList

inductive QueryHandlerError where
  | invalidQuery | notFound | unauthorized | unavailable | internal
  deriving DecidableEq, Repr

inductive DocumentReadAuthorizationError where
  | unauthorized | unavailable | internal | other
  deriving DecidableEq, Repr

structure Document (G : GrantKernel K.AssetId) where
  documentId : G.DocumentId
  sessionId : G.SessionId
  sourceAssetId : K.AssetId

inductive AssetAccessAuthorization where
  | bearer (token : Str)
  deriving DecidableEq, Repr

structure AssetAccessDescriptor (G : GrantKernel K.AssetId) where
  assetId : K.AssetId
  deliveryKind : Str
  url : Str
  authorization : AssetAccessAuthorization
  expiresAt : G.Timestamp
  supportsRange : Bool

def AssetAccessDescriptor.httpBearer (assetId : K.AssetId) (url token : Str) (expiresAt : G.Timestamp) :
    AssetAccessDescriptor G :=
  ⟨assetId, "http".toList, url, .bearer token, expiresAt, true⟩

/-- The catalogs, the authorizer and the codec of payloads, with what they answer during one call. -/
structure Ports (G : GrantKernel K.AssetId) where
  Payload : Type
  Actor : Type
  actorId : Actor → G.ActorId
  decodePayload : Payload → Option G.DocumentId
  encodePayload : AssetAccessDescriptor G → Option Payload
  getDocument : G.DocumentId → Except String (Option (Document G))
  authorizeSessionRead : Actor → G.SessionId → Str → Except DocumentReadAuthorizationError Unit
  getAsset : K.AssetId → Except String (Option (SourceAssetDescriptor K))

def authorizationError : DocumentReadAuthorizationError → QueryHandlerError
  | .unauthorized => .unauthorized
  | .unavailable => .unavailable
  | .internal => .internal
  | .other => .internal

def grantError : GrantError → QueryHandlerError
  | .unavailable => .unavailable
  | .randomness => .internal
  | .unauthorized => .unauthorized

/-- `execute` up to the call of `issue`: the Document and the base URL. -/
def checkAccess (ports : Ports G) (publicBaseUrl : Option Str) (actor : ports.Actor) (payload : ports.Payload) :
    Except QueryHandlerError (Document G × Str) := do
  let documentId ← okOr .invalidQuery (ports.decodePayload payload)
  let found ← (ports.getDocument documentId).mapError fun _ => .unavailable
  let document ← okOr .notFound found
  (ports.authorizeSessionRead actor document.sessionId assetAccessResolveQueryType).mapError authorizationError
  let found ← (ports.getAsset document.sourceAssetId).mapError fun _ => .unavailable
  let descriptor ← okOr .internal found
  if descriptor.assetId ≠ document.sourceAssetId then .error .internal
  else
    let base ← okOr .unavailable publicBaseUrl
    .ok (document, base)

def assetPath (assetId : K.AssetId) : Str := "/assets/".toList ++ (K.assetId.text assetId).toList

def assetUrl (base : Str) (assetId : K.AssetId) : Str := trimEndMatches (· == '/') base ++ assetPath assetId

/-- `AssetAccessQueryHandler::execute`. -/
def execute (ports : Ports G) (I : AssetAccessGrantIssuer) (publicBaseUrl : Option Str) (now : G.Timestamp)
    (random : Option Key) (entries : Entries G) (actor : ports.Actor) (payload : ports.Payload) :
    Entries G × Except QueryHandlerError ports.Payload :=
  match checkAccess ports publicBaseUrl actor payload with
  | .error e => (entries, .error e)
  | .ok (document, base) =>
    match issue I entries now random document.sourceAssetId (ports.actorId actor) document.sessionId
        document.documentId with
    | (entries, .error e) => (entries, .error (grantError e))
    | (entries, .ok (token, grant)) =>
      (entries, okOr .internal (ports.encodePayload
        (.httpBearer document.sourceAssetId (assetUrl base grant.assetId) token grant.expiresAt)))

/-! ## What stands before a Grant -/

section Checks

variable {ports : Ports G} {publicBaseUrl : Option Str} {actor : ports.Actor} {payload : ports.Payload}

/-- Everything that is checked before a Grant is issued. -/
structure Passed (ports : Ports G) (publicBaseUrl : Option Str) (actor : ports.Actor) (payload : ports.Payload)
    (document : Document G) (base : Str) : Prop where
  found : ∃ documentId, ports.decodePayload payload = some documentId ∧
    ports.getDocument documentId = .ok (some document)
  authorised : ports.authorizeSessionRead actor document.sessionId assetAccessResolveQueryType = .ok ()
  asset : ∃ descriptor, ports.getAsset document.sourceAssetId = .ok (some descriptor) ∧
    descriptor.assetId = document.sourceAssetId
  base : publicBaseUrl = some base

theorem mapError_eq_ok {ε ε' α : Type} {f : ε → ε'} {x : Except ε α} {a : α} :
    x.mapError f = .ok a ↔ x = .ok a := by
  cases x <;> simp [Except.mapError]

theorem checkAccess_ok {document : Document G} {base : Str}
    (h : checkAccess ports publicBaseUrl actor payload = .ok (document, base)) :
    Passed ports publicBaseUrl actor payload document base := by
  obtain ⟨documentId, hdecode, h⟩ := bind_ok h
  obtain ⟨found, hfound, h⟩ := bind_ok h
  obtain ⟨found, hdocument, h⟩ := bind_ok h
  obtain ⟨⟨⟩, hauthorise, h⟩ := bind_ok h
  obtain ⟨stored, hstored, h⟩ := bind_ok h
  obtain ⟨descriptor, hdescriptor, h⟩ := bind_ok h
  split at h
  · cases h
  · rename_i hasset
    obtain ⟨url, hbase, h⟩ := bind_ok h
    cases h
    cases okOr_eq_ok.mp hdocument
    cases okOr_eq_ok.mp hdescriptor
    exact ⟨⟨documentId, okOr_eq_ok.mp hdecode, mapError_eq_ok.mp hfound⟩, mapError_eq_ok.mp hauthorise,
      ⟨descriptor, mapError_eq_ok.mp hstored, not_not.mp hasset⟩, okOr_eq_ok.mp hbase⟩

end Checks

/-! ## The Grant -/

section Issuing

variable (ports : Ports G) (I : AssetAccessGrantIssuer) (publicBaseUrl : Option Str) (now : G.Timestamp)
  (random : Option Key) (entries : Entries G) (actor : ports.Actor) (payload : ports.Payload)

/-- The Grant for this Document and this actor. -/
def grantFor {ports : Ports G} (document : Document G) (actor : ports.Actor) (expiresAt : G.Timestamp) :
    AssetAccessGrant G :=
  ⟨document.sourceAssetId, ports.actorId actor, document.sessionId, document.documentId, expiresAt⟩

/-- What `execute` can do. -/
theorem execute_cases :
    (∃ e, checkAccess ports publicBaseUrl actor payload = .error e ∧
      execute ports I publicBaseUrl now random entries actor payload = (entries, .error e)) ∨
    ∃ document base, checkAccess ports publicBaseUrl actor payload = .ok (document, base) ∧
      Passed ports publicBaseUrl actor payload document base ∧
      ((∃ (kept : Entries G) (e : QueryHandlerError),
          (∀ key grant, kept.lookup key = some grant → entries.lookup key = some grant) ∧
          execute ports I publicBaseUrl now random entries actor payload = (kept, .error e)) ∨
        ∃ (kept : Entries G) (raw : Key) (expiresAt : G.Timestamp),
          (∀ key grant, kept.lookup key = some grant → entries.lookup key = some grant) ∧
          random = some raw ∧
          execute ports I publicBaseUrl now random entries actor payload =
            (kept.insert (G.sha256 raw) (grantFor document actor expiresAt),
              okOr .internal (ports.encodePayload (.httpBearer document.sourceAssetId
                (assetUrl base document.sourceAssetId) (base64url raw.1) expiresAt)))) := by
  cases hcheck : checkAccess ports publicBaseUrl actor payload with
  | error e => exact .inl ⟨e, rfl, by rw [execute, hcheck]⟩
  | ok checked =>
    obtain ⟨document, base⟩ := checked
    refine .inr ⟨document, base, rfl, checkAccess_ok hcheck, ?_⟩
    have hswept : ∀ key grant,
        (ExpiringMap.retain (fun grant => grant.expiry > G.unixTimestamp now) entries).lookup key = some grant →
        entries.lookup key = some grant := by
      intro key grant h
      rw [ExpiringMap.lookup_retain, Option.filter_eq_some_iff] at h
      exact h.1
    rcases issue_cases I entries now random document.sourceAssetId (ports.actorId actor) document.sessionId
        document.documentId with
      ⟨heq, -⟩ | ⟨expiresAt, swept, -, rfl, ⟨-, heq⟩ | ⟨-, -, heq⟩ | ⟨-, raw, hrandom, heq⟩⟩
    · exact .inl ⟨_, _, fun _ _ h => h, by rw [execute, hcheck]; dsimp only; rw [heq]⟩
    · exact .inl ⟨_, _, hswept, by rw [execute, hcheck]; dsimp only; rw [heq]⟩
    · exact .inl ⟨_, _, hswept, by rw [execute, hcheck]; dsimp only; rw [heq]⟩
    · exact .inr ⟨_, raw, expiresAt, hswept, hrandom, by rw [execute, hcheck]; dsimp only; rw [heq]; rfl⟩

/-- What is new in the registry was checked, and is the one Grant for it. -/
theorem execute_adds {key : Key} {grant : AssetAccessGrant G}
    (h : (execute ports I publicBaseUrl now random entries actor payload).1.lookup key = some grant) :
    entries.lookup key = some grant ∨
      ∃ document base raw expiresAt, Passed ports publicBaseUrl actor payload document base ∧ random = some raw ∧
        key = G.sha256 raw ∧ grant = grantFor document actor expiresAt := by
  rcases execute_cases ports I publicBaseUrl now random entries actor payload with
    ⟨e, -, heq⟩ | ⟨document, base, -, hpassed, ⟨kept, e, hkept, heq⟩ | ⟨kept, raw, expiresAt, hkept, hrandom, heq⟩⟩
  · rw [heq] at h
    exact .inl h
  · rw [heq] at h
    exact .inl (hkept key grant h)
  · rw [heq] at h
    by_cases hkey : key = G.sha256 raw
    · subst hkey
      rw [AList.lookup_insert] at h
      exact .inr ⟨document, base, raw, expiresAt, hpassed, hrandom, rfl, (Option.some.inj h).symm⟩
    · rw [AList.lookup_insert_ne hkey] at h
      exact .inl (hkept key grant h)

end Issuing

/-! ## The registry afterwards -/

/-- A call of the registry before a certain time, in which the token of `key` is not drawn again. -/
inductive RegistryCall (I : AssetAccessGrantIssuer) (key : Key) (deadline : Int) : Entries G → Entries G → Prop
  | issue {entries : Entries G} (now : G.Timestamp) (random : Option Key) (assetId : K.AssetId) (actorId : G.ActorId)
      (sessionId : G.SessionId) (documentId : G.DocumentId) (htime : G.unixTimestamp now < deadline)
      (hother : ∀ raw, random = some raw → G.sha256 raw ≠ key) :
      RegistryCall I key deadline entries
        (Grant.issue I entries now random assetId actorId sessionId documentId).1
  | validate {entries : Entries G} (now : G.Timestamp) (token : Str) (assetId : K.AssetId)
      (htime : G.unixTimestamp now < deadline) :
      RegistryCall I key deadline entries (Grant.validate entries now token assetId).1

def Later (I : AssetAccessGrantIssuer) (key : Key) (deadline : Int) : Entries G → Entries G → Prop :=
  Relation.ReflTransGen (RegistryCall I key deadline)

theorem RegistryCall.keeps {I : AssetAccessGrantIssuer} {key : Key} {grant : AssetAccessGrant G}
    {entries entries' : Entries G} (h : RegistryCall I key grant.expiry entries entries')
    (hk : entries.lookup key = some grant) : entries'.lookup key = some grant := by
  cases h with
  | issue now random assetId actorId sessionId documentId htime hother =>
    have hkept := retain_keeps entries (G.unixTimestamp now) key grant hk htime
    rcases issue_cases I entries now random assetId actorId sessionId documentId with
      ⟨heq, -⟩ | ⟨expiresAt, swept, -, rfl, ⟨-, heq⟩ | ⟨-, -, heq⟩ | ⟨-, raw, hrandom, heq⟩⟩
    · rw [heq]
      exact hk
    · rw [heq]
      exact hkept
    · rw [heq]
      exact hkept
    · rw [heq, AList.lookup_insert_ne (Ne.symm (hother raw hrandom))]
      exact hkept
  | validate now token assetId htime => exact validate_keeps entries now token assetId key grant hk htime

theorem Later.keeps {I : AssetAccessGrantIssuer} {key : Key} {grant : AssetAccessGrant G}
    {entries entries' : Entries G} (h : Later I key grant.expiry entries entries')
    (hk : entries.lookup key = some grant) : entries'.lookup key = some grant := by
  induction h with
  | refl => exact hk
  | tail _ hcall ih => exact hcall.keeps ih

/-! ## The locator -/

/-- A text that stands for itself between two slashes of a request target. -/
structure PathSegment (s : Str) : Prop where
  nonempty : s ≠ []
  plain : ∀ c ∈ s, c ≠ '/' ∧ c ≠ '?' ∧ c ≠ '#' ∧ isWhitespace c = false

/-- A base URL that was configured and accepted, or derived from a bound address. -/
inductive Advertised (base : Str) : Prop
  | configured (h : validatePublicBaseUrl base = some (.ok ()))
  | derived (address : Net.SocketAddr)
      (h : (AssetDeliveryService.mk none).setBoundPublicBaseUrl address = ⟨some base⟩)

theorem Advertised.baseUrl {base : Str} (h : Advertised base) : ∃ scheme host port, BaseUrl scheme host port base := by
  cases h with
  | configured h =>
    obtain ⟨-, scheme, host, port, hurl, -⟩ := validatePublicBaseUrl_ok.mp h
    exact ⟨scheme, host, port, hurl⟩
  | derived address h =>
    cases h
    exact ⟨_, _, _, baseUrl_derived address.port⟩

/-- Only the slash at the end of a base URL is trimmed. -/
theorem BaseUrl.trimmed {scheme host base : Str} {port : Option Str} (h : BaseUrl scheme host port base) :
    (scheme = "http".toList ∨ scheme = "https".toList) ∧ host ≠ [] ∧ ∃ authority, Authority host port authority ∧
      '/' ∉ authority ∧ trimEndMatches (· == '/') base = scheme ++ ("://".toList ++ authority) := by
  cases h with
  | @root authority slash hscheme hhost hauthority hfree hslash =>
    refine ⟨hscheme, hhost, authority, hauthority, hfree, ?_⟩
    have hne : authority ≠ [] := by
      rintro rfl
      obtain ⟨-, heq⟩ := (Authority.plain_iff hhost (by simp)).mp hauthority
      exact hhost (List.append_eq_nil_iff.mp heq.symm).1
    obtain ⟨front, last, rfl⟩ : ∃ front last, authority = front ++ [last] :=
      ⟨_, _, (List.dropLast_append_getLast hne).symm⟩
    have hlast : (last == '/') = false := by
      rw [beq_eq_false_iff_ne]
      rintro rfl
      exact hfree (by simp)
    have htrim : ∀ c ∈ slash, (c == '/') = true := by
      rcases hslash with rfl | rfl <;> simp
    have happ := trimEndMatches_append (p := (· == '/')) (s := scheme ++ ("://".toList ++ front)) hlast htrim
    simpa only [List.append_assoc] using happ

theorem PathSegment.path_word {s : Str} (h : PathSegment s) : IsWord ("/assets/".toList ++ s) where
  nonempty := List.append_ne_nil_of_left_ne_nil (by decide) _
  solid := by
    intro c hc
    rcases List.mem_append.mp hc with hfront | htext
    · have hsolid : "/assets/".toList.all (fun c => !isWhitespace c) = true := by decide
      simpa using List.all_eq_true.mp hsolid c hfront
    · exact (h.plain c htext).2.2.2

theorem symbol_solid : table.all (fun c => !isWhitespace c) = true := by decide +kernel

theorem token_word (raw : Key) : IsWord (base64url raw.1) where
  nonempty := by
    intro hnil
    have hlen := base64url_len raw.1
    rw [hnil, raw.2] at hlen
    cases hlen
  solid := by
    intro c hc
    rw [base64url_eq] at hc
    obtain ⟨n, hn, rfl⟩ := List.mem_map.mp hc
    simpa using List.all_eq_true.mp symbol_solid _ (symbolAt_mem n (sextets_lt raw.1 n hn))

theorem bearerToken_word {token : Str} (h : IsWord token) :
    bearerToken (some ("Bearer ".toList ++ token)) = some token := by
  have hblank : ' ' ∉ "Bearer".toList := by decide
  have hsplit : splitOnce [' '] ("Bearer ".toList ++ token) = some ("Bearer".toList, token) :=
    splitOnce_char hblank token
  have hany : token.any isWhitespace = false := List.any_eq_false.mpr fun c hc => by rw [h.solid c hc]; simp
  unfold bearerToken
  generalize "Bearer".toList = scheme at hsplit ⊢
  have hscheme : eqIgnoreAsciiCase scheme scheme = true := decide_eq_true rfl
  simp only [Option.bind_eq_bind, Option.bind_some, hsplit]
  rw [if_neg]
  rintro (hother | hnil | hblank)
  · rw [hscheme] at hother
    cases hother
  · exact h.nonempty hnil
  · rw [hany] at hblank
    cases hblank

/-- A request for the path with the token. -/
structure Gets (request : HttpRequest) (path token : Str) : Prop where
  method : request.method = "GET".toList
  target : request.target = path
  authorization : request.header "authorization" = some ("Bearer ".toList ++ token)

variable {config : Config} {link : Link G} {server : Server G} {request : HttpRequest} {assetId : K.AssetId}

/-- The path names one asset, and the listener checks the token for that one. -/
theorem Gets.authorised {raw : Key} {grant : AssetAccessGrant G}
    (h : Gets request (assetPath assetId) (base64url raw.1))
    (hsegment : PathSegment (K.assetId.text assetId).toList)
    (horigin : ∀ origin, request.header "origin" = some origin → origin ∈ config.allowedOrigins)
    (hgrant : server.entries.lookup (G.sha256 raw) = some grant) (hasset : grant.assetId = assetId)
    (htime : G.unixTimestamp link.now < grant.expiry) :
    Authorised config link server request assetId ∧
      ∀ other, Authorised config link server request other → other = assetId := by
  have hparse : K.assetId.parse (String.ofList (K.assetId.text assetId).toList) = some assetId := by
    rw [String.ofList_toList]
    exact K.assetId.parse_text assetId
  constructor
  · exact
      { method := .inl h.method
        target := ⟨_, h.target, hsegment.nonempty, fun hmem => (hsegment.plain _ hmem).1 rfl, hparse⟩
        exact := by
          rw [h.target]
          constructor
          · intro hmem
            rcases List.mem_append.mp hmem with hfront | htext
            · exact absurd hfront (by decide)
            · exact (hsegment.plain _ htext).2.1 rfl
          · intro hmem
            rcases List.mem_append.mp hmem with hfront | htext
            · exact absurd hfront (by decide)
            · exact (hsegment.plain _ htext).2.2.1 rfl
        origin := horigin
        grant := ⟨_, grant, by rw [h.authorization, bearerToken_word (token_word raw)],
          validate_ok_iff.mpr ⟨raw, rfl, hgrant, htime, hasset⟩⟩ }
  · intro other hother
    obtain ⟨text, htarget, -, -, hfound⟩ := hother.target
    have htext := List.append_cancel_left (h.target.symm.trans htarget)
    rw [← htext, hparse] at hfound
    exact (Option.some.inj hfound).symm

/-- The head of such a request. -/
def getText (path token : Str) : Str :=
  "GET ".toList ++ path ++ " HTTP/1.1\r\nAuthorization: Bearer ".toList ++ token ++ "\r\n\r\n".toList

theorem bearer_plain {token : Str} (h : IsWord token) :
    PlainHeader "Authorization".toList ("Bearer ".toList ++ token) where
  nonempty := by decide
  trimmed := by decide
  uncolon := by decide
  oneLine := by decide
  value_trimmed := by
    have hlast : ∀ (hne : "Bearer ".toList ++ token ≠ []),
        isWhitespace (("Bearer ".toList ++ token).getLast hne) = false := by
      intro hne
      rw [List.getLast_append_of_ne_nil hne h.nonempty]
      exact h.solid _ (List.getLast_mem _)
    have hfront : ("Bearer ".toList ++ token).dropWhile isWhitespace = "Bearer ".toList ++ token :=
      List.dropWhile_cons_of_neg (by decide)
    rw [trim, hfront]
    exact List.rdropWhile_eq_self_iff.mpr (fun hne => by rw [hlast hne]; exact Bool.false_ne_true)
  value_oneLine := oneLine_append (by decide) ⟨fun hr => absurd (h.solid _ hr) (by decide),
    fun hn => absurd (h.solid _ hn) (by decide)⟩

theorem get_read {path token : Str} (hpath : IsWord path) (htoken : IsWord token) {reads : List Bytes}
    (hreads : ∀ chunk ∈ reads, chunk ≠ []) (hbytes : reads.flatten = utf8 (getText path token))
    (hlength : (utf8 (getText path token)).length ≤ maxHeaderBytes) :
    ∃ request, readRequest reads = .ok request ∧ Gets request path token ∧ request.header "origin" = none := by
  let head : RequestHead :=
    { method := "GET".toList
      target := path
      version := "HTTP/1.1".toList
      headers := [("Authorization".toList, "Bearer ".toList ++ token)]
      method_word := by decide
      target_word := hpath
      version_word := by decide
      version_http := by decide
      plain := by
        intro x hx
        rw [List.mem_singleton.mp hx]
        exact bearer_plain htoken
      distinct := List.nodup_singleton _
      bodiless := by
        intro x hx hname
        have hother : toAsciiLowercase "Authorization".toList ≠ "content-length".toList := by decide
        rw [List.mem_singleton.mp hx] at hname
        exact absurd hname hother }
  have hget : "GET ".toList = "GET".toList ++ [' '] := by decide
  have hbetween : " HTTP/1.1\r\nAuthorization: Bearer ".toList =
      ' ' :: "HTTP/1.1".toList ++ crlf ++ "Authorization".toList ++ ": ".toList ++ "Bearer ".toList := by decide
  have hend : "\r\n\r\n".toList = crlf ++ crlf := by decide
  have hprint : head.print = getText path token := by
    delta getText
    simp only [RequestHead.print, RequestHead.requestLine, head, headerLine, hget, hbetween, hend,
      List.flatMap_cons, List.flatMap_nil, List.append_assoc, List.cons_append, List.nil_append]
  rw [← hprint] at hbytes hlength
  obtain ⟨request, hparse, hmethod, htarget, hheaders⟩ := head.parseHead_print
  rw [← head.readRequest_print hreads hbytes hlength] at hparse
  refine ⟨request, hparse, ⟨hmethod, htarget, ?_⟩, ?_⟩
  · exact (hheaders _ _).mpr ⟨_, List.mem_cons_self, rfl, rfl⟩
  · rw [HttpRequest.header, Option.eq_none_iff_forall_ne_some]
    intro value hvalue
    obtain ⟨x, hx, hname, -⟩ := (hheaders _ _).mp hvalue
    have hother : toAsciiLowercase "Authorization".toList ≠ "origin".toList := by decide
    rw [List.mem_singleton.mp hx] at hname
    exact absurd hname hother

/-- What a descriptor is good for, from a state of the registry on: its URL is a path at some authority, and until it
expires, a request for that path with its token is let through to its asset and to no other. -/
structure Locates (I : AssetAccessGrantIssuer) (entries : Entries G) (key : Key) (descriptor : AssetAccessDescriptor G)
    (token : Str) : Prop where
  url : ∃ scheme host port authority, (scheme = "http".toList ∨ scheme = "https".toList) ∧ host ≠ [] ∧
    Authority host port authority ∧ '/' ∉ authority ∧
    descriptor.url = scheme ++ ("://".toList ++ (authority ++ assetPath descriptor.assetId))
  passes : ∀ (config : Config) (link : Link G) (server : Server G) (request : HttpRequest),
    Later I key (G.unixTimestamp descriptor.expiresAt) entries server.entries →
    G.unixTimestamp link.now < G.unixTimestamp descriptor.expiresAt →
    Gets request (assetPath descriptor.assetId) token →
    (∀ origin, request.header "origin" = some origin → origin ∈ config.allowedOrigins) →
    Authorised config link server request descriptor.assetId ∧
      (∀ other, Authorised config link server request other → other = descriptor.assetId) ∧
      ∀ asset, server.catalog descriptor.assetId = .ok (some asset) →
        (answer config link server request).1 = answerAsset link.permit request asset descriptor.assetId
  read : ∀ reads : List Bytes, (∀ chunk ∈ reads, chunk ≠ []) →
    reads.flatten = utf8 (getText (assetPath descriptor.assetId) token) →
    (utf8 (getText (assetPath descriptor.assetId) token)).length ≤ maxHeaderBytes →
    ∃ request, readRequest reads = .ok request ∧ Gets request (assetPath descriptor.assetId) token ∧
      request.header "origin" = none

/-- A Grant is issued behind every check, for what was checked, and the locator that goes with it works. -/
theorem resolve_grants_and_locates (ports : Ports G) (I : AssetAccessGrantIssuer) (publicBaseUrl : Option Str)
    (now : G.Timestamp) (random : Option Key) (entries : Entries G) (actor : ports.Actor) (payload : ports.Payload) :
    (∀ key grant,
      (execute ports I publicBaseUrl now random entries actor payload).1.lookup key = some grant →
      entries.lookup key = some grant ∨
        ∃ document base raw expiresAt, Passed ports publicBaseUrl actor payload document base ∧ random = some raw ∧
          key = G.sha256 raw ∧ grant = grantFor document actor expiresAt) ∧
    (∀ e, checkAccess ports publicBaseUrl actor payload = .error e →
      execute ports I publicBaseUrl now random entries actor payload = (entries, .error e)) ∧
    ∀ base reply, publicBaseUrl = some base → Advertised base →
      (execute ports I publicBaseUrl now random entries actor payload).2 = .ok reply →
      ∃ document descriptor token raw, Passed ports publicBaseUrl actor payload document base ∧
        ports.encodePayload descriptor = some reply ∧ descriptor.assetId = document.sourceAssetId ∧
        descriptor.authorization = .bearer token ∧ random = some raw ∧
        (PathSegment (K.assetId.text descriptor.assetId).toList →
          Locates I (execute ports I publicBaseUrl now random entries actor payload).1 (G.sha256 raw) descriptor
            token) := by
  refine ⟨fun key grant => execute_adds ports I publicBaseUrl now random entries actor payload, ?_, ?_⟩
  · intro e he
    rw [execute, he]
  · intro base reply hbase hadvertised hreply
    rcases execute_cases ports I publicBaseUrl now random entries actor payload with
      ⟨e, -, heq⟩ | ⟨document, url, -, hpassed, ⟨kept, e, -, heq⟩ | ⟨kept, raw, expiresAt, -, hrandom, heq⟩⟩
    · rw [heq] at hreply
      cases hreply
    · rw [heq] at hreply
      cases hreply
    · rw [heq] at hreply ⊢
      obtain rfl : url = base := Option.some.inj (hpassed.base.symm.trans hbase)
      refine ⟨document, _, _, raw, hpassed, okOr_eq_ok.mp hreply, rfl, rfl, hrandom, fun hsegment => ?_⟩
      obtain ⟨scheme, host, port, hurl⟩ := hadvertised.baseUrl
      obtain ⟨hscheme, hhost, authority, hauthority, hfree, htrim⟩ := hurl.trimmed
      constructor
      · refine ⟨scheme, host, port, authority, hscheme, hhost, hauthority, hfree, ?_⟩
        simp only [AssetAccessDescriptor.httpBearer, assetUrl, htrim, List.append_assoc]
      · intro config link server request hlater htime hgets horigin
        have hgrant : server.entries.lookup (G.sha256 raw) = some (grantFor document actor expiresAt) :=
          Later.keeps hlater (AList.lookup_insert kept)
        obtain ⟨hauthorised, hunique⟩ := hgets.authorised hsegment horigin hgrant rfl htime
        exact ⟨hauthorised, hunique, fun asset hasset => hauthorised.answer hasset⟩
      · intro reads hreads hbytes hlength
        exact get_read hsegment.path_word (token_word raw) hreads hbytes hlength

section Sample

/-- One Document over one asset, which every actor may read; a payload is the URL. -/
def samplePorts : Ports (K := textAssets) (sampleKernel String) where
  Payload := Str
  Actor := Unit
  actorId := id
  decodePayload := fun _ => some ()
  encodePayload := fun descriptor => some descriptor.url
  getDocument := fun _ => .ok (some ⟨(), (), "aaaaaaaa-asset"⟩)
  authorizeSessionRead := fun _ _ _ => .ok ()
  getAsset := fun _ => .ok (some sampleDescriptor)

def sampleBase : Str := "https://[2001:db8::1]:8443/".toList

def sampleUrl : Str := "https://[2001:db8::1]:8443/assets/aaaaaaaa-asset".toList

theorem sampleExecute :
    (execute samplePorts sampleIssuer (some sampleBase) sampleTime (some zeroBytes) ∅ () []).2 = .ok sampleUrl :=
  rfl

/-- The asset of the one Document, behind an IPv6 authority. -/
theorem resolve_grants_and_locates_sample :
    ∃ document descriptor token raw,
      Passed samplePorts (some sampleBase) () [] document sampleBase ∧
      samplePorts.encodePayload descriptor = some sampleUrl ∧ descriptor.assetId = document.sourceAssetId ∧
      descriptor.authorization = .bearer token ∧ some zeroBytes = some raw ∧
      (PathSegment (textAssets.assetId.text descriptor.assetId).toList →
        Locates sampleIssuer
          (execute samplePorts sampleIssuer (some sampleBase) sampleTime (some zeroBytes) ∅ () []).1
          ((sampleKernel String).sha256 raw) descriptor token) ∧
      PathSegment (textAssets.assetId.text descriptor.assetId).toList := by
  obtain ⟨document, descriptor, token, raw, hpassed, hencode, hasset, htoken, hraw, hlocates⟩ :=
    (resolve_grants_and_locates samplePorts sampleIssuer (some sampleBase) sampleTime (some zeroBytes) ∅ () []).2.2
      sampleBase sampleUrl rfl (.configured (by decide +kernel)) sampleExecute
  refine ⟨document, descriptor, token, raw, hpassed, hencode, hasset, htoken, hraw, hlocates, ?_⟩
  obtain ⟨⟨_, -, hdocument⟩, -, -, -⟩ := hpassed
  cases hdocument
  rw [hasset]
  have hplain : "aaaaaaaa-asset".toList.all
      (fun c => c != '/' && c != '?' && c != '#' && !isWhitespace c) = true := by
    decide
  refine ⟨by decide, fun c hc => ?_⟩
  have hc := List.all_eq_true.mp hplain c hc
  simp only [Bool.and_eq_true, bne_iff_ne, Bool.not_eq_true'] at hc
  exact ⟨hc.1.1.1, hc.1.1.2, hc.1.2, hc.2⟩

end Sample

end OrbitRelay.AssetDelivery
