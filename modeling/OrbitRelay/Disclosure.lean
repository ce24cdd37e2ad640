import OrbitRelay.AssetAccess
import OrbitRelay.ConfigReach
import OrbitRelay.HistoryConfined

/-!
# What a process discloses

The authorizers that a process puts before its read queries, chosen by its configuration,
and over every run of Asset delivery the assets that a download can depend on.
-/
namespace OrbitRelay.Disclosure

open AssetDelivery AssetHttp AssetStore Codec Config Grant MachineInt Overrides Text Transition

/-- The read authorizers of `development.rs` and `dependencies.rs`, and their twins for the history. -/
inductive ReadAuthorizer (SessionId : Type) where
  | development (sessionId : SessionId)
  | rejectAll

section Authorizer

variable {SessionId ε : Type} [DecidableEq SessionId]

def ReadAuthorizer.decide (unauthorized : ε) : ReadAuthorizer SessionId → SessionId → Except ε Unit
  | .development own, sessionId => if sessionId = own then .ok () else .error unauthorized
  | .rejectAll, _ => .error unauthorized

/-- `DocumentReadAuthorizer::authorize_session_read`. -/
def ReadAuthorizer.authorizeDocumentRead (authorizer : ReadAuthorizer SessionId) (sessionId : SessionId) :
    Except DocumentReadAuthorizationError Unit :=
  authorizer.decide .unauthorized sessionId

/-- `CanvasHistoryReadAuthorizer::authorize_session_read`. -/
def ReadAuthorizer.authorizeHistoryRead (authorizer : ReadAuthorizer SessionId) (sessionId : SessionId) :
    Except CanvasHistory.CanvasHistoryReadAuthorizationError Unit :=
  authorizer.decide .unauthorized sessionId

/-- The choice in `initialize_with`; a missing Canvas would panic there. -/
def readAuthorizer (developmentMode : Bool) (developmentCanvas : Option SessionId) :
    Option (ReadAuthorizer SessionId) :=
  if developmentMode then developmentCanvas.map .development else some .rejectAll

theorem decide_ok_iff {unauthorized : ε} {authorizer : ReadAuthorizer SessionId} {sessionId : SessionId} :
    authorizer.decide unauthorized sessionId = .ok () ↔ authorizer = .development sessionId := by
  cases authorizer with
  | rejectAll => simp [ReadAuthorizer.decide]
  | development own =>
    rw [ReadAuthorizer.decide]
    constructor
    · intro h
      split at h
      · rename_i hown
        rw [hown]
      · cases h
    · intro h
      cases h
      exact if_pos rfl

omit [DecidableEq SessionId] in
theorem readAuthorizer_development {developmentMode : Bool} {developmentCanvas : Option SessionId}
    {sessionId : SessionId} (h : readAuthorizer developmentMode developmentCanvas = some (.development sessionId)) :
    developmentMode = true ∧ developmentCanvas = some sessionId := by
  unfold readAuthorizer at h
  split at h
  · rename_i hmode
    obtain ⟨own, hcanvas, heq⟩ := Option.map_eq_some_iff.mp h
    cases heq
    exact ⟨hmode, hcanvas⟩
  · cases h

end Authorizer

/-! ## The delivery plane -/

variable {A : AssetKernel} {G : GrantKernel A.AssetId}

/-- The issuer of `AssetDeliveryService::new`. -/
def issuer (config : AssetDeliveryConfig) : AssetAccessGrantIssuer := ⟨config.grantTtlSeconds, config.maxGrants⟩

/-- What the listener reads of the configuration. -/
def listenerConfig (config : AssetDeliveryConfig) : AssetHttp.Config := ⟨config.allowedOrigins, config.chunkSize⟩

/-- A query `asset.access.resolve`, with what its ports, its clock and its random source answer. -/
structure Query (G : GrantKernel A.AssetId) where
  ports : Ports G
  publicBaseUrl : Option Str
  actor : ports.Actor
  payload : ports.Payload
  now : G.Timestamp
  random : Option Key

def Query.execute (I : AssetAccessGrantIssuer) (entries : Entries G) (q : Query G) :
    Entries G × Except AssetDelivery.QueryHandlerError q.ports.Payload :=
  AssetDelivery.execute q.ports I q.publicBaseUrl q.now q.random entries q.actor q.payload

/-- The registry of Grants, and the queries so far. -/
structure Plane (G : GrantKernel A.AssetId) where
  entries : Entries G
  queries : List (Query G)

/-- The calls that read or write the registry, in the order of its lock. -/
inductive PlaneStep [DecidableEq G.SessionId] (authorizer : ReadAuthorizer G.SessionId) (config : AssetDeliveryConfig) :
    Plane G → Plane G → Prop where
  | resolve (p : Plane G) (q : Query G)
      (hauthorizer : ∀ actor sessionId queryType,
        q.ports.authorizeSessionRead actor sessionId queryType = authorizer.authorizeDocumentRead sessionId) :
      PlaneStep authorizer config p ⟨(q.execute (issuer config) p.entries).1, q :: p.queries⟩
  | connection (p : Plane G) (link : Link G) (server : Server G) (hentries : server.entries = p.entries) :
      PlaneStep authorizer config p ⟨(handleConnection (listenerConfig config) link server).2, p.queries⟩

def plane [DecidableEq G.SessionId] (authorizer : ReadAuthorizer G.SessionId) (config : AssetDeliveryConfig) :
    System (Plane G) where
  init := fun p => p.entries = ∅ ∧ p.queries = []
  step := PlaneStep authorizer config

section Registry

variable {I : AssetAccessGrantIssuer} {entries : Entries G} {key : Key} {grant : AssetAccessGrant G}

/-- A Grant that is in the registry after a query was there before, or is for what the query was checked for. -/
theorem execute_grants {q : Query G} (h : (q.execute I entries).1.lookup key = some grant) :
    entries.lookup key = some grant ∨
      ∃ document base raw expiresAt, Passed q.ports q.publicBaseUrl q.actor q.payload document base ∧
        q.random = some raw ∧ key = G.sha256 raw ∧ grant = grantFor document q.actor expiresAt ∧
        G.fromUnixTimestamp (saturatingAdd (G.unixTimestamp q.now) I.ttlSeconds) = some expiresAt := by
  unfold Query.execute AssetDelivery.execute at h
  cases hcheck : checkAccess q.ports q.publicBaseUrl q.actor q.payload with
  | error e =>
    rw [hcheck] at h
    exact .inl h
  | ok checked =>
    obtain ⟨document, base⟩ := checked
    rw [hcheck] at h
    dsimp only at h
    have hswept : ∀ {time : Int}, (ExpiringMap.retain (fun grant => grant.expiry > time) entries).lookup key =
        some grant → entries.lookup key = some grant := by
      intro time h
      rw [ExpiringMap.lookup_retain, Option.filter_eq_some_iff] at h
      exact h.1
    rcases issue_cases I entries q.now q.random document.sourceAssetId (q.ports.actorId q.actor) document.sessionId
        document.documentId with
      ⟨heq, -⟩ | ⟨expiresAt, swept, hexpires, rfl, ⟨-, heq⟩ | ⟨-, -, heq⟩ | ⟨-, raw, hrandom, heq⟩⟩
    · rw [heq] at h
      exact .inl h
    · rw [heq] at h
      exact .inl (hswept h)
    · rw [heq] at h
      exact .inl (hswept h)
    · rw [heq] at h
      by_cases hkey : key = G.sha256 raw
      · subst hkey
        rw [AList.lookup_insert] at h
        exact .inr ⟨document, base, raw, expiresAt, checkAccess_ok hcheck, hrandom, rfl, (Option.some.inj h).symm,
          hexpires⟩
      · rw [AList.lookup_insert_ne hkey] at h
        exact .inl (hswept h)

theorem validate_lookup {now : G.Timestamp} {token : Str} {assetId : A.AssetId}
    (h : (validate entries now token assetId).1.lookup key = some grant) : entries.lookup key = some grant := by
  rcases validate_entries entries now token assetId with heq | ⟨lapsed, found, -, -, heq⟩
  · rw [heq] at h
    exact h
  · rw [heq] at h
    by_cases hkey : key = lapsed
    · rw [hkey, AList.lookup_erase] at h
      cases h
    · rw [AList.lookup_erase_ne hkey] at h
      exact h

variable {config : AssetHttp.Config} {link : Link G} {server : Server G}

theorem answer_entries (config : AssetHttp.Config) (link : Link G) (server : Server G) (request : HttpRequest) :
    (answer config link server request).2 = server.entries ∨
      ∃ token assetId, (answer config link server request).2 = (validate server.entries link.now token assetId).1 := by
  unfold answer
  dsimp only
  split
  · exact .inl rfl
  · split
    · exact .inl rfl
    · split
      · exact .inl rfl
      · split
        · exact .inl rfl
        · split
          · exact .inl rfl
          · split
            · exact .inl rfl
            · split
              · exact .inl rfl
              · rename_i assetId _
                split
                · exact .inl rfl
                · rename_i token _
                  refine .inr ⟨token, assetId, ?_⟩
                  split
                  · rename_i hvalidate
                    rw [hvalidate]
                  · rename_i hvalidate
                    rw [hvalidate]
                    split <;> rfl

/-- A connection adds no Grant. -/
theorem handleConnection_lookup (h : (handleConnection config link server).2.lookup key = some grant) :
    server.entries.lookup key = some grant := by
  unfold handleConnection at h
  split at h
  · exact h
  · rename_i request _
    rcases answer_entries config link server request with heq | ⟨token, assetId, heq⟩
    · dsimp only at h
      rwa [heq] at h
    · dsimp only at h
      rw [heq] at h
      exact validate_lookup h

end Registry

section Runs

variable [DecidableEq G.SessionId]

/-- A query for a Document of the Session was granted its source Asset, under these drawn bytes and until this time. -/
structure Granted (ttl : Int) (sessionId : G.SessionId) (q : Query G) (assetId : A.AssetId) (drawn : Key)
    (expiry : Int) : Prop where
  checked : ∃ document base, Passed q.ports q.publicBaseUrl q.actor q.payload document base ∧
    document.sessionId = sessionId ∧ document.sourceAssetId = assetId
  drawn : q.random = some drawn
  expiry : expiry = G.unixTimestamp q.now + ttl

/-- Every Grant in the registry goes back to a query that the authorizer let through. -/
def Accounted (authorizer : ReadAuthorizer G.SessionId) (config : AssetDeliveryConfig) (p : Plane G) : Prop :=
  ∀ key grant, p.entries.lookup key = some grant → ∃ q ∈ p.queries, ∃ drawn,
    authorizer = .development grant.sessionId ∧ key = G.sha256 drawn ∧
      Granted config.grantTtlSeconds grant.sessionId q grant.assetId drawn grant.expiry

variable {authorizer : ReadAuthorizer G.SessionId} {config : AssetDeliveryConfig} {p p' : Plane G}

theorem accounted_step (httl : 0 < config.grantTtlSeconds) (h : Accounted authorizer config p)
    (hst : PlaneStep authorizer config p p') : Accounted authorizer config p' := by
  cases hst with
  | resolve q hauthorizer =>
    intro key grant hgrant
    rcases execute_grants hgrant with hbefore | ⟨document, base, raw, expiresAt, hpassed, hrandom, rfl, rfl, hexpires⟩
    · obtain ⟨q', hq', hgranted⟩ := h key grant hbefore
      exact ⟨q', List.mem_cons_of_mem q hq', hgranted⟩
    · have hread : authorizer.authorizeDocumentRead document.sessionId = .ok () :=
        (hauthorizer _ _ _).symm.trans hpassed.authorised
      refine ⟨q, List.mem_cons_self, raw, decide_ok_iff.mp hread, rfl, ⟨document, base, hpassed, rfl, rfl⟩, hrandom, ?_⟩
      exact expiry_eq (I := issuer config) httl hexpires
  | connection link server hentries =>
    intro key grant hgrant
    have hbefore : server.entries.lookup key = some grant := handleConnection_lookup hgrant
    rw [hentries] at hbefore
    exact h key grant hbefore

theorem reachable_accounted (httl : 0 < config.grantTtlSeconds) (hp : (plane authorizer config).Reachable p) :
    Accounted authorizer config p := by
  refine System.invariant (P := Accounted authorizer config) ?_ (fun _ _ h hst => accounted_step httl h hst) hp
  rintro ⟨entries, queries⟩ ⟨rfl, rfl⟩ key grant hgrant
  cases hgrant

/-! ## Which assets a download can depend on -/

variable {C : ConfigKernel} {env : String → Option OsString} {serverConfig : ServerConfig C}
  {developmentCanvas : Option G.SessionId} {link : Link G} {server : Server G}

/-- The process is in development mode, and a query for a Document of its Session was granted the asset, under bytes
with the digest of those of the token that the request shows, for a time that is not over. -/
structure Disclosed (serverConfig : ServerConfig C) (developmentCanvas : Option G.SessionId) (p : Plane G)
    (link : Link G) (assetId : A.AssetId) : Prop where
  mode : serverConfig.developmentMode = true
  query : ∃ sessionId q drawn expiry, developmentCanvas = some sessionId ∧ q ∈ p.queries ∧
    Granted serverConfig.assetDelivery.grantTtlSeconds sessionId q assetId drawn expiry ∧
    G.unixTimestamp link.now < expiry ∧
    ∃ request raw, readRequest link.reads = .ok request ∧
      bearerToken (request.header "authorization") = some (Base64Url.base64url raw.1) ∧
      G.sha256 raw = G.sha256 drawn

omit [DecidableEq G.SessionId] in
theorem Accounted.disclosed (h : Accounted authorizer serverConfig.assetDelivery p)
    (hchoice : readAuthorizer serverConfig.developmentMode developmentCanvas = some authorizer)
    (hentries : server.entries = p.entries) {assetId : A.AssetId} (hholds : HoldsGrant link server assetId) :
    Disclosed serverConfig developmentCanvas p link assetId := by
  obtain ⟨request, token, grant, hrequest, htoken, hgrant⟩ := hholds
  obtain ⟨raw, rfl, hlookup, htime, rfl⟩ := validate_ok_iff.mp hgrant
  rw [hentries] at hlookup
  obtain ⟨q, hq, drawn, rfl, hdigest, hgranted⟩ := h _ grant hlookup
  obtain ⟨hmode, hcanvas⟩ := readAuthorizer_development hchoice
  exact ⟨hmode, grant.sessionId, q, drawn, grant.expiry, hcanvas, hq, hgranted, htime, request, raw, hrequest, htoken,
    hdigest⟩

/-- After any queries and connections of a process, what a connection gets depends on no other asset than the ones that
are disclosed to it. -/
theorem downloads_confined (hload : load C env = some (.ok serverConfig))
    (hchoice : readAuthorizer serverConfig.developmentMode developmentCanvas = some authorizer)
    (hp : (plane authorizer serverConfig.assetDelivery).Reachable p) (link : Link G)
    (hentries : server.entries = p.entries) :
    (∀ assetId, HoldsGrant link server assetId → Disclosed serverConfig developmentCanvas p link assetId) ∧
    ∀ server' : Server G, server'.entries = p.entries →
      AgreeOn (Disclosed serverConfig developmentCanvas p link) server server' →
      handleConnection (listenerConfig serverConfig.assetDelivery) link server' =
        handleConnection (listenerConfig serverConfig.assetDelivery) link server := by
  have httl := grantTtl_pos (load_ok_iff.mp hload).2.assetDelivery
  have hdisclosed : ∀ assetId, HoldsGrant link server assetId →
      Disclosed serverConfig developmentCanvas p link assetId :=
    fun assetId => (reachable_accounted httl hp).disclosed hchoice hentries
  refine ⟨hdisclosed, ?_⟩
  intro server' hentries' hagree
  exact handleConnection_congr (hentries'.trans hentries.symm)
    fun assetId hholds => hagree assetId (hdisclosed assetId hholds)

end Runs

section Sample

/-- Every text is an identifier, and the other crates accept their defaults. -/
def plainKernel : ConfigKernel where
  NodeId := Str
  SessionId := Str
  CanvasId := Str
  LayerId := Str
  parseNodeId := some
  parseSessionId := some
  parseCanvasId := some
  parseLayerId := some
  Metadata := Unit
  newMetadata := ()
  WebSocketAdapterConfig := Unit
  defaultAdapter := ()
  adapterValid := fun _ => true
  PdfInspectionLimits := Unit
  defaultLimits := ()

def sampleEnv (name : String) : Option OsString :=
  if name = "ORBITRELAY_DEVELOPMENT_MODE" then some (.unicode "true".toList (by decide)) else none

def sampleServerConfig : ServerConfig plainKernel :=
  { ServerConfig.default plainKernel with developmentMode := true }

set_option maxRecDepth 20000 in
theorem sampleLoad_read :
    overrideAll (settings plainKernel) sampleEnv (.default plainKernel) = .ok sampleServerConfig :=
  rfl

theorem sampleLoad : load plainKernel sampleEnv = some (.ok sampleServerConfig) := by
  have hdefault : Valid (ServerConfig.default plainKernel) := default_valid rfl
  exact load_ok_iff.mpr ⟨sampleLoad_read, { hdefault with }⟩

/-- The query for the one Document. -/
def sampleQuery : Query (A := textAssets) (Grant.sampleKernel String) where
  ports := samplePorts
  publicBaseUrl := some sampleBase
  actor := ()
  payload := []
  now := sampleTime
  random := some zeroBytes

def sampleResolved : Plane (A := textAssets) (Grant.sampleKernel String) :=
  ⟨(sampleQuery.execute (issuer .default) ∅).1, [sampleQuery]⟩

instance : DecidableEq (Grant.sampleKernel String).SessionId := inferInstanceAs (DecidableEq Unit)

theorem sampleResolved_reachable :
    (plane (.development ()) sampleServerConfig.assetDelivery).Reachable sampleResolved :=
  (System.Reachable.start ⟨rfl, rfl⟩ :
    (plane (.development ()) sampleServerConfig.assetDelivery).Reachable ⟨∅, []⟩).next
    (PlaneStep.resolve _ sampleQuery fun _ _ _ => rfl)

def sampleHeld : Server (K := textAssets) (Grant.sampleKernel String) := soundServer sampleEntries sampleDisk

theorem sampleHeld_entries : sampleHeld.entries = sampleResolved.entries := rfl

theorem sampleHeld_holds : HoldsGrant (K := textAssets) sampleLink sampleHeld "aaaaaaaa-asset" :=
  ⟨sampleRequest, sampleToken, _, sampleLink_read, sampleRequest_token, sampleGrant⟩

theorem downloads_confined_sample :
    HoldsGrant (K := textAssets) sampleLink sampleHeld "aaaaaaaa-asset" ∧
      Disclosed (A := textAssets) sampleServerConfig (some ()) sampleResolved sampleLink "aaaaaaaa-asset" :=
  ⟨sampleHeld_holds,
    (downloads_confined sampleLoad rfl sampleResolved_reachable sampleLink sampleHeld_entries).1 _ sampleHeld_holds⟩

end Sample

/-! ## Outside development mode -/

section Closed

variable {C : ConfigKernel} {env : String → Option OsString} {config : ServerConfig C}

def developmentModeName : String := "ORBITRELAY_DEVELOPMENT_MODE"

/-- The development mode is what its variable says. -/
theorem developmentMode_chosen (hload : load C env = some (.ok config)) :
    (env developmentModeName = none ∧ config.developmentMode = false) ∨
      ∃ text noNul, env developmentModeName = some (.unicode text noNul) ∧
        parseBool text = some config.developmentMode := by
  obtain ⟨hchosen, -⟩ := (overrideAll_ok_iff (settings_table C)).mp (load_ok_iff.mp hload).1
  have hmode := hchosen (boolSetting developmentModeName (·.developmentMode)
    (fun v c => { c with developmentMode := v })) (by simp [settings, developmentSettings, developmentModeName])
  cases hsource : env developmentModeName with
  | none =>
    have hsame : config.developmentMode = false := by
      simpa [Setting.Chosen, boolSetting, setting, hsource, ServerConfig.default] using hmode
    exact .inl ⟨rfl, hsame⟩
  | some raw =>
    have hread : (boolSetting (K := C) developmentModeName (·.developmentMode)
        (fun v c => { c with developmentMode := v })).read raw = .ok config.developmentMode := by
      simpa [Setting.Chosen, boolSetting, setting, hsource] using hmode
    obtain ⟨value, hutf8, hparse⟩ := bind_ok hread
    cases raw with
    | other => cases hutf8
    | unicode text noNul =>
      cases hutf8
      exact .inr ⟨_, noNul, rfl, okOr_eq_ok.mp hparse⟩

/-- The variable does not turn the development mode on. -/
def NotEnabled (env : String → Option OsString) : Prop :=
  ∀ text noNul, env developmentModeName = some (.unicode text noNul) → text ≠ "true".toList ∧ text ≠ "1".toList

theorem developmentMode_off (hload : load C env = some (.ok config)) (hoff : NotEnabled env) :
    config.developmentMode = false := by
  rcases developmentMode_chosen hload with ⟨-, hmode⟩ | ⟨text, noNul, hsource, hparse⟩
  · exact hmode
  · obtain ⟨htrue, hone⟩ := hoff text noNul hsource
    rw [parseBool, if_neg (not_or.mpr ⟨htrue, hone⟩)] at hparse
    split at hparse
    · exact (Option.some.inj hparse).symm
    · cases hparse

/-- The read authorizers are there, and let nothing of the stores out by a query or by a download. -/
structure Closed (config : ServerConfig C) : Prop where
  chosen : ∀ {SessionId : Type} (canvas : Option SessionId), ∃ authorizer,
    readAuthorizer config.developmentMode canvas = some authorizer
  queries : ∀ {A : AssetKernel} {G : GrantKernel A.AssetId} [DecidableEq G.SessionId] (canvas : Option G.SessionId)
    (authorizer : ReadAuthorizer G.SessionId) (I : AssetAccessGrantIssuer) (entries : Entries G) (q : Query G),
    readAuthorizer config.developmentMode canvas = some authorizer →
    (∀ actor sessionId queryType,
      q.ports.authorizeSessionRead actor sessionId queryType = authorizer.authorizeDocumentRead sessionId) →
    ∃ e, q.execute I entries = (entries, .error e)
  downloads : ∀ {A : AssetKernel} {G : GrantKernel A.AssetId} [DecidableEq G.SessionId] (canvas : Option G.SessionId)
    (authorizer : ReadAuthorizer G.SessionId) (p : Plane G) (link : Link G) (server : Server G),
    readAuthorizer config.developmentMode canvas = some authorizer →
    (plane authorizer config.assetDelivery).Reachable p → server.entries = p.entries →
    (∃ reply : AssetHttp.Reply A, Plain (requestOrigin link.reads) reply ∧
      (handleConnection (listenerConfig config.assetDelivery) link server).1.written <+: reply.text) ∧
    ∀ server' : Server G, server'.entries = p.entries →
      handleConnection (listenerConfig config.assetDelivery) link server' =
        handleConnection (listenerConfig config.assetDelivery) link server
  history : ∀ {D : Canvas.CanvasKernel} [DecidableEq D.SessionId] (canvas : Option D.SessionId)
    (authorizer : ReadAuthorizer D.SessionId) (H : CanvasHistory.CanvasHistoryQueryHandler D)
    (W : CanvasHistory.Wire D) (h : EventStore.Handle D) (request : CanvasHistory.QueryRequest W)
    (atCapture atQuery : EventStore.Faults × EventStore.EventTable),
    readAuthorizer config.developmentMode canvas = some authorizer →
    H.authorizeSessionRead = authorizer.authorizeHistoryRead →
    (CanvasHistory.executeTraced H W h request atCapture atQuery).1 = [] ∧
      ∃ e, CanvasHistory.execute H W h request atCapture atQuery = .error e

variable {A : AssetKernel} {G : GrantKernel A.AssetId}

theorem query_refused {q : Query G} (I : AssetAccessGrantIssuer) (entries : Entries G)
    (h : ∀ actor sessionId queryType, q.ports.authorizeSessionRead actor sessionId queryType ≠ .ok ()) :
    ∃ e, q.execute I entries = (entries, .error e) := by
  rcases execute_cases q.ports I q.publicBaseUrl q.now q.random entries q.actor q.payload with
    ⟨e, -, heq⟩ | ⟨document, base, -, hpassed, -⟩
  · exact ⟨e, heq⟩
  · exact absurd hpassed.authorised (h _ _ _)

theorem history_refused {D : Canvas.CanvasKernel} {H : CanvasHistory.CanvasHistoryQueryHandler D}
    {W : CanvasHistory.Wire D} (h : EventStore.Handle D) (request : CanvasHistory.QueryRequest W)
    (atCapture atQuery : EventStore.Faults × EventStore.EventTable)
    (hauthorizer : ∀ sessionId, H.authorizeSessionRead sessionId ≠ .ok ()) :
    (CanvasHistory.executeTraced H W h request atCapture atQuery).1 = [] ∧
      ∃ e, CanvasHistory.execute H W h request atCapture atQuery = .error e := by
  rw [← CanvasHistory.executeTraced_result]
  unfold CanvasHistory.executeTraced
  rcases CanvasHistory.prepareTraced_cases H W atCapture.1 h request atCapture.2 with
    ⟨e, htraced, -⟩ | ⟨canvasId, sessionId, calls, r, hauth, -⟩
  · rw [htraced]
    exact ⟨rfl, e, rfl⟩
  · exact absurd hauth.authorized (hauthorizer sessionId)

/-- Without a Grant a connection gets a fixed text. -/
theorem connection_refused {config : AssetHttp.Config} {link : Link G} {server : Server G}
    (h : ∀ assetId, ¬ HoldsGrant link server assetId) :
    ∃ reply : AssetHttp.Reply A, Plain (requestOrigin link.reads) reply ∧
      (handleConnection config link server).1.written <+: reply.text := by
  rcases handleConnection_answered config link server with ⟨request, assetId, reply, hrequest, hauth, -⟩ | hplain
  · obtain ⟨token, grant, htoken, hgrant⟩ := hauth.grant
    exact absurd ⟨request, token, grant, hrequest, htoken, hgrant⟩ (h assetId)
  · exact hplain

/-- Unless the environment turns the development mode on, nothing of the stores is disclosed. -/
theorem closed_by_default (hload : load C env = some (.ok config)) (hoff : NotEnabled env) : Closed config := by
  have hmode := developmentMode_off hload hoff
  have hreject : ∀ {SessionId : Type} {canvas : Option SessionId} {authorizer : ReadAuthorizer SessionId},
      readAuthorizer config.developmentMode canvas = some authorizer → ∀ sessionId,
        authorizer ≠ .development sessionId := by
    rintro SessionId canvas authorizer hchoice sessionId rfl
    obtain ⟨htrue, -⟩ := readAuthorizer_development hchoice
    rw [hmode] at htrue
    cases htrue
  constructor
  case chosen =>
    intro SessionId canvas
    rw [hmode]
    exact ⟨.rejectAll, rfl⟩
  case queries =>
    intro A G _ canvas authorizer I entries q hchoice hauthorizer
    apply query_refused
    intro actor sessionId queryType
    rw [hauthorizer]
    exact fun hok => hreject hchoice sessionId (decide_ok_iff.mp hok)
  case downloads =>
    intro A G _ canvas authorizer p link server hchoice hp hentries
    have httl := grantTtl_pos (load_ok_iff.mp hload).2.assetDelivery
    have hnone : ∀ assetId, ¬ HoldsGrant link server assetId := by
      intro assetId hholds
      have hdisclosed := ((reachable_accounted httl hp).disclosed hchoice hentries hholds).mode
      rw [hmode] at hdisclosed
      cases hdisclosed
    refine ⟨connection_refused hnone, ?_⟩
    intro server' hentries'
    exact handleConnection_congr (hentries'.trans hentries.symm) fun assetId hholds => absurd hholds (hnone assetId)
  case history =>
    intro D _ canvas authorizer H W h request atCapture atQuery hchoice hauthorizer
    apply history_refused
    intro sessionId
    rw [hauthorizer]
    exact fun hok => hreject hchoice sessionId (decide_ok_iff.mp hok)

theorem closed_by_default_sample :
    load plainKernel (fun _ => none) = some (.ok (.default plainKernel)) ∧ Closed (.default plainKernel) :=
  ⟨load_empty rfl, closed_by_default (load_empty rfl) (fun _ _ h => by cases h)⟩

end Closed

end OrbitRelay.Disclosure
