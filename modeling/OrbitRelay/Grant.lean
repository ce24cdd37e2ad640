import OrbitRelay.Base64Url
import OrbitRelay.ExpiringMap
import OrbitRelay.MachineInt
import OrbitRelay.Transition
import Mathlib.Data.Set.Function

/-!
# Asset access Grants

The registry of `grant.rs`: a bearer token is 32 random bytes in base64url, and
only its digest is kept. Each call reads its clock once and works under the lock,
so a run is the sequence of calls in the order of the lock. The types of the
protocol, the calendar and SHA-256 are parameters.
-/
namespace OrbitRelay.Grant

open Base64Url ExpiringMap MachineInt Text Transition

/-- `[u8; 32]`. -/
abbrev Key := { bytes : List UInt8 // bytes.length = 32 }

def i64Min : Int := -2 ^ 63

/-- `i64::saturating_add`. -/
def saturatingAdd (a b : Int) : Int := max i64Min (min i64Max (a + b))

structure GrantKernel (AssetId : Type) where
  ActorId : Type
  SessionId : Type
  DocumentId : Type
  Timestamp : Type
  unixTimestamp : Timestamp → Int
  fromUnixTimestamp : Int → Option Timestamp
  unixTimestamp_min : ∀ t, i64Min ≤ unixTimestamp t
  /-- The calendar ends with the year 9999, far before the last second of an `i64`. -/
  unixTimestamp_from : ∀ n t, fromUnixTimestamp n = some t → unixTimestamp t = n ∧ n < i64Max
  sha256 : Key → Key

variable {AssetId : Type} {G : GrantKernel AssetId}

structure AssetAccessGrant (G : GrantKernel AssetId) where
  assetId : AssetId
  actorId : G.ActorId
  sessionId : G.SessionId
  documentId : G.DocumentId
  expiresAt : G.Timestamp

inductive GrantError where
  | unavailable | randomness | unauthorized
  deriving DecidableEq, Repr

abbrev Entries (G : GrantKernel AssetId) := AList (fun _ : Key => AssetAccessGrant G)

/-- The settings of `AssetAccessGrantIssuer`; its entries are in the state of a run. -/
structure AssetAccessGrantIssuer where
  ttlSeconds : Int
  maxGrants : Nat

def AssetAccessGrant.expiry (grant : AssetAccessGrant G) : Int := G.unixTimestamp grant.expiresAt

/-- `issue` with its clock reading and what `getrandom` gives. -/
def issue (I : AssetAccessGrantIssuer) (entries : Entries G) (now : G.Timestamp) (random : Option Key)
    (assetId : AssetId) (actorId : G.ActorId) (sessionId : G.SessionId) (documentId : G.DocumentId) :
    Entries G × Except GrantError (Str × AssetAccessGrant G) :=
  match G.fromUnixTimestamp (saturatingAdd (G.unixTimestamp now) I.ttlSeconds) with
  | none => (entries, .error .unavailable)
  | some expiresAt =>
    let entries := retain (fun grant => grant.expiry > G.unixTimestamp now) entries
    if entries.entries.length ≥ I.maxGrants then (entries, .error .unavailable)
    else match random with
      | none => (entries, .error .randomness)
      | some raw =>
        let grant : AssetAccessGrant G := ⟨assetId, actorId, sessionId, documentId, expiresAt⟩
        (entries.insert (G.sha256 raw) grant, .ok (base64url raw.1, grant))

/-- The bytes of a canonical token. -/
def tokenBytes (token : Str) : Option Key :=
  if len token ≠ 43 then none
  else match decodeBase64url token with
    | none => none
    | some raw =>
      if h : raw.length ≠ 32 then none
      else if base64url raw ≠ token then none
      else some ⟨raw, not_not.mp h⟩

def validate [DecidableEq AssetId] (entries : Entries G) (now : G.Timestamp) (token : Str) (assetId : AssetId) :
    Entries G × Except GrantError (AssetAccessGrant G) :=
  match tokenBytes token with
  | none => (entries, .error .unauthorized)
  | some bytes =>
    match entries.lookup (G.sha256 bytes) with
    | none => (entries, .error .unauthorized)
    | some grant =>
      if grant.expiry ≤ G.unixTimestamp now then
        (entries.erase (G.sha256 bytes), .error .unauthorized)
      else if grant.assetId ≠ assetId then (entries, .error .unauthorized)
      else (entries, .ok grant)

theorem tokenBytes_eq_some {token : Str} {raw : Key} :
    tokenBytes token = some raw ↔ base64url raw.1 = token := by
  constructor
  · intro h
    unfold tokenBytes at h
    split at h
    · cases h
    · split at h
      · cases h
      · split at h
        · cases h
        · split at h
          · cases h
          · cases h
            exact not_not.mp ‹_›
  · rintro rfl
    have hne : raw.1 ≠ [] := List.ne_nil_of_length_pos (by rw [raw.2]; decide)
    have hlen : len (base64url raw.1) = 43 := by rw [base64url_len, raw.2]
    rw [tokenBytes, if_neg (not_not.mpr hlen), decode_base64url raw.1 hne]
    dsimp only
    rw [dif_neg (not_not.mpr raw.2), if_neg (not_not.mpr rfl)]

theorem base64url_injective {a b : Key} (h : base64url a.1 = base64url b.1) : a = b :=
  Option.some.inj ((tokenBytes_eq_some.mpr rfl).symm.trans (tokenBytes_eq_some.mpr h.symm))

section Calls

variable {entries : Entries G} {now : G.Timestamp} {token : Str} {assetId : AssetId}

/-- What one call of `issue` can do. -/
theorem issue_cases (I : AssetAccessGrantIssuer) (entries : Entries G) (now : G.Timestamp) (random : Option Key)
    (assetId : AssetId) (actorId : G.ActorId) (sessionId : G.SessionId) (documentId : G.DocumentId) :
    (issue I entries now random assetId actorId sessionId documentId = (entries, .error .unavailable) ∧
      G.fromUnixTimestamp (saturatingAdd (G.unixTimestamp now) I.ttlSeconds) = none) ∨
    ∃ expiresAt swept,
      G.fromUnixTimestamp (saturatingAdd (G.unixTimestamp now) I.ttlSeconds) = some expiresAt ∧
      swept = retain (fun grant => grant.expiry > G.unixTimestamp now) entries ∧
      ((I.maxGrants ≤ swept.entries.length ∧
          issue I entries now random assetId actorId sessionId documentId = (swept, .error .unavailable)) ∨
        (swept.entries.length < I.maxGrants ∧ random = none ∧
          issue I entries now random assetId actorId sessionId documentId = (swept, .error .randomness)) ∨
        (swept.entries.length < I.maxGrants ∧ ∃ raw, random = some raw ∧
          issue I entries now random assetId actorId sessionId documentId =
            (swept.insert (G.sha256 raw) ⟨assetId, actorId, sessionId, documentId, expiresAt⟩,
              .ok (base64url raw.1, ⟨assetId, actorId, sessionId, documentId, expiresAt⟩)))) := by
  unfold issue
  cases htime : G.fromUnixTimestamp (saturatingAdd (G.unixTimestamp now) I.ttlSeconds) with
  | none => exact .inl ⟨rfl, rfl⟩
  | some expiresAt =>
    refine .inr ⟨expiresAt, _, rfl, rfl, ?_⟩
    dsimp only
    split
    · exact .inl ⟨‹_›, rfl⟩
    · have hlt := not_le.mp ‹_›
      cases random with
      | none => exact .inr (.inl ⟨hlt, rfl, rfl⟩)
      | some raw => exact .inr (.inr ⟨hlt, raw, rfl, rfl⟩)

variable [DecidableEq AssetId]

theorem validate_ok_iff {grant : AssetAccessGrant G} :
    (validate entries now token assetId).2 = .ok grant ↔
      ∃ raw : Key, base64url raw.1 = token ∧ entries.lookup (G.sha256 raw) = some grant ∧
        G.unixTimestamp now < grant.expiry ∧ grant.assetId = assetId := by
  constructor
  · intro h
    unfold validate at h
    split at h
    · cases h
    · rename_i raw hraw
      split at h
      · cases h
      · rename_i found hfound
        split at h
        · cases h
        · rename_i hexpiry
          split at h
          · cases h
          · rename_i hasset
            cases h
            exact ⟨raw, tokenBytes_eq_some.mp hraw, hfound, not_le.mp hexpiry, not_not.mp hasset⟩
  · rintro ⟨raw, htoken, hfound, hexpiry, hasset⟩
    rw [validate, tokenBytes_eq_some.mpr htoken]
    dsimp only
    rw [hfound]
    dsimp only
    rw [if_neg (not_le.mpr hexpiry), if_neg (not_not.mpr hasset)]

/-- Every other answer is `Unauthorized`. -/
theorem validate_unauthorized (h : ∀ grant, (validate entries now token assetId).2 ≠ .ok grant) :
    (validate entries now token assetId).2 = .error .unauthorized := by
  have hor : (validate entries now token assetId).2 = .error .unauthorized ∨
      ∃ grant, (validate entries now token assetId).2 = .ok grant := by
    unfold validate
    split
    · exact .inl rfl
    · split
      · exact .inl rfl
      · split
        · exact .inl rfl
        · split
          · exact .inl rfl
          · exact .inr ⟨_, rfl⟩
  rcases hor with herr | ⟨grant, hok⟩
  · exact herr
  · exact absurd hok (h grant)

theorem validate_entries (entries : Entries G) (now : G.Timestamp) (token : Str) (assetId : AssetId) :
    (validate entries now token assetId).1 = entries ∨
      ∃ k grant, entries.lookup k = some grant ∧ grant.expiry ≤ G.unixTimestamp now ∧
        (validate entries now token assetId).1 = entries.erase k := by
  unfold validate
  split
  · exact .inl rfl
  · rename_i raw _
    split
    · exact .inl rfl
    · rename_i found hfound
      split
      · exact .inr ⟨_, found, hfound, ‹_›, rfl⟩
      · split
        · exact .inl rfl
        · exact .inl rfl

end Calls

section Runs

/-- A Grant that `issue` gave out: the bytes drawn for it, what the call returned, and when. -/
structure Issued (G : GrantKernel AssetId) where
  drawn : Key
  token : Str
  grant : AssetAccessGrant G
  time : Int

structure State (G : GrantKernel AssetId) where
  entries : Entries G
  time : Int
  issued : List (Issued G)

def State.record (issued : List (Issued G)) (drawn : Key) (time : Int) :
    Except GrantError (Str × AssetAccessGrant G) → List (Issued G)
  | .ok (token, grant) => ⟨drawn, token, grant, time⟩ :: issued
  | .error _ => issued

variable (I : AssetAccessGrantIssuer) (seen : Set Key)

/-- One call. The clock does not go back, no bytes are drawn twice, and all the bytes
that are drawn or presented are in `seen`. -/
inductive Step [DecidableEq AssetId] : State G → State G → Prop
  | issue {s : State G} (now : G.Timestamp) (raw : Key) (available : Bool) (assetId : AssetId)
      (actorId : G.ActorId) (sessionId : G.SessionId) (documentId : G.DocumentId)
      (htime : s.time ≤ G.unixTimestamp now) (hseen : raw ∈ seen) (hfresh : raw ∉ s.issued.map Issued.drawn) :
      Step s
        { entries := (issue I s.entries now (if available then some raw else none) assetId actorId
            sessionId documentId).1
          time := G.unixTimestamp now
          issued := State.record s.issued raw (G.unixTimestamp now)
            (issue I s.entries now (if available then some raw else none) assetId actorId sessionId
              documentId).2 }
  | validate {s : State G} (now : G.Timestamp) (token : Str) (assetId : AssetId)
      (htime : s.time ≤ G.unixTimestamp now) (hseen : ∀ raw, tokenBytes token = some raw → raw ∈ seen) :
      Step s
        { entries := (validate s.entries now token assetId).1
          time := G.unixTimestamp now
          issued := s.issued }

def system [DecidableEq AssetId] : System (State G) where
  init := fun s => s.entries = ∅ ∧ s.issued = []
  step := Step I seen

/-- Whether `issue` gave out this token with this Grant, and it has not lapsed. -/
def Valid (s : State G) (token : Str) (assetId : AssetId) (time : Int) (grant : AssetAccessGrant G) : Prop :=
  ∃ i ∈ s.issued, i.token = token ∧ i.grant = grant ∧ grant.assetId = assetId ∧ time < i.time + I.ttlSeconds

/-- The Grants that have not lapsed. -/
def unexpired (s : State G) (time : Int) : List (Issued G) :=
  s.issued.filter fun i => time < i.time + I.ttlSeconds

/-- An entry that has not lapsed is still there, and the same. -/
def Keeps (time : Int) (entries entries' : Entries G) : Prop :=
  ∀ k grant, entries.lookup k = some grant → time < grant.expiry → entries'.lookup k = some grant

variable {I seen}

def Issued.entry (i : Issued G) : Key × AssetAccessGrant G := (G.sha256 i.drawn, i.grant)

structure Invariant (I : AssetAccessGrantIssuer) (seen : Set Key) (s : State G) : Prop where
  tracks : Tracks AssetAccessGrant.expiry s.time (s.issued.map Issued.entry) s.entries
  issued : ∀ i ∈ s.issued,
    i.drawn ∈ seen ∧ i.token = base64url i.drawn.1 ∧ i.grant.expiry = i.time + I.ttlSeconds
  bounded : s.entries.entries.length ≤ I.maxGrants

theorem expiry_eq {now expiresAt : G.Timestamp} (httl : 0 < I.ttlSeconds)
    (h : G.fromUnixTimestamp (saturatingAdd (G.unixTimestamp now) I.ttlSeconds) = some expiresAt) :
    G.unixTimestamp expiresAt = G.unixTimestamp now + I.ttlSeconds := by
  obtain ⟨heq, hlt⟩ := G.unixTimestamp_from _ _ h
  have hmin := G.unixTimestamp_min now
  unfold saturatingAdd at heq hlt
  omega

variable {s : State G}

/-- Different bytes have different digests. -/
theorem Invariant.digest_fresh (h : Invariant I seen s) (hinj : Set.InjOn G.sha256 seen) {raw : Key}
    (hraw : raw ∈ seen) (hfresh : raw ∉ s.issued.map Issued.drawn) :
    G.sha256 raw ∉ (s.issued.map Issued.entry).map Prod.fst := by
  intro hmem
  rw [List.map_map] at hmem
  obtain ⟨i, hi, heq⟩ := List.mem_map.mp hmem
  have hdrawn : i.drawn = raw := hinj (h.issued i hi).1 hraw heq
  exact hfresh (hdrawn ▸ List.mem_map_of_mem hi)

theorem drawn_eq {available : Bool} {raw r : Key} (h : (if available then some raw else none) = some r) :
    raw = r := by
  cases available with
  | false => cases h
  | true => exact Option.some.inj h

theorem Invariant.issue (h : Invariant I seen s) (hinj : Set.InjOn G.sha256 seen)
    (httl : 0 < I.ttlSeconds) {now : G.Timestamp} (htime : s.time ≤ G.unixTimestamp now) {raw : Key}
    (hraw : raw ∈ seen) (hfresh : raw ∉ s.issued.map Issued.drawn) (available : Bool) (assetId : AssetId)
    (actorId : G.ActorId) (sessionId : G.SessionId) (documentId : G.DocumentId) :
    Invariant I seen
      { entries := (Grant.issue I s.entries now (if available then some raw else none) assetId actorId
          sessionId documentId).1
        time := G.unixTimestamp now
        issued := State.record s.issued raw (G.unixTimestamp now)
          (Grant.issue I s.entries now (if available then some raw else none) assetId actorId sessionId
            documentId).2 } := by
  have hlater := h.tracks.later htime
  rcases issue_cases I s.entries now (if available then some raw else none) assetId actorId sessionId
      documentId with
    ⟨heq, -⟩ | ⟨expiresAt, swept, hexp, rfl, ⟨-, heq⟩ | ⟨-, -, heq⟩ | ⟨hlt, r, hr, heq⟩⟩
  · rw [heq]
    exact ⟨hlater, h.issued, h.bounded⟩
  · rw [heq]
    exact ⟨hlater.sweep, h.issued, le_trans (length_retain_le _ _) h.bounded⟩
  · rw [heq]
    exact ⟨hlater.sweep, h.issued, le_trans (length_retain_le _ _) h.bounded⟩
  · rw [heq]
    obtain rfl := drawn_eq hr
    have hnew := h.digest_fresh hinj hraw hfresh
    refine ⟨hlater.sweep.insert hnew _, ?_, ?_⟩
    · intro i hi
      rcases List.mem_cons.mp hi with rfl | hi
      · exact ⟨hraw, rfl, expiry_eq httl hexp⟩
      · exact h.issued i hi
    · exact le_of_eq_of_le (hlater.sweep.length_insert hnew _) hlt

theorem Invariant.validate [DecidableEq AssetId] (h : Invariant I seen s) {now : G.Timestamp}
    (htime : s.time ≤ G.unixTimestamp now) (token : Str) (assetId : AssetId) :
    Invariant I seen
      { entries := (Grant.validate s.entries now token assetId).1
        time := G.unixTimestamp now
        issued := s.issued } := by
  have hlater := h.tracks.later htime
  rcases validate_entries s.entries now token assetId with
    heq | ⟨k, grant, hk, hexp, heq⟩
  · rw [heq]
    exact ⟨hlater, h.issued, h.bounded⟩
  · rw [heq]
    exact ⟨hlater.lapse hk hexp, h.issued, le_trans (length_erase_le k s.entries) h.bounded⟩

theorem reachable_invariant [DecidableEq AssetId] (hinj : Set.InjOn G.sha256 seen)
    (httl : 0 < I.ttlSeconds) (hs : (system I seen).Reachable s) : Invariant I seen s := by
  apply System.invariant (S := system I seen) (P := Invariant I seen) ?_ ?_ hs
  · rintro ⟨_, _, _⟩ ⟨rfl, rfl⟩
    exact ⟨.start, fun i hi => absurd hi List.not_mem_nil, Nat.zero_le _⟩
  · intro s t h hst
    cases hst with
    | issue now raw available assetId actorId sessionId documentId htime hraw hfresh =>
      exact h.issue hinj httl htime hraw hfresh available assetId actorId sessionId documentId
    | validate now token assetId htime hseen => exact h.validate htime token assetId

/-- What is promised of the calls that follow a state of a run. -/
structure Exact [DecidableEq AssetId] (I : AssetAccessGrantIssuer) (seen : Set Key) (s : State G) : Prop where
  accepts : ∀ now token assetId grant, s.time ≤ G.unixTimestamp now →
    (∀ raw, tokenBytes token = some raw → raw ∈ seen) →
    ((validate s.entries now token assetId).2 = .ok grant ↔
      Valid I s token assetId (G.unixTimestamp now) grant)
  rejects : ∀ now token assetId, s.time ≤ G.unixTimestamp now →
    (∀ raw, tokenBytes token = some raw → raw ∈ seen) →
    (∀ grant, ¬ Valid I s token assetId (G.unixTimestamp now) grant) →
    (validate s.entries now token assetId).2 = .error .unauthorized
  validate_keeps : ∀ now token assetId,
    Keeps (G.unixTimestamp now) s.entries (validate s.entries now token assetId).1
  issue_keeps : ∀ now raw (available : Bool) assetId actorId sessionId documentId, raw ∈ seen →
    raw ∉ s.issued.map Issued.drawn →
    Keeps (G.unixTimestamp now) s.entries
      (issue I s.entries now (if available then some raw else none) assetId actorId sessionId documentId).1
  bounded : s.entries.entries.length ≤ I.maxGrants
  unavailable : ∀ now raw assetId actorId sessionId documentId, s.time ≤ G.unixTimestamp now →
    (G.fromUnixTimestamp (saturatingAdd (G.unixTimestamp now) I.ttlSeconds)).isSome →
    ((issue I s.entries now (some raw) assetId actorId sessionId documentId).2 = .error .unavailable ↔
      (unexpired I s (G.unixTimestamp now)).length = I.maxGrants)

theorem Invariant.valid_iff (h : Invariant I seen s) {time : Int} (htime : s.time ≤ time)
    (hinj : Set.InjOn G.sha256 seen) {raw : Key} (hraw : raw ∈ seen) {assetId : AssetId}
    {grant : AssetAccessGrant G} :
    Valid I s (base64url raw.1) assetId time grant ↔
      s.entries.lookup (G.sha256 raw) = some grant ∧ time < grant.expiry ∧ grant.assetId = assetId := by
  rw [← and_assoc, (h.tracks.later htime).lookup_iff]
  constructor
  · rintro ⟨i, hi, htoken, rfl, hasset, hlt⟩
    obtain ⟨-, heq, hexp⟩ := h.issued i hi
    have hdrawn : i.drawn = raw := base64url_injective (heq.symm.trans htoken)
    refine ⟨⟨List.mem_map.mpr ⟨i, hi, ?_⟩, hexp ▸ hlt⟩, hasset⟩
    rw [Issued.entry, hdrawn]
  · rintro ⟨⟨hmem, hlt⟩, hasset⟩
    obtain ⟨i, hi, heq⟩ := List.mem_map.mp hmem
    obtain ⟨hdigest, hgrant⟩ := Prod.mk.inj heq
    obtain ⟨hseen, htoken, hexp⟩ := h.issued i hi
    have hdrawn : i.drawn = raw := hinj hseen hraw hdigest
    refine ⟨i, hi, by rw [htoken, hdrawn], hgrant, hasset, ?_⟩
    rw [← hexp, hgrant]
    exact hlt

theorem Invariant.accepts [DecidableEq AssetId] (h : Invariant I seen s) (hinj : Set.InjOn G.sha256 seen)
    {now : G.Timestamp} (htime : s.time ≤ G.unixTimestamp now) {token : Str}
    (hseen : ∀ raw, tokenBytes token = some raw → raw ∈ seen) (assetId : AssetId)
    (grant : AssetAccessGrant G) :
    (Grant.validate s.entries now token assetId).2 = .ok grant ↔
      Valid I s token assetId (G.unixTimestamp now) grant := by
  rw [validate_ok_iff]
  constructor
  · rintro ⟨raw, rfl, hfound⟩
    exact (h.valid_iff htime hinj (hseen raw (tokenBytes_eq_some.mpr rfl))).mpr hfound
  · intro hvalid
    obtain ⟨i, hi, htoken, -⟩ := id hvalid
    have hdrawn : base64url i.drawn.1 = token := (h.issued i hi).2.1.symm.trans htoken
    subst hdrawn
    exact ⟨i.drawn, rfl, (h.valid_iff htime hinj (h.issued i hi).1).mp hvalid⟩

theorem validate_keeps [DecidableEq AssetId] (entries : Entries G) (now : G.Timestamp) (token : Str)
    (assetId : AssetId) : Keeps (G.unixTimestamp now) entries (validate entries now token assetId).1 := by
  intro k grant hk hlt
  rcases validate_entries entries now token assetId with
    heq | ⟨j, lapsed, hj, hexp, heq⟩
  · rw [heq]
    exact hk
  · have hne : k ≠ j := by
      rintro rfl
      have hgrant : grant = lapsed := Option.some.inj (hk.symm.trans hj)
      rw [hgrant] at hlt
      omega
    rw [heq, AList.lookup_erase_ne hne]
    exact hk

theorem retain_keeps (entries : Entries G) (time : Int) :
    Keeps time entries (retain (fun grant => grant.expiry > time) entries) := by
  intro k grant hk hlt
  rw [lookup_retain, hk, Option.filter_some, if_pos (decide_eq_true hlt)]

theorem Invariant.issue_keeps (h : Invariant I seen s) (hinj : Set.InjOn G.sha256 seen) (now : G.Timestamp)
    {raw : Key} (hraw : raw ∈ seen) (hfresh : raw ∉ s.issued.map Issued.drawn) (available : Bool)
    (assetId : AssetId) (actorId : G.ActorId) (sessionId : G.SessionId) (documentId : G.DocumentId) :
    Keeps (G.unixTimestamp now) s.entries
      (Grant.issue I s.entries now (if available then some raw else none) assetId actorId sessionId
        documentId).1 := by
  rcases issue_cases I s.entries now (if available then some raw else none) assetId actorId sessionId
      documentId with
    ⟨heq, -⟩ | ⟨expiresAt, swept, -, rfl, ⟨-, heq⟩ | ⟨-, -, heq⟩ | ⟨-, r, hr, heq⟩⟩
  · rw [heq]
    exact fun k grant hk _ => hk
  · rw [heq]
    exact retain_keeps s.entries _
  · rw [heq]
    exact retain_keeps s.entries _
  · rw [heq]
    obtain rfl := drawn_eq hr
    intro k grant hk hlt
    have hne : k ≠ G.sha256 raw := by
      rintro rfl
      exact h.tracks.not_mem (h.digest_fresh hinj hraw hfresh)
        (AList.lookup_isSome.mp (by rw [hk]; rfl))
    rw [AList.lookup_insert_ne hne]
    exact retain_keeps s.entries _ k grant hk hlt

/-- The registry is full when that many Grants have not lapsed. -/
theorem Invariant.unavailable (h : Invariant I seen s) {now : G.Timestamp}
    (htime : s.time ≤ G.unixTimestamp now) (raw : Key) (assetId : AssetId) (actorId : G.ActorId)
    (sessionId : G.SessionId) (documentId : G.DocumentId)
    (hexp : (G.fromUnixTimestamp (saturatingAdd (G.unixTimestamp now) I.ttlSeconds)).isSome) :
    (Grant.issue I s.entries now (some raw) assetId actorId sessionId documentId).2 = .error .unavailable ↔
      (unexpired I s (G.unixTimestamp now)).length = I.maxGrants := by
  have hsize : (retain (fun grant => grant.expiry > G.unixTimestamp now) s.entries).entries.length =
      (unexpired I s (G.unixTimestamp now)).length := by
    rw [(h.tracks.later htime).size_sweep, List.filter_map, List.length_map, unexpired]
    congr 1
    apply List.filter_congr
    intro i hi
    simp only [Function.comp, Issued.entry, (h.issued i hi).2.2]
  have hle := le_trans (length_retain_le (fun grant => grant.expiry > G.unixTimestamp now) s.entries) h.bounded
  rcases issue_cases I s.entries now (some raw) assetId actorId sessionId documentId with
    ⟨-, hnone⟩ | ⟨expiresAt, swept, -, rfl, ⟨hfull, heq⟩ | ⟨-, hr, -⟩ | ⟨hlt, r, -, heq⟩⟩
  · rw [hnone] at hexp
    cases hexp
  · rw [heq]
    exact ⟨fun _ => by omega, fun _ => rfl⟩
  · cases hr
  · rw [heq]
    exact ⟨nofun, fun hmax => by omega⟩

end Runs

section Sample

/-- Seconds from the year -9999 to the year 9999. -/
abbrev CalendarSecond := { n : Int // -377705116800 ≤ n ∧ n ≤ 253402300799 }

def zeroBytes : Key := ⟨List.replicate 32 0, rfl⟩

/-- The SHA-256 digest of 32 zero bytes. -/
def zeroDigest : Key :=
  ⟨[0x66, 0x68, 0x7a, 0xad, 0xf8, 0x62, 0xbd, 0x77, 0x6c, 0x8f, 0xc1, 0x8b, 0x8e, 0x9f, 0x8e, 0x20,
    0x08, 0x97, 0x14, 0x85, 0x6e, 0xe2, 0x33, 0xb3, 0x90, 0x2a, 0x59, 0x1d, 0x0d, 0x5f, 0x29, 0x25], rfl⟩

/-- One actor in one session; the digest is right for the one token that is drawn. -/
def sampleKernel (AssetId : Type) : GrantKernel AssetId where
  ActorId := Unit
  SessionId := Unit
  DocumentId := Unit
  Timestamp := CalendarSecond
  unixTimestamp := Subtype.val
  fromUnixTimestamp := fun n =>
    if h : -377705116800 ≤ n ∧ n ≤ 253402300799 then some ⟨n, h⟩ else none
  unixTimestamp_min := by
    intro t
    have := t.2
    unfold i64Min
    omega
  unixTimestamp_from := by
    intro n t h
    split at h
    · rename_i hn
      cases h
      exact ⟨rfl, by unfold i64Max; omega⟩
    · cases h
  sha256 := fun raw => if raw = zeroBytes then zeroDigest else raw

def sampleTime {AssetId : Type} : (sampleKernel AssetId).Timestamp := ⟨1700000000, by decide⟩

def sampleIssuer : AssetAccessGrantIssuer := ⟨600, 1⟩

def sampleStart : State (sampleKernel Nat) := ⟨∅, 0, []⟩

def sampleIssued : State (sampleKernel Nat) where
  entries := (issue sampleIssuer sampleStart.entries sampleTime (some zeroBytes) 7 () () ()).1
  time := 1700000000
  issued := State.record [] zeroBytes 1700000000
    (issue sampleIssuer sampleStart.entries sampleTime (some zeroBytes) 7 () () ()).2

theorem sampleIssued_reachable : (system sampleIssuer {zeroBytes}).Reachable sampleIssued :=
  (System.Reachable.start ⟨rfl, rfl⟩ : (system sampleIssuer {zeroBytes}).Reachable sampleStart).next
    (Step.issue sampleTime zeroBytes true 7 () () () (by decide) rfl (by decide))

end Sample

end OrbitRelay.Grant
