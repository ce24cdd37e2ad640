import OrbitRelay.AssetHttpStream
import OrbitRelay.AssetHttpSlice
import OrbitRelay.TextLines

/-!
# Responses read back

A client that takes a response apart line by line finds the status, the headers and the
body that the listener meant, whatever stood in the request; and the announced length
is the length of the body.
-/
namespace OrbitRelay.AssetHttp

open AssetStore Codec Grant MachineInt Text

/-! ## The client -/

/-- The first line of a message, and what follows its end. -/
def takeLine : Bytes → Option (Bytes × Bytes)
  | 13 :: 10 :: rest => some ([], rest)
  | b :: rest => (takeLine rest).map fun (line, rest) => (b :: line, rest)
  | [] => none

/-- The headers up to the empty line. `fuel` bounds their number. -/
def takeHeaders : Nat → Bytes → Option (Headers × Bytes)
  | 0, _ => none
  | fuel + 1, bytes => do
    let (line, rest) ← takeLine bytes
    if line = [] then some ([], rest)
    else
      let (name, value) ← splitOnce ": ".toList (← fromUtf8 line)
      let (headers, body) ← takeHeaders fuel rest
      some ((name, value) :: headers, body)

structure Response where
  status : Nat
  headers : Headers
  body : Bytes

/-- `HTTP/1.1`, a status, and a reason that may contain blanks. -/
def takeStatus (line : Str) : Option Nat := do
  let (version, rest) ← splitOnce [' '] line
  let (code, _) ← splitOnce [' '] rest
  if version = "HTTP/1.1".toList then decimal code else none

def readResponse (bytes : Bytes) : Option Response := do
  let (line, rest) ← takeLine bytes
  let status ← takeStatus (← fromUtf8 line)
  let (headers, body) ← takeHeaders rest.length rest
  some ⟨status, headers, body⟩

/-! ## Heads read back -/

theorem takeLine_line {line : Bytes} (h : 13 ∉ line) (rest : Bytes) :
    takeLine (line ++ 13 :: 10 :: rest) = some (line, rest) := by
  induction line with
  | nil => rfl
  | cons b line ih =>
    have hb : b ≠ 13 := fun hb => h (hb ▸ List.mem_cons_self)
    rw [List.cons_append, takeLine, ih fun hmem => h (List.mem_cons_of_mem b hmem)]
    · rfl
    · rintro _ rfl
      exact absurd rfl hb

theorem not_mem_utf8 {s : Str} (h : '\r' ∉ s) : 13 ∉ utf8 s := by
  intro hmem
  obtain ⟨a, b, hab⟩ := List.append_of_mem hmem
  obtain ⟨x, y, rfl, -, -⟩ := utf8_eq_append_cons (c := '\r') (by decide) hab
  exact h (List.mem_append_right x List.mem_cons_self)

theorem takeLine_text {line : Str} (h : '\r' ∉ line) (rest : Bytes) :
    takeLine (utf8 (line ++ crlf) ++ rest) = some (utf8 line, rest) := by
  rw [utf8_append, List.append_assoc]
  exact takeLine_line (not_mem_utf8 h) rest

/-- A header that stands on a line of its own, with a name that ends at the colon. -/
structure HeaderLine (entry : Str × Str) : Prop where
  colon : ':' ∉ entry.1
  name : OneLine entry.1
  value : OneLine entry.2

instance (entry : Str × Str) : Decidable (HeaderLine entry) :=
  decidable_of_iff (':' ∉ entry.1 ∧ OneLine entry.1 ∧ OneLine entry.2)
    ⟨fun h => ⟨h.1, h.2.1, h.2.2⟩, fun h => ⟨h.colon, h.name, h.value⟩⟩

theorem takeHeaders_lines {headers : Headers} (h : ∀ entry ∈ headers, HeaderLine entry) (body : Bytes) {fuel : Nat}
    (hfuel : headers.length < fuel) :
    takeHeaders fuel (utf8 (headers.flatMap headerLine ++ crlf) ++ body) = some (headers, body) := by
  induction headers generalizing fuel with
  | nil =>
    obtain ⟨fuel, rfl⟩ := Nat.exists_eq_succ_of_ne_zero (Nat.ne_of_gt hfuel)
    rfl
  | cons entry headers ih =>
    obtain ⟨fuel, rfl⟩ := Nat.exists_eq_succ_of_ne_zero (Nat.ne_of_gt (Nat.zero_lt_of_lt hfuel))
    obtain ⟨name, value⟩ := entry
    obtain ⟨hcolon, hname, hvalue⟩ := h _ List.mem_cons_self
    have hline : '\r' ∉ name ++ ": ".toList ++ value :=
      (oneLine_append (oneLine_append hname (by decide)) hvalue).1
    have hne : utf8 (name ++ ": ".toList ++ value) ≠ [] := fun hnil => by
      have hempty := utf8_eq_nil hnil
      simp at hempty
    have hsplit : splitOnce ": ".toList (name ++ ": ".toList ++ value) = some (name, value) := by
      rw [List.append_assoc]
      exact splitOnce_piece hcolon value
    have htext : utf8 (((name, value) :: headers).flatMap headerLine ++ crlf) ++ body =
        utf8 (name ++ ": ".toList ++ value ++ crlf) ++ (utf8 (headers.flatMap headerLine ++ crlf) ++ body) := by
      rw [List.flatMap_cons, headerLine, List.append_assoc, utf8_append, List.append_assoc]
    rw [htext, takeHeaders, takeLine_text hline]
    simp only [Option.bind_eq_bind, Option.bind_some, if_neg hne, fromUtf8_utf8, hsplit,
      ih (fun entry hmem => h entry (List.mem_cons_of_mem _ hmem)) (Nat.lt_of_succ_lt_succ hfuel)]

def statusLine (code text : Str) : Str := "HTTP/1.1".toList ++ ' ' :: (code ++ ' ' :: text)

theorem takeStatus_split {line rest code text : Str} (hline : splitOnce [' '] line = some ("HTTP/1.1".toList, rest))
    (hrest : splitOnce [' '] rest = some (code, text)) : takeStatus line = decimal code := by
  rw [takeStatus, hline, Option.bind_eq_bind, Option.bind_some]
  dsimp only
  rw [hrest, Option.bind_some]
  exact if_pos rfl

theorem takeStatus_line (status : Nat) (text : Str) : takeStatus (statusLine (number status) text) = some status := by
  have hdecimal : decimal (number status) = some status := decimal_toString status
  have hcode : ' ' ∉ number status := decimal_not_mem hdecimal (by decide)
  have hblank : ' ' ∉ "HTTP/1.1".toList := by decide
  exact (takeStatus_split (splitOnce_char hblank _) (splitOnce_char hcode _)).trans hdecimal

theorem length_lines (headers : Headers) : headers.length < (utf8 (headers.flatMap headerLine ++ crlf)).length := by
  induction headers with
  | nil => decide
  | cons entry headers ih =>
    have hpos : 0 < (utf8 (headerLine entry)).length := by
      obtain ⟨name, value⟩ := entry
      rw [headerLine, utf8_append, List.length_append]
      have hend : (utf8 crlf).length = 2 := by decide
      omega
    rw [List.flatMap_cons, List.append_assoc, utf8_append, List.length_append, List.length_cons]
    omega

theorem reason_oneLine (status : Nat) : OneLine (reason status) := by
  unfold reason
  split <;> decide

theorem statusLine_oneLine (status : Nat) {text : Str} (h : OneLine text) :
    OneLine (statusLine (number status) text) := by
  have hversion : OneLine "HTTP/1.1".toList := by decide
  have hblank : OneLine [' '] := by decide
  have hcode := oneLine_append (oneLine_number status) (oneLine_append hblank h)
  exact oneLine_append hversion (oneLine_append hblank hcode)

theorem responseHead_lines (status : Nat) (headers : Headers) :
    responseHead status headers =
      statusLine (number status) (reason status) ++ crlf ++ (headers.flatMap headerLine ++ crlf) := by
  have hversion : "HTTP/1.1 ".toList = "HTTP/1.1".toList ++ [' '] := by decide
  unfold responseHead statusLine
  generalize reason status = text
  generalize number status = code
  rw [hversion]
  generalize "HTTP/1.1".toList = version
  simp only [List.append_assoc, List.cons_append, List.nil_append]

theorem readResponse_lines {status : Nat} {line : Str} (hline : OneLine line) (hstatus : takeStatus line = some status)
    {headers : Headers} (h : ∀ entry ∈ headers, HeaderLine entry) (body : Bytes) :
    readResponse (utf8 (line ++ crlf ++ (headers.flatMap headerLine ++ crlf)) ++ body) =
      some ⟨status, headers, body⟩ := by
  have hlength : headers.length < (utf8 (headers.flatMap headerLine ++ crlf) ++ body).length := by
    rw [List.length_append]
    exact Nat.lt_add_right _ (length_lines headers)
  have htake := takeLine_text hline.1 (utf8 (headers.flatMap headerLine ++ crlf) ++ body)
  rw [utf8_append, List.append_assoc, readResponse, htake]
  simp only [Option.bind_eq_bind, Option.bind_some, fromUtf8_utf8, hstatus, takeHeaders_lines h body hlength]

theorem readResponse_head {headers : Headers} (h : ∀ entry ∈ headers, HeaderLine entry) (status : Nat) (body : Bytes) :
    readResponse (utf8 (responseHead status headers) ++ body) = some ⟨status, headers, body⟩ := by
  have hread := readResponse_lines (statusLine_oneLine status (reason_oneLine status))
    (takeStatus_line status (reason status)) h body
  rwa [← responseHead_lines] at hread

/-! ## What the listener replies -/

def statuses : List Nat := [200, 204, 206, 400, 401, 403, 404, 405, 416, 500, 503]

def headerNames : List Str :=
  ["Content-Type", "Content-Length", "Accept-Ranges", "ETag", "Connection", "Content-Range",
    "Access-Control-Allow-Origin", "Access-Control-Allow-Methods", "Access-Control-Allow-Headers",
    "Access-Control-Expose-Headers", "Vary"].map String.toList

/-- One of the listener's names, and a value that the peer cannot break out of. -/
structure Sane (headers : Headers) : Prop where
  names : ∀ name ∈ headers.map Prod.fst, name ∈ headerNames
  nodup : (headers.map Prod.fst).Nodup
  values : ∀ entry ∈ headers, OneLine entry.2

theorem headerNames_line : ∀ name ∈ headerNames, ':' ∉ name ∧ OneLine name := by decide

theorem Sane.lines {headers : Headers} (h : Sane headers) : ∀ entry ∈ headers, HeaderLine entry := by
  intro entry hmem
  obtain ⟨hcolon, hname⟩ := headerNames_line _ (h.names _ (List.mem_map_of_mem hmem))
  exact ⟨hcolon, hname, h.values entry hmem⟩

/-- The names of `headers` are those of `model`. -/
theorem sane_of_names {headers : Headers} (hvalues : ∀ entry ∈ headers, OneLine entry.2) (model : Headers)
    (h : headers.map Prod.fst = model.map Prod.fst) (hnames : ∀ name ∈ model.map Prod.fst, name ∈ headerNames)
    (hnodup : (model.map Prod.fst).Nodup) : Sane headers :=
  ⟨h ▸ hnames, h ▸ hnodup, hvalues⟩

theorem simpleHeaders_sane (message : String) : Sane (simpleHeaders message []) := by
  refine sane_of_names ?_ (simpleHeaders "" []) rfl (by decide) (by decide)
  simp only [simpleHeaders, List.append_nil, List.forall_mem_cons, List.not_mem_nil, false_implies, implies_true,
    and_true]
  exact ⟨by decide, oneLine_number _, by decide⟩

theorem rangeHeaders_sane (message : String) {value : Str} (h : OneLine value) :
    Sane (simpleHeaders message [("Content-Range".toList, value)]) := by
  refine sane_of_names ?_ (simpleHeaders "" [("Content-Range".toList, [])]) rfl (by decide) (by decide)
  simp only [simpleHeaders, List.cons_append, List.nil_append, List.forall_mem_cons, List.not_mem_nil, false_implies,
    implies_true, and_true]
  exact ⟨by decide, oneLine_number _, by decide, h⟩

section Origins

variable {origin : Option Str} (horigin : ∀ value, origin = some value → OneLine value)
include horigin

theorem optionsHeaders_sane : Sane (corsHeaders origin ++ [("Content-Length".toList, ['0'])]) := by
  have hvalues : ∀ entry ∈ corsHeaders origin ++ [("Content-Length".toList, ['0'])], OneLine entry.2 := by
    intro entry hmem
    rcases List.mem_append.mp hmem with hcors | hlast
    · exact corsHeaders_oneLine horigin entry hcors
    · rw [List.mem_singleton.mp hlast]
      decide
  cases origin with
  | none => exact sane_of_names hvalues _ rfl (by decide) (by decide)
  | some value =>
    exact sane_of_names hvalues (corsHeaders (some []) ++ [("Content-Length".toList, ['0'])]) rfl (by decide)
      (by decide)

theorem assetHeaders_sane {mediaType hash : Str} (hmedia : OneLine mediaType) (hhash : OneLine hash) (length : Nat)
    {range : Option Str} (hrange : ∀ value, range = some value → OneLine value) :
    Sane (baseHeaders mediaType length hash ++ range.toList.map (fun value => ("Content-Range".toList, value)) ++
      corsHeaders origin) := by
  have hvalues : ∀ entry ∈ baseHeaders mediaType length hash ++
      range.toList.map (fun value => ("Content-Range".toList, value)) ++ corsHeaders origin, OneLine entry.2 := by
    intro entry hmem
    rcases List.mem_append.mp hmem with hmem | hcors
    · rcases List.mem_append.mp hmem with hbase | hrest
      · exact baseHeaders_oneLine hmedia hhash length entry hbase
      · obtain ⟨value, hvalue, rfl⟩ := List.mem_map.mp hrest
        exact hrange value (Option.mem_toList.mp hvalue)
    · exact corsHeaders_oneLine horigin entry hcors
  cases range with
  | none =>
    cases origin with
    | none => exact sane_of_names hvalues (baseHeaders [] 0 []) rfl (by decide) (by decide)
    | some value =>
      exact sane_of_names hvalues (baseHeaders [] 0 [] ++ corsHeaders (some [])) rfl (by decide) (by decide)
  | some bytes =>
    cases origin with
    | none =>
      exact sane_of_names hvalues (baseHeaders [] 0 [] ++ [("Content-Range".toList, [])]) rfl (by decide) (by decide)
    | some value =>
      exact sane_of_names hvalues (baseHeaders [] 0 [] ++ [("Content-Range".toList, [])] ++ corsHeaders (some [])) rfl
        (by decide) (by decide)

end Origins

def allowOrigin : Str := "Access-Control-Allow-Origin".toList

/-- The origin that may read the response is the one that asked. -/
def OpenTo (origin : Option Str) (headers : Headers) : Prop :=
  ∀ value, (allowOrigin, value) ∈ headers → origin = some value

theorem openTo_append {origin : Option Str} {hs hs' : Headers} (h : OpenTo origin hs) (h' : OpenTo origin hs') :
    OpenTo origin (hs ++ hs') := by
  intro value hmem
  rcases List.mem_append.mp hmem with hmem | hmem
  · exact h value hmem
  · exact h' value hmem

theorem openTo_of_names {headers : Headers} (model : Headers) (h : headers.map Prod.fst = model.map Prod.fst)
    (hnot : allowOrigin ∉ model.map Prod.fst) (origin : Option Str) : OpenTo origin headers := by
  intro value hmem
  have hname := List.mem_map_of_mem (f := Prod.fst) hmem
  rw [h] at hname
  exact absurd hname hnot

theorem corsHeaders_openTo (origin : Option Str) : OpenTo origin (corsHeaders origin) := by
  cases origin with
  | none => exact openTo_of_names [] rfl (by decide) none
  | some value =>
    have hrest : OpenTo (some value) (corsHeaders (some value)).tail :=
      openTo_of_names (corsHeaders (some [])).tail rfl (by decide) _
    intro found hmem
    rcases List.mem_cons.mp hmem with heq | hmem
    · cases heq
      rfl
    · exact hrest found hmem

theorem assetHeaders_openTo (mediaType hash : Str) (length : Nat) (range origin : Option Str) :
    OpenTo origin (baseHeaders mediaType length hash ++
      range.toList.map (fun value => ("Content-Range".toList, value)) ++ corsHeaders origin) := by
  have hrange : OpenTo origin (range.toList.map (fun value => ("Content-Range".toList, value))) := by
    cases range with
    | none => exact openTo_of_names [] rfl (by decide) origin
    | some value => exact openTo_of_names [("Content-Range".toList, [])] (by rfl) (by decide) origin
  have hbase : OpenTo origin (baseHeaders mediaType length hash) :=
    openTo_of_names (baseHeaders [] 0 []) (by rfl) (by decide) origin
  exact openTo_append (openTo_append hbase hrange) (corsHeaders_openTo origin)

/-! ## Replies -/

variable {K : AssetKernel} {G : GrantKernel K.AssetId}

def Reply.headers : Reply K → Headers
  | .simple _ message extra => simpleHeaders message extra
  | .head _ headers | .content _ headers _ _ _ => headers

/-- The reply announces `length` bytes and sends them; only the answer to a `HEAD` leaves them out. -/
def Reply.Announces (request : HttpRequest) (length : Nat) : Reply K → Prop
  | .simple _ message _ => (simpleBody message).length = length
  | .head _ _ => length = 0 ∨ request.method = "HEAD".toList
  | .content _ _ _ _ sent => sent = length

structure Proper (origins : List Str) (request : HttpRequest) (reply : Reply K) : Prop where
  status : reply.status ∈ statuses
  sane : Sane reply.headers
  openTo : OpenTo (request.header "origin") reply.headers
  origin : ∀ value, (allowOrigin, value) ∈ reply.headers → value ∈ origins
  length : ∃ length, ("Content-Length".toList, number length) ∈ reply.headers ∧ reply.Announces request length

variable {origins : List Str} {request : HttpRequest}

theorem simple_announces (status : Nat) (message : String) (extra : Headers) :
    ∃ length, ("Content-Length".toList, number length) ∈ (Reply.simple (K := K) status message extra).headers ∧
      (Reply.simple (K := K) status message extra).Announces request length :=
  ⟨_, List.mem_cons_of_mem _ List.mem_cons_self, rfl⟩

theorem refusal_proper {status : Nat} {message : String} (h : (status, message) ∈ refusals) :
    Proper origins request (.simple (K := K) status message []) := by
  have hopen : ∀ origin, OpenTo origin (simpleHeaders message []) := fun origin =>
    openTo_of_names (simpleHeaders "" []) (by rfl) (by decide) origin
  refine ⟨?_, simpleHeaders_sane message, hopen _, fun value hmem => ?_, simple_announces status message []⟩
  · have hall : ∀ entry ∈ refusals, entry.1 ∈ statuses := by decide
    exact hall _ h
  · cases hopen none value hmem

theorem unsatisfiable_proper {value : Str} (h : OneLine value) :
    Proper origins request (.simple (K := K) 416 "range not satisfiable" [("Content-Range".toList, value)]) := by
  have hopen : ∀ origin, OpenTo origin (simpleHeaders "range not satisfiable" [("Content-Range".toList, value)]) :=
    fun origin => openTo_of_names (simpleHeaders "" [("Content-Range".toList, [])]) (by rfl) (by decide) origin
  have hstatus : 416 ∈ statuses := by decide
  refine ⟨hstatus, rangeHeaders_sane _ h, hopen _, fun value hmem => ?_, simple_announces 416 _ _⟩
  cases hopen none value hmem

section Allowed

variable (hline : ∀ value, request.header "origin" = some value → OneLine value)
  (hallowed : ∀ value, request.header "origin" = some value → value ∈ origins)
include hline hallowed

theorem options_proper :
    Proper origins request
      (.head (K := K) 204 (corsHeaders (request.header "origin") ++ [("Content-Length".toList, ['0'])])) := by
  have hopen : OpenTo (request.header "origin")
      (corsHeaders (request.header "origin") ++ [("Content-Length".toList, ['0'])]) :=
    openTo_append (corsHeaders_openTo _) (openTo_of_names [("Content-Length".toList, ['0'])] (by rfl) (by decide) _)
  have hstatus : 204 ∈ statuses := by decide
  refine ⟨hstatus, optionsHeaders_sane hline, hopen, fun value h => hallowed value (hopen value h), 0, ?_, .inl rfl⟩
  exact List.mem_append_right _ List.mem_cons_self

theorem plain_proper {reply : Reply K} (h : Plain (request.header "origin") reply) : Proper origins request reply := by
  cases h with
  | refusal h => exact refusal_proper h
  | options => exact options_proper hline hallowed

theorem answerSlice_proper {asset : SourceAssetDescriptor K} (hmedia : OneLine asset.mediaType.toList)
    (hhash : OneLine (K.hashText asset.contentHash).toList) (permit : Bool) (assetId : K.AssetId)
    {status : Nat} (hstatus : status ∈ statuses) (start length : Nat) {range : Option Str}
    (hrange : ∀ value, range = some value → OneLine value) :
    Proper origins request (answerSlice permit (request.header "origin") asset assetId status start length range) := by
  have hopen : ∀ n, OpenTo (request.header "origin") _ :=
    fun n => assetHeaders_openTo asset.mediaType.toList (K.hashText asset.contentHash).toList n range _
  have hsane := fun n => assetHeaders_sane hline hmedia hhash n hrange
  have hlength : ∀ n, ("Content-Length".toList, number n) ∈
      baseHeaders asset.mediaType.toList n (K.hashText asset.contentHash).toList ++
        range.toList.map (fun value => ("Content-Range".toList, value)) ++
          corsHeaders (request.header "origin") := fun n =>
    List.mem_append_left _ (List.mem_append_left _ (List.mem_cons_of_mem _ List.mem_cons_self))
  unfold answerSlice
  dsimp only
  split
  · split
    · exact refusal_proper (by decide)
    · exact ⟨hstatus, hsane _, hopen _, fun value hmem => hallowed value (hopen _ value hmem), length, hlength _, rfl⟩
  · exact ⟨hstatus, hsane _, hopen _, fun value hmem => hallowed value (hopen _ value hmem), 0, hlength _, .inl rfl⟩

theorem answerResolved_proper {asset : SourceAssetDescriptor K} (hmedia : OneLine asset.mediaType.toList)
    (hhash : OneLine (K.hashText asset.contentHash).toList) (permit : Bool) (assetId : K.AssetId)
    (resolved : Option ResolvedRange) :
    Proper origins request (answerResolved permit (request.header "origin") asset assetId resolved) := by
  cases resolved with
  | none =>
    rw [answerResolved]
    exact answerSlice_proper hline hallowed hmedia hhash permit assetId (by decide) _ _ fun value h => by cases h
  | some range =>
    rw [answerResolved]
    refine answerSlice_proper hline hallowed hmedia hhash permit assetId (by decide) _ _ fun value h => ?_
    cases h
    have hbytes : OneLine "bytes ".toList := by decide
    have hdash : OneLine ['-'] := by decide
    have hslash : OneLine ['/'] := by decide
    have hfirst := oneLine_append hbytes (oneLine_number range.start)
    have hlast := oneLine_append (oneLine_append hfirst hdash) (oneLine_number range.end)
    exact oneLine_append (oneLine_append hlast hslash) (oneLine_number asset.byteLength)

theorem answerAsset_proper {asset : SourceAssetDescriptor K} (hhash : OneLine (K.hashText asset.contentHash).toList)
    (permit : Bool) (assetId : K.AssetId) :
    Proper origins request (answerAsset permit request asset assetId) := by
  unfold answerAsset
  dsimp only
  split
  · exact refusal_proper (by decide)
  · rename_i hbreak
    have hmedia : OneLine asset.mediaType.toList := not_or.mp hbreak
    split
    · rename_i hhead
      have hnone : ∀ value, (none : Option Str) = some value → OneLine value := fun value h => by cases h
      have hsane := assetHeaders_sane hline hmedia hhash asset.byteLength hnone
      have hopen := assetHeaders_openTo asset.mediaType.toList (K.hashText asset.contentHash).toList
        asset.byteLength none (request.header "origin")
      rw [Option.toList_none, List.map_nil, List.append_nil] at hsane hopen
      have hstatus : 200 ∈ statuses := by decide
      refine ⟨hstatus, hsane, hopen, fun value h => hallowed value (hopen value h), asset.byteLength, ?_, .inr hhead⟩
      exact List.mem_append_left _ (List.mem_cons_of_mem _ List.mem_cons_self)
    · have hresolved := answerResolved_proper hline hallowed hmedia hhash permit assetId
      split
      · exact hresolved none
      · split
        · exact hresolved _
        · exact refusal_proper (by decide)
        · exact unsatisfiable_proper (oneLine_append (by decide) (oneLine_number asset.byteLength))
        · exact unsatisfiable_proper (oneLine_append (by decide) (oneLine_number asset.byteLength))

end Allowed

theorem answer_proper {config : Config} {link : Link G} {server : Server G}
    (hhash : ∀ assetId asset, server.catalog assetId = .ok (some asset) → OneLine (K.hashText asset.contentHash).toList)
    (hread : readRequest link.reads = .ok request) :
    Proper config.allowedOrigins request (answer config link server request).1 := by
  have hline : ∀ value, request.header "origin" = some value → OneLine value :=
    fun value h => readRequest_oneLine hread h
  by_cases hblocked : (request.header "origin").any (fun origin => !config.allowedOrigins.contains origin) = true
  · rw [answer, if_pos hblocked]
    exact refusal_proper (by decide)
  · have hallowed : ∀ value, request.header "origin" = some value → value ∈ config.allowedOrigins := by
      intro value hvalue
      simpa [hvalue] using hblocked
    rcases answer_cases config link server request with hplain | ⟨assetId, asset, -, hasset, hanswer⟩
    · exact plain_proper hline hallowed hplain
    · rw [hanswer]
      exact answerAsset_proper hline hallowed (hhash assetId asset hasset) link.permit assetId

/-! ## Responses -/

theorem streamAsset_length (link : Link G) (reader : Reader K) (assetId : K.AssetId)
    (chunkSize offset remaining : Nat) :
    (streamAsset link reader assetId chunkSize 0 offset remaining).written.length ≤ remaining ∧
    ((streamAsset link reader assetId chunkSize 0 offset remaining).result = .ok () →
      (∀ n, link.cancelled n = false ∧ link.interrupted n = false) →
      (streamAsset link reader assetId chunkSize 0 offset remaining).written.length = remaining) := by
  obtain ⟨s, ending, hrun, hend, houtcome⟩ :=
    exists_end link reader assetId chunkSize offset remaining ⟨0, offset, remaining, []⟩
  have hbalance := (reachable_tracks (s := s) ⟨_, rfl, hrun⟩).balance
  have hstream : streamAsset link reader assetId chunkSize 0 offset remaining =
    ⟨s.written ++ ending.written, ending.result⟩ := houtcome
  rw [hstream, List.length_append]
  rcases pass_ending hend with ⟨hnil, hwhy⟩ | ⟨herror, range, chunk, hrequest, -, hfit, hbegin⟩
  · rw [hnil, List.length_nil]
    refine ⟨by omega, fun hok hsteady => ?_⟩
    have hrem : s.remaining = 0 := by simpa [hsteady s.index] using hwhy hok
    omega
  · have hlength := (requested_eq_some.mp hrequest).2.2
    have hle := hbegin.length_le
    simp only [Misfit, not_or] at hfit
    refine ⟨by omega, fun hok => ?_⟩
    cases hok.symm.trans herror

/-- The response is the one that was meant: a known status, each header once, a body as long as announced, and open to
no origin but an allowed one that asked. -/
structure ReadsBack (config : Config) (link : Link G) (outcome : Outcome) (response : Response) : Prop where
  read : readResponse outcome.written = some response
  status : response.status ∈ statuses
  names : ∀ name ∈ response.headers.map Prod.fst, name ∈ headerNames
  nodup : (response.headers.map Prod.fst).Nodup
  origin : ∀ value, (allowOrigin, value) ∈ response.headers →
    requestOrigin link.reads = some value ∧ value ∈ config.allowedOrigins
  body : ∃ length, ("Content-Length".toList, number length) ∈ response.headers ∧ response.body.length ≤ length ∧
    (outcome.result = .ok () → (∀ n, link.cancelled n = false ∧ link.interrupted n = false) →
      response.body.length = length ∨ response.body = [] ∧
        ∃ request, readRequest link.reads = .ok request ∧ request.method = "HEAD".toList)

section Send

variable {config : Config} {link : Link G} (hwrites : link.fails = unfailing)
include hwrites

/-- The bytes that `send` puts behind the head. -/
theorem send_body {reply : Reply K} (hsane : Sane reply.headers) (reader : Reader K) {length : Nat}
    (hannounced : reply.Announces request length) :
    ∃ body, (send config link reader reply).written = utf8 (responseHead reply.status reply.headers) ++ body ∧
      body.length ≤ length ∧
      ((send config link reader reply).result = .ok () →
        (∀ n, link.cancelled n = false ∧ link.interrupted n = false) →
        body.length = length ∨ body = [] ∧ request.method = "HEAD".toList) := by
  cases reply with
  | simple status message extra =>
    have hvalues : ∀ entry ∈ simpleHeaders message extra, OneLine entry.2 := hsane.values
    refine ⟨simpleBody message, ?_, Nat.le_of_eq hannounced, fun _ _ => .inl hannounced⟩
    rw [send, hwrites, writeSimpleResponse, writeResponse, renderHead_oneLine hvalues]
    rfl
  | head status headers =>
    have hvalues : ∀ entry ∈ headers, OneLine entry.2 := hsane.values
    refine ⟨[], ?_, Nat.zero_le length, fun _ _ => ?_⟩
    · rw [send, hwrites, writeResponse_unfailing hvalues, List.append_nil]
      rfl
    · rcases hannounced with hzero | hhead
      · exact .inl hzero.symm
      · exact .inr ⟨rfl, hhead⟩
  | content status headers assetId start sent =>
    have hvalues : ∀ entry ∈ headers, OneLine entry.2 := hsane.values
    have hsent : sent = length := hannounced
    subst hsent
    obtain ⟨hle, heq⟩ := streamAsset_length link reader assetId config.chunkSize start sent
    have hsend : send config link reader (.content status headers assetId start sent) =
        ⟨utf8 (responseHead status headers) ++ (streamAsset link reader assetId config.chunkSize 0 start sent).written,
          (streamAsset link reader assetId config.chunkSize 0 start sent).result⟩ := by
      rw [send, hwrites, writeResponse_unfailing hvalues]
      rfl
    rw [hsend]
    exact ⟨_, rfl, hle, fun hok hsteady => .inl (heq hok hsteady)⟩

theorem Proper.readsBack {reply : Reply K} (h : Proper config.allowedOrigins request reply) (reader : Reader K)
    (horigin : requestOrigin link.reads = request.header "origin")
    (hhead : request.method = "HEAD".toList →
      ∃ request, readRequest link.reads = .ok request ∧ request.method = "HEAD".toList) :
    ∃ response, ReadsBack config link (send config link reader reply) response := by
  obtain ⟨length, hlength, hannounced⟩ := h.length
  obtain ⟨body, hwritten, hle, heq⟩ := send_body hwrites h.sane reader hannounced
  refine ⟨⟨reply.status, reply.headers, body⟩, ?_, h.status, h.sane.names, h.sane.nodup, ?_, length, hlength, hle, ?_⟩
  · rw [hwritten, readResponse_head h.sane.lines]
  · intro value hmem
    exact ⟨horigin.trans (h.openTo value hmem), h.origin value hmem⟩
  · intro hok hsteady
    exact (heq hok hsteady).imp_right fun ⟨hnil, hmethod⟩ => ⟨hnil, hhead hmethod⟩

theorem writeSimple_unfailing {status : Nat} {message : String} {extra : Headers}
    (h : Sane (simpleHeaders message extra)) :
    (writeSimpleResponse link.fails status message extra).result = .ok () := by
  rw [hwrites, writeSimpleResponse, writeResponse, renderHead_oneLine h.values]
  rfl

end Send

/-- Whatever the request and whatever the store answers, the bytes that go out are one response, and a client that takes
them apart line by line finds in it what the listener meant. -/
theorem responses_read_back (config : Config) {link : Link G} (hwrites : link.fails = unfailing) (server : Server G)
    (hhash : ∀ assetId asset, server.catalog assetId = .ok (some asset) →
      OneLine (K.hashText asset.contentHash).toList) :
    ∃ response, ReadsBack config link (handleConnection config link server).1 response := by
  unfold handleConnection
  cases hread : readRequest link.reads with
  | error e =>
    have hsend : send config link server.reader (.simple 400 "bad request" []) =
        ⟨(writeSimpleResponse link.fails 400 "bad request" []).written, .ok ()⟩ := by
      rw [← writeSimple_unfailing hwrites (simpleHeaders_sane "bad request"), send]
    have hproper : Proper config.allowedOrigins ⟨[], [], ∅⟩ (.simple (K := K) 400 "bad request" []) :=
      refusal_proper (by decide)
    dsimp only
    rw [← hsend]
    refine hproper.readsBack hwrites server.reader ?_ fun h => by cases h
    rw [requestOrigin, hread]
    rfl
  | ok request =>
    refine (answer_proper hhash hread).readsBack hwrites server.reader ?_ fun h => ⟨request, hread, h⟩
    rw [requestOrigin, hread]

/-- A store that holds one asset. -/
def sampleServer : Server (K := textAssets) (sampleKernel String) where
  entries := sampleEntries
  catalog := fun assetId : String => .ok (if assetId = "aaaaaaaa-asset" then some sampleDescriptor else none)
  reader := soundReader sampleDisk

theorem responses_read_back_sample :
    ∃ response, ReadsBack (K := textAssets) ⟨[], 1⟩ sampleLink
      (handleConnection ⟨[], 1⟩ sampleLink sampleServer).1 response := by
  refine responses_read_back ⟨[], 1⟩ rfl sampleServer fun (assetId : String) asset hasset => ?_
  have hhash : OneLine (textAssets.hashText sampleDescriptor.contentHash).toList := by decide
  have hfound : (if assetId = "aaaaaaaa-asset" then some sampleDescriptor else none) = some asset :=
    Except.ok.inj hasset
  split at hfound
  · cases hfound
    exact hhash
  · cases hfound

end OrbitRelay.AssetHttp
