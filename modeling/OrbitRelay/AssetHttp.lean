import OrbitRelay.AssetStore
import OrbitRelay.Grant

/-!
# The Asset HTTP listener

One connection of `http.rs`, from the bytes of the request to the bytes of the
response. What the peer, the clock and the scheduler do is an argument: the
divided request, the writes that fail, the iterations at which the connection is
cancelled. The catalog, the reader and the Grant registry are the server's state.
-/
namespace OrbitRelay.AssetHttp

open AssetStore Codec Grant MachineInt Text

inductive RangeParseError where
  | malformed | unsatisfiable | multiple
  deriving DecidableEq, Repr

structure ResolvedRange where
  start : Nat
  «end» : Nat
  deriving DecidableEq, Repr

def ResolvedRange.new (start «end» : Nat) : Except RangeParseError ResolvedRange :=
  if start > «end» then .error .unsatisfiable else .ok ⟨start, «end»⟩

def ResolvedRange.length (range : ResolvedRange) : Nat := range.end - range.start + 1

def parseRange (value : Str) (total : Nat) : Except RangeParseError (Option ResolvedRange) := do
  let spec ← okOr .malformed (stripPrefix "bytes=".toList value)
  if ',' ∈ spec then .error .multiple
  else
    let (first, second) ← okOr .malformed (splitOnce ['-'] spec)
    if first = [] then
      let suffix ← okOr .malformed (parseU64 second)
      if suffix = 0 ∨ total = 0 then .error .unsatisfiable
      else
        let range ← ResolvedRange.new (total - suffix) (total - 1)
        .ok (some range)
    else
      let start ← okOr .malformed (parseU64 first)
      if total = 0 ∨ start ≥ total then .error .unsatisfiable
      else if second = [] then
        let range ← ResolvedRange.new start (total - 1)
        .ok (some range)
      else
        let last ← okOr .malformed (parseU64 second)
        let range ← ResolvedRange.new start (min last (total - 1))
        .ok (some range)

inductive HttpTaskError where
  | request | backend
  deriving DecidableEq, Repr

structure HttpRequest where
  method : Str
  target : Str
  headers : AList (fun _ : Str => Str)

def maxHeaderBytes : Nat := 16 * 1024

def crlf : Str := ['\r', '\n']

def headEnd : Str := ['\r', '\n', '\r', '\n']

/-- The reading loop of `read_request`. The list holds what each read gives; it
ends where the peer closes or a read fails or takes too long. -/
def readHead (buffer : Bytes) : List Bytes → Except HttpTaskError Bytes
  | [] => .error .request
  | chunk :: rest =>
    if buffer.length ≥ maxHeaderBytes then .error .request
    else if chunk = [] then .error .request
    else if utf8 headEnd <:+: buffer ++ chunk then .ok (buffer ++ chunk)
    else readHead (buffer ++ chunk) rest

/-- One header line. -/
def parseHeader (headers : AList (fun _ : Str => Str)) (line : Str) :
    Except HttpTaskError (AList (fun _ : Str => Str)) := do
  let (name, value) ← okOr .request (splitOnce [':'] line)
  if name = [] ∨ '\r' ∈ value ∨ '\n' ∈ value then .error .request
  else .ok (headers.insert (toAsciiLowercase (trim name)) (trim value))

def parseRequestLine (line : Str) : Except HttpTaskError (Str × Str) :=
  match splitWhitespace line with
  | [method, target, version] =>
    if "HTTP/1.".toList <+: version then .ok (method, target) else .error .request
  | _ => .error .request

def parseHead (text : Str) : Except HttpTaskError HttpRequest :=
  match split crlf ((split headEnd text).headD []) with
  | [] => .error .request
  | requestLine :: lines => do
    let (method, target) ← parseRequestLine requestLine
    let headers ← lines.foldlM parseHeader ∅
    match headers.lookup "content-length".toList with
    | some length => if length ≠ ['0'] then .error .request else .ok ⟨method, target, headers⟩
    | none => .ok ⟨method, target, headers⟩

def readRequest (reads : List Bytes) : Except HttpTaskError HttpRequest := do
  let buffer ← readHead [] reads
  let text ← okOr .request (fromUtf8 buffer)
  parseHead text

def HttpRequest.header (request : HttpRequest) (name : String) : Option Str := request.headers.lookup name.toList

def bearerToken (value : Option Str) : Option Str := do
  let (scheme, value) ← splitOnce [' '] (← value)
  if eqIgnoreAsciiCase scheme "Bearer".toList = false ∨ value = [] ∨ value.any isWhitespace then none
  else some value

abbrev Headers := List (Str × Str)

def number (n : Nat) : Str := (toString n).toList

def baseHeaders (mediaType : Str) (length : Nat) (hash : Str) : Headers :=
  [("Content-Type".toList, mediaType), ("Content-Length".toList, number length),
    ("Accept-Ranges".toList, "bytes".toList), ("ETag".toList, "\"sha256-".toList ++ hash ++ ['"']),
    ("Connection".toList, "close".toList)]

def corsHeaders : Option Str → Headers
  | none => []
  | some origin =>
    [("Access-Control-Allow-Origin".toList, origin),
      ("Access-Control-Allow-Methods".toList, "GET, HEAD, OPTIONS".toList),
      ("Access-Control-Allow-Headers".toList, "Authorization, Range".toList),
      ("Access-Control-Expose-Headers".toList, "Content-Length, Content-Range, ETag, Accept-Ranges".toList),
      ("Vary".toList, "Origin".toList)]

def reason : Nat → Str
  | 200 => "OK".toList
  | 204 => "No Content".toList
  | 206 => "Partial Content".toList
  | 400 => "Bad Request".toList
  | 401 => "Unauthorized".toList
  | 403 => "Forbidden".toList
  | 404 => "Not Found".toList
  | 405 => "Method Not Allowed".toList
  | 416 => "Range Not Satisfiable".toList
  | 503 => "Service Unavailable".toList
  | _ => "Internal Server Error".toList

/-- What a task has written to its stream, and how it ended. -/
structure Outcome where
  written : Bytes
  result : Except HttpTaskError Unit

def Outcome.done : Outcome := ⟨[], .ok ()⟩

def Outcome.failed (error : HttpTaskError) : Outcome := ⟨[], .error error⟩

def Outcome.andThen (first next : Outcome) : Outcome :=
  match first.result with
  | .ok () => ⟨first.written ++ next.written, next.result⟩
  | .error _ => first

/-- The world of one connection. -/
structure Link {AssetId : Type} (G : GrantKernel AssetId) where
  reads : List Bytes
  /-- How many bytes get out when the numbered write fails or takes too long. -/
  fails : Nat → Option Nat
  /-- Whether the numbered iteration finds itself cancelled, before and during its read. -/
  cancelled : Nat → Bool
  interrupted : Nat → Bool
  /-- The clock when the Grant is checked, and whether a download permit is free. -/
  now : G.Timestamp
  permit : Bool

def writeAll (fails : Nat → Option Nat) (index : Nat) (bytes : Bytes) : Outcome :=
  match fails index with
  | none => ⟨bytes, .ok ()⟩
  | some n => ⟨bytes.take n, .error .request⟩

def headerLine : Str × Str → Str
  | (name, value) => name ++ ": ".toList ++ value ++ crlf

def responseHead (status : Nat) (headers : Headers) : Str :=
  "HTTP/1.1 ".toList ++ number status ++ [' '] ++ reason status ++ crlf ++ headers.flatMap headerLine ++ crlf

/-- The head of a response; a header value may not break its line. -/
def renderHead (status : Nat) (headers : Headers) : Option Str :=
  if headers.any fun (_, value) => value.contains '\r' || value.contains '\n' then none
  else some (responseHead status headers)

def writeResponse (fails : Nat → Option Nat) (status : Nat) (headers : Headers) (body : Option Bytes) :
    Outcome :=
  match renderHead status headers with
  | none => .failed .request
  | some head =>
    (writeAll fails 0 (utf8 head)).andThen
      (match body with
        | none => .done
        | some body => writeAll fails 1 body)

def simpleBody (message : String) : Bytes := utf8 (message.toList ++ ['\n'])

def simpleHeaders (message : String) (extra : Headers) : Headers :=
  [("Content-Type".toList, "text/plain; charset=utf-8".toList),
    ("Content-Length".toList, number (simpleBody message).length),
    ("Connection".toList, "close".toList)] ++ extra

def writeSimpleResponse (fails : Nat → Option Nat) (status : Nat) (message : String) (extra : Headers) :
    Outcome :=
  writeResponse fails status (simpleHeaders message extra) (some (simpleBody message))

def AssetByteRange.new (offset length : Nat) : Option AssetByteRange :=
  if h : 0 < length ∧ offset + length ≤ u64Max then some ⟨offset, length, h.1, h.2⟩ else none

/-- `AssetReader`; the same call may be answered differently at different times. -/
abbrev Reader (K : AssetKernel) :=
  Nat → K.AssetId → AssetByteRange → Except (AssetReadError K) AssetByteChunk

variable {K : AssetKernel} {G : GrantKernel K.AssetId}

def streamAsset (link : Link G) (reader : Reader K) (assetId : K.AssetId) (chunkSize : Nat)
    (index offset remaining : Nat) : Outcome :=
  if remaining = 0 then .done
  else if link.cancelled index then .done
  else
    match AssetByteRange.new offset (min remaining chunkSize) with
    | none => .failed .backend
    | some range =>
      if link.interrupted index then .done
      else match reader index assetId range with
        | .error _ => .failed .backend
        | .ok chunk =>
          if _h : chunk.offset ≠ offset ∨ chunk.bytes = [] ∨ chunk.bytes.length > min remaining chunkSize ∨
              chunk.bytes.length > remaining then .failed .backend
          else (writeAll link.fails (index + 1) chunk.bytes).andThen
            (match checkedAddU64 offset chunk.bytes.length with
              | none => .failed .backend
              | some offset =>
                streamAsset link reader assetId chunkSize (index + 1) offset (remaining - chunk.bytes.length))
termination_by remaining
decreasing_by
  have := List.length_pos_iff.mpr fun h => _h (.inr (.inl h))
  omega

structure Config where
  allowedOrigins : List Str
  chunkSize : Nat

structure Server (G : GrantKernel K.AssetId) where
  entries : Entries G
  catalog : K.AssetId → Except String (Option (SourceAssetDescriptor K))
  reader : Reader K

/-- The last thing that `handle_connection` does with its stream. -/
inductive Reply (K : AssetKernel) where
  | simple (status : Nat) (message : String) (extra : Headers)
  | head (status : Nat) (headers : Headers)
  | content (status : Nat) (headers : Headers) (assetId : K.AssetId) (start length : Nat)

def Reply.status : Reply K → Nat
  | .simple status _ _ | .head status _ | .content status _ _ _ _ => status

/-- The end of `handle_connection`: the head, and the bytes if there are any. -/
def answerSlice (permit : Bool) (origin : Option Str) (asset : SourceAssetDescriptor K) (assetId : K.AssetId)
    (status start length : Nat) (contentRange : Option Str) : Reply K :=
  let rangeHeader := contentRange.toList.map fun value => ("Content-Range".toList, value)
  let hash := (K.hashText asset.contentHash).toList
  if length > 0 then
    if permit = false then .simple 503 "server busy" []
    else .content status (baseHeaders asset.mediaType.toList length hash ++ rangeHeader ++ corsHeaders origin)
      assetId start length
  else .head status (baseHeaders asset.mediaType.toList 0 hash ++ rangeHeader ++ corsHeaders origin)

def answerResolved (permit : Bool) (origin : Option Str) (asset : SourceAssetDescriptor K)
    (assetId : K.AssetId) : Option ResolvedRange → Reply K
  | none => answerSlice permit origin asset assetId 200 0 asset.byteLength none
  | some range => answerSlice permit origin asset assetId 206 range.start range.length
      (some ("bytes ".toList ++ number range.start ++ ['-'] ++ number range.end ++ ['/'] ++
        number asset.byteLength))

/-- The part of `handle_connection` that follows a successful lookup of the asset. -/
def answerAsset (permit : Bool) (request : HttpRequest) (asset : SourceAssetDescriptor K)
    (assetId : K.AssetId) : Reply K :=
  let origin := request.header "origin"
  if '\r' ∈ asset.mediaType.toList ∨ '\n' ∈ asset.mediaType.toList then
    .simple 500 "internal server error" []
  else if request.method = "HEAD".toList then
    .head 200 (baseHeaders asset.mediaType.toList asset.byteLength (K.hashText asset.contentHash).toList ++
      corsHeaders origin)
  else match request.header "range" with
    | none => answerResolved permit origin asset assetId none
    | some value => match parseRange value asset.byteLength with
      | .ok resolved => answerResolved permit origin asset assetId resolved
      | .error .malformed => .simple 400 "bad range" []
      | .error .unsatisfiable | .error .multiple =>
        .simple 416 "range not satisfiable"
          [("Content-Range".toList, "bytes */".toList ++ number asset.byteLength)]

/-- `handle_connection` from the request to its reply, with the registry afterwards. -/
def answer (config : Config) (link : Link G) (server : Server G) (request : HttpRequest) :
    Reply K × Entries G :=
  let origin := request.header "origin"
  if origin.any fun origin => !config.allowedOrigins.contains origin then
    (.simple 403 "forbidden" [], server.entries)
  else if request.method = "OPTIONS".toList then
    (.head 204 (corsHeaders origin ++ [("Content-Length".toList, ['0'])]), server.entries)
  else if request.method ≠ "GET".toList ∧ request.method ≠ "HEAD".toList then
    (.simple 405 "method not allowed" [], server.entries)
  else if '?' ∈ request.target ∨ '#' ∈ request.target then (.simple 400 "bad request" [], server.entries)
  else match stripPrefix "/assets/".toList request.target with
    | none => (.simple 404 "not found" [], server.entries)
    | some assetText =>
      if assetText = [] ∨ '/' ∈ assetText then (.simple 400 "bad request" [], server.entries)
      else match K.assetId.parse (String.ofList assetText) with
        | none => (.simple 400 "bad request" [], server.entries)
        | some assetId =>
          match bearerToken (request.header "authorization") with
          | none => (.simple 401 "unauthorized" [], server.entries)
          | some token =>
            match validate server.entries link.now token assetId with
            | (entries, .error _) => (.simple 401 "unauthorized" [], entries)
            | (entries, .ok _) =>
              match server.catalog assetId with
              | .error _ => (.simple 503 "service unavailable" [], entries)
              | .ok none => (.simple 404 "not found" [], entries)
              | .ok (some asset) => (answerAsset link.permit request asset assetId, entries)

def send (config : Config) (link : Link G) (reader : Reader K) : Reply K → Outcome
  | .simple status message extra => writeSimpleResponse link.fails status message extra
  | .head status headers => writeResponse link.fails status headers none
  | .content status headers assetId start length =>
    (writeResponse link.fails status headers none).andThen
      (streamAsset link reader assetId config.chunkSize 0 start length)

def handleConnection (config : Config) (link : Link G) (server : Server G) : Outcome × Entries G :=
  match readRequest link.reads with
  | .error _ => (⟨(writeSimpleResponse link.fails 400 "bad request" []).written, .ok ()⟩, server.entries)
  | .ok request =>
    let (reply, entries) := answer config link server request
    (send config link server.reader reply, entries)

/-- `LocalAssetStore` as a catalog. -/
def localCatalog (f : Faults) (disk : Disk) (assetId : K.AssetId) :
    Except String (Option (SourceAssetDescriptor K)) :=
  getAsset (lookupAsset f disk.assets assetId)

def blobNode (disk : Disk) : Except (LocalAssetStoreError K) (Option (AssetRecord K)) → Option Node
  | .ok (some record) => disk.files.blobs.lookup record.blobKey
  | _ => none

/-- `LocalAssetStore` as a reader; every call can fail in its own way. -/
def localReader (f : Nat → Faults) (seekOk readOk : Nat → Bool) (disk : Disk) : Reader K :=
  fun index assetId range =>
    let answer := lookupAsset (f index) disk.assets assetId
    readRange assetId range answer (blobNode disk answer) (blobNode disk answer) (seekOk index) (readOk index)

end OrbitRelay.AssetHttp
