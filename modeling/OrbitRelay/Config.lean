import OrbitRelay.AssetPublicUrl
import OrbitRelay.CanvasHistory
import OrbitRelay.Overrides
import OrbitRelay.SocketText

/-!
# The configuration of the process

`ServerConfig`, its validation, and `ServerConfig::load`: the environment variables, one
for each field, over the default configuration.
-/
namespace OrbitRelay.Config

open AssetDelivery (AssetDeliveryConfig)
open Codec MachineInt Net Overrides Server Text

def nul : Char := Char.ofNat 0

/-- The value of an environment variable, which is Unicode or not. -/
inductive OsString where
  | unicode (text : Str) (noNul : nul ∉ text)
  | other

/-- The identifiers, and the configurations of the crates that the server is put together from. -/
structure ConfigKernel where
  NodeId : Type
  SessionId : Type
  CanvasId : Type
  LayerId : Type
  parseNodeId : Str → Option NodeId
  parseSessionId : Str → Option SessionId
  parseCanvasId : Str → Option CanvasId
  parseLayerId : Str → Option LayerId
  Metadata : Type
  newMetadata : Metadata
  WebSocketAdapterConfig : Type
  defaultAdapter : WebSocketAdapterConfig
  /-- Whether `WebSocketAdapterConfig::validate` accepts it. -/
  adapterValid : WebSocketAdapterConfig → Bool
  PdfInspectionLimits : Type
  defaultLimits : PdfInspectionLimits

variable {K : ConfigKernel}

/-- A path that is Unicode. -/
abbrev PathBuf := Str

structure DevelopmentCanvasConfig (K : ConfigKernel) where
  sessionId : Option K.SessionId
  canvasId : Option K.CanvasId
  layerId : Option K.LayerId
  width : Float
  height : Float

def DevelopmentCanvasConfig.default (K : ConfigKernel) : DevelopmentCanvasConfig K :=
  ⟨none, none, none, 1920.0, 1080.0⟩

def DevelopmentCanvasConfig.validate (config : DevelopmentCanvasConfig K) : Except ServerError Unit :=
  if config.width.isFinite = false ∨ config.width ≤ 0.0 then
    .error (.config "development Canvas width must be finite and positive")
  else if config.height.isFinite = false ∨ config.height ≤ 0.0 then
    .error (.config "development Canvas height must be finite and positive")
  else .ok ()

structure WebSocketListenerConfig where
  bindAddr : SocketAddr
  websocketPath : Str
  maxConnections : Nat
  handshakeTimeoutMilliseconds : Nat
  shutdownGracePeriodMilliseconds : Nat

def WebSocketListenerConfig.default : WebSocketListenerConfig where
  bindAddr := ⟨.localhost, 8080⟩
  websocketPath := "/ws".toList
  maxConnections := 1024
  handshakeTimeoutMilliseconds := 10000
  shutdownGracePeriodMilliseconds := 5000

def WebSocketListenerConfig.validate (config : WebSocketListenerConfig) : Except ServerError Unit :=
  if config.websocketPath = [] ∨ ¬ ['/'] <+: config.websocketPath then
    .error (.config "websocket path must start with `/`")
  else if config.maxConnections = 0 then .error (.config "max connections must be greater than zero")
  else if config.handshakeTimeoutMilliseconds = 0 then
    .error (.config "handshake timeout must be greater than zero")
  else if config.shutdownGracePeriodMilliseconds = 0 then
    .error (.config "shutdown grace period must be greater than zero")
  else .ok ()

structure ServerConfig (K : ConfigKernel) where
  nodeId : Option K.NodeId
  nodeMetadata : K.Metadata
  developmentMode : Bool
  subscriptionQueueCapacity : Nat
  websocketListener : WebSocketListenerConfig
  websocketAdapter : K.WebSocketAdapterConfig
  developmentCanvas : DevelopmentCanvasConfig K
  developmentPdfPath : Option PathBuf
  developmentPdfInspectionLimits : K.PdfInspectionLimits
  assetDelivery : AssetDeliveryConfig
  historyStoreScanLimit : Nat
  eventStorePath : Option PathBuf
  assetStoreRoot : Option PathBuf
  catalogStorePath : Option PathBuf
  sqliteCommandQueueCapacity : Nat

def defaultSubscriptionQueueCapacity : Nat := 64

def defaultHistoryStoreScanLimit : Nat := 64

/-- `DEFAULT_COMMAND_QUEUE_CAPACITY` of the event store. -/
def defaultCommandQueueCapacity : Nat := 256

def ServerConfig.default (K : ConfigKernel) : ServerConfig K where
  nodeId := none
  nodeMetadata := K.newMetadata
  developmentMode := false
  subscriptionQueueCapacity := defaultSubscriptionQueueCapacity
  websocketListener := .default
  websocketAdapter := K.defaultAdapter
  developmentCanvas := .default K
  developmentPdfPath := none
  developmentPdfInspectionLimits := K.defaultLimits
  assetDelivery := .default
  historyStoreScanLimit := defaultHistoryStoreScanLimit
  eventStorePath := none
  assetStoreRoot := none
  catalogStorePath := none
  sqliteCommandQueueCapacity := defaultCommandQueueCapacity

/-- The checks of `validate` behind that of Asset delivery. -/
def ServerConfig.validateStores (config : ServerConfig K) : Except ServerError Unit :=
  if config.eventStorePath = some [] then .error (.config "event store path must not be empty")
  else if config.assetStoreRoot = some [] then .error (.config "asset store root must not be empty")
  else if config.catalogStorePath = some [] then .error (.config "catalog store path must not be empty")
  else if config.sqliteCommandQueueCapacity = 0 then
    .error (.config "SQLite command queue capacity must be greater than zero")
  else .ok ()

def ServerConfig.validate (config : ServerConfig K) : Option (Except ServerError Unit) :=
  if config.subscriptionQueueCapacity = 0 then
    some (.error (.config "subscription queue capacity must be greater than zero"))
  else if config.historyStoreScanLimit = 0 ∨ config.historyStoreScanLimit > CanvasHistory.maxHistoryStoreScanLimit then
    some (.error (.config
      ("history Store scan limit must be between 1 and " ++ toString CanvasHistory.maxHistoryStoreScanLimit)))
  else
    match config.websocketListener.validate with
    | .error e => some (.error e)
    | .ok () =>
      if K.adapterValid config.websocketAdapter = false then
        some (.error (.config "invalid WebSocket adapter configuration"))
      else
        match config.developmentCanvas.validate with
        | .error e => some (.error e)
        | .ok () =>
          match config.assetDelivery.validate with
          | none => none
          | some (.error e) => some (.error e)
          | some (.ok ()) => some config.validateStores

/-! ## Reading the environment -/

/-- `read_utf8_env`, on a variable that is there. -/
def readUtf8Env (name : String) : OsString → Except ServerError Str
  | .unicode text _ => .ok text
  | .other => .error (.config (name ++ " is not valid UTF-8"))

def parseBool (value : Str) : Option Bool :=
  if value = "true".toList ∨ value = "1".toList then some true
  else if value = "false".toList ∨ value = "0".toList then some false
  else none

/-- The exponent of a decimal number. -/
def readExponent : Str → Option Int
  | [] => some 0
  | c :: rest =>
    if c = 'e' ∨ c = 'E' then
      match rest with
      | '-' :: digits => (decimal digits).map fun n => -(n : Int)
      | '+' :: digits => (decimal digits).map fun n => (n : Int)
      | digits => (decimal digits).map fun n => (n : Int)
    else none

/-- A decimal number, as its digits and the power of ten that they are counted in. -/
def readDecimal (s : Str) : Option (Nat × Int) :=
  let whole := s.takeWhile Char.isDigit
  match s.dropWhile Char.isDigit with
  | '.' :: rest => do
    let fraction := rest.takeWhile Char.isDigit
    let digits ← decimal (whole ++ fraction)
    let exponent ← readExponent (rest.dropWhile Char.isDigit)
    some (digits, exponent - fraction.length)
  | rest => do
    let digits ← decimal whole
    let exponent ← readExponent rest
    some (digits, exponent)

def readMagnitude (s : Str) : Option Float :=
  if eqIgnoreAsciiCase s "inf".toList = true ∨ eqIgnoreAsciiCase s "infinity".toList = true then some (1.0 / 0.0)
  else if eqIgnoreAsciiCase s "nan".toList = true then some (0.0 / 0.0)
  else (readDecimal s).map fun (digits, exponent) =>
    Float.ofScientific digits (exponent < 0) exponent.natAbs

/-- `str::parse::<f64>`. -/
def parseF64 : Str → Option Float
  | '-' :: rest => (readMagnitude rest).map Float.neg
  | '+' :: rest => readMagnitude rest
  | s => readMagnitude s

/-- The origins between commas. -/
def parseOrigins (value : Str) : List Str := ((split [','] value).map trim).filter (· ≠ [])

/-- A variable that is read whatever was read before. -/
def setting {α : Type} (name : String) (parse : Str → Option α) (complaint : String) (get : ServerConfig K → α)
    (set : α → ServerConfig K → ServerConfig K) : Setting (ServerConfig K) OsString ServerError where
  name := name
  Value := α
  enabled := fun _ => true
  read := fun raw => do
    let value ← readUtf8Env name raw
    okOr (.config (name ++ complaint)) (parse value)
  get := get
  set := set

/-- `parse_number_env`, for `usize` and `u64`. -/
def numberSetting (name : String) (get : ServerConfig K → Nat) (set : Nat → ServerConfig K → ServerConfig K) :
    Setting (ServerConfig K) OsString ServerError :=
  setting name parseU64 " must be a positive integer" get set

/-- `parse_bool_env`. -/
def boolSetting (name : String) (get : ServerConfig K → Bool) (set : Bool → ServerConfig K → ServerConfig K) :
    Setting (ServerConfig K) OsString ServerError :=
  setting name parseBool " must be true, false, 1, or 0" get set

/-- A text that is taken as it is. -/
def textSetting (name : String) (get : ServerConfig K → Option Str)
    (set : Option Str → ServerConfig K → ServerConfig K) : Setting (ServerConfig K) OsString ServerError :=
  setting name (fun value => some (some value)) "" get set

/-- A value that is optional in the configuration. -/
def optionalSetting {α : Type} (name : String) (parse : Str → Option α) (complaint : String)
    (get : ServerConfig K → Option α) (set : Option α → ServerConfig K → ServerConfig K) :
    Setting (ServerConfig K) OsString ServerError :=
  setting name (fun value => (parse value).map some) complaint get set

def processSettings (K : ConfigKernel) : List (Setting (ServerConfig K) OsString ServerError) :=
  [optionalSetting "ORBITRELAY_NODE_ID" K.parseNodeId " is not a valid node ID" (·.nodeId)
      (fun v c => { c with nodeId := v }),
    numberSetting "ORBITRELAY_SUBSCRIPTION_QUEUE_CAPACITY" (·.subscriptionQueueCapacity)
      (fun v c => { c with subscriptionQueueCapacity := v }),
    numberSetting "ORBITRELAY_HISTORY_STORE_SCAN_LIMIT" (·.historyStoreScanLimit)
      (fun v c => { c with historyStoreScanLimit := v }),
    textSetting "ORBITRELAY_EVENT_STORE_PATH" (·.eventStorePath) (fun v c => { c with eventStorePath := v }),
    textSetting "ORBITRELAY_ASSET_STORE_DIR" (·.assetStoreRoot) (fun v c => { c with assetStoreRoot := v }),
    textSetting "ORBITRELAY_CATALOG_STORE_PATH" (·.catalogStorePath) (fun v c => { c with catalogStorePath := v }),
    numberSetting "ORBITRELAY_SQLITE_COMMAND_QUEUE_CAPACITY" (·.sqliteCommandQueueCapacity)
      (fun v c => { c with sqliteCommandQueueCapacity := v })]

def developmentSettings (K : ConfigKernel) : List (Setting (ServerConfig K) OsString ServerError) :=
  [boolSetting "ORBITRELAY_DEVELOPMENT_MODE" (·.developmentMode) (fun v c => { c with developmentMode := v }),
    { textSetting "ORBITRELAY_DEVELOPMENT_PDF_PATH" (·.developmentPdfPath)
        (fun v c => { c with developmentPdfPath := v }) with
      enabled := (·.developmentMode) },
    optionalSetting "ORBITRELAY_DEVELOPMENT_CANVAS_SESSION_ID" K.parseSessionId " is not a valid SessionId"
      (·.developmentCanvas.sessionId) (fun v c => { c with developmentCanvas.sessionId := v }),
    optionalSetting "ORBITRELAY_DEVELOPMENT_CANVAS_ID" K.parseCanvasId " is not a valid CanvasId"
      (·.developmentCanvas.canvasId) (fun v c => { c with developmentCanvas.canvasId := v }),
    optionalSetting "ORBITRELAY_DEVELOPMENT_CANVAS_LAYER_ID" K.parseLayerId " is not a valid LayerId"
      (·.developmentCanvas.layerId) (fun v c => { c with developmentCanvas.layerId := v }),
    setting "ORBITRELAY_DEVELOPMENT_CANVAS_WIDTH" parseF64 " must be a number"
      (·.developmentCanvas.width) (fun v c => { c with developmentCanvas.width := v }),
    setting "ORBITRELAY_DEVELOPMENT_CANVAS_HEIGHT" parseF64 " must be a number"
      (·.developmentCanvas.height) (fun v c => { c with developmentCanvas.height := v })]

def listenerSettings (K : ConfigKernel) : List (Setting (ServerConfig K) OsString ServerError) :=
  [setting "ORBITRELAY_BIND_ADDR" parseSocketAddr " is not a valid socket address"
      (·.websocketListener.bindAddr) (fun v c => { c with websocketListener.bindAddr := v }),
    setting "ORBITRELAY_WEBSOCKET_PATH" some ""
      (·.websocketListener.websocketPath) (fun v c => { c with websocketListener.websocketPath := v }),
    numberSetting "ORBITRELAY_MAX_CONNECTIONS"
      (·.websocketListener.maxConnections) (fun v c => { c with websocketListener.maxConnections := v }),
    numberSetting "ORBITRELAY_HANDSHAKE_TIMEOUT_MILLISECONDS"
      (·.websocketListener.handshakeTimeoutMilliseconds)
      (fun v c => { c with websocketListener.handshakeTimeoutMilliseconds := v }),
    numberSetting "ORBITRELAY_SHUTDOWN_GRACE_PERIOD_MILLISECONDS"
      (·.websocketListener.shutdownGracePeriodMilliseconds)
      (fun v c => { c with websocketListener.shutdownGracePeriodMilliseconds := v })]

def assetSettings (K : ConfigKernel) : List (Setting (ServerConfig K) OsString ServerError) :=
  [boolSetting "ORBITRELAY_ASSET_DELIVERY_ENABLED"
      (·.assetDelivery.enabled) (fun v c => { c with assetDelivery.enabled := v }),
    setting "ORBITRELAY_ASSET_LISTEN_ADDR" parseSocketAddr " is not a valid socket address"
      (·.assetDelivery.listenAddr) (fun v c => { c with assetDelivery.listenAddr := v }),
    textSetting "ORBITRELAY_ASSET_PUBLIC_BASE_URL"
      (·.assetDelivery.publicBaseUrl) (fun v c => { c with assetDelivery.publicBaseUrl := v }),
    numberSetting "ORBITRELAY_ASSET_MAX_CONNECTIONS"
      (·.assetDelivery.maxConnections) (fun v c => { c with assetDelivery.maxConnections := v }),
    numberSetting "ORBITRELAY_ASSET_MAX_ACTIVE_DOWNLOADS"
      (·.assetDelivery.maxActiveDownloads) (fun v c => { c with assetDelivery.maxActiveDownloads := v }),
    numberSetting "ORBITRELAY_ASSET_CHUNK_SIZE"
      (·.assetDelivery.chunkSize) (fun v c => { c with assetDelivery.chunkSize := v }),
    numberSetting "ORBITRELAY_ASSET_IDLE_TIMEOUT_MILLISECONDS"
      (·.assetDelivery.idleTimeoutMilliseconds) (fun v c => { c with assetDelivery.idleTimeoutMilliseconds := v }),
    setting "ORBITRELAY_ASSET_GRANT_TTL_SECONDS" (fun value => parseI64 (String.ofList value)) " must be an integer"
      (·.assetDelivery.grantTtlSeconds) (fun v c => { c with assetDelivery.grantTtlSeconds := v }),
    numberSetting "ORBITRELAY_ASSET_MAX_GRANTS"
      (·.assetDelivery.maxGrants) (fun v c => { c with assetDelivery.maxGrants := v }),
    setting "ORBITRELAY_ASSET_ALLOWED_ORIGINS" (fun value => some (parseOrigins value)) ""
      (·.assetDelivery.allowedOrigins) (fun v c => { c with assetDelivery.allowedOrigins := v })]

/-- The variables, in the order in which they are read. -/
def settings (K : ConfigKernel) : List (Setting (ServerConfig K) OsString ServerError) :=
  processSettings K ++ developmentSettings K ++ listenerSettings K ++ assetSettings K

/-- `ServerConfig::load`. -/
def load (K : ConfigKernel) (env : String → Option OsString) : Option (Except ServerError (ServerConfig K)) :=
  match overrideAll (settings K) env (.default K) with
  | .error e => some (.error e)
  | .ok config =>
    match config.validate with
    | none => none
    | some (.error e) => some (.error e)
    | some (.ok ()) => some (.ok config)

end OrbitRelay.Config
