import OrbitRelay.EventStorePaging
import OrbitRelay.Dedup
import OrbitRelay.Canvas
import OrbitRelay.CanvasHistory
import OrbitRelay.Pipeline
import OrbitRelay.Handoff
import OrbitRelay.HandoffGapless
import OrbitRelay.AssetIngest
import OrbitRelay.AssetIntact
import OrbitRelay.AssetSteps
import OrbitRelay.AssetIntegrity
import OrbitRelay.Catalog
import OrbitRelay.CatalogSound
import OrbitRelay.CatalogPublish
import OrbitRelay.CatalogRun
import OrbitRelay.CatalogDurable
import OrbitRelay.CatalogClassify
import OrbitRelay.Worker
import OrbitRelay.WorkerOrder
import OrbitRelay.WorkerClose
import OrbitRelay.WorkerContract
import OrbitRelay.WorkerDrain
import OrbitRelay.StoreWorkers
import OrbitRelay.Coordinator
import OrbitRelay.Sharing
import OrbitRelay.WeakMap
import OrbitRelay.CoordinatorDeadlock
import OrbitRelay.Base64Url
import OrbitRelay.ExpiringMap
import OrbitRelay.Grant
import OrbitRelay.AssetHttp
import OrbitRelay.AssetHttpGuard
import OrbitRelay.AssetHttpSlice
import OrbitRelay.CatalogGate
import OrbitRelay.AssetQuarantine
import OrbitRelay.AssetConcurrent
import OrbitRelay.AssetLinear
import OrbitRelay.AssetLedger
import OrbitRelay.AssetRetry
import OrbitRelay.HistoryConfined
import OrbitRelay.HistorySize
import OrbitRelay.PipelineTrace
import OrbitRelay.CatalogAtomic
import OrbitRelay.CatalogOrder
import OrbitRelay.CanvasReplay
import OrbitRelay.Fallible
import OrbitRelay.ServerLifecycle
import OrbitRelay.NodeAdvertised
import OrbitRelay.AssetHttpHead
import OrbitRelay.AssetChunked
import OrbitRelay.SchemaGate
import OrbitRelay.BootstrapRestart
import OrbitRelay.AssetHttpSegments
import OrbitRelay.AssetHttpRange
import OrbitRelay.BitString
import OrbitRelay.GrantToken
import OrbitRelay.AssetHttpStream
import OrbitRelay.TextFind
import OrbitRelay.IpAddr
import OrbitRelay.AssetConfig
import OrbitRelay.AssetBaseUrl
import OrbitRelay.AssetPublicUrl
import OrbitRelay.AssetAccess
import OrbitRelay.Linearization
import OrbitRelay.WorkerLinear
import OrbitRelay.EventStoreLinear
import OrbitRelay.Permits
import OrbitRelay.Listener
import OrbitRelay.ListenerInvariant
import OrbitRelay.ListenerDrain
import OrbitRelay.AssetRestart
import OrbitRelay.AssetOrigin
import OrbitRelay.AssetDownload
import OrbitRelay.AssetHttpResponse
import OrbitRelay.CatalogShelf
import OrbitRelay.CatalogLinear
import OrbitRelay.BootstrapModes
import OrbitRelay.Overrides
import OrbitRelay.SocketText
import OrbitRelay.TextPieces
import OrbitRelay.Config
import OrbitRelay.ConfigLoad
import OrbitRelay.ConfigReach
import OrbitRelay.Disclosure
import OrbitRelay.CatalogMemory
