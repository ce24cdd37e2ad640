import OrbitRelay.IpAddr
import OrbitRelay.MachineInt
import OrbitRelay.ServerLifecycle
import OrbitRelay.TextFind

/-!
# The configuration of Asset delivery

`config.rs`, with the public base URL taken apart as it is there: by byte offsets,
where a slice in the wrong place would panic. `none` stands for a panic.
-/
namespace OrbitRelay.AssetDelivery

open MachineInt Net Server Text

/-- `str::parse::<u16>`: an optional plus sign and decimal digits in range. -/
def parseU16 : Str → Option Nat
  | '+' :: digits => (decimal digits).bind fun n => if n ≤ 65535 then some n else none
  | digits => (decimal digits).bind fun n => if n ≤ 65535 then some n else none

def isBracket (c : Char) : Bool := c == '[' || c == ']'

/-- What stands behind the closing bracket of an authority. -/
def bracketSuffix (host suffix : Str) : Option (Except ServerError Str) :=
  if suffix = [] then some (.ok host)
  else if ¬ [':'] <+: suffix then some (.error (.config "asset public base URL has an invalid port"))
  else
    match sliceFrom 1 suffix with
    | none => none
    | some port =>
      if parseU16 port = none then some (.error (.config "asset public base URL has an invalid port"))
      else some (.ok host)

/-- The host of an authority. -/
def authorityHost (authority : Str) : Option (Except ServerError Str) :=
  match stripPrefix ['['] authority with
  | some rest =>
    match find ']' rest with
    | none => some (.error (.config "asset public base URL has an invalid IPv6 authority"))
    | some close =>
      match sliceTo close rest, sliceFrom (close + 1) rest with
      | some host, some suffix => bracketSuffix host suffix
      | _, _ => none
  | none =>
    if authority.count ':' > 1 then
      some (.error (.config "asset public base URL has an invalid IPv6 authority"))
    else
      match rsplitOnce ':' authority with
      | some (host, port) =>
        if host = [] ∨ parseU16 port = none then
          some (.error (.config "asset public base URL has an invalid port"))
        else some (.ok host)
      | none => some (.ok authority)

/-- `splitn(2, '/')`. -/
def splitPath (remainder : Str) : Str × Option Str :=
  match splitOnce ['/'] remainder with
  | some (authority, path) => (authority, some path)
  | none => (remainder, none)

def validatePublicBaseUrl (value : Str) : Option (Except ServerError Unit) :=
  match splitOnce "://".toList value with
  | none => some (.error (.config "asset public base URL must be absolute"))
  | some (scheme, remainder) =>
    if scheme ≠ "http".toList ∧ scheme ≠ "https".toList ∨ value.any isWhitespace then
      some (.error (.config "asset public base URL must use http or https"))
    else
      let (authority, path) := splitPath remainder
      if authority = [] ∨ path.any (· ≠ []) ∨ '?' ∈ remainder ∨ '#' ∈ remainder then
        some (.error (.config "asset public base URL must include a host without query or fragment"))
      else
        match authorityHost authority with
        | none => none
        | some (.error e) => some (.error e)
        | some (.ok host) =>
          if host = [] then some (.error (.config "asset public base URL must include a host"))
          else if (parseIpAddr (trimMatches isBracket host)).any IpAddr.isUnspecified then
            some (.error (.config "asset public base URL must not advertise an unspecified host"))
          else some (.ok ())

structure AssetDeliveryConfig where
  enabled : Bool
  listenAddr : SocketAddr
  publicBaseUrl : Option Str
  maxConnections : Nat
  maxActiveDownloads : Nat
  chunkSize : Nat
  idleTimeoutMilliseconds : Nat
  grantTtlSeconds : Int
  maxGrants : Nat
  allowedOrigins : List Str

def AssetDeliveryConfig.default : AssetDeliveryConfig where
  enabled := false
  listenAddr := ⟨.localhost, 8081⟩
  publicBaseUrl := none
  maxConnections := 64
  maxActiveDownloads := 8
  chunkSize := 64 * 1024
  idleTimeoutMilliseconds := 30000
  grantTtlSeconds := 10 * 60
  maxGrants := 4096
  allowedOrigins := []

def AssetDeliveryConfig.validate (config : AssetDeliveryConfig) : Option (Except ServerError Unit) :=
  if config.maxConnections = 0 ∨ config.maxActiveDownloads = 0 then
    some (.error (.config "asset delivery connection and download limits must be greater than zero"))
  else if config.chunkSize = 0 then
    some (.error (.config "asset delivery chunk size must be greater than zero"))
  else if config.idleTimeoutMilliseconds = 0 then
    some (.error (.config "asset delivery idle timeout must be greater than zero"))
  else if config.grantTtlSeconds ≤ 0 then
    some (.error (.config "asset delivery Grant TTL must be positive"))
  else if config.maxGrants = 0 then
    some (.error (.config "asset delivery max grants must be greater than zero"))
  else
    match config.publicBaseUrl with
    | some url => validatePublicBaseUrl url
    | none =>
      if config.enabled = true ∧ config.listenAddr.ip.isLoopback = false then
        some (.error (.config "asset public base URL is required for non-loopback binds"))
      else some (.ok ())

end OrbitRelay.AssetDelivery
