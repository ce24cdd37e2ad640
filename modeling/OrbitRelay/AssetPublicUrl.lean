import OrbitRelay.AssetBaseUrl
import OrbitRelay.AssetHttp

/-!
# The advertised base URL

Without a public URL in the configuration, the service advertises one that it
derives from the address that the listener is bound to.
-/
namespace OrbitRelay.AssetDelivery

open AssetHttp MachineInt Net Server Text

/-- The part of `AssetDeliveryService` that the listener writes. -/
structure AssetDeliveryService where
  publicBaseUrl : Option Str
  deriving DecidableEq

def AssetDeliveryService.new (config : AssetDeliveryConfig) : Option (Except ServerError AssetDeliveryService) :=
  config.validate.map fun result => result.map fun _ => ⟨config.publicBaseUrl⟩

def AssetDeliveryService.setBoundPublicBaseUrl (service : AssetDeliveryService) (address : SocketAddr) :
    AssetDeliveryService :=
  if service.publicBaseUrl = none then ⟨some ("http://127.0.0.1:".toList ++ number address.port.toNat)⟩ else service

/-- What `TcpListener::bind` and `local_addr` give. -/
inductive Bound where
  | failed
  | unknown
  | at (address : SocketAddr)

/-- `AssetHttpListener::bind`, with what it leaves in the service. -/
def AssetDeliveryService.bind (service : AssetDeliveryService) (config : AssetDeliveryConfig) (bound : Bound) :
    Option (Except ServerError AssetDeliveryService) :=
  config.validate.map fun result => result.bind fun _ =>
    match bound with
    | .failed => .error (.listener "failed to bind Asset HTTP listener")
    | .unknown => .error (.listener "Asset HTTP listener address unavailable")
    | .at address => .ok (service.setBoundPublicBaseUrl address)

/-- The number of a port; a scheme has its own for a port that is left out. -/
def portNumber (scheme : Str) : Option Str → Option Nat
  | some digits => decimal digits
  | none => some (if scheme = "https".toList then 443 else 80)

/-- The URL names this address and this port. An IPv6 address has colons, so its host is in brackets. -/
def DenotesSocket (url : Str) (address : SocketAddr) : Prop :=
  ∃ scheme host port, BaseUrl scheme host port url ∧ parseIpAddr host = some address.ip ∧
    portNumber scheme port = some address.port.toNat

/-- The URL that is advertised once a listener is bound to the address. -/
def Advertises (config : AssetDeliveryConfig) (address : SocketAddr) (url : Str) : Prop :=
  ∃ service bound, AssetDeliveryService.new config = some (.ok service) ∧
    service.bind config (.at address) = some (.ok bound) ∧ bound.publicBaseUrl = some url

theorem validate_total (config : AssetDeliveryConfig) : config.validate ≠ none := by
  unfold AssetDeliveryConfig.validate
  split
  · exact nofun
  · split
    · exact nofun
    · split
      · exact nofun
      · split
        · exact nofun
        · split
          · exact nofun
          · split
            · exact validatePublicBaseUrl_total _
            · split <;> exact nofun

theorem advertises_derived {config : AssetDeliveryConfig} {address : SocketAddr} {url : Str}
    (hvalid : config.validate = some (.ok ())) (hnone : config.publicBaseUrl = none) :
    Advertises config address url ↔ url = "http://127.0.0.1:".toList ++ number address.port.toNat := by
  unfold Advertises AssetDeliveryService.new AssetDeliveryService.bind
  rw [hvalid]
  constructor
  · rintro ⟨service, bound, hservice, hbound, hurl⟩
    cases hservice
    cases hbound
    rw [AssetDeliveryService.setBoundPublicBaseUrl, if_pos hnone] at hurl
    exact (Option.some.inj hurl).symm
  · rintro rfl
    refine ⟨⟨config.publicBaseUrl⟩, _, rfl, rfl, ?_⟩
    rw [AssetDeliveryService.setBoundPublicBaseUrl, if_pos hnone]

theorem baseUrl_derived (port : UInt16) :
    BaseUrl "http".toList "127.0.0.1".toList (some (number port.toNat))
      ("http://127.0.0.1:".toList ++ number port.toNat) := by
  have hslash : '/' ∉ "127.0.0.1".toList ++ portText (some (number port.toNat)) := by
    intro hmem
    rcases List.mem_append.mp hmem with hhost | hport
    · exact absurd hhost (by decide)
    · rcases List.mem_cons.mp hport with hcolon | hnumber
      · cases hcolon
      · exact decimal_not_mem (decimal_toString port.toNat) (by decide) hnumber
  have hroot := BaseUrl.root (.inl rfl) (by decide) (.name (by decide) (by decide)) hslash (.inl rfl)
  rwa [List.append_nil] at hroot

/-- The derived URL always names 127.0.0.1. -/
theorem derived_denotes_iff (address : SocketAddr) :
    DenotesSocket ("http://127.0.0.1:".toList ++ number address.port.toNat) address ↔ address.ip = .localhost := by
  have hparse : parseIpAddr "127.0.0.1".toList = some .localhost := by decide +kernel
  constructor
  · rintro ⟨scheme, host, port, hurl, hip, -⟩
    obtain ⟨rfl, -⟩ := (baseUrl_derived address.port).unique hurl
    exact Option.some.inj (hip.symm.trans hparse)
  · intro h
    exact ⟨_, _, _, baseUrl_derived address.port, by rw [hparse, h], decimal_toString _⟩

/-- The derived URL names the bound socket just if the listener is configured for 127.0.0.1. -/
theorem advertised_names_bound_iff {config : AssetDeliveryConfig} {address : SocketAddr}
    (hvalid : config.validate = some (.ok ())) (hnone : config.publicBaseUrl = none)
    (hip : address.ip = config.listenAddr.ip) :
    (∃ url, Advertises config address url ∧ DenotesSocket url address) ↔ config.listenAddr.ip = .localhost := by
  simp only [advertises_derived hvalid hnone, exists_eq_left]
  rw [derived_denotes_iff, hip]

def onPortZero : AssetDeliveryConfig :=
  { AssetDeliveryConfig.default with enabled := true, listenAddr := ⟨.localhost, 0⟩ }

theorem advertised_names_bound_iff_port_zero :
    (∃ url, Advertises onPortZero ⟨.localhost, 40123⟩ url ∧ DenotesSocket url ⟨.localhost, 40123⟩) ↔
      onPortZero.listenAddr.ip = .localhost :=
  advertised_names_bound_iff (by decide) rfl rfl

/-- A listener on the IPv6 loopback address is advertised on the IPv4 one. -/
def onIpv6Loopback : AssetDeliveryConfig :=
  { AssetDeliveryConfig.default with enabled := true, listenAddr := ⟨.localhostV6, 8081⟩ }

theorem ipv6_loopback_not_named :
    onIpv6Loopback.validate = some (.ok ()) ∧ onIpv6Loopback.enabled = true ∧ onIpv6Loopback.publicBaseUrl = none ∧
      ¬ ∃ url, Advertises onIpv6Loopback onIpv6Loopback.listenAddr url ∧
        DenotesSocket url onIpv6Loopback.listenAddr := by
  have hvalid : onIpv6Loopback.validate = some (.ok ()) := by decide
  refine ⟨hvalid, rfl, rfl, ?_⟩
  rintro ⟨url, hurl, hdenotes⟩
  rw [advertises_derived hvalid rfl] at hurl
  subst hurl
  exact absurd ((derived_denotes_iff _).mp hdenotes) (by decide)

end OrbitRelay.AssetDelivery
