import Wrongsv.L2Machine.Server.Inbound

/-!
# The endpoint model

What the client generators know of a server, beside the values they print: its
protocol, payload networks, transport, outer security and components
(src/endpoint/model.rs), built from a configuration (src/endpoint/profile.rs), and what
each protocol declares (src/endpoint/registry.rs). Of a descriptor the names and modes
that the generators check are kept.

Results:
* `buildEndpointModel_protocol`: WireGuard is the protocol of the WireGuard profile.
-/
namespace Wrongsv.L2.Server
open L1.HttpUpgrade

inductive ProxyProtocol where
  | vless | vmess | shadowsocks | trojan | hysteria2 | tuic | mixed | wireGuard | naive | snell | lua | masque
  | trustTunnel | brook | vlite | tor | ssh | juicity | mieru | sudoku | vlessEncryption | shadowquic | anytlsReality
  deriving DecidableEq, Repr

inductive PayloadNetwork where
  | tcp | udp | ip
  deriving DecidableEq, Repr

inductive TransportMethod where
  | raw | webSocket | httpUpgrade | grpc | xhttp | meek | gdocsViewer | quic | kcp | webTransport | h2Connect
  deriving DecidableEq, Repr

inductive OuterSecurity where
  | tls | reality
  deriving DecidableEq, Repr

inductive ProtocolInternalSecurity where
  | vmessAead | shadowsocksAead | shadowsocks2022Aead | wireGuardNoise
  deriving DecidableEq, Repr

inductive BaseCarrier where
  | tcp | udp
  deriving DecidableEq, Repr

inductive Component where
  | vision | anyTls | shadowTls | hysteriaSalamander | hysteriaGecko | fallbackDestination | routedTunnel
  | naivePadding
  deriving DecidableEq, Repr

structure EndpointComponents where
  camouflage : List Component := []
  ingress : List Component := []
  performance : List Component := []
  network : List Component := []

/-- The defaults are what most profiles have in common. -/
structure EndpointModel where
  protocol : ProxyProtocol
  payloadNetworks : List PayloadNetwork := [.tcp]
  transport : Option TransportMethod := some .raw
  outerSecurity : Option OuterSecurity := none
  protocolInternalSecurity : Option ProtocolInternalSecurity := none
  baseCarriers : List BaseCarrier := [.tcp]
  components : EndpointComponents := {}

def EndpointModel.hasComponent (m : EndpointModel) (component : Component) : Bool :=
  component ∈ m.components.camouflage ∨ component ∈ m.components.ingress ∨
    component ∈ m.components.performance ∨ component ∈ m.components.network

def EndpointModel.vlessModel (visionEnabled : Bool) (transport : TransportMethod)
    (outerSecurity : Option OuterSecurity) (baseCarriers : List BaseCarrier) (components : EndpointComponents) :
    EndpointModel where
  protocol := .vless
  payloadNetworks := if visionEnabled then [.tcp] else [.tcp, .udp]
  transport := some transport
  outerSecurity
  baseCarriers
  components := if visionEnabled then { components with performance := components.performance ++ [.vision] }
    else components

def EndpointModel.fromProfile (profile : EndpointProfile) (outer : Option OuterSecurity)
    (flow : String) : EndpointModel :=
  let vision := flow == "xtls-rprx-vision"
  match profile with
  | .of .vmess => { protocol := .vmess, transport := none, protocolInternalSecurity := some .vmessAead }
  | .of .wireguard =>
    { protocol := .wireGuard, payloadNetworks := [.ip], transport := none,
      protocolInternalSecurity := some .wireGuardNoise, baseCarriers := [.udp] }
  | .of .shadowsocks =>
    { protocol := .shadowsocks, payloadNetworks := [.tcp, .udp],
      protocolInternalSecurity := some .shadowsocksAead, baseCarriers := [.tcp, .udp] }
  | .of .trojan => { protocol := .trojan, payloadNetworks := [.tcp, .udp], outerSecurity := some .tls }
  | .of .hysteria2 => quic .hysteria2
  | .of .tuic => quic .tuic
  | .of .mixed => { protocol := .mixed, transport := none }
  | .of .naive => { protocol := .naive, transport := some .h2Connect, outerSecurity := some .tls }
  | .of .snell => { protocol := .snell }
  | .of .reality => vlessModel vision .raw (some .reality) [.tcp] {}
  | .of .anytls => vlessModel vision .raw (some .tls) [.tcp] { camouflage := [.anyTls] }
  | .of .tls => vlessModel vision .raw (some .tls) [.tcp] {}
  | .raw => vlessModel vision .raw none [.tcp] {}
  | .of .websocket => vlessModel vision .webSocket outer [.tcp] {}
  | .of .httpupgrade => vlessModel vision .httpUpgrade outer [.tcp] {}
  | .of .grpc => vlessModel vision .grpc outer [.tcp] {}
  | .of .xhttp => vlessModel vision .xhttp outer [.tcp] {}
  | .of .meek => vlessModel false .meek outer [.tcp] {}
  | .of .gdocsviewer => vlessModel false .gdocsViewer outer [.tcp] {}
  | .of .quic => vlessModel vision .quic (some .tls) [.udp] {}
  | .of .kcp => vlessModel vision .kcp none [.udp] {}
  | .of .webtransport => vlessModel vision .webTransport (some .tls) [.udp] {}
  | .of .shadowtls => vlessModel vision .raw (some .tls) [.tcp] { camouflage := [.shadowTls] }
  | .of .lua => { protocol := .lua }
  | .of .masque => quic .masque
  | .of .trusttunnel => { protocol := .trustTunnel }
  | .of .brook => both .brook
  | .of .vlite => both .vlite
  | .of .tor => { protocol := .tor }
  | .of .ssh => { protocol := .ssh }
  | .of .juicity => quic .juicity
  | .of .mieru => both .mieru
  | .of .sudoku => { protocol := .sudoku }
  | .of .vlessEncryption => { protocol := .vlessEncryption }
  | .of .shadowquic => quic .shadowquic
  | .of .anytlsReality => { protocol := .anytlsReality, outerSecurity := some .reality }
where
  quic (protocol : ProxyProtocol) : EndpointModel :=
    { protocol, payloadNetworks := [.tcp, .udp], transport := some .quic,
      outerSecurity := some .tls, baseCarriers := [.udp] }
  both (protocol : ProxyProtocol) : EndpointModel :=
    { protocol, payloadNetworks := [.tcp, .udp], baseCarriers := [.tcp, .udp] }

/-- The TLS material of the sections that have some of their own. -/
def Config.carrierTls (c : Config) : Section → Option TlsServerConfig
  | .websocket => c.websocket.bind (·.tls)
  | .httpupgrade => c.httpupgrade.bind (·.tls)
  | .grpc => c.grpc.bind (·.tls)
  | .xhttp => c.xhttp.bind (·.tls)
  | .meek => c.meek.bind (·.tls)
  | .gdocsviewer => c.gdocsviewer.bind (·.tls)
  | .quic => c.quic.bind (·.tls)
  | .webtransport => c.webtransport.bind (·.tls)
  | .hysteria2 => c.hysteria2.bind (·.tls)
  | .tuic => c.tuic.bind (·.tls)
  | .naive => c.naive.map (·.tls)
  | _ => none

def resolveOuterSecurity (cfg : Option Config) : EndpointProfile → Option OuterSecurity
  | .of .reality => some .reality
  | .of .anytls | .of .tls | .of .quic | .of .webtransport | .of .shadowtls | .of .trojan | .of .hysteria2
  | .of .tuic | .of .naive => some .tls
  | .of s =>
    if s.kind = .framing then (cfg.bind (·.carrierTls s)).map fun _ => .tls else none
  | .raw => none

def hasConfiguredFallbackDestination (cfg : Option Config) (profile : EndpointProfile) : Bool :=
  let dest := cfg.bind fun c => match profile with
    | .of .reality => c.reality.bind (·.dest)
    | .of .anytls => c.anytls.bind (·.dest)
    | .of .tls => c.tls.bind (·.dest)
    | .of .trojan => c.trojan.bind (·.dest)
    | .of .shadowtls => c.shadowtls.bind (·.dest)
    | .of s => (c.carrierTls s).bind (·.dest)
    | .raw => none
  dest.any fun value => trim value.toList ≠ []

/-- The changes a configured section makes to the model of its profile. -/
def EndpointModel.refine (m : EndpointModel) (c : Config) : EndpointProfile → EndpointModel
  | .of .shadowsocks => match c.shadowsocks with
    | none => m
    | some ss =>
      let aead := if ss.method.startsWith "2022-" then .shadowsocks2022Aead else .shadowsocksAead
      let m := { m with protocolInternalSecurity := some aead }
      if ss.udp then m else { m with payloadNetworks := [.tcp], baseCarriers := [.tcp] }
  | .of .hysteria2 => match c.hysteria2 with
    | none => m
    | some h2 =>
      let m := if h2.disableUdp then { m with payloadNetworks := [.tcp] } else m
      let obfs := h2.obfs.elim [] fun o =>
        if o.obfsType = "salamander" then [Component.hysteriaSalamander]
        else if o.obfsType = "gecko" then [.hysteriaGecko] else []
      { m with components.camouflage := m.components.camouflage ++ obfs }
  | .of .wireguard =>
    if c.wireguard.any (·.outbound) then
      { m with components.network := m.components.network ++ [.routedTunnel] }
    else m
  | .of .naive => { m with components.camouflage := m.components.camouflage ++ [.naivePadding] }
  | _ => m

def buildEndpointModel (cfg : Option Config) (profile : EndpointProfile) (flow : String) :
    EndpointModel :=
  let m := EndpointModel.fromProfile profile (resolveOuterSecurity cfg profile) flow
  let m := cfg.elim m fun c => m.refine c profile
  if hasConfiguredFallbackDestination cfg profile then
    { m with components.ingress := m.components.ingress ++ [.fallbackDestination] }
  else m

theorem EndpointModel.refine_protocol (m : EndpointModel) (c : Config) (profile : EndpointProfile) :
    (m.refine c profile).protocol = m.protocol := by
  unfold EndpointModel.refine
  repeat' split
  all_goals rfl

theorem buildEndpointModel_protocol {cfg : Option Config} {profile : EndpointProfile} {flow : String} :
    (buildEndpointModel cfg profile flow).protocol = .wireGuard ↔ profile = .of .wireguard := by
  have h : (buildEndpointModel cfg profile flow).protocol =
      (EndpointModel.fromProfile profile (resolveOuterSecurity cfg profile) flow).protocol := by
    cases cfg <;> simp only [buildEndpointModel, Option.elim] <;> split <;>
      simp only [EndpointModel.refine_protocol]
  rw [h]
  rcases profile with _ | s
  · simp [EndpointModel.fromProfile, EndpointModel.vlessModel]
  · cases s <;> simp [EndpointModel.fromProfile, EndpointModel.fromProfile.quic,
      EndpointModel.fromProfile.both, EndpointModel.vlessModel]

/-! ## The registry -/

inductive LayerMode where
  | selectable | required | optional | fixed | forbidden | backendDefined
  deriving DecidableEq, Repr

structure ProtocolDescriptor where
  displayName : String
  transport : LayerMode
  outerSecurity : LayerMode
  components : EndpointComponents := {}

def protocolDescriptor : ProxyProtocol → ProtocolDescriptor
  | .vless => ⟨"VLESS", .selectable, .optional, ⟨[.anyTls, .shadowTls], [.fallbackDestination], [.vision], []⟩⟩
  | .vmess => ⟨"VMess", .backendDefined, .forbidden, {}⟩
  | .shadowsocks => ⟨"Shadowsocks", .fixed, .forbidden, {}⟩
  | .trojan => ⟨"Trojan", .fixed, .fixed, { ingress := [.fallbackDestination] }⟩
  | .hysteria2 =>
    ⟨"Hysteria2", .fixed, .fixed, ⟨[.hysteriaSalamander, .hysteriaGecko], [.fallbackDestination], [], []⟩⟩
  | .tuic => ⟨"TUIC", .fixed, .fixed, { ingress := [.fallbackDestination] }⟩
  | .mixed => ⟨"Mixed", .forbidden, .forbidden, {}⟩
  | .wireGuard => ⟨"WireGuard", .forbidden, .forbidden, { network := [.routedTunnel] }⟩
  | .naive => ⟨"Naive", .fixed, .fixed, ⟨[.naivePadding], [.fallbackDestination], [], []⟩⟩
  | .snell => ⟨"Snell", .fixed, .forbidden, {}⟩
  | .lua => ⟨"Lua", .fixed, .forbidden, {}⟩
  | .masque => ⟨"Masque", .fixed, .fixed, {}⟩
  | .trustTunnel => ⟨"TrustTunnel", .fixed, .forbidden, {}⟩
  | .brook => ⟨"Brook", .fixed, .forbidden, {}⟩
  | .vlite => ⟨"Vlite", .fixed, .forbidden, {}⟩
  | .tor => ⟨"Tor", .fixed, .forbidden, {}⟩
  | .ssh => ⟨"SSH", .fixed, .forbidden, {}⟩
  | .juicity => ⟨"Juicity", .fixed, .fixed, {}⟩
  | .mieru => ⟨"Mieru", .fixed, .forbidden, {}⟩
  | .sudoku => ⟨"Sudoku", .fixed, .forbidden, {}⟩
  | .vlessEncryption => ⟨"VLESS-Encryption", .fixed, .forbidden, {}⟩
  | .shadowquic => ⟨"ShadowQUIC", .fixed, .fixed, {}⟩
  | .anytlsReality => ⟨"AnyTLS-Reality", .fixed, .fixed, {}⟩

end Wrongsv.L2.Server
