import Wrongsv.L1Encoding.HttpForward
import Wrongsv.L2Machine.Server.Endpoint

/-!
# Client configurations

`resolve_client_values` (src/client_config/profile.rs) collects what a client has to
know from the server's configuration, and `generate_client_config`
(src/client_config/mod.rs) prints it in the format of a client. A document is its JSON
value, with the fields in the order of the source; the text `serde_json` makes of it is
left out.

The functions that compute a public key from the text of a private one are parameters
(`KeyPrimitives`), and so are the constants that are set when the server is built.

Results: `render_all`, `render_key`, `hasKeys_render`.
-/
namespace Wrongsv.L2.Server
open Validate L1.HttpForward

/-! ## Values -/

structure KeyPrimitives where
  /-- `wrongsv_reality::private_key_hex_to_public_b64` -/
  realityPublic : String → Option String
  /-- `wireguard_server_public_key` of src/import_config.rs -/
  wireguardPublic : String → Option String

structure BuildConstants where
  uuid : String := "00000000-0000-4000-8000-000000000000"
  port : String := "443"
  shortId : String := "00000000"
  x25519Pk : String := "AAAAAAAAAAAAAAAAAAAAAAAAAAAAAAAAAAAAAAAAAAA"

/-- The defaults are the values without a configuration. -/
structure ClientConfigValues where
  endpoint : EndpointModel
  uuid : String
  flow : String := "xtls-rprx-vision"
  port : String
  shortId : String
  x25519Pk : String
  servername : String
  wsPath : String := "/"
  grpcServiceName : String := "GunService"
  kcpSeed : String := ""
  kcpMtu : UInt16 := 1350
  kcpTti : UInt16 := 50
  xhttpPath : String := "/xhttp"
  xhttpHost : String := ""
  shadowtlsPassword : String := ""
  anytlsPassword : String := ""
  wireguardPrivateKey : String := ""
  wireguardPublicKey : String := ""
  wireguardPresharedKey : Option String := none
  wireguardClientIp : String := "10.66.66.2/32"
  wireguardAllowedIps : List String := ["10.66.66.1/32"]
  wireguardMtu : Nat := 1400
  shadowsocksMethod : String := "2022-blake3-aes-128-gcm"
  shadowsocksPassword : String := ""
  trojanPassword : String := ""
  hysteria2Password : String := ""
  hysteria2UpMbps : Option Nat := none
  hysteria2DownMbps : Option Nat := none
  tuicUuid : String
  tuicPassword : String := ""
  tuicCongestion : String := "bbr"

/-- `split(':').next()` -/
def firstPart (s : String) : String := String.ofList (s.toList.takeWhile (· ≠ ':'))

/-- `rsplit(':').next()` -/
def lastPart (s : String) : String := String.ofList (s.toList.reverse.takeWhile (· ≠ ':')).reverse

def normalizePath (path : String) : String :=
  if path.toList.head? = some '/' then path else "/" ++ path

def resolveClientValues (k : KeyPrimitives) (b : BuildConstants) (config : Option Config)
    (transportOverride : Option EndpointProfile) (servernameOverride : String) : ClientConfigValues :=
  let transport := detectProfile config transportOverride
  match config with
  | none =>
    { endpoint := buildEndpointModel none transport "xtls-rprx-vision", uuid := b.uuid, port := b.port
      shortId := b.shortId, x25519Pk := b.x25519Pk, servername := servernameOverride, tuicUuid := b.uuid }
  | some cfg =>
    let user := cfg.users.head?
    let flow := (((user.map (·.flow)).filter (· ≠ "")).or cfg.flow).getD ""
    let peer := cfg.wireguard.bind (·.peers.head?)
    let tuicUser := cfg.tuic.bind (·.users.head?)
    { endpoint := buildEndpointModel (some cfg) transport flow
      uuid := match transport with
        | .of .vmess => ((cfg.vmess.bind (·.users.head?)).map (·.id)).getD b.uuid
        | .of .wireguard => b.uuid
        | _ => (user.map (·.id)).getD b.uuid
      flow
      port := lastPart cfg.listen
      shortId := (cfg.reality.bind (·.shortIds.head?)).getD b.shortId
      x25519Pk := (cfg.reality.bind fun rc => k.realityPublic rc.privateKey).getD b.x25519Pk
      servername :=
        if servernameOverride = "YOUR_SNI" then
          ((cfg.reality.bind (·.dest)).map firstPart).getD servernameOverride
        else servernameOverride
      wsPath :=
        (((cfg.websocket.map (·.path)).or (cfg.httpupgrade.map (·.path))).map normalizePath).getD "/"
      grpcServiceName := (cfg.grpc.bind (·.serviceName)).getD "GunService"
      kcpSeed := (cfg.kcp.bind (·.seed)).getD ""
      kcpMtu := UInt16.ofNat ((cfg.kcp.bind (·.mtu)).getD 1350)
      kcpTti := UInt16.ofNat ((cfg.kcp.bind (·.tti)).getD 50)
      xhttpPath := ((cfg.xhttp.bind (·.path)).map normalizePath).getD "/xhttp"
      xhttpHost := (cfg.xhttp.bind (·.host)).getD ""
      shadowtlsPassword := (cfg.shadowtls.map (·.password)).getD ""
      anytlsPassword := (cfg.anytls.map (·.password)).getD ""
      -- the server's key and the client's public key, both under the names of the other side
      wireguardPrivateKey := (cfg.wireguard.map (·.privateKey)).getD ""
      wireguardPublicKey := (peer.map (·.publicKey)).getD ""
      wireguardPresharedKey := peer.bind (·.presharedKey)
      wireguardClientIp := (peer.bind (·.allowedIps.head?)).getD "10.66.66.2/32"
      wireguardAllowedIps :=
        ((cfg.wireguard.bind (·.forwards.head?)).map fun f => [firstPart f.service ++ "/32"]).getD ["10.66.66.1/32"]
      wireguardMtu := (cfg.wireguard.map (·.mtu)).getD 1400
      shadowsocksMethod := (cfg.shadowsocks.map (·.method)).getD "2022-blake3-aes-128-gcm"
      shadowsocksPassword := (cfg.shadowsocks.map (·.password)).getD ""
      trojanPassword := (cfg.trojan.bind fun t => t.password.or (t.users.head?.map (·.password))).getD ""
      hysteria2Password := (cfg.hysteria2.bind fun h =>
        h.password.or (h.users.head?.map fun u => u.name ++ ":" ++ u.password)).getD ""
      hysteria2UpMbps := cfg.hysteria2.bind (·.upMbps)
      hysteria2DownMbps := cfg.hysteria2.bind (·.downMbps)
      tuicUuid := (tuicUser.map (·.uuid)).getD b.uuid
      tuicPassword := (tuicUser.map (·.password)).getD ""
      tuicCongestion := (cfg.tuic.map (·.congestionControl)).getD "bbr" }

/-! ## What is supported -/

inductive ClientFormat where
  | mihomo | singBox | xray | hiddify
  deriving DecidableEq, Repr

structure ClientExportSupportError where
  code : String
  message : String
  deriving DecidableEq, Repr

/-- The names `{:?}` prints. -/
def Component.debug : Component → String
  | .vision => "Vision"
  | .anyTls => "AnyTls"
  | .shadowTls => "ShadowTls"
  | .hysteriaSalamander => "HysteriaSalamander"
  | .hysteriaGecko => "HysteriaGecko"
  | .fallbackDestination => "FallbackDestination"
  | .routedTunnel => "RoutedTunnel"
  | .naivePadding => "NaivePadding"

def validateComponentBucket (displayName bucket : String) (active supported : List Component) :
    Except ClientExportSupportError Unit :=
  each active fun c => rejectIf (c ∉ supported) ⟨"unsupported_endpoint_component",
    displayName ++ " does not declare " ++ c.debug ++ " as a supported " ++ bucket ++ " component"⟩

def ClientFormat.name : ClientFormat → String
  | .mihomo => "mihomo"
  | .singBox => "sing-box"
  | .xray => "xray"
  | .hiddify => "hiddify"

def validateClientFormatSupport (format : ClientFormat) (m : EndpointModel) :
    Except ClientExportSupportError Unit := do
  let d := protocolDescriptor m.protocol
  rejectIf (d.transport = .forbidden ∧ m.transport.isSome) ⟨"transport_forbidden_in_endpoint_model",
    d.displayName ++ " does not allow an explicit transport method in the normalized endpoint model"⟩
  rejectIf (d.outerSecurity = .forbidden ∧ m.outerSecurity.isSome) ⟨"outer_security_forbidden_in_endpoint_model",
    d.displayName ++ " does not allow outer transport security in the normalized endpoint model"⟩
  validateComponentBucket d.displayName "camouflage" m.components.camouflage d.components.camouflage
  validateComponentBucket d.displayName "ingress" m.components.ingress d.components.ingress
  validateComponentBucket d.displayName "performance" m.components.performance d.components.performance
  validateComponentBucket d.displayName "network" m.components.network d.components.network
  match m.protocol with
  | .vless =>
    let meek : Bool := m.transport = some .meek
    rejectIf ((meek ∨ m.transport = some .gdocsViewer) ∧ format ≠ .xray) ⟨"transport_requires_xray_family",
      (if meek then "Meek" else "GdocsViewer") ++
        " transport is only available through the Xray/V2Ray family adapters"⟩
    rejectIf (m.transport = some .webTransport) ⟨"webtransport_xray_family_export_disabled",
      "WebTransport export is disabled pending an updated xray/v2ray-compatible client config shape"⟩
    rejectIf (m.hasComponent .anyTls ∧ format = .hiddify) ⟨"hiddify_anytls_packaged_core_gap",
      "Hiddify AnyTLS export is disabled: packaged Hiddify core rejected the generated AnyTLS outbound and " ++
      "never exposed the local mixed proxy port; use --format mihomo for FlClash or --format sing-box"⟩
    rejectIf (m.hasComponent .anyTls ∧ format ≠ .mihomo ∧ format ≠ .singBox) ⟨"anytls_format_unsupported",
      "AnyTLS export is only implemented for mihomo/FlClash and sing-box configs"⟩
  | .wireGuard =>
    rejectIf (format = .xray)
      ⟨"wireguard_xray_export_unimplemented", "WireGuard export is not implemented for xray format"⟩
  | .vmess | .shadowsocks | .trojan => .ok ()
  | .hysteria2 | .tuic =>
    rejectIf (format = .xray) ⟨"xray_protocol_unsupported",
      d.displayName ++ " export is not implemented for xray format (xray does not natively support " ++
        (if m.protocol = .hysteria2 then "hysteria2" else "tuic") ++ ")"⟩
  | _ => .error ⟨"protocol_export_unimplemented",
      d.displayName ++ " export is not implemented for " ++ format.name ++ " format"⟩

/-! ## Documents -/

inductive Json where
  | str (s : String)
  | num (n : Nat)
  | bool (b : Bool)
  | arr (l : List Json)
  | obj (fields : List (String × Json))

abbrev Fields := List (String × Json)

/-- `skip_serializing_if` -/
def optional (name : String) (value : Option Json) : Fields := (value.map (name, ·)).toList

def nonEmpty (name s : String) : Fields := if s = "" then [] else [(name, .str s)]

section
variable (host name : String) (v : ClientConfigValues)

def ClientConfigValues.portNumber : Json := .num ((parseU16 v.port.toList).getD 443).toNat

def mihomoHead (kind : String) : Fields :=
  [("name", .str name), ("type", .str kind), ("server", .str host), ("port", v.portNumber)]

def mihomoSecurity : Fields := match v.endpoint.outerSecurity with
  | none => []
  | some security =>
    [("tls", .bool true), ("client-fingerprint", .str "chrome"), ("servername", .str v.servername)] ++
      match security with
      | .tls => [("skip-cert-verify", .bool true)]
      | .reality => [("reality-opts", .obj [("public-key", .str v.x25519Pk), ("short-id", .str v.shortId)])]

def mihomoTransport : Fields := match v.endpoint.transport with
  | some .webSocket => [("network", .str "ws"), ("ws-opts", .obj [("path", .str v.wsPath)])]
  | some .httpUpgrade =>
    [("network", .str "ws"), ("ws-opts", .obj [("path", .str v.wsPath), ("v2ray-http-upgrade", .bool true)])]
  | some .grpc => [("network", .str "grpc"), ("grpc-opts", .obj [("grpc-service-name", .str v.grpcServiceName)])]
  | some .kcp =>
    [("network", .str "mkcp"),
      ("mkcp-opts", .obj [("seed", .str v.kcpSeed), ("mtu", .num v.kcpMtu.toNat), ("tti", .num v.kcpTti.toNat)])]
  | some .quic | some .webTransport => [("network", .str "quic"), ("quic-opts", .obj [])]
  | some .xhttp =>
    [("network", .str "xhttp"),
      ("xhttp-opts", .obj ([("path", .str v.xhttpPath)] ++ nonEmpty "host" v.xhttpHost ++
        [("mode", .str "stream-one")]))]
  | _ => []

def mihomoFormat : Json :=
  let skip : String × Json := ("skip-cert-verify", .bool true)
  let udp : String × Json := ("udp", .bool true)
  let sni : String × Json := ("sni", .str v.servername)
  match v.endpoint.protocol with
  | .vmess => .obj (mihomoHead host name v "vmess" ++
      [("uuid", .str v.uuid), ("cipher", .str "auto"), ("alterId", .num 0), udp])
  | .wireGuard => .obj (mihomoHead host name v "wireguard" ++
      [("ip", .str v.wireguardClientIp), ("private-key", .str v.wireguardPrivateKey),
        ("public-key", .str v.wireguardPublicKey)] ++
      optional "pre-shared-key" (v.wireguardPresharedKey.map .str) ++
      [("allowed-ips", .arr (v.wireguardAllowedIps.map .str)), ("mtu", .num v.wireguardMtu), udp])
  | .shadowsocks => .obj (mihomoHead host name v "ss" ++
      [("cipher", .str v.shadowsocksMethod), ("password", .str v.shadowsocksPassword), udp])
  | .trojan => .obj (mihomoHead host name v "trojan" ++ [("password", .str v.trojanPassword), sni, skip, udp])
  | .hysteria2 => .obj (mihomoHead host name v "hysteria2" ++ [("password", .str v.hysteria2Password), sni, skip] ++
      optional "up" (v.hysteria2UpMbps.map .num) ++ optional "down" (v.hysteria2DownMbps.map .num))
  | .tuic => .obj (mihomoHead host name v "tuic" ++
      [("uuid", .str v.tuicUuid), ("password", .str v.tuicPassword), sni,
        ("congestion-controller", .str v.tuicCongestion), ("udp-relay-mode", .str "native"), skip])
  | _ =>
    if v.endpoint.hasComponent .anyTls then
      .obj (mihomoHead host name v "anytls" ++
        [("password", .str v.anytlsPassword), sni, ("client-fingerprint", .str "chrome"), skip, udp])
    else
      .obj (mihomoHead host name v "vless" ++ [("uuid", .str v.uuid), ("encryption", .str
        "none")] ++ nonEmpty "flow" v.flow ++ [udp] ++ mihomoSecurity v ++ mihomoTransport v)

def singboxHead (kind tag : String) : Fields :=
  [("type", .str kind), ("tag", .str tag), ("server", .str host), ("server_port", v.portNumber)]

def insecureTls (more : Fields) : String × Json :=
  ("tls", .obj ([("enabled", .bool true), ("server_name", .str v.servername), ("insecure", .bool true)] ++ more))

def utls : String × Json := ("utls", .obj [("enabled", .bool true), ("fingerprint", .str "chrome")])

def singboxTls : Fields := match v.endpoint.outerSecurity with
  | none => []
  | some .tls => [insecureTls v [utls]]
  | some .reality =>
    [("tls", .obj [("enabled", .bool true), ("server_name", .str v.servername), utls,
      ("reality", .obj [("enabled", .bool true), ("public_key", .str v.x25519Pk), ("short_id", .str v.shortId)])])]

def singboxTransport : Fields := match v.endpoint.transport with
  | some .webSocket => [("transport", .obj [("type", .str "ws"), ("path", .str v.wsPath)])]
  | some .httpUpgrade => [("transport", .obj [("type", .str "httpupgrade"), ("path", .str v.wsPath)])]
  | some .grpc => [("transport", .obj [("type", .str "grpc"), ("service_name", .str v.grpcServiceName)])]
  | some .quic | some .webTransport => [("transport", .obj [("type", .str "quic")])]
  | some .xhttp =>
    [("transport", .obj ([("type", .str "http"), ("path", .str v.xhttpPath)] ++
      if v.xhttpHost = "" then [] else [("host", .arr [.str v.xhttpHost])]))]
  | _ => []

/-- `network` and `packet_encoding`. -/
def payloadFields : Fields :=
  let tcp : Bool := .tcp ∈ v.endpoint.payloadNetworks
  let udp : Bool := .udp ∈ v.endpoint.payloadNetworks
  (match tcp, udp with
    | true, false => [("network", .str "tcp")]
    | false, true => [("network", .str "udp")]
    | _, _ => []) ++
  if udp then [("packet_encoding", .str "packetaddr")] else []

/-- The outbounds of sing-box, in front of `direct`. `hiddify_format` repeats them. -/
def singboxOutbounds : List Json :=
  let h3 : Fields := [("alpn", .arr [.str "h3"])]
  match v.endpoint.protocol with
  | .vmess => [.obj (singboxHead host v "vmess" name ++
      [("uuid", .str v.uuid), ("security", .str "auto"), ("alter_id", .num 0)])]
  | .wireGuard => [.obj (singboxHead host v "wireguard" name ++
      [("system_interface", .bool false), ("gso", .bool false), ("local_address", .arr [.str v.wireguardClientIp]),
        ("private_key", .str v.wireguardPrivateKey), ("peer_public_key", .str v.wireguardPublicKey)] ++
      optional "pre_shared_key" (v.wireguardPresharedKey.map .str) ++ [("mtu", .num v.wireguardMtu)])]
  | .shadowsocks => [.obj (singboxHead host v "shadowsocks" name ++
      [("method", .str v.shadowsocksMethod), ("password", .str v.shadowsocksPassword)])]
  | .trojan => [.obj (singboxHead host v "trojan" name ++
      [("password", .str v.trojanPassword), insecureTls v []])]
  | .hysteria2 => [.obj (singboxHead host v "hysteria2" name ++
      [("password", .str v.hysteria2Password), insecureTls v h3] ++
      optional "up_mbps" (v.hysteria2UpMbps.map .num) ++ optional "down_mbps" (v.hysteria2DownMbps.map .num))]
  | .tuic => [.obj (singboxHead host v "tuic" name ++
      [("uuid", .str v.tuicUuid), ("password", .str v.tuicPassword), ("congestion_control", .str
        v.tuicCongestion), ("udp_relay_mode", .str "native"), insecureTls v h3])]
  | _ =>
    let vless (detour tls : Fields) : Json := .obj (singboxHead host v "vless" name ++ [("uuid", .str v.uuid)] ++
      nonEmpty "flow" v.flow ++ payloadFields v ++ detour ++ tls ++ singboxTransport v)
    if v.endpoint.hasComponent .anyTls then
      [.obj (singboxHead host v "anytls" name ++ [("password", .str v.anytlsPassword), insecureTls v [utls]])]
    else if v.endpoint.hasComponent .shadowTls then
      [vless [("detour", .str (name ++ "-shadowtls"))] [],
        .obj (singboxHead host v "shadowtls" (name ++ "-shadowtls") ++
          [("version", .num 3), ("password", .str v.shadowtlsPassword), insecureTls v []])]
    else [vless [] (singboxTls v)]

def direct : Json := .obj [("type", .str "direct"), ("tag", .str "direct")]

def singboxFormat : Json := .obj
  [("inbounds", .arr [.obj [("type", .str "mixed"), ("tag", .str "mixed-in"),
    ("listen", .str "127.0.0.1"), ("listen_port", .num 10809)]]),
    ("outbounds", .arr (singboxOutbounds host name v ++ [direct]))]

def xrayTlsSettings : String × Json :=
  ("tlsSettings", .obj [("serverName", .str v.servername), ("fingerprint", .str "chrome"),
    ("allowInsecure", .bool true)])

/-- `finalmask`, the settings of the outer security and those of the transport, in the order of the source. -/
def xrayStreamSettings : Fields :=
  let (network, finalmask, settings) : String × Fields × Fields := match v.endpoint.transport with
    | some .webSocket => ("ws", [], [("wsSettings", .obj [("path", .str v.wsPath)])])
    | some .grpc => ("grpc", [], [("grpcSettings", .obj [("serviceName", .str v.grpcServiceName)])])
    | some .httpUpgrade => ("httpupgrade", [], [("httpupgradeSettings", .obj [("path", .str v.wsPath)])])
    | some .xhttp => ("xhttp", [], [("xhttpSettings", .obj ([("path", .str v.xhttpPath)] ++
        nonEmpty "host" v.xhttpHost ++ [("mode", .str "stream-one")]))])
    | some .quic | some .webTransport => ("quic", [], [("quicSettings", .obj
        [("security", .str "none"), ("key", .str ""), ("header", .obj [("type", .str "none")])])])
    | some .kcp =>
      let mask : Fields := if v.kcpSeed = "" then [("type", .str "mkcp-original")]
        else [("type", .str "mkcp-aes128gcm"), ("settings", .obj [("password", .str v.kcpSeed)])]
      ("mkcp", [("finalmask", .obj [("udp", .arr [.obj mask])])],
        [("kcpSettings", .obj [("mtu", .num v.kcpMtu.toNat), ("tti", .num v.kcpTti.toNat),
          ("uplinkCapacity", .num 5), ("downlinkCapacity", .num 20)])])
    | _ => ("tcp", [], [])
  let (security, outer) : Fields × Fields := match v.endpoint.outerSecurity with
    | none => ([], [])
    | some .tls => ([("security", .str "tls")], [xrayTlsSettings v])
    | some .reality => ([("security", .str "reality")],
        [("realitySettings", .obj [("serverName", .str v.servername), ("fingerprint", .str
          "chrome"), ("publicKey", .str v.x25519Pk), ("shortId", .str v.shortId)])])
  [("network", .str network)] ++ security ++ finalmask ++ outer ++ settings

def xrayOutbound : Json :=
  let outbound (protocol : String) (tag : Fields) (list : String) (server : Fields) (more : Fields) : Json :=
    .obj ([("protocol", .str protocol)] ++ tag ++
      [("settings", .obj [(list, .arr [.obj ([("address", .str host), ("port", v.portNumber)] ++ server)])])] ++ more)
  match v.endpoint.protocol with
  | .vmess => outbound "vmess" (nonEmpty "tag" name) "vnext"
      [("users", .arr [.obj [("id", .str v.uuid), ("security", .str "auto")]])] []
  | .shadowsocks => outbound "shadowsocks" [("tag", .str name)] "servers"
      [("method", .str v.shadowsocksMethod), ("password", .str v.shadowsocksPassword)] []
  | .trojan => outbound "trojan" [("tag", .str name)] "servers" [("password", .str v.trojanPassword)]
      [("streamSettings", .obj [("network", .str "tcp"), ("security", .str "tls"), xrayTlsSettings v])]
  | _ => outbound "vless" (nonEmpty "tag" name) "vnext"
      [("users", .arr [.obj ([("id", .str v.uuid)] ++ nonEmpty "flow" v.flow ++ [("encryption", .str "none")])])]
      [("streamSettings", .obj (xrayStreamSettings v))]

def xrayFormat : Json := .obj [("outbounds", .arr [xrayOutbound host name v])]

def hiddifyFormat : Json :=
  let vless : Bool := v.endpoint.protocol ∉ [.vmess, .wireGuard, .shadowsocks, .trojan, .hysteria2, .tuic]
  let configs := if vless ∧ ¬ v.endpoint.hasComponent .anyTls ∧ v.endpoint.transport = some .xhttp then
      [.obj [("type", .str "xray"), ("tag", .str name), ("xconfig", xrayFormat host name v)]]
    else singboxOutbounds host name v
  .obj [("remarks", .str name), ("subscription", .str ""), ("configs", .arr (configs ++ [direct]))]

/-- The document of a supported format. -/
def render : ClientFormat → Json
  | .mihomo => mihomoFormat host name v
  | .singBox => singboxFormat host name v
  | .xray => xrayFormat host name v
  | .hiddify => hiddifyFormat host name v

def generateClientConfig (format : ClientFormat) : Except String Json :=
  match validateClientFormatSupport format v.endpoint with
  | .error e => .error e.message
  | .ok () => .ok (render host name v format)

end

/-! ## Private keys in a document -/

/-- A value that stands somewhere in a document. -/
inductive Json.Part : Json → Json → Prop
  | self (j : Json) : Part j j
  | arr {j x : Json} {l : List Json} : j ∈ l → Part x j → Part x (.arr l)
  | obj {x : Json} {f : String × Json} {fields : Fields} : f ∈ fields → Part x f.2 → Part x (.obj fields)

theorem Json.Part.trans {x j doc : Json} (hx : Part x j) (h : Part j doc) : Part x doc := by
  induction h with
  | self => exact hx
  | arr hj _ ih => exact .arr hj (ih hx)
  | obj hf _ ih => exact .obj hf (ih hx)

/-- A proxy with its own and its peer's key, by the names in mihomo or in sing-box. -/
def Json.HasKeys (doc : Json) (own peer : String) : Prop :=
  ∃ fields, Part (.obj fields) doc ∧
    (("private-key", .str own) ∈ fields ∧ ("public-key", .str peer) ∈ fields ∨
      ("private_key", .str own) ∈ fields ∧ ("peer_public_key", .str peer) ∈ fields)

theorem Json.HasKeys.part {doc : Json} {own peer : String} (h : doc.HasKeys own peer) :
    Part (.str own) doc := by
  obtain ⟨fields, hpart, ⟨hown, -⟩ | ⟨hown, -⟩⟩ := h
  · exact Part.trans (.obj hown (.self _)) hpart
  · exact Part.trans (.obj hown (.self _)) hpart

/-- `K` holds of every field name, and `P` of every text. -/
structure Json.All (K P : String → Prop) (doc : Json) : Prop where
  names : ∀ fields, Part (.obj fields) doc → ∀ f ∈ fields, K f.1
  texts : ∀ s, Part (.str s) doc → P s

section
variable {K P : String → Prop}

def AllFields (K P : String → Prop) (fields : Fields) : Prop := ∀ f ∈ fields, K f.1 ∧ f.2.All K P

@[simp] theorem all_str (s : String) : (Json.str s).All K P ↔ P s :=
  ⟨fun h => h.texts s (.self _), fun h => ⟨fun _ h => (by cases h), fun _ h' => by cases h'; exact h⟩⟩

@[simp] theorem all_num (n : Nat) : (Json.num n).All K P :=
  ⟨fun _ h => (by cases h), fun _ h => by cases h⟩

@[simp] theorem all_bool (b : Bool) : (Json.bool b).All K P :=
  ⟨fun _ h => (by cases h), fun _ h => by cases h⟩

@[simp] theorem all_arr (l : List Json) : (Json.arr l).All K P ↔ ∀ j ∈ l, j.All K P := by
  constructor
  · exact fun h j hj => ⟨fun fields hpart => h.names fields (.arr hj hpart), fun s hpart => h.texts s (.arr hj hpart)⟩
  · refine fun h => ⟨fun fields hpart => ?_, fun s hpart => ?_⟩ <;> cases hpart with
    | arr hj hpart => first | exact (h _ hj).names _ hpart | exact (h _ hj).texts _ hpart

@[simp] theorem all_obj (fs : Fields) : (Json.obj fs).All K P ↔ AllFields K P fs := by
  constructor
  · exact fun h f hf => ⟨h.names fs (.self _) f hf,
      fun fields hpart => h.names fields (.obj hf hpart), fun s hpart => h.texts s (.obj hf hpart)⟩
  · refine fun h => ⟨fun fields hpart => ?_, fun s hpart => ?_⟩
    · cases hpart with
      | self => exact fun f hf => (h f hf).1
      | obj hf hpart => exact (h _ hf).2.names fields hpart
    · cases hpart with
      | obj hf hpart => exact (h _ hf).2.texts s hpart

@[simp] theorem allFields_nil : AllFields K P [] := by simp [AllFields]

@[simp] theorem allFields_cons (n : String) (j : Json) (fs : Fields) :
    AllFields K P ((n, j) :: fs) ↔ (K n ∧ j.All K P) ∧ AllFields K P fs := by
  simp [AllFields]

@[simp] theorem allFields_append (fs fs' : Fields) :
    AllFields K P (fs ++ fs') ↔ AllFields K P fs ∧ AllFields K P fs' := List.forall_mem_append

@[simp] theorem all_nonEmpty (n s : String) :
    AllFields K P (nonEmpty n s) ↔ s = "" ∨ K n ∧ P s := by
  by_cases h : s = "" <;> simp [nonEmpty, h]

@[simp] theorem all_optional (n : String) (o : Option Json) :
    AllFields K P (optional n o) ↔ ∀ j ∈ o, K n ∧ j.All K P := by
  cases o <;> simp [optional]

end

/-- What documents are made of: words of the format, texts among the values and, for
WireGuard, its keys and addresses. -/
abbrev Prints (host name : String) (v : ClientConfigValues) (K P : String → Prop) : Prop :=
  (∀ n, n ≠ "private-key" → n ≠ "private_key" → K n) ∧ (∀ s : String, s.length < 32 → P s) ∧
    (v.endpoint.protocol = .wireGuard → (K "private-key" ∧ K "private_key") ∧ P v.wireguardPrivateKey ∧
      P v.wireguardPublicKey ∧ (∀ k ∈ v.wireguardPresharedKey, P k) ∧ P v.wireguardClientIp ∧
      ∀ ip ∈ v.wireguardAllowedIps, P ip) ∧
    P host ∧ P name ∧ P (name ++ "-shadowtls") ∧ P v.uuid ∧ P v.flow ∧
    P v.shortId ∧ P v.x25519Pk ∧ P v.servername ∧ P v.wsPath ∧ P v.grpcServiceName ∧ P v.kcpSeed ∧ P v.xhttpPath ∧
    P v.xhttpHost ∧ P v.shadowtlsPassword ∧ P v.anytlsPassword ∧ P v.shadowsocksMethod ∧ P v.shadowsocksPassword ∧
    P v.trojanPassword ∧ P v.hysteria2Password ∧ P v.tuicUuid ∧ P v.tuicPassword ∧ P v.tuicCongestion

section
variable {host name : String} {v : ClientConfigValues} {K P : String → Prop}

section
variable (hP : Prints host name v K P)
include hP

theorem mihomoTransport_all : AllFields K P (mihomoTransport v) := by
  unfold mihomoTransport
  split <;> simp (disch := decide) [hP]

theorem mihomoSecurity_all : AllFields K P (mihomoSecurity v) := by
  unfold mihomoSecurity
  repeat' split
  all_goals simp (disch := decide) [hP]

theorem singboxTransport_all : AllFields K P (singboxTransport v) := by
  unfold singboxTransport
  repeat' split
  all_goals simp (disch := decide) [hP]

theorem singboxTls_all : AllFields K P (singboxTls v) := by
  unfold singboxTls
  split <;> simp (disch := decide) [insecureTls, utls, hP]

theorem payloadFields_all : AllFields K P (payloadFields v) := by
  simp only [payloadFields]
  repeat' split
  all_goals simp (disch := decide) [hP]

theorem xrayStreamSettings_all : AllFields K P (xrayStreamSettings v) := by
  unfold xrayStreamSettings
  rcases v.endpoint.outerSecurity with _ | _ | _ <;> rcases v.endpoint.transport with _ | t <;> try cases t
  all_goals by_cases hseed : v.kcpSeed = "" <;> simp (disch := decide) [xrayTlsSettings, hseed, hP]

theorem xrayFormat_all : (xrayFormat host name v).All K P := by
  simp only [xrayFormat, xrayOutbound]
  split <;> simp (disch := decide) [ClientConfigValues.portNumber, xrayTlsSettings, xrayStreamSettings_all hP, hP]

theorem mihomoFormat_all : (mihomoFormat host name v).All K P := by
  by_cases hp : v.endpoint.protocol = .wireGuard
  · have hwg := hP.2.2.1 hp
    simp (disch := decide) [mihomoFormat, mihomoHead, ClientConfigValues.portNumber, hp, hwg, hP]
    exact ⟨hwg.2.2.2.1, hwg.2.2.2.2.2⟩
  · simp only [mihomoFormat]
    split <;> try contradiction
    all_goals try split
    all_goals simp (disch := decide) [mihomoHead, ClientConfigValues.portNumber, mihomoSecurity_all
      hP, mihomoTransport_all hP, hP]

theorem singboxOutbounds_all : ∀ j ∈ singboxOutbounds host name v, j.All K P := by
  by_cases hp : v.endpoint.protocol = .wireGuard
  · have hwg := hP.2.2.1 hp
    simp (disch := decide) [singboxOutbounds, singboxHead, ClientConfigValues.portNumber, hp, hwg, hP]
    exact hwg.2.2.2.1
  · simp only [singboxOutbounds]
    split <;> try contradiction
    all_goals try split_ifs
    all_goals simp (disch := decide) [singboxHead, ClientConfigValues.portNumber, insecureTls, utls,
      payloadFields_all hP, singboxTls_all hP, singboxTransport_all hP, hP]

/-- **A document is made of what is printed.** -/
theorem render_all (format : ClientFormat) : (render host name v format).All K P := by
  have hdirect : direct.All K P := by simp (disch := decide) [direct, hP]
  have hout := singboxOutbounds_all hP
  cases format with
  | mihomo => exact mihomoFormat_all hP
  | singBox => simpa (disch := decide) [render, singboxFormat, hdirect, or_imp, forall_and, hP] using hout
  | xray => exact xrayFormat_all hP
  | hiddify =>
    simp only [render, hiddifyFormat]
    split
    · simp (disch := decide) [hdirect, xrayFormat_all hP, hP]
    · simpa (disch := decide) [hdirect, or_imp, forall_and, hP] using hout

end

section
variable (h : v.endpoint.protocol ≠ .wireGuard)
include h

theorem singboxOutbounds_key (key : String) :
    singboxOutbounds host name { v with wireguardPrivateKey := key } = singboxOutbounds host name v := by
  unfold singboxOutbounds
  simp only
  split <;> first | rfl | contradiction

/-- The private key is read for WireGuard only. -/
theorem render_key (key : String) (format : ClientFormat) :
    render host name { v with wireguardPrivateKey := key } format = render host name v format := by
  cases format with
  | mihomo =>
    simp only [render, mihomoFormat]
    split <;> first | rfl | contradiction
  | singBox => simp only [render, singboxFormat, singboxOutbounds_key h]
  | xray => rfl
  | hiddify =>
    simp only [render, hiddifyFormat, singboxOutbounds_key h]
    rfl

end

variable {format : ClientFormat}

theorem validate_wireguard {m : EndpointModel} (hp : m.protocol = .wireGuard)
    (h : validateClientFormatSupport format m = .ok ()) : format ≠ .xray := by
  unfold validateClientFormatSupport at h
  simp_all

theorem generateClientConfig_ok {doc : Json}
    (h : generateClientConfig host name v format = .ok doc) :
    validateClientFormatSupport format v.endpoint = .ok () ∧ render host name v format = doc := by
  unfold generateClientConfig at h
  split at h
  · cases h
  · exact ⟨‹_›, Except.ok.inj h⟩

/-- **A WireGuard document has the server's private key**, next to the first peer's
public key. -/
theorem hasKeys_render (h : v.endpoint.protocol = .wireGuard) (hf : format ≠ .xray) :
    (render host name v format).HasKeys v.wireguardPrivateKey v.wireguardPublicKey := by
  cases format with
  | xray => exact absurd rfl hf
  | mihomo =>
    simp only [render, mihomoFormat, h]
    exact ⟨_, .self _, .inl (by simp)⟩
  | singBox =>
    simp only [render, singboxFormat, singboxOutbounds, h]
    exact ⟨_, .obj (.tail _ (.head _)) (.arr (.head _) (.self _)), .inr (by simp)⟩
  | hiddify =>
    simp only [render, hiddifyFormat, singboxOutbounds, h]
    exact ⟨_, .obj (.tail _ (.tail _ (.head _))) (.arr (.head _) (.self _)), .inr (by simp)⟩

end

end Wrongsv.L2.Server
