import Wrongsv.Core.Validate
import Wrongsv.L1Encoding.HttpUpgrade
import Wrongsv.L1Encoding.ShadowsocksHeader
import Wrongsv.L1Encoding.UuidText

/-!
# The server configuration

`Config` of server/config.rs and `Config::validate`. A configuration names
the users and, each in a section of its own, the ways to serve them: TLS layers,
framing and datagram transports, inbounds of other protocols and experimental ones.
`validate` reads the users, counts the inbounds and then looks at one section after
the other.

The fields are those that a modelled function reads, with the defaults of the source. Base64
and the address parsers of the standard library are parameters (`ConfigPrimitives`).

Results:
* `validate_ok`: what an accepted configuration satisfies, section by section.
* `nonVless_alone`, `framing_alone`, `datagram_alone`, `shadowtls_alone`,
  `counted_alone`: which sections it keeps apart.
-/
namespace Wrongsv.L2.Server
open L1.HttpUpgrade L1.Shadowsocks L1.UuidText L1.VlessHeader
open Validate

/-! ## Sections -/

structure RealityServerConfig where
  privateKey : String
  shortIds : List String := []
  dest : Option String := none
  maxTimeDiff : Nat := 300

structure AnyTlsServerConfig where
  password : String
  dest : Option String := none

/-- TLS material; the carriers have a struct each, with the same fields. -/
structure TlsServerConfig where
  dest : Option String := none

structure ShadowsocksServerConfig where
  method : String
  password : String
  udp : Bool := true
  tcpPrefix : Option String := none
  udpPrefix : Option String := none

structure MixedServerConfig where
  username : Option String := none
  password : Option String := none

structure TrojanUserConfig where
  password : String

structure TrojanServerConfig where
  password : Option String := none
  users : List TrojanUserConfig := []
  dest : Option String := none

structure WebSocketServerConfig where
  path : String := "/"
  tls : Option TlsServerConfig := none

structure HttpUpgradeServerConfig where
  path : String := "/"
  maxEarlyData : Nat := 0
  earlyDataHeaderName : Option String := none
  tls : Option TlsServerConfig := none

structure GrpcServerConfig where
  serviceName : Option String := none
  tls : Option TlsServerConfig := none

structure XhttpServerConfig where
  path : Option String := none
  host : Option String := none
  tls : Option TlsServerConfig := none

structure MeekServerConfig where
  tls : Option TlsServerConfig := none

structure GdocsViewerServerConfig where
  sharedKey : Option String := none
  tls : Option TlsServerConfig := none

structure WireGuardPeerConfig where
  publicKey : String
  presharedKey : Option String := none
  allowedIps : List String

structure WireGuardForwardConfig where
  service : String
  target : String

structure WireGuardServerConfig where
  privateKey : String
  mtu : Nat := 1400
  serverCidrs : List String
  routes : List String := []
  peers : List WireGuardPeerConfig := []
  forwards : List WireGuardForwardConfig := []
  outbound : Bool := false

structure Hysteria2UserConfig where
  name : String
  password : String

structure Hysteria2ObfsConfig where
  obfsType : String
  password : String
  minPacketSize : Option Nat := none
  maxPacketSize : Option Nat := none

structure Hysteria2ServerConfig where
  password : Option String := none
  users : List Hysteria2UserConfig := []
  disableUdp : Bool := false
  upMbps : Option Nat := none
  downMbps : Option Nat := none
  obfs : Option Hysteria2ObfsConfig := none
  tls : Option TlsServerConfig := none

structure TuicUserConfig where
  uuid : String
  password : String

structure TuicServerConfig where
  users : List TuicUserConfig := []
  congestionControl : String := "cubic"
  tls : Option TlsServerConfig := none

structure QuicServerConfig where
  tls : Option TlsServerConfig := none

structure KcpServerConfig where
  seed : Option String := none
  mtu : Option Nat := none
  tti : Option Nat := none

structure WebTransportServerConfig where
  tls : Option TlsServerConfig := none

structure VmessUserConfig where
  id : String
  email : String := ""

structure VmessServerConfig where
  users : List VmessUserConfig := []

structure NaiveUserConfig where
  username : String
  password : String

structure NaiveServerConfig where
  users : List NaiveUserConfig := []
  paddingHeaderName : String := "Padding"
  tls : TlsServerConfig := {}

structure SnellServerConfig where
  psk : String
  version : UInt8 := 1

structure ShadowTlsServerConfig where
  password : String
  dest : Option String := none

/-- The section of an experimental inbound; only that it is there is read. -/
structure ExperimentalServerConfig

structure UserConfig where
  id : String
  email : String := ""
  flow : String := ""
  udp : Bool := true

structure Config where
  listen : String
  users : List UserConfig := []
  decryption : Option String := none
  flow : Option String := none
  reality : Option RealityServerConfig := none
  anytls : Option AnyTlsServerConfig := none
  tls : Option TlsServerConfig := none
  shadowsocks : Option ShadowsocksServerConfig := none
  mixed : Option MixedServerConfig := none
  trojan : Option TrojanServerConfig := none
  websocket : Option WebSocketServerConfig := none
  httpupgrade : Option HttpUpgradeServerConfig := none
  grpc : Option GrpcServerConfig := none
  xhttp : Option XhttpServerConfig := none
  meek : Option MeekServerConfig := none
  gdocsviewer : Option GdocsViewerServerConfig := none
  wireguard : Option WireGuardServerConfig := none
  hysteria2 : Option Hysteria2ServerConfig := none
  tuic : Option TuicServerConfig := none
  quic : Option QuicServerConfig := none
  kcp : Option KcpServerConfig := none
  webtransport : Option WebTransportServerConfig := none
  shadowtls : Option ShadowTlsServerConfig := none
  vmess : Option VmessServerConfig := none
  naive : Option NaiveServerConfig := none
  snell : Option SnellServerConfig := none
  lua : Option ExperimentalServerConfig := none
  masque : Option ExperimentalServerConfig := none
  trusttunnel : Option ExperimentalServerConfig := none
  brook : Option ExperimentalServerConfig := none
  vlite : Option ExperimentalServerConfig := none
  tor : Option ExperimentalServerConfig := none
  ssh : Option ExperimentalServerConfig := none
  juicity : Option ExperimentalServerConfig := none
  mieru : Option ExperimentalServerConfig := none
  sudoku : Option ExperimentalServerConfig := none
  vlessEncryption : Option ExperimentalServerConfig := none
  shadowquic : Option ExperimentalServerConfig := none
  anytlsReality : Option ExperimentalServerConfig := none

/-- The sections that say how to serve a connection. -/
inductive Section where
  | reality | anytls | tls | shadowtls
  | websocket | httpupgrade | grpc | xhttp | meek | gdocsviewer
  | quic | kcp | webtransport
  | shadowsocks | mixed | trojan | hysteria2 | tuic | vmess | wireguard | naive | snell
  | lua | masque | trusttunnel | brook | vlite | tor | ssh | juicity | mieru | sudoku
  | vlessEncryption | shadowquic | anytlsReality
  deriving DecidableEq, Repr

inductive Kind where
  | tlsLayer
  | framing
  | datagram
  | nonVless
  | experimental
  deriving DecidableEq, Repr

def Section.kind : Section → Kind
  | .reality | .anytls | .tls | .shadowtls => .tlsLayer
  | .websocket | .httpupgrade | .grpc | .xhttp | .meek | .gdocsviewer => .framing
  | .quic | .kcp | .webtransport => .datagram
  | .shadowsocks | .mixed | .trojan | .hysteria2 | .tuic | .vmess | .wireguard | .naive | .snell => .nonVless
  | .lua | .masque | .trusttunnel | .brook | .vlite | .tor | .ssh | .juicity | .mieru | .sudoku
  | .vlessEncryption | .shadowquic | .anytlsReality => .experimental

inductive ConfigError where
  | invalidUuid (email message : String)
  | unknownFlow (flow email : String)
  | unsupportedShadowsocksMethod (method : String)
  | shadowsocksPrefixTooLong
  | shadowsocksWithVlessUsers
  | shadowsocksWithVlessTransport
  | multipleInboundProtocols
  | mixedWithVlessUsers
  | mixedWithVlessTransport
  | mixedIncompleteCredentials
  | mixedInvalidCredentials
  | trojanWithVlessUsers
  | trojanWithVlessTransport
  | trojanMissingUsers
  | trojanInvalidPassword
  | websocketWithVlessTransport
  | websocketWithNonVless
  | httpUpgradeWithVlessTransport
  | httpUpgradeWithNonVless
  | httpUpgradeInvalidEarlyData
  | grpcWithVlessTransport
  | grpcWithNonVless
  | grpcMissingUsers
  | xhttpWithVlessTransport
  | xhttpWithNonVless
  | xhttpMissingUsers
  | xhttpWithGrpc
  | meekWithVlessTransport
  | meekWithNonVless
  | meekMissingUsers
  | gdocsViewerWithVlessTransport
  | gdocsViewerWithNonVless
  | gdocsViewerMissingUsers
  | gdocsViewerInvalidSharedKey
  | wireGuardWithVlessUsers
  | wireGuardWithVlessTransport
  | wireGuardWithNonVless
  | wireGuardMissingPeers
  | wireGuardMissingForwards
  | wireGuardInvalidKey
  | wireGuardInvalidCidr
  | wireGuardInvalidService
  | wireGuardInvalidTarget
  | hysteria2WithVlessUsers
  | hysteria2WithVlessTransport
  | hysteria2WithNonVless
  | hysteria2MissingAuth
  | hysteria2InvalidPassword
  | hysteria2InvalidObfsType
  | hysteria2InvalidObfsPassword
  | hysteria2InvalidObfsPacketSize
  | tuicWithVlessUsers
  | tuicWithVlessTransport
  | tuicWithNonVless
  | tuicMissingUsers
  | tuicInvalidPassword
  | tuicInvalidUuid
  | tuicInvalidCongestionControl
  | quicMissingTls
  | quicWithNonVless
  | quicWithVlessTransport
  | quicMissingUsers
  | kcpWithNonVless
  | kcpWithVlessTransport
  | kcpMissingUsers
  | webTransportWithNonVless
  | webTransportWithVlessTransport
  | webTransportMissingUsers
  | shadowTlsWithNonVless
  | shadowTlsWithVlessTransport
  | shadowTlsMissingUsers
  | vmessWithVlessUsers
  | vmessWithVlessTransport
  | vmessMissingUsers
  | vmessInvalidUuid (message : String)
  | vmessDuplicateUuid
  | naiveWithVlessUsers
  | naiveWithVlessTransport
  | naiveWithNonVless
  | naiveMissingUsers
  | naiveInvalidCredential
  | naiveInvalidPaddingHeader
  | snellWithVlessUsers
  | snellWithVlessTransport
  | snellWithNonVless
  | snellInvalidPsk
  | snellInvalidVersion
  deriving DecidableEq, Repr

/-! ## Texts -/

inductive IpAddr where
  | v4
  | v6
  deriving DecidableEq, Repr

/-- The code of other crates. -/
structure ConfigPrimitives where
  sha256 : Sha256
  /-- `base64::engine::general_purpose::STANDARD.decode` -/
  base64Decode : String → Option Bytes
  /-- `IpAddr::from_str` -/
  parseIpAddr : String → Option IpAddr
  /-- `str::parse::<SocketAddr>` succeeds -/
  isSocketAddr : String → Bool

def isAsciiHexdigit (c : Char) : Bool :=
  ('0' ≤ c && c ≤ '9') || ('a' ≤ c && c ≤ 'f') || ('A' ≤ c && c ≤ 'F')

def isStrictUuidText.go (hexLen : Nat) : Text → Bool
  | [] => hexLen == 32
  | c :: cs =>
    if c = '-' then go hexLen cs
    else if !isAsciiHexdigit c then false
    else go (hexLen + 1) cs

/-- config.rs:921-933 -/
def isStrictUuidText (s : String) : Bool := isStrictUuidText.go 0 s.toList

/-- `str::parse::<u8>`: digits, with a plus sign allowed in front of them. -/
def parseU8 (s : Text) : Option Nat :=
  let digits := match s with
    | '+' :: digits => digits
    | digits => digits
  if digits = [] ∨ !digits.all Char.isDigit then none
  else
    let n := digits.foldl (fun n c => n * 10 + (c.toNat - '0'.toNat)) 0
    if n ≤ 255 then some n else none

/-- config.rs:935-949 -/
def isValidCidrText (p : ConfigPrimitives) (value : String) : Bool :=
  match splitOnce '/' value.toList with
  | none => false
  | some (ipText, prefixText) =>
    match p.parseIpAddr (String.ofList ipText), parseU8 prefixText with
    | some .v4, some len => len ≤ 32
    | some .v6, some len => len ≤ 128
    | _, _ => false

/-- shadowsocks/lib.rs:63-72 -/
def Method.parse (name : String) : Option Method :=
  let name := String.ofList (lowercase (trim name.toList))
  if name = "aes-128-gcm" ∨ name = "aead_aes_128_gcm" then some .aes128Gcm
  else if name = "aes-256-gcm" ∨ name = "aead_aes_256_gcm" then some .aes256Gcm
  else if name = "chacha20-ietf-poly1305" ∨ name = "aead_chacha20_poly1305" then some .chaCha20IetfPoly1305
  else if name = "2022-blake3-aes-128-gcm" then some .aead2022Blake3Aes128Gcm
  else if name = "2022-blake3-aes-256-gcm" then some .aead2022Blake3Aes256Gcm
  else none

/-- A base64 text for exactly 32 bytes. -/
def isKey (p : ConfigPrimitives) (value : String) : Bool :=
  (p.base64Decode value).any (·.length == 32)

namespace Config

def has (c : Config) : Section → Bool
  | .reality => c.reality.isSome
  | .anytls => c.anytls.isSome
  | .tls => c.tls.isSome
  | .shadowtls => c.shadowtls.isSome
  | .websocket => c.websocket.isSome
  | .httpupgrade => c.httpupgrade.isSome
  | .grpc => c.grpc.isSome
  | .xhttp => c.xhttp.isSome
  | .meek => c.meek.isSome
  | .gdocsviewer => c.gdocsviewer.isSome
  | .quic => c.quic.isSome
  | .kcp => c.kcp.isSome
  | .webtransport => c.webtransport.isSome
  | .shadowsocks => c.shadowsocks.isSome
  | .mixed => c.mixed.isSome
  | .trojan => c.trojan.isSome
  | .hysteria2 => c.hysteria2.isSome
  | .tuic => c.tuic.isSome
  | .vmess => c.vmess.isSome
  | .wireguard => c.wireguard.isSome
  | .naive => c.naive.isSome
  | .snell => c.snell.isSome
  | .lua => c.lua.isSome
  | .masque => c.masque.isSome
  | .trusttunnel => c.trusttunnel.isSome
  | .brook => c.brook.isSome
  | .vlite => c.vlite.isSome
  | .tor => c.tor.isSome
  | .ssh => c.ssh.isSome
  | .juicity => c.juicity.isSome
  | .mieru => c.mieru.isSome
  | .sudoku => c.sudoku.isSome
  | .vlessEncryption => c.vlessEncryption.isSome
  | .shadowquic => c.shadowquic.isSome
  | .anytlsReality => c.anytlsReality.isSome

/-! ## Groups of sections -/

def hasVlessUsers (c : Config) : Bool := !c.users.isEmpty

def vlessTransports : List Section :=
  [.reality, .anytls, .tls, .websocket, .httpupgrade, .grpc, .xhttp, .meek, .gdocsviewer, .quic,
    .kcp, .webtransport, .shadowtls]

def nonVlessInbounds : List Section :=
  [.shadowsocks, .mixed, .trojan, .hysteria2, .tuic, .vmess, .wireguard, .naive, .snell]

def streamFraming : List Section := [.websocket, .httpupgrade, .grpc, .xhttp, .meek, .gdocsviewer]

def tlsLayers : List Section := [.reality, .anytls, .tls, .shadowtls]

/-- The inbounds that are counted; of the transports, XHTTP is one of them. -/
def countedInbounds : List Section :=
  [.shadowsocks, .mixed, .trojan, .hysteria2, .tuic, .xhttp, .vmess, .wireguard, .naive, .snell, .lua,
    .masque, .trusttunnel, .brook, .vlite, .tor, .ssh, .juicity, .mieru, .sudoku, .vlessEncryption,
    .shadowquic, .anytlsReality]

section
variable (c : Config)

def hasAny (sections : List Section) : Bool := sections.any c.has

def hasAnyVlessTransport : Bool := c.hasAny vlessTransports

def hasAnyNonVlessInbound : Bool := c.hasAny nonVlessInbounds

def hasAnyStreamFraming : Bool := c.hasAny streamFraming

def hasAnyTlsLayer : Bool := c.hasAny tlsLayers

def nonVlessCount : Nat := (countedInbounds.filter c.has).length

/-- TUIC is not in this list. -/
def hasAnyNonVlessInboundExceptHysteria2 : Bool :=
  c.hasAny [.shadowsocks, .mixed, .trojan, .vmess, .wireguard, .naive, .snell]

def hasAnyNonVlessInboundExceptTuic : Bool :=
  c.hasAny [.shadowsocks, .mixed, .trojan, .hysteria2, .vmess, .wireguard, .naive, .snell]

def hasAnyNonVlessInboundExceptWireguard : Bool :=
  c.hasAny [.shadowsocks, .mixed, .trojan, .hysteria2, .tuic, .vmess, .naive, .snell]

def hasAnyNonVlessInboundExceptNaive : Bool :=
  c.hasAny [.shadowsocks, .mixed, .trojan, .hysteria2, .tuic, .vmess, .wireguard, .snell]

def hasAnyNonVlessInboundExceptSnell : Bool :=
  c.hasAny [.shadowsocks, .mixed, .trojan, .hysteria2, .tuic, .vmess, .wireguard, .naive]

/-! ## Inbounds of other protocols -/

def validateUser (p : ConfigPrimitives) (user : UserConfig) : Except ConfigError Unit := do
  okOr (parseString p.sha256 user.id) fun e => .invalidUuid user.email e.toText
  rejectIf (user.flow ≠ "" ∧ user.flow ≠ "xtls-rprx-vision") (.unknownFlow user.flow user.email)

/-- config.rs:1615-1620 -/
def checkNonVlessNoUsers (err : ConfigError) : Except ConfigError Unit :=
  rejectIf c.hasVlessUsers err

/-- config.rs:1622-1627 -/
def checkNonVlessNoTransports (err : ConfigError) : Except ConfigError Unit :=
  rejectIf c.hasAnyVlessTransport err

def validateShadowsocks (shadowsocks : ShadowsocksServerConfig) : Except ConfigError Unit := do
  c.checkNonVlessNoUsers .shadowsocksWithVlessUsers
  c.checkNonVlessNoTransports .shadowsocksWithVlessTransport
  rejectIf (Method.parse shadowsocks.method).isNone (.unsupportedShadowsocksMethod shadowsocks.method)
  rejectIf (shadowsocks.tcpPrefix.any (16 < ·.utf8ByteSize) || shadowsocks.udpPrefix.any (16 < ·.utf8ByteSize))
    .shadowsocksPrefixTooLong

def validateMixed (mixed : MixedServerConfig) : Except ConfigError Unit := do
  c.checkNonVlessNoUsers .mixedWithVlessUsers
  c.checkNonVlessNoTransports .mixedWithVlessTransport
  match mixed.username, mixed.password with
  | none, none => pure ()
  | some u, some p =>
    rejectIf (u = "" ∨ 255 < u.utf8ByteSize ∨ p = "" ∨ 255 < p.utf8ByteSize) .mixedInvalidCredentials
  | _, _ => throw .mixedIncompleteCredentials

def validateTrojan (trojan : TrojanServerConfig) : Except ConfigError Unit := do
  c.checkNonVlessNoUsers .trojanWithVlessUsers
  c.checkNonVlessNoTransports .trojanWithVlessTransport
  let hasTopLevelPassword := trojan.password.any (· ≠ "")
  rejectIf (trojan.password.any (· = "") || trojan.users.any (·.password = "")) .trojanInvalidPassword
  rejectIf (!hasTopLevelPassword && trojan.users.isEmpty) .trojanMissingUsers

def validateObfs (obfs : Hysteria2ObfsConfig) : Except ConfigError Unit := do
  rejectIf (obfs.obfsType ≠ "salamander" ∧ obfs.obfsType ≠ "gecko") .hysteria2InvalidObfsType
  rejectIf (obfs.password.utf8ByteSize < 4) .hysteria2InvalidObfsPassword
  let min := obfs.minPacketSize.getD 512
  let max := obfs.maxPacketSize.getD 1200
  rejectIf (obfs.obfsType = "gecko" ∧ (min = 0 ∨ max = 0 ∨ max < min ∨ 2048 < max))
    .hysteria2InvalidObfsPacketSize

def validateHysteria2 (hysteria2 : Hysteria2ServerConfig) : Except ConfigError Unit := do
  c.checkNonVlessNoUsers .hysteria2WithVlessUsers
  c.checkNonVlessNoTransports .hysteria2WithVlessTransport
  rejectIf c.hasAnyNonVlessInboundExceptHysteria2 .hysteria2WithNonVless
  rejectIf (hysteria2.password.any (· = "") || hysteria2.users.any (·.password = "")) .hysteria2InvalidPassword
  rejectIf (hysteria2.password.all (· = "") && hysteria2.users.isEmpty) .hysteria2MissingAuth
  ifSome hysteria2.obfs validateObfs

def validateTuic (tuic : TuicServerConfig) : Except ConfigError Unit := do
  c.checkNonVlessNoUsers .tuicWithVlessUsers
  c.checkNonVlessNoTransports .tuicWithVlessTransport
  rejectIf c.hasAnyNonVlessInboundExceptTuic .tuicWithNonVless
  rejectIf tuic.users.isEmpty .tuicMissingUsers
  rejectIf (tuic.congestionControl ∉ ["cubic", "new_reno", "bbr"]) .tuicInvalidCongestionControl
  rejectIf (tuic.users.any (·.password = "")) .tuicInvalidPassword
  rejectIf (tuic.users.any (!isStrictUuidText ·.uuid)) .tuicInvalidUuid

/-- The loop over the ids with the set of those seen: one of them comes again. -/
def repeats (seen : List String) : List String → Bool
  | [] => false
  | id :: ids => if id ∈ seen then true else repeats (id :: seen) ids

def validateVmess (p : ConfigPrimitives) (vmess : VmessServerConfig) : Except ConfigError Unit := do
  c.checkNonVlessNoUsers .vmessWithVlessUsers
  c.checkNonVlessNoTransports .vmessWithVlessTransport
  rejectIf vmess.users.isEmpty .vmessMissingUsers
  each vmess.users fun user =>
    okOr (parseString p.sha256 user.id) fun e => .vmessInvalidUuid (user.id ++ ": " ++ e.toText)
  rejectIf (1 < vmess.users.length ∧ repeats [] (vmess.users.map (·.id))) .vmessDuplicateUuid

def validateWireguard (p : ConfigPrimitives) (wireguard : WireGuardServerConfig) :
    Except ConfigError Unit := do
  c.checkNonVlessNoUsers .wireGuardWithVlessUsers
  c.checkNonVlessNoTransports .wireGuardWithVlessTransport
  rejectIf c.hasAnyNonVlessInboundExceptWireguard .wireGuardWithNonVless
  rejectIf wireguard.peers.isEmpty .wireGuardMissingPeers
  rejectIf (!wireguard.outbound && wireguard.forwards.isEmpty) .wireGuardMissingForwards
  rejectIf (!isKey p wireguard.privateKey || wireguard.peers.any (!isKey p ·.publicKey) ||
      wireguard.peers.any (·.presharedKey.any (!isKey p ·)))
    .wireGuardInvalidKey
  each wireguard.serverCidrs fun cidr => rejectIf (!isValidCidrText p cidr) .wireGuardInvalidCidr
  each (wireguard.peers.flatMap (·.allowedIps)) fun cidr => rejectIf (!isValidCidrText p cidr) .wireGuardInvalidCidr
  each wireguard.forwards fun forward => do
    rejectIf (!p.isSocketAddr forward.service) .wireGuardInvalidService
    rejectIf (!p.isSocketAddr forward.target) .wireGuardInvalidTarget

/-- `b.is_ascii_graphic() && b != b':' && b != b' ' && b != b'\t'` -/
def isTokenByte (b : UInt8) : Bool :=
  0x21 ≤ b && b ≤ 0x7E && b != 0x3A && b != 0x20 && b != 0x09

def validateNaive (naive : NaiveServerConfig) : Except ConfigError Unit := do
  c.checkNonVlessNoUsers .naiveWithVlessUsers
  c.checkNonVlessNoTransports .naiveWithVlessTransport
  rejectIf c.hasAnyNonVlessInboundExceptNaive .naiveWithNonVless
  rejectIf naive.users.isEmpty .naiveMissingUsers
  each naive.users fun user =>
    rejectIf (user.username = "" ∨ user.password = "" ∨ ':' ∈ user.username.toList) .naiveInvalidCredential
  rejectIf (naive.paddingHeaderName = "" ∨ !(utf8 naive.paddingHeaderName).all isTokenByte)
    .naiveInvalidPaddingHeader

def validateSnell (snell : SnellServerConfig) : Except ConfigError Unit := do
  c.checkNonVlessNoUsers .snellWithVlessUsers
  c.checkNonVlessNoTransports .snellWithVlessTransport
  rejectIf c.hasAnyNonVlessInboundExceptSnell .snellWithNonVless
  rejectIf (snell.psk = "") .snellInvalidPsk
  rejectIf (snell.version ≠ 1) .snellInvalidVersion

/-! ## VLESS transports -/

inductive FramingTransport where
  | websocket | httpupgrade | grpc | xhttp | meek | gdocsviewer

def FramingTransport.toSection : FramingTransport → Section
  | .websocket => .websocket
  | .httpupgrade => .httpupgrade
  | .grpc => .grpc
  | .xhttp => .xhttp
  | .meek => .meek
  | .gdocsviewer => .gdocsviewer

/-- WebTransport is in none of the lists. -/
def framingConflicts : FramingTransport → List Section
  | .websocket => [.httpupgrade, .grpc, .xhttp, .meek, .gdocsviewer, .quic, .kcp]
  | .httpupgrade => [.websocket, .grpc, .xhttp, .meek, .gdocsviewer, .quic, .kcp]
  | .grpc => [.websocket, .httpupgrade, .xhttp, .meek, .gdocsviewer, .quic, .kcp]
  | .xhttp => [.websocket, .httpupgrade, .grpc, .meek, .gdocsviewer, .quic, .kcp]
  | .meek => [.websocket, .httpupgrade, .grpc, .xhttp, .gdocsviewer, .quic, .kcp]
  | .gdocsviewer => [.websocket, .httpupgrade, .grpc, .xhttp, .meek, .quic, .kcp]

/-- config.rs:1632-1715 -/
def checkFramingTransport (name : FramingTransport) (nonVlessErr transportErr : ConfigError) :
    Except ConfigError Unit := do
  rejectIf (c.hasAnyNonVlessInbound || c.hasAny (framingConflicts name)) nonVlessErr
  rejectIf c.hasAnyTlsLayer transportErr

inductive DatagramTransport where
  | quic | kcp | webtransport

def DatagramTransport.toSection : DatagramTransport → Section
  | .quic => .quic
  | .kcp => .kcp
  | .webtransport => .webtransport

def datagramConflicts : DatagramTransport → List Section
  | .quic => [.kcp, .webtransport]
  | .kcp => [.quic, .webtransport]
  | .webtransport => [.quic, .kcp]

/-- config.rs:1720-1744 -/
def checkDatagramTransport (name : DatagramTransport)
    (nonVlessErr transportErr missingUsersErr : ConfigError) : Except ConfigError Unit := do
  rejectIf (c.hasAnyNonVlessInbound || c.hasAnyStreamFraming) nonVlessErr
  rejectIf (c.hasAnyTlsLayer || c.hasAny (datagramConflicts name)) transportErr
  rejectIf (!c.hasVlessUsers) missingUsersErr

def validateWebsocket (_ : WebSocketServerConfig) : Except ConfigError Unit :=
  c.checkFramingTransport .websocket .websocketWithNonVless .websocketWithVlessTransport

def validateHttpupgrade (httpupgrade : HttpUpgradeServerConfig) : Except ConfigError Unit := do
  c.checkFramingTransport .httpupgrade .httpUpgradeWithNonVless .httpUpgradeWithVlessTransport
  rejectIf (0 < httpupgrade.maxEarlyData ∧ httpupgrade.earlyDataHeaderName.all (· = ""))
    .httpUpgradeInvalidEarlyData

def validateGrpc (_ : GrpcServerConfig) : Except ConfigError Unit := do
  c.checkFramingTransport .grpc .grpcWithNonVless .grpcWithVlessTransport
  rejectIf (!c.hasVlessUsers) .grpcMissingUsers

def validateXhttp (_ : XhttpServerConfig) : Except ConfigError Unit := do
  c.checkFramingTransport .xhttp .xhttpWithNonVless .xhttpWithVlessTransport
  rejectIf (!c.hasVlessUsers) .xhttpMissingUsers

def validateMeek (_ : MeekServerConfig) : Except ConfigError Unit := do
  c.checkFramingTransport .meek .meekWithNonVless .meekWithVlessTransport
  rejectIf (!c.hasVlessUsers) .meekMissingUsers

def validateGdocsviewer (p : ConfigPrimitives) (gdocsviewer : GdocsViewerServerConfig) :
    Except ConfigError Unit := do
  c.checkFramingTransport .gdocsviewer .gdocsViewerWithNonVless .gdocsViewerWithVlessTransport
  rejectIf (!c.hasVlessUsers) .gdocsViewerMissingUsers
  rejectIf (gdocsviewer.sharedKey.any (!isKey p ·)) .gdocsViewerInvalidSharedKey

def validateQuic (_ : QuicServerConfig) : Except ConfigError Unit :=
  c.checkDatagramTransport .quic .quicWithNonVless .quicWithVlessTransport .quicMissingUsers

def validateKcp (_ : KcpServerConfig) : Except ConfigError Unit :=
  c.checkDatagramTransport .kcp .kcpWithNonVless .kcpWithVlessTransport .kcpMissingUsers

def validateWebtransport (_ : WebTransportServerConfig) : Except ConfigError Unit :=
  c.checkDatagramTransport .webtransport .webTransportWithNonVless .webTransportWithVlessTransport
    .webTransportMissingUsers

def validateShadowtls (_ : ShadowTlsServerConfig) : Except ConfigError Unit := do
  rejectIf (c.hasAnyNonVlessInbound || c.hasAnyStreamFraming || c.hasAny [.quic, .kcp, .webtransport])
    .shadowTlsWithNonVless
  rejectIf (c.hasAny [.reality, .anytls, .tls]) .shadowTlsWithVlessTransport
  rejectIf (!c.hasVlessUsers) .shadowTlsMissingUsers

/-- REALITY, AnyTLS, TLS and the experimental inbounds have no check of their own.
config.rs:1215-1611 -/
def validate (p : ConfigPrimitives) : Except ConfigError Unit := do
  each c.users (validateUser p)
  rejectIf (1 < c.nonVlessCount) .multipleInboundProtocols
  ifSome c.shadowsocks c.validateShadowsocks
  ifSome c.mixed c.validateMixed
  ifSome c.trojan c.validateTrojan
  ifSome c.hysteria2 c.validateHysteria2
  ifSome c.tuic c.validateTuic
  ifSome c.vmess (c.validateVmess p)
  ifSome c.wireguard (c.validateWireguard p)
  ifSome c.naive c.validateNaive
  ifSome c.snell c.validateSnell
  ifSome c.websocket c.validateWebsocket
  ifSome c.httpupgrade c.validateHttpupgrade
  ifSome c.grpc c.validateGrpc
  ifSome c.xhttp c.validateXhttp
  ifSome c.meek c.validateMeek
  ifSome c.gdocsviewer (c.validateGdocsviewer p)
  ifSome c.quic c.validateQuic
  ifSome c.kcp c.validateKcp
  ifSome c.webtransport c.validateWebtransport
  ifSome c.shadowtls c.validateShadowtls

end

/-! ## The lists by the kinds of their sections -/

variable {s : Section}

theorem mem_vlessTransports :
    s ∈ vlessTransports ↔ s.kind = .datagram ∨ s.kind = .framing ∨ s.kind = .tlsLayer := by
  cases s <;> decide

theorem mem_nonVlessInbounds : s ∈ nonVlessInbounds ↔ s.kind = .nonVless := by
  cases s <;> decide

theorem mem_streamFraming : s ∈ streamFraming ↔ s.kind = .framing := by
  cases s <;> decide

theorem mem_tlsLayers : s ∈ tlsLayers ↔ s.kind = .tlsLayer := by
  cases s <;> decide

theorem mem_countedInbounds :
    s ∈ countedInbounds ↔ (s.kind = .nonVless ∨ s.kind = .experimental) ∨ s = .xhttp := by
  cases s <;> decide

theorem mem_framingConflicts {name : FramingTransport} : s ∈ framingConflicts name ↔
    (s.kind = .framing ∧ s ≠ name.toSection) ∨ s = .quic ∨ s = .kcp := by
  cases name <;> cases s <;> decide

theorem mem_datagramConflicts {name : DatagramTransport} :
    s ∈ datagramConflicts name ↔ s.kind = .datagram ∧ s ≠ name.toSection := by
  cases name <;> cases s <;> decide

theorem exists_framingTransport (hs : s.kind = .framing) :
    ∃ name : FramingTransport, name.toSection = s := by
  cases s with
  | websocket => exact ⟨.websocket, rfl⟩
  | httpupgrade => exact ⟨.httpupgrade, rfl⟩
  | grpc => exact ⟨.grpc, rfl⟩
  | xhttp => exact ⟨.xhttp, rfl⟩
  | meek => exact ⟨.meek, rfl⟩
  | gdocsviewer => exact ⟨.gdocsviewer, rfl⟩
  | _ => cases hs

theorem exists_datagramTransport (hs : s.kind = .datagram) :
    ∃ name : DatagramTransport, name.toSection = s := by
  cases s with
  | quic => exact ⟨.quic, rfl⟩
  | kcp => exact ⟨.kcp, rfl⟩
  | webtransport => exact ⟨.webtransport, rfl⟩
  | _ => cases hs

/-! ## What is accepted -/

section
variable {c : Config}

theorem hasAny_eq_false {sections : List Section} :
    c.hasAny sections = false ↔ ∀ s ∈ sections, c.has s = false := by
  simp [hasAny]

/-- The checks of `validate`, each for its section. -/
structure Valid (p : ConfigPrimitives) (c : Config) : Prop where
  users : ∀ user ∈ c.users, validateUser p user = .ok ()
  count : c.nonVlessCount ≤ 1
  shadowsocks : ∀ a, c.shadowsocks = some a → c.validateShadowsocks a = .ok ()
  mixed : ∀ a, c.mixed = some a → c.validateMixed a = .ok ()
  trojan : ∀ a, c.trojan = some a → c.validateTrojan a = .ok ()
  hysteria2 : ∀ a, c.hysteria2 = some a → c.validateHysteria2 a = .ok ()
  tuic : ∀ a, c.tuic = some a → c.validateTuic a = .ok ()
  vmess : ∀ a, c.vmess = some a → c.validateVmess p a = .ok ()
  wireguard : ∀ a, c.wireguard = some a → c.validateWireguard p a = .ok ()
  naive : ∀ a, c.naive = some a → c.validateNaive a = .ok ()
  snell : ∀ a, c.snell = some a → c.validateSnell a = .ok ()
  websocket : ∀ a, c.websocket = some a → c.validateWebsocket a = .ok ()
  httpupgrade : ∀ a, c.httpupgrade = some a → c.validateHttpupgrade a = .ok ()
  grpc : ∀ a, c.grpc = some a → c.validateGrpc a = .ok ()
  xhttp : ∀ a, c.xhttp = some a → c.validateXhttp a = .ok ()
  meek : ∀ a, c.meek = some a → c.validateMeek a = .ok ()
  gdocsviewer : ∀ a, c.gdocsviewer = some a → c.validateGdocsviewer p a = .ok ()
  quic : ∀ a, c.quic = some a → c.validateQuic a = .ok ()
  kcp : ∀ a, c.kcp = some a → c.validateKcp a = .ok ()
  webtransport : ∀ a, c.webtransport = some a → c.validateWebtransport a = .ok ()
  shadowtls : ∀ a, c.shadowtls = some a → c.validateShadowtls a = .ok ()

theorem validate_ok {p : ConfigPrimitives} (h : c.validate p = .ok ()) : Valid p c := by
  simp only [validate, bind_ok, each_ok, rejectIf_ok, ifSome_ok, decide_eq_false_iff_not, Nat.not_lt] at h
  obtain ⟨husers, hcount, hshadowsocks, hmixed, htrojan, hhysteria2, htuic, hvmess, hwireguard, hnaive, hsnell,
    hwebsocket, hhttpupgrade, hgrpc, hxhttp, hmeek, hgdocsviewer, hquic, hkcp, hwebtransport, hshadowtls⟩ := h
  exact ⟨husers, hcount, hshadowsocks, hmixed, htrojan, hhysteria2, htuic, hvmess, hwireguard, hnaive, hsnell,
    hwebsocket, hhttpupgrade, hgrpc, hxhttp, hmeek, hgdocsviewer, hquic, hkcp, hwebtransport, hshadowtls⟩

theorem nonVlessChecks_ok {usersErr transportErr : ConfigError} {rest : Except ConfigError Unit}
    (h : (do c.checkNonVlessNoUsers usersErr; c.checkNonVlessNoTransports transportErr; rest) = .ok ()) :
    c.hasVlessUsers = false ∧ c.hasAnyVlessTransport = false := by
  simp only [checkNonVlessNoUsers, checkNonVlessNoTransports, bind_ok, rejectIf_ok] at h
  exact ⟨h.1, h.2.1⟩

theorem checkFramingTransport_ok {name : FramingTransport} {nonVlessErr transportErr : ConfigError} :
    c.checkFramingTransport name nonVlessErr transportErr = .ok () ↔ c.hasAnyNonVlessInbound =
      false ∧ c.hasAny (framingConflicts name) = false ∧ c.hasAnyTlsLayer = false := by
  simp [checkFramingTransport, and_assoc]

theorem checkDatagramTransport_ok {name : DatagramTransport} {nonVlessErr transportErr missingUsersErr : ConfigError} :
    c.checkDatagramTransport name nonVlessErr transportErr missingUsersErr = .ok () ↔
      c.hasAnyNonVlessInbound = false ∧ c.hasAnyStreamFraming = false ∧ c.hasAnyTlsLayer = false ∧
        c.hasAny (datagramConflicts name) = false ∧ c.hasVlessUsers = true := by
  simp [checkDatagramTransport, and_assoc]

variable {p : ConfigPrimitives} (h : Valid p c)
include h

/-- **An inbound of another protocol** has no VLESS users and no VLESS transport beside it. -/
theorem nonVless_alone (hs : s ∈ nonVlessInbounds) (hp : c.has s = true) :
    c.hasVlessUsers = false ∧ c.hasAnyVlessTransport = false := by
  simp only [nonVlessInbounds, List.mem_cons, List.not_mem_nil, or_false] at hs
  rcases hs with rfl | rfl | rfl | rfl | rfl | rfl | rfl | rfl | rfl
  all_goals obtain ⟨a, ha⟩ := Option.isSome_iff_exists.mp hp
  · exact nonVlessChecks_ok (h.shadowsocks a ha)
  · exact nonVlessChecks_ok (h.mixed a ha)
  · exact nonVlessChecks_ok (h.trojan a ha)
  · exact nonVlessChecks_ok (h.hysteria2 a ha)
  · exact nonVlessChecks_ok (h.tuic a ha)
  · exact nonVlessChecks_ok (h.vmess a ha)
  · exact nonVlessChecks_ok (h.wireguard a ha)
  · exact nonVlessChecks_ok (h.naive a ha)
  · exact nonVlessChecks_ok (h.snell a ha)

/-- **A framing transport** stands alone, but for WebTransport, which its list omits. -/
theorem framing_alone (name : FramingTransport) (hp : c.has name.toSection = true) :
    c.hasAnyNonVlessInbound = false ∧ c.hasAny (framingConflicts name) = false ∧ c.hasAnyTlsLayer = false := by
  cases name
  all_goals obtain ⟨a, ha⟩ := Option.isSome_iff_exists.mp hp
  · exact checkFramingTransport_ok.mp (h.websocket a ha)
  · exact checkFramingTransport_ok.mp (bind_ok.mp (h.httpupgrade a ha)).1
  · exact checkFramingTransport_ok.mp (bind_ok.mp (h.grpc a ha)).1
  · exact checkFramingTransport_ok.mp (bind_ok.mp (h.xhttp a ha)).1
  · exact checkFramingTransport_ok.mp (bind_ok.mp (h.meek a ha)).1
  · exact checkFramingTransport_ok.mp (bind_ok.mp (h.gdocsviewer a ha)).1

/-- **A datagram transport** stands alone. -/
theorem datagram_alone (name : DatagramTransport) (hp : c.has name.toSection = true) :
    c.hasAnyNonVlessInbound = false ∧ c.hasAnyStreamFraming = false ∧ c.hasAnyTlsLayer = false ∧
      c.hasAny (datagramConflicts name) = false ∧ c.hasVlessUsers = true := by
  cases name
  all_goals obtain ⟨a, ha⟩ := Option.isSome_iff_exists.mp hp
  · exact checkDatagramTransport_ok.mp (h.quic a ha)
  · exact checkDatagramTransport_ok.mp (h.kcp a ha)
  · exact checkDatagramTransport_ok.mp (h.webtransport a ha)

/-- **ShadowTLS** has no other TLS layer beside it. -/
theorem shadowtls_alone (hp : c.has .shadowtls = true) :
    c.hasAny [.reality, .anytls, .tls] = false := by
  obtain ⟨a, ha⟩ := Option.isSome_iff_exists.mp hp
  have hcheck := h.shadowtls a ha
  simp only [validateShadowtls, bind_ok, rejectIf_ok] at hcheck
  exact hcheck.2.1

/-- **Of the inbounds that are counted** there is at most one. -/
theorem counted_alone {s t : Section} (hs : s ∈ countedInbounds) (ht : t ∈ countedInbounds)
    (hps : c.has s = true) (hpt : c.has t = true) : s = t := by
  have hlen : (countedInbounds.filter c.has).length ≤ 1 := h.count
  obtain ⟨i, hi, rfl⟩ := List.getElem_of_mem (List.mem_filter.mpr ⟨hs, hps⟩)
  obtain ⟨j, hj, rfl⟩ := List.getElem_of_mem (List.mem_filter.mpr ⟨ht, hpt⟩)
  have hij : i = j := by omega
  subst hij
  rfl

end

end Config

end Wrongsv.L2.Server
