import Wrongsv.L2Machine.Vless.Connection
import Wrongsv.L2Machine.Vless.Validator
import Wrongsv.L2Machine.Vision.Chunks

/-!
# VLESS over the stream carriers

Behind their handshakes the WebSocket, TLS, AnyTLS and ShadowTLS handlers do what
`handle_connection` does over raw TCP: decode the request from a first chunk,
answer, and start a relay. AnyTLS has two of them, one for a plain session and
one for a stream of a sing-anytls session. The relays get the bytes behind the
header as `initial_data`, and the Vision relays the id that `TrafficState::new`
is called with.

`serve_vision`: which id that is, on each carrier.
-/
namespace Wrongsv.L2.Vless
open L1.VisionFrame L1.VlessHeader L2.Vision

inductive VisionCarrier where
  | rawTcp
  | webSocket
  | tls
  | anyTls
  | singAnyTls
  | shadowTls
  deriving DecidableEq, Repr

/-- The relay of a carrier with the arguments it gets besides the two streams. -/
inductive StreamRelay where
  | udp (request : RequestHeader) (remaining : Bytes)
  | muxUdp (remaining : Bytes) (udp : Bool)
  | vision (userSentId : Uuid) (testseed : List Nat) (initialData : Bytes)
  | raw (initialData : Bytes)
  deriving DecidableEq, Repr

/-- What a handler sends before the relay: bytes of the stream, or the control
frames of a sing-anytls stream. -/
inductive Reply where
  | data (bytes : Bytes)
  | synack
  | synackError (message : String)
  | fin
  deriving DecidableEq, Repr

/-- The replies, and the relay, an early return or the error. -/
structure StreamOutcome where
  replies : List Reply
  relay : Except ServeError (Option StreamRelay)

/-- A handler behind `decode_vless_request`, with the id it gives to Vision. -/
def serveStream (visionId : DecodedRequest → Uuid) (r : VlessRequest) : StreamOutcome :=
  let request := r.decoded.header
  match validateVlessCommand request r.useVision with
  | .error e => ⟨[], .error e⟩
  | .ok () =>
    let replies := [Reply.data (responseHeaderBuf request)]
    if request.command = .udp then
      if request.user.account.udp = false then ⟨replies, .error udpDisabled⟩
      else ⟨replies, .ok (some (.udp request r.remainingBody))⟩
    else if r.useVision then
      ⟨replies, .ok (some (.vision (visionId r.decoded) request.user.account.testseed r.remainingBody))⟩
    else ⟨replies, .ok (some (.raw r.remainingBody))⟩

/-- `account.id.bytes()` -/
def accountId (d : DecodedRequest) : Uuid := d.header.user.account.id

/-- server/handler/tls.rs:178-222 -/
def handleTlsConnection : VlessRequest → StreamOutcome := serveStream accountId

/-- server/handler/anytls.rs:131-184 -/
def handleAnytlsConnection : VlessRequest → StreamOutcome := serveStream accountId

/-- server/handler/shadowtls.rs:663-710 -/
def handleShadowtlsConnection : VlessRequest → StreamOutcome := serveStream accountId

/-- WebSocket is the only one of them with a relay for `Mux`.
server/handler/websocket.rs:473-523 -/
def handleVlessOverWs (r : VlessRequest) : StreamOutcome :=
  let request := r.decoded.header
  if request.command = .mux then
    match validateVlessCommand request r.useVision with
    | .error e => ⟨[], .error e⟩
    | .ok () => ⟨[.data (responseHeaderBuf request)],
        .ok (some (.muxUdp r.remainingBody request.user.account.udp))⟩
  else serveStream (·.userSentId) r

/-- Refusals are sent on the stream, and the handler returns `Ok`.
server/handler/anytls.rs:301-382 -/
def handleSingStreamVless (r : VlessRequest) : StreamOutcome :=
  let request := r.decoded.header
  if request.command = .udp ∧ r.useVision = true then
    ⟨[.synackError "Vision does not support UDP"], .ok none⟩
  else
    let replies := [Reply.synack, .data (responseHeaderBuf request)]
    if request.command = .udp then
      if request.user.account.udp = false then ⟨replies ++ [.fin], .ok none⟩
      else ⟨replies, .ok (some (.udp request r.remainingBody))⟩
    else if r.useVision then
      ⟨replies, .ok (some (.vision (accountId r.decoded) request.user.account.testseed r.remainingBody))⟩
    else ⟨replies, .ok (some (.raw r.remainingBody))⟩

/-- The arguments of the raw TCP relays; `relay_vision` gets no initial data. -/
def Relay.toStream : Relay → StreamRelay
  | .udp request remaining => .udp request remaining
  | .vision userSentId testseed => .vision userSentId testseed []
  | .raw initialData => .raw initialData

def VisionCarrier.serve : VisionCarrier → VlessRequest → StreamOutcome
  | .rawTcp, r => ⟨[.data (serveRequest r).response], (serveRequest r).relay.map (some ∘ Relay.toStream)⟩
  | .webSocket, r => handleVlessOverWs r
  | .tls, r => handleTlsConnection r
  | .anyTls, r => handleAnytlsConnection r
  | .singAnyTls, r => handleSingStreamVless r
  | .shadowTls, r => handleShadowtlsConnection r

/-! ## The Vision relays -/

/-- The uplink of a relay that unpads chunk by chunk: `initial_data` is the
first chunk if there is any. -/
def unpadRelay (userSentId : Uuid) (initialData : Bytes) (reads : List InnerRead) : Bytes :=
  if h : initialData = [] then unpadChunks (.new userSentId) reads
  else unpadChunks (.new userSentId) (⟨initialData, initialData.length, h, Nat.le_refl _⟩ :: reads)

/-- server/handler/websocket.rs:691-796 -/
def relayWsVision : Uuid → Bytes → List InnerRead → Bytes := unpadRelay

/-- TLS and plain AnyTLS sessions share this relay.
server/handler/anytls.rs:793-934 -/
def relayAnytlsVision : Uuid → Bytes → List InnerRead → Bytes := unpadRelay

/-- server/handler/anytls.rs:441-552 -/
def relaySingVision : Uuid → Bytes → List InnerRead → Bytes := unpadRelay

/-- server/handler/shadowtls.rs:788-906 -/
def relayShadowtlsVision : Uuid → Bytes → List InnerRead → Bytes := unpadRelay

/-- What the Vision relay of a carrier has written to the target when the
client's chunks end. -/
def VisionCarrier.visionUplink : VisionCarrier → Uuid → Bytes → List InnerRead → Bytes
  | .rawTcp, userSentId, _, reads => relayVision userSentId reads
  | .webSocket, userSentId, initialData, reads => relayWsVision userSentId initialData reads
  | .tls, userSentId, initialData, reads => relayAnytlsVision userSentId initialData reads
  | .anyTls, userSentId, initialData, reads => relayAnytlsVision userSentId initialData reads
  | .singAnyTls, userSentId, initialData, reads => relaySingVision userSentId initialData reads
  | .shadowTls, userSentId, initialData, reads => relayShadowtlsVision userSentId initialData reads

/-- What the Vision relay of a carrier sends to the client for the blocks it
reads from the target. Raw TCP keeps its writer, the others rebuild it for every
block.
server/handler/relay.rs:540-560 and anytls.rs:820-864 -/
def VisionCarrier.visionDownlink (c : VisionCarrier) (userSentId : Uuid) (testseed : List Nat)
    (blocks : List Write) : Option Bytes :=
  writeAll (.new (.new userSentId) false (relaySeed (testseed.map UInt32.ofNat)))
    (blocks.map (Write.by (decide (c ≠ .rawTcp))))

/-! ## Sessions -/

/-- The uplink of a Vision session: the request, the bytes that came with it,
and the chunks that follow. -/
def VisionCarrier.uplink (c : VisionCarrier) (r : VlessRequest) (reads : List InnerRead) :
    Option Bytes :=
  match (c.serve r).relay with
  | .ok (some (.vision userSentId _ initialData)) => some (c.visionUplink userSentId initialData reads)
  | _ => none

def VisionCarrier.downlink (c : VisionCarrier) (r : VlessRequest) (blocks : List Write) :
    Option Bytes :=
  match (c.serve r).relay with
  | .ok (some (.vision userSentId testseed _)) => c.visionDownlink userSentId testseed blocks
  | _ => none

/-- The id a carrier gives to Vision. -/
def VisionCarrier.visionId : VisionCarrier → DecodedRequest → Uuid
  | .rawTcp, d | .webSocket, d => d.userSentId
  | .tls, d | .anyTls, d | .singAnyTls, d | .shadowTls, d => accountId d

/-- What of the bytes behind the header reaches the Vision relay. -/
def VisionCarrier.initialData : VisionCarrier → Bytes → Bytes
  | .rawTcp, _ => []
  | _, remaining => remaining

/-- **A TCP session with Vision** gets the Vision relay on every carrier; they
differ in the id and in what they do with the bytes behind the header. -/
theorem serve_vision (c : VisionCarrier) {r : VlessRequest} (hc : r.decoded.header.command = .tcp)
    (hv : r.useVision = true) :
    (c.serve r).relay = .ok (some (.vision (c.visionId r.decoded)
      r.decoded.header.user.account.testseed (c.initialData r.remainingBody))) := by
  have hudp : r.decoded.header.command ≠ .udp := by rw [hc]; decide
  have hn : ¬ (r.decoded.header.command = .udp ∧ r.useVision = true) := fun h => hudp h.1
  have hstream : ∀ visionId, (serveStream visionId r).relay = .ok (some (.vision
      (visionId r.decoded) r.decoded.header.user.account.testseed r.remainingBody)) := by
    intro visionId
    simp only [serveStream, validateVlessCommand, if_neg hn, if_neg hudp, if_pos hv]
  cases c with
  | rawTcp =>
    simp only [VisionCarrier.serve, serveRequest_stream hudp, if_pos hv]
    rfl
  | webSocket =>
    have hmux : r.decoded.header.command ≠ .mux := by rw [hc]; decide
    simp only [VisionCarrier.serve, handleVlessOverWs, if_neg hmux]
    exact hstream _
  | tls | anyTls | shadowTls => exact hstream _
  | singAnyTls =>
    simp only [VisionCarrier.serve, handleSingStreamVless, if_neg hn, if_neg hudp, if_pos hv]
    rfl

/-- Every relay but the one of raw TCP unpads chunk by chunk. -/
theorem visionUplink_unpad {c : VisionCarrier} (hc : c ≠ .rawTcp) (id : Uuid) (initialData : Bytes)
    (reads : List InnerRead) : c.visionUplink id initialData reads = unpadRelay id initialData reads := by
  cases c with
  | rawTcp => exact absurd rfl hc
  | _ => rfl

/-- All relays frame the downlink in the same way. -/
theorem visionDownlink_raw (c : VisionCarrier) (id : Uuid) (testseed : List Nat) (blocks : List Write) :
    c.visionDownlink id testseed blocks = VisionCarrier.rawTcp.visionDownlink id testseed blocks :=
  writeAll_rebuilt _ blocks _ (fun h => nomatch h)

end Wrongsv.L2.Vless
