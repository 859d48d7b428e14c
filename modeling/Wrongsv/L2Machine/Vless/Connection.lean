import Wrongsv.L1Encoding.VlessHeader
import Wrongsv.L2Machine.Vision.Reader

/-!
# A VLESS connection

`server/handler/vless.rs` and the raw HTTPUpgrade handler: take the
first chunk of the client's stream, decode the request from it, answer, and
hand the rest of the session to one of three relays. The two handlers differ
in how they get the first chunk.

The client's stream is the list of the reads on its socket (`InnerRead`), EOF
behind the last one. Connecting to the target is not modelled; an outcome with
a relay is one whose target was reached.

Results, beside `decodeVlessRequest_cut`:
* `serveRequest_relay`: a decoded request is never turned away with an error
  of the decoder.
-/
namespace Wrongsv.L2.Vless
open L1.VisionFrame L1.VlessHeader L2.Vision

/-- The `Box<dyn Error>` of the handlers: a text, or the decoder's error. -/
inductive ServeError where
  | text (message : String)
  | decode (e : DecodeError)
  deriving DecidableEq, Repr

def tooShort : ServeError := .text "connection too short for VLESS header"
def visionUdp : ServeError := .text "XTLS Vision does not support UDP"
def udpDisabled : ServeError := .text "UDP not enabled for this user"
def upgradeClosed : ServeError := .text "HTTPUpgrade closed before VLESS header"

/-- `XRV` -/
def xrv : String := "xtls-rprx-vision"

structure VlessRequest where
  decoded : DecodedRequest
  remainingBody : Bytes
  useVision : Bool
  deriving DecidableEq, Repr

/-- Vision is used when the client asks for it and the account has it. -/
def usesVision (d : DecodedRequest) : Bool :=
  d.addons.flow == xrv && d.header.user.account.flow == xrv

/-- vless.rs:19-47 -/
def decodeVlessRequest (reg : Registry) (first : Bytes) : Except ServeError VlessRequest :=
  if first.length < 18 then .error tooShort
  else match decodeRequestHeader reg first with
    | .error e => .error (.decode e)
    | .ok (decoded, remainingBody) => .ok ⟨decoded, remainingBody, usesVision decoded⟩

/-- vless.rs:65-73 -/
def validateVlessCommand (request : RequestHeader) (useVision : Bool) : Except ServeError Unit :=
  if request.command = .udp ∧ useVision = true then .error visionUdp else .ok ()

/-- The version and an empty addons block.
vless.rs:75-82 -/
def responseHeaderBuf (request : RequestHeader) : Bytes := [request.version, 0x00]

/-- The relay a session is handed to, with the arguments it gets besides the
two sockets. -/
inductive Relay where
  | udp (request : RequestHeader) (remaining : Bytes)
  | vision (userSentId : Uuid) (testseed : List Nat)
  | raw (initialData : Bytes)
  deriving DecidableEq, Repr

/-- What a handler does up to the relay: the bytes it writes to the client,
and the relay, or the error it drops the connection with. -/
structure Outcome where
  response : Bytes
  relay : Except ServeError Relay

/-- Both handlers behind `decode_vless_request`.
vless.rs:105-160 and httpupgrade.rs:381-418 -/
def serveRequest (r : VlessRequest) : Outcome :=
  let request := r.decoded.header
  match validateVlessCommand request r.useVision with
  | .error e => ⟨[], .error e⟩
  | .ok () =>
    let response := responseHeaderBuf request
    if request.command = .udp then
      if request.user.account.udp = false then ⟨response, .error udpDisabled⟩
      else ⟨response, .ok (.udp request r.remainingBody)⟩
    else if r.useVision then
      -- `remaining_body` is not among the arguments of `relay_vision`
      ⟨response, .ok (.vision r.decoded.userSentId request.user.account.testseed)⟩
    else ⟨response, .ok (.raw r.remainingBody)⟩

def serveFirst (reg : Registry) (first : Bytes) : Outcome :=
  match decodeVlessRequest reg first with
  | .error e => ⟨[], .error e⟩
  | .ok r => serveRequest r

/-- The one `stream.read` of `handle_connection`, and the reads that are left. -/
def firstRead : List InnerRead → Bytes × List InnerRead
  | [] => ([], [])
  | x :: xs => (x.bytes, xs)

/-- The outcome, and the reads left to the relay.
vless.rs:84-161 -/
def handleConnection (reg : Registry) (reads : List InnerRead) : Outcome × List InnerRead :=
  (serveFirst reg (firstRead reads).1, (firstRead reads).2)

/-- The first chunk behind an HTTP upgrade, of which `initialData` came with
the upgrade request.
server/handler/httpupgrade.rs:348-366 -/
def readFirstVlessChunk (initialData : Bytes) (reads : List InnerRead) :
    Except ServeError (Bytes × List InnerRead) :=
  if initialData = [] ∨ initialData.length < 18 then
    match reads with
    | [] => if initialData = [] then .error upgradeClosed else .ok (initialData, [])
    | x :: xs => .ok (initialData ++ x.bytes, xs)
  else .ok (initialData, reads)

/-- server/handler/httpupgrade.rs:368-419 -/
def handleVlessOverHttpupgradeRaw (reg : Registry) (initialData : Bytes) (reads : List InnerRead) :
    Outcome × List InnerRead :=
  match readFirstVlessChunk initialData reads with
  | .error e => (⟨[], .error e⟩, [])
  | .ok (first, rest) => (serveFirst reg first, rest)

/-! ## The uplink of the TCP relays -/

/-- server/handler/relay.rs:342-361,389-400 -/
def relayRawWithInitial (initialData : Bytes) (reads : List InnerRead) : Bytes :=
  initialData ++ delivered reads

/-- server/handler/relay.rs:493-567 -/
def relayVision (userSentId : Uuid) (reads : List InnerRead) : Bytes :=
  readToEnd (.new (.new userSentId) true) reads

/-- The bytes a relay writes to the target when the client's reads end; the
UDP relay has no byte stream to a target. -/
def Relay.uplink : Relay → List InnerRead → Option Bytes
  | .udp _ _, _ => none
  | .vision userSentId _, reads => some (relayVision userSentId reads)
  | .raw initialData, reads => some (relayRawWithInitial initialData reads)

/-! ## The first part of a stream -/

theorem serveRequest_stream {r : VlessRequest} (h : r.decoded.header.command ≠ .udp) :
    (serveRequest r).relay = .ok (if r.useVision then
      .vision r.decoded.userSentId r.decoded.header.user.account.testseed else .raw r.remainingBody) := by
  have hn : ¬ (r.decoded.header.command = .udp ∧ r.useVision = true) := fun hh => h hh.1
  simp only [serveRequest, validateVlessCommand, if_neg hn, if_neg h]
  split <;> rfl

/-- The errors a request that was decoded does not end with. -/
def ServeError.OfDecoder (e : ServeError) : Prop := e = tooShort ∨ ∃ d, e = .decode d

theorem serveRequest_relay (r : VlessRequest) {e : ServeError}
    (h : (serveRequest r).relay = .error e) : ¬ e.OfDecoder := by
  have htext : ∀ message, ServeError.text message ≠ tooShort → ¬ (ServeError.text message).OfDecoder := by
    rintro message hne (h | ⟨d, h⟩)
    · exact hne h
    · cases h
  by_cases hc : r.decoded.header.command = .udp
  · by_cases hu : r.useVision = true
    · simp only [serveRequest, validateVlessCommand, if_pos (And.intro hc hu)] at h
      cases h
      exact htext _ (by decide)
    · have hn : ¬ (r.decoded.header.command = .udp ∧ r.useVision = true) := fun hh => hu hh.2
      simp only [serveRequest, validateVlessCommand, if_neg hn, if_pos hc] at h
      split at h
      · cases h
        exact htext _ (by decide)
      · cases h
  · rw [serveRequest_stream hc] at h
    cases h

theorem decodeVlessRequest_ok {reg : Registry} {first remaining : Bytes} {decoded : DecodedRequest}
    (h : decodeRequestHeader reg first = .ok (decoded, remaining)) :
    decodeVlessRequest reg first = .ok ⟨decoded, remaining, usesVision decoded⟩ := by
  have hlen := (takes_decodeRequestHeader reg).length h
  unfold decodeVlessRequest
  rw [if_neg (by omega), h]

/-- **The first part of a stream.** Either it has the whole header, and the
request is decoded as from the whole stream; or the decoder turns it away. -/
theorem decodeVlessRequest_cut {reg : Registry} {first later body : Bytes} {decoded : DecodedRequest}
    (h : decodeRequestHeader reg (first ++ later) = .ok (decoded, body)) :
    (later.length ≤ body.length ∧ ∃ remaining, body = remaining ++ later ∧
        decodeVlessRequest reg first = .ok ⟨decoded, remaining, usesVision decoded⟩) ∨
      (body.length < later.length ∧ ∃ e, e.OfDecoder ∧ decodeVlessRequest reg first = .error e) := by
  rcases (takes_decodeRequestHeader reg).cut h with ⟨hle, r', hr, hb⟩ | ⟨hlt, e, he⟩
  · exact .inl ⟨hle, r', hb, decodeVlessRequest_ok hr⟩
  · refine .inr ⟨hlt, ?_⟩
    unfold decodeVlessRequest
    split
    · exact ⟨tooShort, .inl rfl, rfl⟩
    · rw [he]
      exact ⟨.decode e, .inr ⟨e, rfl⟩, rfl⟩

theorem delivered_firstRead (reads : List InnerRead) :
    (firstRead reads).1 ++ delivered (firstRead reads).2 = delivered reads := by
  cases reads <;> rfl

end Wrongsv.L2.Vless
