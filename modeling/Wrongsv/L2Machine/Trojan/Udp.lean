import Wrongsv.Core.Framing
import Wrongsv.L1Encoding.Packetaddr
import Wrongsv.L2Machine.Trojan.Request

/-!
# Trojan UDP packets

Behind a UDP associate request both directions carry packets:

  type(1) address port(2) length(2) CRLF payload

`relay_trojan_udp` (handler/trojan_handler.rs:100-208) takes the packets off the front of what
it has received until one is incomplete, and sends each payload to its target. A packet
that is malformed or cannot be sent ends the relay. A part of a written packet is never
taken for a malformed one (`Stable.waits`).

Results: `writeUdpPacket_reads`, `stable_udpPacket`, `send_ok`, `relayTrojanUdp_sent`, `feed_packets`.
-/
namespace Wrongsv.L2.Trojan
open Wrongsv.Parser Framing List
open L1.VlessHeader L1.Packetaddr

/-- A payload and where it goes. -/
structure Datagram where
  address : Address
  port : UInt16
  payload : Bytes
  deriving DecidableEq, Repr

/-- trojan.rs:36-42 -/
structure TrojanUdpPacket extends Datagram where
  consumed : Nat
  deriving DecidableEq, Repr

/-! ## The codec -/

/-- What is behind the address. The port is checked before the line's end, and both
before the payload is there. -/
def udpTail (address : Address) : Parser (Stop TrojanError) Datagram := do
  let head ← readExact .incomplete 6
  if u16At head.val 0 = 0 then throw (.rejected .invalidRequest)
  else if head.val.drop 4 ≠ crlf then throw (.rejected .invalidRequest)
  else
    let payload ← readExact .incomplete (u16At head.val 2)
    return { address, port := UInt16.ofNat (u16At head.val 0), payload := payload.val }

def udpPacket : Parser (Stop TrojanError) Datagram := do
  let addressType ← readU8 .incomplete
  let address ← parseSocks5Address addressType
  udpTail address

/-- server/trojan.rs:218-252 -/
def parseUdpPacket (data : Bytes) : Except TrojanError (Option TrojanUdpPacket) :=
  match udpPacket data with
  | .ok (packet, rest) => .ok (some { packet with consumed := data.length - rest.length })
  | .error .incomplete => .ok none
  | .error (.rejected e) => .error e

/-- server/trojan.rs:318-336 -/
def writeSocks5Address (out : Bytes) : Address → Except TrojanError Bytes
  | .ipv4 octets => .ok (out ++ 0x01 :: octets.val)
  | .domain name =>
    if 255 < (utf8 name).length then .error .invalidRequest
    else .ok (out ++ 0x03 :: UInt8.ofNat (utf8 name).length :: utf8 name)
  | .ipv6 octets => .ok (out ++ 0x04 :: octets.val)

/-- server/trojan.rs:254-269 -/
def writeUdpPacket (out : Bytes) (address : Address) (port : UInt16) (payload : Bytes) :
    Except TrojanError Bytes := do
  if port = 0 ∨ 65535 < payload.length then throw .invalidRequest
  else
    let out ← writeSocks5Address out address
    return out ++ (be16 port.toNat ++ (be16 payload.length ++ (crlf ++ payload)))

/-! ## The relay's uplink -/

/-- The system around the relay's socket: `to_socket_addrs` of a name, the failures of a
`send_to`, and the text of an address. -/
structure Network where
  lookup : String → UInt16 → Except String (List SocketAddr)
  fault : Bytes → SocketAddr → Option String
  display : Address → String

section
variable (net : Network)

/-- A literal address stands for itself. -/
def toSocketAddrs : Address → UInt16 → Except String (List SocketAddr)
  | .ipv4 octets, port => .ok [.v4 octets port]
  | .ipv6 octets, port => .ok [.v6 octets port]
  | .domain name, port => net.lookup name port

/-- `send_to` on a socket that is bound to 0.0.0.0 (trojan_handler.rs:105): it has no IPv6
peers, and an IPv4 datagram holds 65507 bytes at most. -/
def sendTo (payload : Bytes) : SocketAddr → Except String Unit
  | .v6 _ _ => .error "Address family not supported by protocol (os error 97)"
  | .v4 octets port =>
    if 65507 < payload.length then .error "Message too long (os error 90)"
    else
      match net.fault payload (.v4 octets port) with
      | some e => .error e
      | none => .ok ()

/-- The addresses are tried in turn; the last error counts. -/
def sendFirst (payload : Bytes) (unresolved : String) :
    Option String → List SocketAddr → Except String Unit
  | lastError, [] => .error (lastError.getD unresolved)
  | _, addr :: addrs =>
    match sendTo net payload addr with
    | .ok () => .ok ()
    | .error e => sendFirst payload unresolved (some e) addrs

/-- trojan_handler.rs:208-226 -/
def sendTrojanUdpPacketToTarget (d : Datagram) : Except String Unit := do
  let addrs ← toSocketAddrs net d.address d.port
  sendFirst net d.payload ("DNS resolution failed for " ++ net.display d.address ++ ":" ++ toString d.port) none addrs

/-- The payload fits a datagram, and the target has an IPv4 address that takes it. -/
def Network.Reaches (d : Datagram) : Prop :=
  d.payload.length ≤ 65507 ∧ ∃ addrs, toSocketAddrs net d.address d.port = .ok addrs ∧
    ∃ octets port, SocketAddr.v4 octets port ∈ addrs ∧ net.fault d.payload (.v4 octets port) = none

variable {net} in
theorem sendTo_ok {payload : Bytes} {addr : SocketAddr} : sendTo net payload addr = .ok () ↔
    payload.length ≤ 65507 ∧ ∃ octets port, addr = .v4 octets port ∧ net.fault payload addr = none := by
  cases addr with
  | v6 octets port => simp [sendTo]
  | v4 octets port =>
    rw [sendTo]
    by_cases hle : payload.length ≤ 65507
    · rw [if_neg (Nat.not_lt.mpr hle)]
      cases net.fault payload (.v4 octets port) <;> simp [hle]
    · rw [if_pos (Nat.not_le.mp hle)]
      simp [hle]

variable {net} in
theorem sendFirst_ok {payload : Bytes} {unresolved : String} (addrs : List SocketAddr) :
    ∀ {lastError : Option String},
    sendFirst net payload unresolved lastError addrs = .ok () ↔ ∃ addr ∈ addrs, sendTo net payload addr = .ok () := by
  induction addrs with
  | nil => simp [sendFirst]
  | cons addr addrs ih =>
    intro lastError
    rw [sendFirst]
    cases h : sendTo net payload addr with
    | ok u => simp [h]
    | error e => simp [h, ih]

variable {net} in
theorem send_ok {d : Datagram} : sendTrojanUdpPacketToTarget net d = .ok () ↔ net.Reaches d := by
  unfold sendTrojanUdpPacketToTarget Network.Reaches
  cases toSocketAddrs net d.address d.port with
  | error e => simp [bind, Except.bind]
  | ok addrs =>
    show sendFirst _ _ _ _ _ = _ ↔ _
    rw [sendFirst_ok]
    simp only [sendTo_ok]
    constructor
    · rintro ⟨addr, hmem, hle, octets, port, rfl, hf⟩
      exact ⟨hle, addrs, rfl, octets, port, hmem, hf⟩
    · rintro ⟨hle, _, ⟨⟩, octets, port, hmem, hf⟩
      exact ⟨_, hmem, hle, octets, port, rfl, hf⟩

/-- A packet is drained behind its send; an error of the system is boxed as `io`. -/
def nextPacket (b : Bytes) : Except TrojanError (Option (Datagram × Bytes)) :=
  match parseUdpPacket b with
  | .error e => .error e
  | .ok none => .ok none
  | .ok (some packet) =>
    match sendTrojanUdpPacketToTarget net packet.toDatagram with
    | .error e => .error (.io e)
    | .ok () => .ok (some (packet.toDatagram, b.drop packet.consumed))

theorem takes_udpPacket : Takes 1 udpPacket := by
  refine takes_bind (m := 0) (takes_readU8 _) fun addressType => ?_
  refine takes_bind (m := 0) (stable_parseSocks5Address addressType).takes fun address => ?_
  refine takes_bind (k := 0) (m := 0) ((takes_readExact _ 6).mono (by decide)) fun head => ?_
  split
  · exact takes_throw 0 _
  split
  · exact takes_throw 0 _
  · exact takes_bind (k := 0) (m := 0) ((takes_readExact _ _).mono (Nat.zero_le _)) fun _ => takes_pure _

theorem nextPacket_shrinks {b rest : Bytes} {d : Datagram}
    (h : nextPacket net b = .ok (some (d, rest))) : rest.length < b.length := by
  unfold nextPacket parseUdpPacket at h
  cases hp : udpPacket b with
  | error s => cases s <;> grind
  | ok q =>
    have := takes_udpPacket.length hp
    grind

/-- The loop at the head of a turn. -/
def udpDecoder : Decoder TrojanError Datagram := ⟨nextPacket net, nextPacket_shrinks net⟩

theorem mem_drained {b : Bytes} {chunks : List Bytes} {d : Datagram}
    (h : d ∈ ((udpDecoder net).feed b chunks).1) : net.Reaches d := by
  obtain ⟨b, rest, hnext⟩ := (udpDecoder net).mem_feed chunks h
  change nextPacket net b = _ at hnext
  unfold nextPacket at hnext
  split at hnext
  · cases hnext
  · cases hnext
  · split at hnext
    · cases hnext
    · rename_i hsend
      cases hnext
      exact send_ok.mp hsend

/-- The rest of a turn, behind the loop. -/
structure Turn where
  /-- the datagram `recv_from` returns, if it has one that is not empty -/
  received : Except String (Option (Bytes × SocketAddr))
  /-- the way of the reply to the client -/
  replied : Except String Unit
  read : Except String (ReadStep 8192)

/-- What the turn adds to the buffer. A reply that cannot be written ends the relay. -/
def Turn.added (turn : Turn) : Except TrojanError Bytes := do
  match ← turn.received.mapError .io with
  | none => pure ()
  | some (payload, source) =>
    let _response ← writeUdpPacket [] source.destination.1 (UInt16.ofNat source.destination.2) payload
    turn.replied.mapError .io
  return (← turn.read.mapError .io).bytes

/-- The packets sent, and the bytes left in the buffer or the error. The buffer starts
with what was read behind the request; a read that brings nothing is made again.
trojan_handler.rs:100-207 -/
def relayTrojanUdp : Bytes → List Turn → List Datagram × Except TrojanError Bytes
  | tlsBuf, [] => (udpDecoder net).drain tlsBuf
  | tlsBuf, turn :: turns =>
    match (udpDecoder net).drain tlsBuf with
    | (sent, .error e) => (sent, .error e)
    | (sent, .ok rest) =>
      match turn.added with
      | .error e => (sent, .error e)
      | .ok bytes => (sent ++ (relayTrojanUdp (rest ++ bytes) turns).1, (relayTrojanUdp (rest ++ bytes) turns).2)

/-- The chunks that come in before a turn fails. -/
def heard : List Turn → List Bytes
  | [] => []
  | turn :: turns =>
    match turn.added with
    | .error _ => []
    | .ok bytes => bytes :: heard turns

/-- Whatever ends the relay, the packets of what it heard have been taken. -/
theorem relayTrojanUdp_sent (turns : List Turn) : ∀ pending chunk : Bytes,
    (relayTrojanUdp net (pending ++ chunk) turns).1 = ((udpDecoder net).feed pending (chunk :: heard turns)).1 := by
  induction turns with
  | nil =>
    intro pending chunk
    simp only [relayTrojanUdp, heard, Decoder.feed]
    split <;> simp [*]
  | cons turn turns ih =>
    intro pending chunk
    rw [relayTrojanUdp, heard, Decoder.feed]
    rcases (udpDecoder net).drain (pending ++ chunk) with ⟨sent, e | rest⟩
    · rfl
    · cases turn.added with
      | error e => simp [Decoder.feed]
      | ok bytes => exact congrArg (sent ++ ·) (ih rest bytes)

end

/-! ## Round trip -/

theorem stable_udpPacket : Stable udpPacket := by
  refine stable_bind stable_readU8 fun addressType => ?_
  refine stable_bind (stable_parseSocks5Address addressType) fun address => ?_
  refine stable_bind (stable_readExact 6) fun head => stable_ite (stable_throw _) (stable_ite (stable_throw _) ?_)
  exact stable_bind (stable_readExact _) fun _ => stable_pure _

/-- The datagrams the format is for. -/
structure Datagram.Valid (d : Datagram) : Prop where
  domain : ∀ name, d.address = .domain name → 1 ≤ (utf8 name).length ∧ (utf8 name).length ≤ 255
  port : d.port ≠ 0
  payload : d.payload.length ≤ 65535

/-- The packet, as it is written to an empty buffer. -/
def Datagram.bytes (d : Datagram) : Bytes :=
  (writeUdpPacket [] d.address d.port d.payload).toOption.getD []

theorem writeSocks5Address_reads {address : Address}
    (h : ∀ name, address = .domain name → 1 ≤ (utf8 name).length ∧ (utf8 name).length ≤ 255) :
    ∃ addressType rest, (∀ out, writeSocks5Address out address = .ok (out ++ addressType :: rest)) ∧
      Reads (parseSocks5Address addressType) rest address := by
  cases address with
  | ipv4 octets => exact ⟨1, octets.val, fun _ => rfl, fun t => (reads_readExact _ octets).bind_append t⟩
  | ipv6 octets => exact ⟨4, octets.val, fun _ => rfl, fun t => (reads_readExact _ octets).bind_append t⟩
  | domain name =>
    obtain ⟨hpos, hle⟩ := h name rfl
    have hn := toNat_ofNat_of_le hle
    have hzero : UInt8.ofNat (utf8 name).length ≠ 0 := fun h0 => by rw [h0] at hn; exact absurd hn (by simp; omega)
    refine ⟨3, _, fun out => if_neg (Nat.not_lt.mpr hle), ?_⟩
    refine (reads_readU8 _ (UInt8.ofNat (utf8 name).length)).bind ?_
    rw [if_neg hzero]
    intro t
    refine ((reads_readExact _ ⟨utf8 name, hn.symm⟩).bind_append t).trans ?_
    simp only [fromUTF8_utf8]
    rfl

variable {d : Datagram}

theorem reads_udpTail (hport : d.port ≠ 0) (hlen : d.payload.length ≤ 65535) :
    Reads (udpTail d.address) (be16 d.port.toNat ++ (be16 d.payload.length ++ (crlf ++ d.payload))) d := by
  intro t
  have hhead : be16 d.port.toNat ++ (be16 d.payload.length ++ (crlf ++ d.payload)) ++ t =
      (be16 d.port.toNat ++ (be16 d.payload.length ++ crlf)) ++ (d.payload ++ t) := by simp
  have hp : u16At (be16 d.port.toNat ++ (be16 d.payload.length ++ crlf)) 0 = d.port.toNat :=
    u16At_append [] d.port.toNat_lt _
  have hl : u16At (be16 d.port.toNat ++ (be16 d.payload.length ++ crlf)) 2 = d.payload.length :=
    u16At_append (be16 d.port.toNat) (by omega) crlf
  have hne : d.port.toNat ≠ 0 := fun h => hport (UInt16.toNat_inj.mp h)
  refine ((reads_readExact _ ⟨be16 d.port.toNat ++ (be16 d.payload.length ++ crlf),
    rfl⟩).bind_append (d.payload ++ t)).trans ?_
  rw [if_neg (by rw [hp]; exact hne), if_neg (by simp [be16])]
  refine ((reads_readExact _ ⟨d.payload, hl.symm⟩).bind_append t).trans ?_
  rw [hp, UInt16.ofNat_toNat]
  rfl

theorem writeUdpPacket_reads (h : d.Valid) :
    (∀ out, writeUdpPacket out d.address d.port d.payload = .ok (out ++ d.bytes)) ∧ Reads udpPacket d.bytes d := by
  obtain ⟨addressType, rest, hwrite, haddr⟩ := writeSocks5Address_reads h.domain
  have hok : ¬ (d.port = 0 ∨ 65535 < d.payload.length) := fun hor => hor.elim h.port (Nat.not_lt.mpr h.payload)
  have hout : ∀ out, writeUdpPacket out d.address d.port d.payload = .ok (out ++ ([addressType] ++
      (rest ++ (be16 d.port.toNat ++ (be16 d.payload.length ++ (crlf ++ d.payload)))))) := by
    intro out
    unfold writeUdpPacket
    rw [if_neg hok, hwrite]
    simp [bind, Except.bind, pure, Except.pure]
  have hbytes : d.bytes = [addressType] ++ (rest ++
      (be16 d.port.toNat ++ (be16 d.payload.length ++ (crlf ++ d.payload)))) := by
    unfold Datagram.bytes
    rw [hout]
    rfl
  rw [hbytes]
  exact ⟨hout, (reads_readU8 _ addressType).bind (haddr.bind (reads_udpTail h.port h.payload))⟩

theorem parseUdpPacket_written (h : d.Valid) (t : Bytes) :
    parseUdpPacket (d.bytes ++ t) = .ok (some { d with consumed := d.bytes.length }) := by
  unfold parseUdpPacket
  rw [(writeUdpPacket_reads h).2 t]
  simp

theorem parseUdpPacket_part (h : d.Valid) {k : Nat} (hk : k < d.bytes.length) :
    parseUdpPacket (d.bytes.take k) = .ok none := by
  unfold parseUdpPacket
  rw [stable_udpPacket.waits (writeUdpPacket_reads h).2 hk]

/-- A written packet, for a target that can be reached. -/
def Datagram.frame {net : Network} (d : Datagram) (h : d.Valid ∧ net.Reaches d) :
    Frame (udpDecoder net) where
  bytes := d.bytes
  value := d
  whole t := by
    show nextPacket net _ = _
    unfold nextPacket
    rw [parseUdpPacket_written h.1]
    simp only [send_ok.mpr h.2, drop_left]
  part hk := by
    show nextPacket net _ = _
    unfold nextPacket
    rw [parseUdpPacket_part h.1 hk]

/-- From any cut of a stream of packets whose targets can be reached the relay takes them all. -/
theorem feed_packets {net : Network} {packets : List Datagram} (hpackets : ∀ d ∈ packets, d.Valid ∧ net.Reaches d)
    {chunks : List Bytes} (hstream : chunks.flatten = packets.flatMap Datagram.bytes) :
    (udpDecoder net).feed [] chunks = (packets, .ok []) := by
  have hframes : packets.flatMap Datagram.bytes =
      Frame.stream (packets.attach.map fun d => d.1.frame (hpackets d.1 d.2)) := by
    rw [Frame.stream, flatMap_map, flatMap_def, flatMap_def]
    exact congrArg List.flatten List.attach_map_val.symm
  have hchunks : [] ++ (chunks.flatten ++ []) =
      Frame.stream (packets.attach.map fun d => d.1.frame (hpackets d.1 d.2)) ++ [] := by
    rw [← hframes, ← hstream]
    simp
  obtain ⟨done, left, rest, hsplit, hfeed, hrest, hnone⟩ :=
    Frame.feed_stream (Frame.waits_nil (d := udpDecoder net) rfl) _ (show _ = _ from rfl) hchunks
  rw [append_nil] at hrest
  obtain ⟨rfl, rfl⟩ := Frame.left_nil hrest hnone
  rw [append_nil] at hsplit
  have hvalues : done.map Frame.value = packets := by
    rw [← hsplit, map_map]
    exact attach_map_subtype_val packets
  rw [hfeed, hvalues]

end Wrongsv.L2.Trojan
