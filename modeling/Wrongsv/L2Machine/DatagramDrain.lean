import Wrongsv.Core.Framing
import Wrongsv.L1Encoding.Packetaddr

/-!
# Datagrams out of a pending buffer

The uplink of a UDP association collects the client's bytes in a buffer and sends
the datagrams that are complete in it: `drain_packetaddr_packets`
(server/handler/relay.rs:117-144), where every packet names its peer,
and `drain_ws_udp_packets` (handler/websocket.rs:31-55), where all go to one peer.
The two loops differ in what they do with a packet.

A packet that cannot be decoded or sent ends the call, and the buffer is left as it
was, with the packets that were sent before.

Results, beside `deframing_exact`:
* `drainPackets_deframes`: if every packet can be sent, then however the stream was
  cut into chunks, the datagrams of the complete packets are sent, in order, and
  the buffer holds what is behind them.
-/
namespace Wrongsv.L2.DatagramDrain
open Framing L1.LengthPacket L1.Packetaddr L1.VlessHeader List

variable {δ : Type}

/-! ## The loop -/

/-- A call: the datagrams it sent, what it returned, and the buffer behind it. -/
structure Drained (δ : Type) where
  sent : List δ
  result : Except String Bool
  input : Bytes

/-- One pass at the front of `input[pos..]`: the packet there, if it is complete. -/
def nextPacket (process : Bytes → Except String δ) : Bytes → Except String (Option (δ × Bytes))
  | hi :: lo :: rest =>
    if rest.length < u16 hi lo then .ok none
    else
      match process (rest.take (u16 hi lo)) with
      | .error e => .error e
      | .ok datagram => .ok (some (datagram, rest.drop (u16 hi lo)))
  | _ => .ok none

theorem nextPacket_shrinks {process : Bytes → Except String δ} {b rest : Bytes} {datagram : δ}
    (h : nextPacket process b = .ok (some (datagram, rest))) : rest.length < b.length := by
  unfold nextPacket at h
  grind

def packets (process : Bytes → Except String δ) : Decoder String δ :=
  ⟨nextPacket process, nextPacket_shrinks⟩

/-- The loop with `process` for every packet; `?` leaves it before the buffer is
drained.
relay.rs:122-143 and handler/websocket.rs:35-54 -/
def drainPackets (process : Bytes → Except String δ) (input : Bytes) : Drained δ :=
  match (packets process).drain input with
  | (sent, .error e) => ⟨sent, .error e, input⟩
  | (sent, .ok rest) => ⟨sent, .ok (!sent.isEmpty), rest⟩

/-- What a socket answers to `send_to`. -/
abbrev SendTo := SocketAddr → Bytes → Except String Unit

structure PacketaddrSockets where
  ipv4 : SendTo
  ipv6 : Option SendTo

/-- relay.rs:93-115; the datagram that was sent -/
def sendPacketaddrDatagram (sockets : PacketaddrSockets) (address : Address) (port : Nat)
    (payload : Bytes) : Except String (SocketAddr × Bytes) :=
  match address with
  | .ipv4 raw => do
    let target := SocketAddr.v4 raw (UInt16.ofNat port)
    sockets.ipv4 target payload
    return (target, payload)
  | .ipv6 raw =>
    match sockets.ipv6 with
    | none => .error "IPv6 packetaddr socket is unavailable"
    | some socket => do
      let target := SocketAddr.v6 raw (UInt16.ofNat port)
      socket target payload
      return (target, payload)
  | .domain _ => .error "packetaddr does not support domain addresses"

def forwardPacketaddr (sockets : PacketaddrSockets) (packet : Bytes) :
    Except String (SocketAddr × Bytes) := do
  let (address, port, payload) ← decodePacketaddrPayload packet
  sendPacketaddrDatagram sockets address port payload

/-- relay.rs:117-144 -/
def drainPacketaddrPackets (sockets : PacketaddrSockets) (input : Bytes) :
    Drained (SocketAddr × Bytes) :=
  drainPackets (forwardPacketaddr sockets) input

def forwardConnected (send : Bytes → Except String Unit) (payload : Bytes) :
    Except String Bytes := do
  send payload
  return payload

/-- websocket.rs:31-55; the socket is connected -/
def drainWsUdpPackets (send : Bytes → Except String Unit) (input : Bytes) : Drained Bytes :=
  drainPackets (forwardConnected send) input

/-- The relay appends every chunk to the buffer and drains it, up to an error. -/
def drainChunks (drain : Bytes → Drained δ) : Bytes → List Bytes → List δ × Except String Bytes
  | pending, [] => ([], .ok pending)
  | pending, chunk :: chunks =>
    let drained := drain (pending ++ chunk)
    match drained.result with
    | .error e => (drained.sent, .error e)
    | .ok _ => (drained.sent ++ (drainChunks drain drained.input chunks).1, (drainChunks drain drained.input chunks).2)

/-! ## Packets as frames -/

theorem drainChunks_eq_feed (process : Bytes → Except String δ) (chunks : List Bytes) :
    ∀ pending : Bytes,
    drainChunks (drainPackets process) pending chunks = (packets process).feed pending chunks := by
  induction chunks with
  | nil => intro pending; rfl
  | cons chunk chunks ih =>
    intro pending
    rw [drainChunks, Decoder.feed, drainPackets]
    grind

/-- A packet that can be processed, behind its length. -/
def packetFrame {process : Bytes → Except String δ} {body : Bytes} {datagram : δ}
    (hsize : body.length ≤ maxPacketSize) (hprocess : process body = .ok datagram) : Frame (packets process) where
  bytes := writePacket body
  value := datagram
  whole t := by
    have hlen : u16 (UInt8.ofNat (body.length / 256)) (UInt8.ofNat body.length) = body.length :=
      u16_be16 _ (Nat.lt_succ_of_le hsize)
    show nextPacket process (UInt8.ofNat (body.length / 256) :: UInt8.ofNat body.length :: (body ++ t)) = _
    have hwhole : ¬ (body ++ t).length < body.length := by
      rw [length_append]
      omega
    rw [nextPacket, hlen, if_neg hwhole, take_left, drop_left, hprocess]
  part {k} hk := by
    show nextPacket process ((UInt8.ofNat (body.length / 256) :: UInt8.ofNat body.length :: body).take k) = _
    match k with
    | 0 | 1 => rfl
    | k + 2 =>
      have hlen : u16 (UInt8.ofNat (body.length / 256)) (UInt8.ofNat body.length) = body.length :=
        u16_be16 _ (Nat.lt_succ_of_le hsize)
      have hshort : (body.take k).length < body.length := by
        rw [writePacket, length_append, be16_length] at hk
        rw [length_take]
        omega
      rw [take_succ_cons, take_succ_cons, nextPacket, hlen, if_pos hshort]

/-! ## Any chunks -/

/-- However the packets with these bodies are cut, and after every chunk: the
datagrams of the packets that are complete have been sent, in order and once, and
the buffer holds the bytes behind them, less than a packet. -/
def Deframes {π : Type} (drain : Bytes → Drained δ) (body : π → Bytes) (datagram : π → δ) (ps : List π) : Prop :=
  ∀ (chunks : List Bytes) (later : Bytes), chunks.flatten ++ later = writePackets (ps.map body) →
    ∃ done left pending, ps = done ++ left ∧
      drainChunks drain [] chunks = (done.map datagram, .ok pending) ∧
      pending ++ later = writePackets (left.map body) ∧
      ∀ p ∈ left.head?, pending.length < (writePacket (body p)).length

theorem drainPackets_deframes {π : Type} {process : Bytes → Except String δ} {body : π → Bytes}
    {datagram : π → δ} {ps : List π} (hsize : ∀ p ∈ ps, (body p).length ≤ maxPacketSize)
    (hprocess : ∀ p ∈ ps, process (body p) = .ok (datagram p)) :
    Deframes (drainPackets process) body datagram ps := by
  intro chunks later hchunks
  let frame : { p // p ∈ ps } → Frame (packets process) := fun p =>
    packetFrame (hsize p.1 p.2) (hprocess p.1 p.2)
  have hstream : ∀ l : List { p // p ∈ ps }, Frame.stream (l.map frame) = writePackets ((l.map (·.1)).map body) := by
    intro l
    simp only [Frame.stream, writePackets, flatMap_map]
    rfl
  have hvalues : ∀ l : List { p // p ∈ ps }, (l.map frame).map Frame.value = (l.map (·.1)).map datagram := by
    intro l
    simp only [map_map]
    rfl
  have hall : Frame.stream (ps.attach.map frame) = writePackets (ps.map body) := by
    rw [hstream, attach_map_subtype_val]
  have hbytes : [] ++ (chunks.flatten ++ later) = Frame.stream (ps.attach.map frame) ++ [] := by
    grind
  obtain ⟨done, left, pending, hsplit, hfeed, hrest, hnone⟩ :=
    Frame.feed_stream (Frame.waits_nil rfl) chunks rfl hbytes
  -- the frames are the packets, so they split in the same way
  obtain ⟨done, left, hattach, rfl, rfl⟩ := List.map_eq_append_iff.mp hsplit
  refine ⟨done.map (·.1), left.map (·.1), pending, ?_, ?_, ?_, ?_⟩
  · rw [← map_append, ← hattach, attach_map_subtype_val]
  · rw [drainChunks_eq_feed, hfeed, hvalues]
  · rw [hrest, append_nil, hstream]
  · intro p hp
    cases left with
    | nil => cases hp
    | cons first left =>
      cases hp
      exact Frame.length_lt_of_waiting hrest hnone

/-! ## The two loops -/

/-- A packet that `encode_packetaddr_payload` makes and that fits its length field. -/
structure AddressedPacket where
  peer : SocketAddr
  payload : Bytes
  body : Bytes
  encoded : encodePacketaddrPayload peer.destination.1 peer.destination.2 payload = .ok body
  fits : body.length ≤ maxPacketSize

theorem AddressedPacket.decode_body (p : AddressedPacket) : decodePacketaddrPayload p.body =
    .ok (p.peer.destination.1, p.peer.destination.2, p.payload) := by
  have hbody : p.peer.packet p.payload = p.body :=
    Except.ok.inj ((encode_eq_packet p.peer p.payload).symm.trans p.encoded)
  rw [← hbody]
  exact decode_packet p.peer p.payload

/-- The send that the packet asks for succeeds. -/
def PacketaddrSockets.Sends (sockets : PacketaddrSockets) (p : AddressedPacket) : Prop :=
  match p.peer with
  | .v4 _ _ => sockets.ipv4 p.peer p.payload = .ok ()
  | .v6 _ _ => ∃ socket, sockets.ipv6 = some socket ∧ socket p.peer p.payload = .ok ()

theorem forwardPacketaddr_body {sockets : PacketaddrSockets} {p : AddressedPacket}
    (h : sockets.Sends p) : forwardPacketaddr sockets p.body = .ok (p.peer, p.payload) := by
  rw [forwardPacketaddr, p.decode_body]
  unfold PacketaddrSockets.Sends at h
  split at h
  · rename_i octets port hpeer
    rw [hpeer] at h ⊢
    show sendPacketaddrDatagram sockets (.ipv4 octets) port.toNat p.payload = _
    simp only [sendPacketaddrDatagram, UInt16.ofNat_toNat, h]
    rfl
  · rename_i octets port hpeer
    obtain ⟨socket, hsocket, h⟩ := h
    rw [hpeer] at h ⊢
    show sendPacketaddrDatagram sockets (.ipv6 octets) port.toNat p.payload = _
    simp only [sendPacketaddrDatagram, UInt16.ofNat_toNat, hsocket, h]
    rfl

/-- **Deframing does not depend on the chunks.** For both loops, every list of
packets and all sends that succeed; and every address, port and payload that can be
put in a packet is decoded as it was. -/
theorem deframing_exact :
    (∀ (sockets : PacketaddrSockets) (ps : List AddressedPacket), (∀ p ∈ ps, sockets.Sends p) →
      Deframes (drainPacketaddrPackets sockets) AddressedPacket.body (fun p => (p.peer, p.payload)) ps) ∧
    (∀ (send : Bytes → Except String Unit) (ps : List Bytes), (∀ p ∈ ps, p.length ≤ maxPacketSize) →
      (∀ p ∈ ps, send p = .ok ()) → Deframes (drainWsUdpPackets send) id id ps) ∧
    ∀ (address : Address) (port : UInt16) (payload : Bytes), (∀ domain, address ≠ .domain domain) →
      (encodePacketaddrPayload address port.toNat payload).bind decodePacketaddrPayload =
        .ok (address, port.toNat, payload) := by
  refine ⟨fun _ _ h => ?_, fun _ _ hsize h => drainPackets_deframes hsize fun p hp => ?_, ?_⟩
  · exact drainPackets_deframes (fun p _ => p.fits) fun p hp => forwardPacketaddr_body (h p hp)
  · rw [id, forwardConnected, h p hp]
    rfl
  intro address port payload hdomain
  cases address with
  | ipv4 raw => exact decode_packet (.v4 raw port) payload
  | ipv6 raw => exact decode_packet (.v6 raw port) payload
  | domain domain => exact absurd rfl (hdomain domain)

/-- A packet to an IPv4 and one to an IPv6 peer, through sockets that take every datagram. -/
theorem deframing_exact_two_peers : ∃ (sockets : PacketaddrSockets) (ps : List AddressedPacket),
    ps.map AddressedPacket.payload = [[7], [8, 9]] ∧ (∀ p ∈ ps, sockets.Sends p) ∧
      Deframes (drainPacketaddrPackets sockets) AddressedPacket.body (fun p => (p.peer, p.payload)) ps :=
  let sockets : PacketaddrSockets := ⟨fun _ _ => .ok (), some fun _ _ => .ok ()⟩
  let first : AddressedPacket := ⟨.v4 (constBytes 4 127) 53, [7], _, encode_eq_packet _ _, by decide⟩
  let second : AddressedPacket := ⟨.v6 (constBytes 16 0) 53, [8, 9], _, encode_eq_packet _ _, by decide⟩
  have hsends : ∀ p ∈ [first, second], sockets.Sends p := by
    intro p hp
    rcases mem_pair.mp hp with rfl | rfl
    · exact rfl
    · exact ⟨_, rfl, rfl⟩
  ⟨sockets, [first, second], rfl, hsends, deframing_exact.1 sockets _ hsends⟩

end Wrongsv.L2.DatagramDrain
