import Wrongsv.L1Encoding.LengthPacket
import Wrongsv.L1Encoding.VlessHeader

/-!
# Packet addresses

A UDP association with the magic destination `sp.packet-addr.v2fly.arpa`
carries the peer of every datagram in front of it
(server/handler/relay.rs:25-85):

  type(1) address(4 or 16) port(2) payload
-/
namespace Wrongsv.L1.Packetaddr
open L1.VlessHeader List

/-- The peer of a datagram. -/
inductive SocketAddr where
  | v4 (octets : { b : Bytes // b.length = 4 }) (port : UInt16)
  | v6 (octets : { b : Bytes // b.length = 16 }) (port : UInt16)
  deriving DecidableEq, Repr

def SocketAddr.destination : SocketAddr → Address × Nat
  | .v4 octets port => (.ipv4 octets, port.toNat)
  | .v6 octets port => (.ipv6 octets, port.toNat)

/-- relay.rs:25-47 -/
def encodePacketaddrPayload (address : Address) (port : Nat) (payload : Bytes) :
    Except String Bytes :=
  match address with
  | .ipv4 raw => .ok (0x01 :: raw.val ++ be16 port ++ payload)
  | .ipv6 raw => .ok (0x02 :: raw.val ++ be16 port ++ payload)
  | .domain _ => .error "packetaddr does not support domain addresses"

/-- What follows the type byte: an address of `n` bytes, the port, the payload. -/
def decodeBody (n : Nat) (short : String) (address : { b : Bytes // b.length = n } → Address)
    (rest : Bytes) : Except String (Address × Nat × Bytes) :=
  if h : rest.length < n + 2 then .error short
  else .ok (address ⟨rest.take n, length_take_octets h⟩,
    u16 (rest.getD n 0) (rest.getD (n + 1) 0), rest.drop (n + 2))

/-- relay.rs:49-85 -/
def decodePacketaddrPayload : Bytes → Except String (Address × Nat × Bytes)
  | [] => .error "empty packetaddr packet"
  | addrType :: rest =>
    if addrType = 0x01 then decodeBody 4 "short packetaddr IPv4 packet" .ipv4 rest
    else if addrType = 0x02 then decodeBody 16 "short packetaddr IPv6 packet" .ipv6 rest
    else .error ("unsupported packetaddr address type: 0x" ++
      String.ofList [Nat.digitChar (addrType.toNat / 16), Nat.digitChar (addrType.toNat % 16)])

/-! ## One packet -/

/-- The packet of a datagram, which never has a domain as its peer. -/
def SocketAddr.packet : SocketAddr → Bytes → Bytes
  | .v4 octets port, payload => 0x01 :: octets.val ++ be16 port.toNat ++ payload
  | .v6 octets port, payload => 0x02 :: octets.val ++ be16 port.toNat ++ payload

/-- The bytes in front of the payload. -/
def SocketAddr.overhead : SocketAddr → Nat
  | .v4 _ _ => 7
  | .v6 _ _ => 19

variable (source : SocketAddr)

theorem overhead_le : source.overhead ≤ 19 := by
  cases source <;> simp [SocketAddr.overhead]

variable (payload : Bytes)

theorem encode_eq_packet :
    encodePacketaddrPayload source.destination.1 source.destination.2 payload = .ok (source.packet payload) := by
  cases source <;> rfl

theorem packet_length :
    (source.packet payload).length = source.overhead + payload.length := by
  cases source with
  | v4 octets port | v6 octets port =>
    simp [SocketAddr.packet, SocketAddr.overhead, octets.property]
    omega

theorem decodeBody_append {n : Nat} (short : String) (address : { b : Bytes // b.length = n } → Address)
    (octets : { b : Bytes // b.length = n }) (port : UInt16) (payload : Bytes) :
    decodeBody n short address (octets.val ++ be16 port.toNat ++ payload) =
      .ok (address octets, port.toNat, payload) := by
  have hlen := octets.property
  have hn : ¬ (octets.val ++ be16 port.toNat ++ payload).length < n + 2 := by
    rw [length_append, length_append, be16_length]
    omega
  have htake : (octets.val ++ be16 port.toNat ++ payload).take n = octets.val := by
    rw [append_assoc, take_left' hlen]
  have hdrop : (octets.val ++ be16 port.toNat ++ payload).drop (n + 2) = payload :=
    drop_left' (by rw [length_append, be16_length, hlen])
  have hport := u16At_append octets.val port.toNat_lt payload
  rw [← append_assoc, hlen, u16At] at hport
  unfold decodeBody
  simp only [dif_neg hn, htake, hdrop, hport]

theorem decode_packet : decodePacketaddrPayload (source.packet payload) =
      .ok (source.destination.1, source.destination.2, payload) := by
  cases source with
  | v4 octets port => exact decodeBody_append _ .ipv4 octets port payload
  | v6 octets port => exact decodeBody_append _ .ipv6 octets port payload

theorem decode_packet_short {n : Nat} (h : n < source.overhead) :
    ∃ e, decodePacketaddrPayload ((source.packet payload).take n) = .error e := by
  cases n with
  | zero => exact ⟨_, rfl⟩
  | succ n =>
    cases source with
    | v4 octets port | v6 octets port =>
      refine ⟨_, dif_pos ?_⟩
      simp only [SocketAddr.overhead] at h
      rw [length_take]
      omega

end Wrongsv.L1.Packetaddr
