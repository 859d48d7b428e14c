import Wrongsv.L2Machine.Trojan.Udp

/-!
# A Trojan packet to an IPv6 target ends the association

The codec has a form for IPv6 targets, but `relay_trojan_udp` sends on one socket that is
bound to 0.0.0.0 (trojan_handler.rs:105). The send to such a target fails, and `?` leaves
the loop in front of the drain (:119-124): the packet and all behind it are lost. A payload
of more than 65507 bytes, which the length field has room for, does the same.
-/
namespace Wrongsv.Bugs.TrojanUdpIpv6
open Wrongsv.L2.Trojan L1.VlessHeader L1.Packetaddr Framing List

/-- **When the packets arrive.** A packet that `write_udp_packet` puts behind anything is
read back in front of anything, with its length; of a part of it `parse_udp_packet` says
that it is incomplete. From a stream of written packets, however it is cut, the relay
sends them all, in order, exactly if every target can be reached on the IPv4 socket. -/
theorem packets_recovered_iff (net : Network) {packets : List Datagram}
    (hvalid : ∀ d ∈ packets, d.Valid) {initialData : Bytes} {turns : List Turn}
    (hstream : initialData ++ (heard turns).flatten = packets.flatMap Datagram.bytes) :
    (∀ d ∈ packets,
      (∀ out, writeUdpPacket out d.address d.port d.payload = .ok (out ++ d.bytes)) ∧
      (∀ t, parseUdpPacket (d.bytes ++ t) = .ok (some { d with consumed := d.bytes.length })) ∧
      (∀ k < d.bytes.length, parseUdpPacket (d.bytes.take k) = .ok none)) ∧
    ((relayTrojanUdp net initialData turns).1 = packets ↔ ∀ d ∈ packets, net.Reaches d) := by
  refine ⟨fun d hd => ⟨(writeUdpPacket_reads (hvalid d hd)).1, parseUdpPacket_written (hvalid d hd),
    fun k => parseUdpPacket_part (hvalid d hd)⟩, ?_⟩
  have hsent := relayTrojanUdp_sent net turns [] initialData
  rw [nil_append] at hsent
  rw [hsent]
  constructor
  · intro hall d hd
    rw [← hall] at hd
    exact mem_drained net hd
  · intro hreach
    have hchunks : (initialData :: heard turns).flatten = packets.flatMap Datagram.bytes := hstream
    rw [feed_packets (fun d hd => ⟨hvalid d hd, hreach d hd⟩) hchunks]

/-- A network in which every send succeeds; a name has an IPv6 and an IPv4 address. -/
def someNetwork : Network where
  lookup _ port := .ok [.v6 (constBytes 16 0) port, .v4 (constBytes 4 127) port]
  fault _ _ := none
  display _ := "localhost"

def toDomain : Datagram := ⟨.domain "a", 53, [1]⟩

def toIpv6 : Datagram := ⟨.ipv6 (constBytes 16 0), 53, [1]⟩

def toIpv4 : Datagram := ⟨.loopback, 53, [2]⟩

theorem toDomain_valid : toDomain.Valid := ⟨fun name h => by cases h; decide, by decide, by decide⟩

theorem toIpv6_valid : toIpv6.Valid := ⟨fun name h => (by cases h), by decide, by decide⟩

theorem toIpv4_valid : toIpv4.Valid := ⟨fun name h => (by cases h), by decide, by decide⟩

/-- The first packet is cut in its port, and a datagram comes back in between. -/
def cutTurns : List Turn :=
  [⟨.ok (some ([7], .v4 (constBytes 4 127) 53)), .ok (), .ok .wouldBlock⟩,
   ⟨.ok none, .ok (), .ok (.data ⟨toDomain.bytes.drop 4 ++ toIpv4.bytes, by decide +kernel⟩)⟩]

theorem packets_recovered_cut :
    (relayTrojanUdp someNetwork (toDomain.bytes.take 4) cutTurns).1 = [toDomain, toIpv4] := by
  refine (packets_recovered_iff someNetwork ?_ (by decide +kernel)).2.mpr ?_
  · simp [toDomain_valid, toIpv4_valid]
  · intro d hd
    rcases mem_pair.mp hd with rfl | rfl
    · exact ⟨by decide, _, rfl, _, _, .tail _ (.head _), rfl⟩
    · exact ⟨by decide, _, rfl, _, _, .head _, rfl⟩

/-- Both packets are there, and neither is sent. -/
theorem ipv6_target_ends_relay :
    (∀ d ∈ [toIpv6, toIpv4], d.Valid) ∧
    relayTrojanUdp someNetwork ([toIpv6, toIpv4].flatMap Datagram.bytes) [] =
      ([], .error (.io "Address family not supported by protocol (os error 97)")) := by
  refine ⟨?_, by decide +kernel⟩
  simp [toIpv6_valid, toIpv4_valid]

end Wrongsv.Bugs.TrojanUdpIpv6
