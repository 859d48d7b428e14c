import Wrongsv.L2Machine.Vless.Packetaddr

/-!
# Packet addresses: a datagram that does not fit its frame

The server puts 7 or 19 bytes in front of a datagram and writes the result with
`LengthPacketWriter`, whose length is `buf.len() as u16` (vless-encoding/body.rs:52-57). A
datagram of more than 65516 bytes over IPv6, or of more than 65528 over IPv4, makes a
packet of 65536 bytes or more: its length field says at most 18, and the client reads the
rest of the datagram as further frames. `MultiLengthPacketWriter` skips such a packet
(body.rs:25-27).

`keeps_boundaries_iff` says that nothing else goes wrong.
-/
namespace Wrongsv.Bugs.PacketaddrOversized
open Wrongsv.Parser L1.VlessHeader L1.LengthPacket L1.Packetaddr L2.Vless List

/-- What the client makes of the packets it reads. -/
def decodeResponses : List Bytes → Except String (List (Address × Nat × Bytes))
  | [] => .ok []
  | packet :: packets =>
    match decodePacketaddrPayload packet with
    | .error e => .error e
    | .ok response =>
      match decodeResponses packets with
      | .error e => .error e
      | .ok responses => .ok (response :: responses)

def response (d : Datagram) : Address × Nat × Bytes :=
  (d.source.destination.1, d.source.destination.2, d.payload)

/-- The client gets the datagrams that were received, in order, some of them
skipped as a whole. -/
def KeepsBoundaries (events : List Recv) : Prop :=
  ∃ kept : List Datagram, kept.Sublist (received events) ∧
    decodeResponses (readPackets (relayResponses events)) = .ok (kept.map response)

/-- The packet fits the length field. -/
def Fits (d : Datagram) : Prop := d.source.overhead + d.payload.length ≤ maxPacketSize

instance (d : Datagram) : Decidable (Fits d) := inferInstanceAs (Decidable (_ ≤ _))

theorem packet_le {d : Datagram} (h : Fits d) : d.packet.length ≤ maxPacketSize := by
  unfold Datagram.packet
  rw [packet_length]
  exact h

variable (ds : List Datagram)

theorem decodeResponses_packets :
    decodeResponses (ds.map (·.packet)) = .ok (ds.map response) := by
  induction ds with
  | nil => rfl
  | cons d ds ih =>
    have hd : decodePacketaddrPayload d.packet = .ok (response d) := decode_packet d.source d.payload
    simp only [map_cons, decodeResponses, hd, ih]

theorem decodeResponses_append_error {bad : Bytes} {e : String} (h : decodePacketaddrPayload bad = .error e)
    (after : List Bytes) : ∀ (before : List Bytes), ∃ e', decodeResponses (before ++ bad :: after) = .error e'
  | [] => ⟨e, by simp only [nil_append, decodeResponses, h]⟩
  | packet :: before => by
    obtain ⟨e', he⟩ := decodeResponses_append_error h after before
    simp only [cons_append, decodeResponses, he]
    split
    · exact ⟨_, rfl⟩
    · exact ⟨_, rfl⟩

/-- An oversized packet is read as its first bytes, fewer than stand in front
of a payload. -/
theorem readPackets_oversized {d : Datagram} (h : ¬ Fits d) (t : Bytes) :
    ∃ n rest, n < d.source.overhead ∧
      readPackets (writePacket d.packet ++ t) = d.packet.take n :: readPackets rest := by
  have hlen : d.packet.length = d.source.overhead + d.payload.length := packet_length ..
  have hfits := d.fits
  unfold Fits maxPacketSize at h
  have hn : d.packet.length % 65536 < d.source.overhead := by omega
  have hle : d.packet.length % 65536 ≤ (d.packet ++ t).length := by
    rw [length_append]
    omega
  refine ⟨d.packet.length % 65536, (d.packet ++ t).drop (d.packet.length % 65536), hn, ?_⟩
  have hread : readPacket (writePacket d.packet ++ t) =
      .ok (d.packet.take (d.packet.length % 65536), (d.packet ++ t).drop (d.packet.length % 65536)) := by
    unfold writePacket
    rw [append_assoc, readPacket_apply, bind_apply]
    unfold readExact
    rw [dif_pos hle]
    simp only [take_append_of_le_length (Nat.mod_le _ _)]
    rfl
  unfold readPackets
  rw [many_eq takes_readPacket_one, hread]

theorem exists_first_oversized (h : ∃ d ∈ ds, ¬ Fits d) :
    ∃ before d after, ds = before ++ d :: after ∧ (∀ b ∈ before, Fits b) ∧ ¬ Fits d := by
  induction ds with
  | nil => obtain ⟨d, hd, -⟩ := h; cases hd
  | cons d ds ih =>
    by_cases hd : Fits d
    · obtain ⟨d', hmem, hbad⟩ := h
      have hin : d' ∈ ds := by
        rcases List.mem_cons.mp hmem with rfl | hin
        · exact absurd hd hbad
        · exact hin
      obtain ⟨before, b, after, rfl, hall, hb⟩ := ih ⟨d', hin, hbad⟩
      refine ⟨d :: before, b, after, rfl, fun x hx => ?_, hb⟩
      rcases List.mem_cons.mp hx with rfl | hx
      · exact hd
      · exact hall x hx
    · exact ⟨[], d, ds, rfl, (fun b hb => nomatch hb), hd⟩

theorem decodeResponses_oversized (h : ∃ d ∈ ds, ¬ Fits d) :
    ∃ e, decodeResponses (readPackets (writePackets (ds.map (·.packet)))) = .error e := by
  obtain ⟨before, d, after, rfl, hall, hbad⟩ := exists_first_oversized ds h
  have hbefore : ∀ p ∈ before.map (·.packet), p.length ≤ maxPacketSize := by
    intro p hp
    obtain ⟨b, hb, rfl⟩ := List.mem_map.mp hp
    exact packet_le (hall b hb)
  have hsplit : writePackets ((before ++ d :: after).map (·.packet)) =
      writePackets (before.map (·.packet)) ++
        (writePacket d.packet ++ writePackets (after.map (·.packet))) := by
    simp [writePackets]
  obtain ⟨n, rest, hn, hread⟩ := readPackets_oversized hbad (writePackets (after.map (·.packet)))
  obtain ⟨e, he⟩ := decode_packet_short d.source d.payload hn
  rw [hsplit, readPackets_writePackets hbefore, hread]
  exact decodeResponses_append_error he _ _

theorem not_keepsBoundaries {events : List Recv} {d : Datagram} (hd : d ∈ received events)
    (hbad : ¬ Fits d) : ¬ KeepsBoundaries events := by
  rintro ⟨kept, -, hdec⟩
  have hne : d.payload ≠ [] := by
    intro he
    apply hbad
    have hsmall := overhead_le d.source
    unfold Fits maxPacketSize
    rw [he, length_nil]
    omega
  obtain ⟨e, herr⟩ := decodeResponses_oversized ((received events).filter (fun d => d.payload ≠ []))
    ⟨d, List.mem_filter.mpr ⟨hd, by simpa using hne⟩, hbad⟩
  rw [relayResponses_eq] at hdec
  unfold sentPackets at hdec
  rw [herr] at hdec
  cases hdec

/-- **Exactly the runs without an oversized datagram keep the boundaries**:
for every sequence of datagrams, timeouts and errors on the two sockets, the
client decodes the datagrams that were received, each as it was or not at all,
if and only if none of them is too long for its frame. -/
theorem keeps_boundaries_iff (events : List Recv) :
    KeepsBoundaries events ↔ ∀ d ∈ received events, Fits d := by
  constructor
  · intro h d hd
    by_contra hbad
    exact not_keepsBoundaries hd hbad h
  · intro hall
    refine ⟨(received events).filter (fun d => d.payload ≠ []), filter_sublist, ?_⟩
    have hpackets : ∀ p ∈ sentPackets (received events), p.length ≤ maxPacketSize := by
      intro p hp
      obtain ⟨d, hd, rfl⟩ := List.mem_map.mp hp
      exact packet_le (hall d (List.mem_filter.mp hd).1)
    have hread := readPackets_writePackets hpackets []
    rw [append_nil, readPackets_nil, append_nil] at hread
    rw [relayResponses_eq, hread]
    exact decodeResponses_packets _

/-! ## Counterexample -/

/-- The longest payload a UDP datagram over IPv6 can have. -/
def longest : Datagram where
  source := .v6 ⟨List.replicate 16 0xFD, rfl⟩ 53
  payload := List.replicate 65527 0
  fits := by rw [length_replicate]; decide

def short : Datagram := ⟨.v4 ⟨[192, 0, 2, 1], rfl⟩ 53, [0x21], by decide⟩

theorem longest_not_fits : ¬ Fits longest := by
  have hlen : longest.payload.length = 65527 := length_replicate
  unfold Fits
  rw [hlen]
  decide

/-- The longest datagram, and a short one behind it. -/
theorem longest_datagram_breaks_framing :
    ¬ KeepsBoundaries [.datagram longest, .datagram short] := by
  have hreceived : longest ∈ received [.datagram longest, .datagram short] := mem_cons_self
  exact not_keepsBoundaries hreceived longest_not_fits

end Wrongsv.Bugs.PacketaddrOversized
