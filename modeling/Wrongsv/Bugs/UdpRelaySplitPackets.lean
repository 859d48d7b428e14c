import Wrongsv.L2Machine.Vless.UdpRelay

/-!
# UDP relays that parse every read on its own

`relay_kcp_udp` (server/handler/kcp.rs:903-928), `relay_grpc_udp`, `relay_xhttp_udp` and
`relay_request_stream_udp` build a new `LengthPacketReader` for each read of the client. A
packet that a read ends inside of is dropped with its length, and the rest of it is parsed
as other packets. A packet of 65534 bytes or more does not even fit the 65535-byte buffer.
The other relays keep one reader over the whole stream (relay.rs:435-436).

Fix: keep what is left of a read, as `drain_packetaddr_packets` does.
-/
namespace Wrongsv.Bugs.UdpRelaySplitPackets
open L1.LengthPacket L2.Vision L2.Vless List

/-- A client that sends datagrams, in a stream that is cut at will: some of it
comes with the request, the rest in the reads of the relay. -/
structure UdpSession where
  datagrams : List Bytes
  sizes : ∀ d ∈ datagrams, 1 ≤ d.length ∧ d.length ≤ maxPacketSize
  remaining : Bytes
  opened : Except String Unit
  fault : SendFault
  turns : List Turn
  sent : remaining ++ delivered (dataReads turns) = writePackets datagrams

theorem readPackets_sizes {ps : List Bytes} (h : ∀ p ∈ ps, p.length ≤ maxPacketSize) :
    readPackets (writePackets ps) = ps := by
  have hread := readPackets_writePackets h []
  rwa [append_nil, readPackets_nil, append_nil] at hread

variable (s : UdpSession)

/-- One reader over the stream gets all datagrams, however it is cut. -/
theorem UdpSession.relayUdp_eq : relayUdp s.remaining (dataReads s.turns) = s.datagrams := by
  unfold relayUdp
  rw [s.sent]
  exact readPackets_sizes fun d hd => (s.sizes d hd).2

/-- The target's socket is opened, the reads are whole packets, no send fails,
and all reads are made. -/
structure UdpSession.Unbroken (s : UdpSession) (emptyEnds : Bool) : Prop where
  opened : s.opened = .ok () ∨ s.datagrams = []
  whole : Whole s.remaining ∧ ∀ x ∈ dataReads s.turns, Whole x.bytes
  sent : ¬ s.fault.Hits (readPackets s.remaining)
  heard : Heard emptyEnds s.turns

/-- The chunks a relay parses. -/
def UdpSession.chunks (s : UdpSession) : List Bytes :=
  s.remaining :: (dataReads s.turns).map (·.bytes)

theorem UdpSession.chunks_flatten : s.chunks.flatten = writePackets s.datagrams := by
  rw [← s.sent]
  rfl

theorem UdpSession.unbroken_of_empty (emptyEnds : Bool) (h : s.datagrams = []) :
    s.Unbroken emptyEnds := by
  have hsent := s.sent
  rw [h] at hsent
  obtain ⟨hremaining, hreads⟩ := append_eq_nil_iff.mp hsent
  have hdata : dataReads s.turns = [] := by
    cases hx : dataReads s.turns with
    | nil => rfl
    | cons x xs =>
      rw [hx, delivered_cons] at hreads
      exact absurd (append_eq_nil_iff.mp hreads).1 x.nonempty
  refine ⟨.inr h, ⟨⟨[], fun p hp => absurd hp not_mem_nil, hremaining⟩, ?_⟩, ?_, heard_of_no_data hdata⟩
  · intro x hx
    rw [hdata] at hx
    exact absurd hx not_mem_nil
  · rintro ⟨k, e, -, hk⟩
    rw [hremaining] at hk
    exact absurd hk (Nat.not_lt_zero k)

variable (emptyEnds : Bool)

/-- The relay of a session. -/
def UdpSession.relayed (s : UdpSession) (emptyEnds : Bool) : List Bytes :=
  (relayStreamUdp emptyEnds s.opened s.remaining s.fault s.turns).forwarded

theorem UdpSession.relayed_eq (hopened : s.opened = .ok ()) (hsent : ¬ s.fault.Hits (readPackets s.remaining)) :
    s.relayed emptyEnds = readPackets s.remaining ++ (relayStreamUdp.go emptyEnds s.turns).forwarded := by
  simp only [UdpSession.relayed, relayStreamUdp, hopened, sendPackets_of_not_hits hsent]

/-- Less is sent if a send of the first packets fails, or if the loop misses
something. -/
theorem UdpSession.relayed_short (hopened : s.opened = .ok ())
    (h : s.fault.Hits (readPackets s.remaining) ∨ ¬ Heard emptyEnds s.turns) :
    (writePackets (s.relayed emptyEnds)).length < (writePackets s.datagrams).length := by
  obtain ⟨-, rest, hrest⟩ := readPackets_rest s.remaining
  have hle := congrArg List.length hrest
  rw [← s.sent, length_append]
  rw [length_append] at hle
  by_cases hsent : s.fault.Hits (readPackets s.remaining)
  · obtain ⟨sent, e, p, lost, hsend, hlost⟩ := sendPackets_of_hits hsent
    have heq : s.relayed emptyEnds = sent := by
      simp only [UdpSession.relayed, relayStreamUdp, hopened, hsend]
    rw [← hlost, writePackets_append, length_append] at hle
    have hp : 0 < (writePackets (p :: lost)).length := Nat.succ_pos _
    rw [heq]
    omega
  · have hshort := go_short (h.resolve_left hsent)
    rw [s.relayed_eq emptyEnds hopened hsent, writePackets_append, length_append]
    omega

theorem UdpSession.unbroken_of_relayed (h : s.relayed emptyEnds = s.datagrams) :
    s.Unbroken emptyEnds := by
  cases hopened : s.opened with
  | error e =>
    refine s.unbroken_of_empty emptyEnds ?_
    simp only [← h, UdpSession.relayed, relayStreamUdp, hopened]
  | ok u =>
    have hall : ¬ (s.fault.Hits (readPackets s.remaining) ∨ ¬ Heard emptyEnds s.turns) := by
      intro hmiss
      have hlt := s.relayed_short emptyEnds hopened hmiss
      rw [h] at hlt
      exact absurd hlt (Nat.lt_irrefl _)
    rw [not_or, not_not] at hall
    obtain ⟨hsent, hheard⟩ := hall
    have hchunks : s.chunks.flatMap readPackets = s.datagrams := by
      rw [← h, s.relayed_eq emptyEnds hopened hsent, go_forwarded hheard]
      rfl
    have hwhole := (chunks_length s.chunks).2 (by rw [hchunks, s.chunks_flatten])
    exact ⟨.inl hopened, ⟨hwhole _ mem_cons_self, fun x hx => hwhole _
      (mem_cons_of_mem _ (mem_map_of_mem hx))⟩, hsent, hheard⟩

theorem UdpSession.relayed_of_unbroken (h : s.Unbroken emptyEnds) :
    s.relayed emptyEnds = s.datagrams := by
  have hwhole : ∀ c ∈ s.chunks, Whole c := by
    intro c hc
    rcases List.mem_cons.mp hc with rfl | hc
    · exact h.whole.1
    · obtain ⟨x, hx, rfl⟩ := List.mem_map.mp hc
      exact h.whole.2 x hx
  have hsizes : ∀ p ∈ s.chunks.flatMap readPackets, p.length ≤ maxPacketSize := by
    intro p hp
    obtain ⟨c, -, hpc⟩ := List.mem_flatMap.mp hp
    exact (readPackets_rest c).1 p hpc
  have hchunks : s.chunks.flatMap readPackets = s.datagrams := by
    rw [← readPackets_sizes hsizes, chunks_whole _ hwhole, s.chunks_flatten]
    exact readPackets_sizes fun d hd => (s.sizes d hd).2
  cases hopened : s.opened with
  | error e =>
    have hempty : s.datagrams = [] := h.opened.resolve_left (by rw [hopened]; exact fun he => by cases he)
    simp only [hempty, UdpSession.relayed, relayStreamUdp, hopened]
  | ok u =>
    rw [s.relayed_eq emptyEnds hopened h.sent, go_forwarded h.heard]
    exact hchunks

/-- One datagram with one byte, behind whose length a read ends. -/
def someTurns : List Turn :=
  [⟨.data ⟨be16 1, 65535, by decide, by decide⟩, none, .timedOut, .ok ()⟩,
   ⟨.data ⟨[0x41], 65535, by decide, by decide⟩, none, .timedOut, .ok ()⟩]

end Wrongsv.Bugs.UdpRelaySplitPackets
