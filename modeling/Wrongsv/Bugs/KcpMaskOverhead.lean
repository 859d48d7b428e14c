import Wrongsv.L2Machine.Kcp.Mask
import Wrongsv.L2Machine.Kcp.Run

/-!
# mKCP: sealed packets are longer than the MTU

The session leaves room for the mask in its segments: the payload of a full one
is the MTU without `packet_mask.overhead()` and the segment header. For the
AES-128-GCM mask `overhead` is 16 (server/handler/kcp.rs:108-113), the
tag; but `wrap` also puts the 12 bytes of the nonce in front (:137-149). So with
a seed every full segment leaves as a datagram of MTU + 12 bytes.

Fix: an overhead of 28.
-/
namespace Wrongsv.Bugs.KcpMaskOverhead
open L1.KcpSegment L2.Kcp XrayKcpSession List

/-! ## Segments are small -/

/-- Nothing that waits to be sent is longer than the maximal payload `n`. -/
structure Small (n : Nat) (s : XrayKcpSession) : Prop where
  mss : s.mss = n
  chunks : ∀ c ∈ s.pendingSendChunks, c.length ≤ n
  window : ∀ seg ∈ s.sendWindow, seg.payload.length ≤ n

section
variable {n : Nat} {s : XrayKcpSession}

theorem Small.releases {gone : UInt32 → Prop} {s' : XrayKcpSession} (h : Small n s)
    (hr : XrayKcpSession.Releases gone s s') : Small n s' :=
  ⟨hr.mss.trans h.mss, fun c hc => h.chunks c (hr.pending ▸ hc), fun seg hs => h.window seg (hr.sub seg hs)⟩

theorem Small.same {s' : XrayKcpSession} (h : Small n s) (hs : XrayKcpSession.SameSender s s') :
    Small n s' := by
  have hnone : XrayKcpSession.Releases (fun _ => False) s s' := hs.releases
  exact h.releases hnone

theorem Small.enqueue (h : Small n s) (hn : 1 ≤ n) (data : Bytes) :
    Small n (s.enqueueApplicationData data) := by
  unfold enqueueApplicationData
  split
  · exact h
  refine ⟨h.mss, fun c hc => ?_, h.window⟩
  rcases List.mem_append.mp hc with hc | hc
  · exact h.chunks c hc
  · rw [h.mss] at hc
    exact (toChunks_spec hn data).2 c hc

theorem Small.processSegment (h : Small n s) (seg : Segment) (current : UInt32) :
    Small n (s.processSegment seg current) := by
  cases seg with
  | data seg => exact h.same (processDataSegment_sender s seg current)
  | ack seg => exact h.releases (processAckSegment_releases s seg current)
  | cmd seg => exact h.releases (processCmdSegment_releases s seg current)

theorem Small.processSegments (current : UInt32) (segs : List Segment) : ∀ {s : XrayKcpSession},
    Small n s → Small n (segs.foldl (fun s seg => s.processSegment seg current) s) := by
  induction segs with
  | nil => intro s h; exact h
  | cons seg segs ih => intro s h; exact ih (h.processSegment seg current)

theorem Small.fill (fuel : Nat) :
    ∀ {s : XrayKcpSession}, Small n s → Small n (fillSendWindow.go fuel s) := by
  induction fuel with
  | zero => intro s h; exact h
  | succ fuel ih =>
    intro s h
    rw [fillSendWindow.go]
    split
    · split
      · exact h
      rename_i payload rest hp
      -- the payload moves from the pending chunks to the window
      have hchunks := h.chunks
      rw [hp] at hchunks
      refine ih ⟨h.mss, fun c hc => hchunks c (mem_cons_of_mem _ hc), fun seg hs => ?_⟩
      rcases List.mem_append.mp hs with hs | hs
      · exact h.window seg hs
      all_goals simp_all
    · exact h

theorem Small.filled (h : Small n s) (current : UInt32) : Small n (s.filled current) := by
  have hfill := (h.same (flushState_same s current).1).fill
    (s.flushState current).pendingSendChunks.length
  exact hfill.same (updateFirstUnacked_same _)

theorem Small.flush (h : Small n s) (current : UInt32) : Small n (s.flush current).2 := by
  by_cases ht : s.state = .terminated
  · rw [XrayKcpSession.flush, if_pos ht]
    exact h
  · obtain ⟨hf, -⟩ := flush_spec s current ht
    have hfilled := h.filled current
    refine ⟨hf.mss.trans hfilled.mss, fun c hc => hfilled.chunks c (hf.pending ▸ hc), fun seg hs => ?_⟩
    -- timers apart, the segment was in the window before
    have hmem : (seg.number, seg.payload) ∈ (s.flush current).2.sendWindow.map (fun seg => (seg.number, seg.payload)) :=
      mem_map_of_mem hs
    rw [hf.window] at hmem
    obtain ⟨seg', hs', he⟩ := List.mem_map.mp hmem
    rw [Prod.mk.injEq] at he
    rw [← he.2]
    exact hfilled.window seg' hs'

theorem Small.perform (h : Small n s) (hn : 1 ≤ n) (act : Act) : Small n (s.perform act) := by
  cases act with
  | enqueue data => exact h.enqueue hn data
  | close current => exact h.same (markApplicationWriteClosed_same s current).1
  | flush current => exact h.flush current
  | take => exact h.same (takeReceived_same s).1
  | receive packet current => exact Small.processSegments current (readSegments packet) (h.same ⟨rfl, rfl, rfl, rfl⟩)

/-- **Whole runs.** -/
theorem Small.run (hn : 1 ≤ n) (acts : List Act) :
    ∀ {s : XrayKcpSession}, Small n s → Small n (s.run acts) := by
  induction acts with
  | nil => intro s h; exact h
  | cons act acts ih => intro s h; exact ih (h.perform hn act)

/-! ## Packets are short -/

theorem length_flatMap_be32 (numbers : List UInt32) :
    (numbers.flatMap be32).length = 4 * numbers.length := by
  induction numbers with
  | nil => rfl
  | cons number numbers ih => grind [be32]

/-- A packet is a segment of the window, or as short as its kind: at most 529
bytes for 128 acknowledgements. -/
theorem sends_length_le {f : XrayKcpSession} {current : UInt32} (h : Small n f) {p : Bytes}
    (hp : XrayKcpSession.Sends f current p) : p.length ≤ max (n + dataSegmentOverhead) 529 := by
  cases hp with
  | acks part _ short =>
    have hlimit : part.length ≤ 128 := short
    simp only [ackPacket, serializeAck, length_append, length_cons, be16_length,
      length_flatMap_be32, length_map, show ∀ n, (be32 n).length = 4 from fun _ => rfl]
    omega
  | data seg kept =>
    have := h.window seg kept
    simp only [dataPacket, serializeData, length_append, length_cons, be16_length,
      dataSegmentOverhead, show ∀ n, (be32 n).length = 4 from fun _ => rfl]
    omega
  | cmd cmd _ =>
    simp only [cmdPacket, serializeCmd, length_append, length_cons, be16_length,
      show ∀ n, (be32 n).length = 4 from fun _ => rfl]
    omega

end

section
variable {sha256 : Bytes → Bytes} (c : AcceptedConfig sha256) (conv : Nat)

theorem session_mss_eq : (XrayKcpSession.new (c.config.session conv)).mss =
    c.config.mtu - c.config.packetMask.overhead - dataSegmentOverhead := by
  obtain ⟨⟨hm, -⟩, -⟩ := parseKcpConfig_ok sha256 c.accepted
  have hle : c.config.packetMask.overhead ≤ 16 := by
    cases c.config.packetMask with
    | original => exact (by decide : 6 ≤ 16)
    | aes128Gcm _ => exact Nat.le_refl 16
  simp only [XrayKcpSession.new, KcpConfig.session, dataSegmentOverhead]
  omega

/-- **Room for the declared overhead.** In every reachable session, whatever a
flush sends. -/
theorem flush_length_le (acts : List Act) (current : UInt32) :
    ∀ p ∈ (((XrayKcpSession.new (c.config.session conv)).run acts).flush current).1,
      p.length + c.config.packetMask.overhead ≤ c.config.mtu := by
  intro p hp
  obtain ⟨⟨hm, -⟩, -⟩ := parseKcpConfig_ok sha256 c.accepted
  have hmss := session_mss_eq c conv
  have hpos := (session_mss sha256 c conv).1
  have hsmall := Small.run hpos acts (s := XrayKcpSession.new (c.config.session conv))
    ⟨rfl, (fun _ h => nomatch h), (fun _ h => nomatch h)⟩
  generalize (XrayKcpSession.new (c.config.session conv)).run acts = s at hp hsmall
  by_cases ht : s.state = .terminated
  · rw [flush, if_pos ht] at hp
    cases hp
  have := sends_length_le (hsmall.filled current) ((flush_spec s current ht).2 p hp)
  rw [hmss] at this
  cases hmask : c.config.packetMask with
  | original =>
    simp only [hmask, KcpPacketMask.overhead, mkcpOriginalOverhead, dataSegmentOverhead] at this ⊢
    omega
  | aes128Gcm _ => grind [KcpPacketMask.overhead]

end

/-! ## A full segment -/

/-- The first segment of the window is sent if there is room for one. -/
theorem first_segment_sent {s : XrayKcpSession} {seg : SendingSegment} {rest : List SendingSegment}
    (hw : s.sendWindow = seg :: rest) (ht : seg.transmit = 0) (hl : s.sendLimit ≠ 0) (current : UInt32) :
    s.dataPacket current seg ∈ (s.flushSendWindow current).1 := by
  grind [flushSendWindow, flushSendWindow.go]

/-- A new session with one chunk to send, before and after it is numbered. -/
def queued (config : SessionConfig) (chunk : Bytes) : XrayKcpSession :=
  { XrayKcpSession.new config with pendingSendChunks := [chunk] }

def numbered (config : SessionConfig) (chunk : Bytes) : XrayKcpSession :=
  { XrayKcpSession.new config with nextSendNumber := 1, sendWindow := [⟨0, chunk, 0, 0⟩] }

theorem filled_queued (config : SessionConfig) (chunk : Bytes) :
    (queued config chunk).filled 0 = numbered config chunk := by
  have hroom : (queued config chunk).sendWindow.length < (queued config chunk).sendBufferSize :=
    Nat.lt_of_lt_of_le Nat.one_pos (Nat.le_max_right _ _)
  have hstate : (queued config chunk).flushState 0 = queued config chunk := by
    simp [flushState, queued, XrayKcpSession.new]
  rw [filled, hstate, fillSendWindow,
    show (queued config chunk).pendingSendChunks = [chunk] from rfl, length_singleton,
    fillSendWindow.go, if_pos hroom]
  rfl

theorem le_max_eight (a : UInt32) : 8 ≤ max a 8 := by
  show 8 ≤ if a ≤ 8 then 8 else a
  grind

theorem sendLimit_ne_zero {s : XrayKcpSession} (hw : 8 ≤ s.sendInflightSize)
    (hcontrol : s.controlWindow = s.sendInflightSize) (hremote : s.remoteNextNumber - s.firstUnacked = 32) :
    s.sendLimit ≠ 0 := by
  simp only [sendLimit, hremote, hcontrol]
  grind

/-- A session with a full chunk to send sends a packet of `mss` and 18 bytes. -/
theorem full_segment_sent (config : SessionConfig) (h : 1 ≤ (XrayKcpSession.new config).mss) :
    ∃ p ∈ (((XrayKcpSession.new config).run [.enqueue (List.replicate (XrayKcpSession.new config).mss 0)]).flush 0).1,
      p.length = (XrayKcpSession.new config).mss + dataSegmentOverhead := by
  generalize hchunk : List.replicate (XrayKcpSession.new config).mss (0 : UInt8) = chunk
  have hlen : chunk.length = (XrayKcpSession.new config).mss := by rw [← hchunk, length_replicate]
  have hne : chunk ≠ [] := by
    apply ne_nil_of_length_pos
    omega
  have hqueued : (XrayKcpSession.new config).run [.enqueue chunk] = queued config chunk := by
    have hopen : ¬ ((XrayKcpSession.new config).canAcceptApplicationData = false ∨ chunk = []) := by
      rintro (hclosed | hempty)
      · exact Bool.noConfusion hclosed
      · exact hne hempty
    show (XrayKcpSession.new config).enqueueApplicationData chunk = _
    rw [enqueueApplicationData, if_neg hopen, toChunks_short chunk (Nat.le_of_eq hlen), if_neg (by omega)]
    rfl
  have hflush : (queued config chunk).flush 0 = (numbered config chunk).flushOutput 0 := by
    have hstate : (queued config chunk).state = .active := rfl
    have hstate' : (numbered config chunk).state = .active := rfl
    grind [flush, filled_queued]
  have hsent : (numbered config chunk).dataPacket 0 ⟨0, chunk, 0, 0⟩ ∈ ((numbered config chunk).flushOutput 0).1 := by
    have hmem := first_segment_sent (s := numbered config chunk) rfl rfl
      (sendLimit_ne_zero (le_max_eight _) rfl (show (32 : UInt32) - 0 = 32 by decide)) 0
    unfold flushOutput
    simp only
    split
    · exact mem_append_left _ (mem_append_right _ hmem)
    · exact mem_append_right _ hmem
  refine ⟨_, by rw [hqueued, hflush]; exact hsent, ?_⟩
  simp only [dataPacket, serializeData, length_append, length_cons, be16_length, hlen,
    dataSegmentOverhead, show ∀ n, (be32 n).length = 4 from fun _ => rfl]
  omega

/-! ## Result -/

/-- **The MTU.** For every accepted configuration: every packet of every flush
of every reachable session is, once wrapped, at most as long as the MTU, if and
only if there is no seed. -/
theorem wrapped_le_mtu_iff (aes128Gcm : Aead) {sha256 : Bytes → Bytes} (c : AcceptedConfig sha256)
    (conv : Nat) : (∀ (acts : List Act) (current : UInt32) (nonce : PacketNonce),
      ∀ p ∈ (((XrayKcpSession.new (c.config.session conv)).run acts).flush current).1,
        (c.config.packetMask.wrap aes128Gcm nonce p).length ≤ c.config.mtu) ↔
      c.source.seed = none ∨ c.source.seed = some "" := by
  have hseed := parseKcpConfig_packetMask c.accepted
  constructor
  · intro h
    cases hs : c.source.seed with
    | none => exact .inl rfl
    | some seed =>
      by_cases hempty : seed = ""
      · exact .inr (by rw [hempty])
      · exfalso
        rw [hs, packetMaskOf, if_neg hempty] at hseed
        obtain ⟨p, hp, hlen⟩ := full_segment_sent (c.config.session conv) (session_mss sha256 c conv).1
        have hmss := session_mss_eq c conv
        have hle := h _ 0 ⟨List.replicate 12 0, rfl⟩ p hp
        rw [wrap_length, hlen, hmss, hseed] at hle
        simp only [KcpPacketMask.overhead, KcpPacketMask.added, dataSegmentOverhead] at hle
        omega
  · intro hs acts current nonce p hp
    have horiginal : c.config.packetMask = .original := by
      rcases hs with hs | hs
      · rw [hseed, hs]
        rfl
      · rw [hseed, hs]
        rfl
    have := flush_length_le c conv acts current p hp
    rw [wrap_length]
    rw [horiginal] at this ⊢
    exact this

/-- MTU 576 and a seed: 542 bytes of data leave in a packet of 560 bytes, which
is 588 bytes long when it is sealed, whatever the cipher, the key and the nonce. -/
theorem full_segment_wrapped (aes128Gcm : Aead) (key : Bytes) (nonce : PacketNonce) :
    (((XrayKcpSession.new ⟨1, 576, 50, 5, 20, 2097152, 16⟩).run [.enqueue (List.replicate 542 0)]).flush 0).1.map
      (fun p => ((KcpPacketMask.aes128Gcm key).wrap aes128Gcm nonce p).length) = [588] := by
  have hplain : (((XrayKcpSession.new ⟨1, 576, 50, 5, 20, 2097152, 16⟩).run
      [.enqueue (List.replicate 542 0)]).flush 0).1.map List.length = [560] := by
    decide +kernel
  have hwrapped := congrArg (List.map (· + 28)) hplain
  rw [map_map] at hwrapped
  simp only [wrap_length]
  exact hwrapped

theorem full_segment_too_long :
    ∃ config, parseKcpConfig (fun _ => List.replicate 32 0) ⟨some "seed", some 576, none, none, none, none, none⟩ =
        .ok config ∧ config.mtu = 576 ∧
      (((XrayKcpSession.new (config.session 1)).run [.enqueue (List.replicate 542 0)]).flush 0).1.map
        (fun p => (config.packetMask.wrap .transparent ⟨List.replicate 12 0, rfl⟩ p).length) = [588] :=
  ⟨⟨576, 50, 5, 20, 2097152, 2097152, .aes128Gcm (List.replicate 16 0)⟩, rfl, rfl,
    full_segment_wrapped .transparent (List.replicate 16 0) ⟨List.replicate 12 0, rfl⟩⟩

end Wrongsv.Bugs.KcpMaskOverhead
