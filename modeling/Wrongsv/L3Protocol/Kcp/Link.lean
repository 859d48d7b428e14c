import Wrongsv.Core.SlidingWindow
import Wrongsv.L2Machine.Kcp.Session

/-!
# mKCP: one direction as a sliding window

A sending session `a` and a receiving session `b`, together with the list of
payloads `a` has numbered, are a link of `SlidingWindow` (`link`). While fewer
than 2^31 payloads are numbered no `u32` comparison is fooled by wrapping, and
every operation of either session is a run of the link or leaves it alone:

* numbering a chunk is `Step.number` (`Linked.fill`),
* a data segment is at most one `Step.store` and some `Step.advance`
  (`Linked.processDataSegment`),
* an ACK or a command is a `Step.release` (`Linked.releases`).

`Linked` is what holds between the two sessions between operations.
-/
namespace Wrongsv.L3.Kcp
open L1.KcpSegment L2.Kcp XrayKcpSession SlidingWindow List

/-- `recv_packets` under natural numbers. -/
def earlyOf (m : List (UInt32 × Bytes)) (n : Nat) : Option Bytes :=
  if n < 2 ^ 32 then m.lookup (UInt32.ofNat n) else none

/-- The link from the session `a` to the session `b`. -/
def link (a b : XrayKcpSession) (log : List Bytes) : Link Bytes :=
  { log, unacked := a.sendWindow.map (·.number.toNat), next := b.recvNextNumber.toNat,
    early := earlyOf b.recvPackets }

/-- What holds between the sender `a` and the receiver `b` when `a` has
accepted the bytes `accepted`, numbered the payloads `log`, and the
application has taken the bytes `taken` at `b`. -/
structure Linked (a b : XrayKcpSession) (log : List Bytes) (accepted taken : Bytes) : Prop where
  safe : (link a b log).Safe
  /-- fewer numbers than the sequence comparisons can tell apart -/
  count_lt : log.length < 2 ^ 31
  next_eq : a.nextSendNumber.toNat = log.length
  window : ∀ seg ∈ a.sendWindow, (link a b log).Allows (.data seg.number.toNat seg.payload)
  acks : ∀ ack ∈ b.pendingAcks, (link a b log).Allows (.ack ack.number.toNat)
  accepted_eq : accepted = log.flatten ++ a.pendingSendChunks.flatten
  taken_eq : taken ++ b.recvReady.flatten = (log.take b.recvNextNumber.toNat).flatten
  chunk_lt : ∀ c, c ∈ log ∨ c ∈ a.pendingSendChunks → c.length < 65536
  mss_lt : 1 ≤ a.mss ∧ a.mss < 65536

/-! ## Sequence numbers below 2^31 -/

theorem earlyOf_toNat (m : List (UInt32 × Bytes)) (k : UInt32) : earlyOf m k.toNat = m.lookup k := by
  unfold earlyOf
  rw [if_pos k.toNat_lt, UInt32.ofNat_toNat]

theorem ofNat_eq_iff {n : Nat} (h : n < 2 ^ 32) (k : UInt32) : UInt32.ofNat n = k ↔ n = k.toNat := by
  rw [← UInt32.toNat_inj, UInt32.toNat_ofNat', Nat.mod_eq_of_lt h]

theorem seqLt_lt {a b : UInt32} (ha : a.toNat < 2 ^ 31) (hb : b.toNat < 2 ^ 31)
    (h : seqLt a b = true) : a.toNat < b.toNat := by
  simp only [seqLt, Bool.and_eq_true, decide_eq_true_eq, UInt32.lt_iff_toNat_lt, UInt32.toNat_sub] at h
  have h7 : (0x7fffffff : UInt32).toNat = 0x7fffffff := rfl
  omega

theorem toNat_succ {n : UInt32} (h : n.toNat < 2 ^ 31) : (n + 1).toNat = n.toNat + 1 := by
  rw [UInt32.toNat_add, UInt32.toNat_one]
  omega

/-! ## Operations that leave the link alone -/

section
variable {a b a' b' : XrayKcpSession} {log : List Bytes} {accepted taken : Bytes}

theorem link_sender (h : a'.sendWindow.map (fun seg => (seg.number, seg.payload)) =
    a.sendWindow.map (fun seg => (seg.number, seg.payload))) : link a' b log = link a b log := by
  have := congrArg (List.map (fun p : UInt32 × Bytes => p.1.toNat)) h
  simp only [map_map, Function.comp_def] at this
  simp only [link, this]

theorem link_receiver (hn : b'.recvNextNumber = b.recvNextNumber)
    (hp : b'.recvPackets = b.recvPackets) : link a b' log = link a b log := by
  simp only [link, hn, hp]

theorem link_acks_sent : link a { b with pendingAcks := [] } log = link a b log := link_receiver rfl rfl

section
variable (h : Linked a b log accepted taken)
include h

theorem Linked.same_sender (hw : a'.sendWindow.map (fun seg => (seg.number, seg.payload)) =
      a.sendWindow.map (fun seg => (seg.number, seg.payload)))
    (hp : a'.pendingSendChunks = a.pendingSendChunks) (hn : a'.nextSendNumber = a.nextSendNumber)
    (hm : a'.mss = a.mss) : Linked a' b log accepted taken := by
  have hl : link a' b log = link a b log := link_sender hw
  refine ⟨hl ▸ h.safe, h.count_lt, hn ▸ h.next_eq, fun seg hs => ?_, hl ▸ h.acks, hp ▸
    h.accepted_eq, h.taken_eq, hp ▸ h.chunk_lt, hm ▸ h.mss_lt⟩
  -- the segment has a twin with the same number and payload in the old window
  have hmem : (seg.number, seg.payload) ∈ a.sendWindow.map (fun seg => (seg.number, seg.payload)) := by
    rw [← hw]
    exact List.mem_map.mpr ⟨seg, hs, rfl⟩
  obtain ⟨seg', hs', he⟩ := List.mem_map.mp hmem
  simp only [Prod.mk.injEq] at he
  rw [hl, ← he.1, ← he.2]
  exact h.window seg' hs'

theorem Linked.same_receiver (hs : XrayKcpSession.SameReceiver b b') : Linked a b' log accepted taken := by
  have hl : link a b' log = link a b log := link_receiver hs.next hs.packets
  refine ⟨hl ▸ h.safe, h.count_lt, h.next_eq, hl ▸ h.window, ?_, h.accepted_eq, ?_, h.chunk_lt, h.mss_lt⟩
  · rw [hl, hs.acks]; exact h.acks
  · rw [hs.ready, hs.next]; exact h.taken_eq

theorem Linked.acks_sent : Linked a { b with pendingAcks := [] } log accepted taken :=
  ⟨h.safe, h.count_lt, h.next_eq, h.window, (fun _ hk => by cases hk), h.accepted_eq, h.taken_eq,
    h.chunk_lt, h.mss_lt⟩

/-! ## The application -/

/-- Data that the session accepts: none once it is closing, or nothing to send. -/
def acceptedBy (s : XrayKcpSession) (data : Bytes) : Bytes :=
  if s.canAcceptApplicationData = true then data else []

theorem Linked.enqueue (data : Bytes) :
    Linked (a.enqueueApplicationData data) b log (accepted ++ acceptedBy a data) taken := by
  unfold enqueueApplicationData acceptedBy
  split
  · rename_i hc
    have hnil : (if a.canAcceptApplicationData = true then data else []) = [] := by
      rcases hc with hc | hc
      · rw [hc]; rfl
      · rw [hc]; split <;> rfl
    rw [hnil, append_nil]
    exact h
  · rename_i hc
    obtain ⟨hacc, -⟩ := not_or.mp hc
    obtain ⟨h1, h2⟩ := toChunks_spec h.mss_lt.1 data
    rw [if_pos (by simpa using hacc)]
    refine ⟨h.safe, h.count_lt, h.next_eq, h.window, h.acks, ?_, h.taken_eq, ?_, h.mss_lt⟩
    · rw [h.accepted_eq, flatten_append, h1, append_assoc]
    · intro c hc'
      rcases hc' with hc' | hc'
      · exact h.chunk_lt c (.inl hc')
      · rcases List.mem_append.mp hc' with hc' | hc'
        · exact h.chunk_lt c (.inr hc')
        · exact Nat.lt_of_le_of_lt (h2 c hc') h.mss_lt.2

theorem Linked.take : Linked a b.takeReceived.2 log accepted (taken ++ b.takeReceived.1.getD []) := by
  unfold XrayKcpSession.takeReceived
  split
  · rw [Option.getD_none, append_nil]
    exact h
  · rename_i payload rest hr
    refine ⟨h.safe, h.count_lt, h.next_eq, h.window, h.acks, h.accepted_eq, ?_, h.chunk_lt, h.mss_lt⟩
    rw [← h.taken_eq, hr, Option.getD_some, flatten_cons, append_assoc]

/-! ## Acknowledgements -/

/-- **Only what has arrived is released.** -/
theorem Linked.releases {gone : UInt32 → Prop} (hr : XrayKcpSession.Releases gone a a')
    (hg : ∀ seg ∈ a.sendWindow, gone seg.number → (link a b log).Received seg.number.toNat) :
    Linked a' b log accepted taken ∧ Steps (link a b log) (link a' b log) := by
  have hstep : Step (link a b log) (link a' b log) := by
    refine Step.release (link a b log) (a'.sendWindow.map (·.number.toNat)) (fun n hn => ?_)
    obtain ⟨seg, hs, rfl⟩ := List.mem_map.mp hn
    rcases hr.kept seg hs with hk | hgone
    · exact .inl (List.mem_map.mpr ⟨seg, hk, rfl⟩)
    · exact .inr (hg seg hs hgone)
  refine ⟨⟨hstep.safe h.safe, h.count_lt, hr.next ▸ h.next_eq, fun seg hs => ?_,
    fun ack hk => hstep.allows (h.acks ack hk), hr.pending ▸ h.accepted_eq, h.taken_eq,
    hr.pending ▸ h.chunk_lt, hr.mss ▸ h.mss_lt⟩, .single hstep⟩
  exact hstep.allows (h.window seg (hr.sub seg hs))

theorem seg_lt {seg : SendingSegment} (hs : seg ∈ a.sendWindow) : seg.number.toNat < 2 ^ 31 := by
  have := (List.getElem?_eq_some_iff.mp (h.window seg hs)).1
  have := h.count_lt
  simp only [link] at *
  omega

/-- A cumulative acknowledgement only reaches what is in order at the peer. -/
theorem received_before {next : UInt32}
    (hn : (link a b log).Allows (.upTo next.toNat)) {seg : SendingSegment} (hs : seg ∈ a.sendWindow)
    (hlt : seqLt seg.number next = true) : (link a b log).Received seg.number.toNat := by
  have h1 : next.toNat ≤ b.recvNextNumber.toNat := hn
  have h2 : b.recvNextNumber.toNat ≤ log.length := h.safe.next_le
  have h3 := h.count_lt
  have h4 := seqLt_lt (seg_lt h hs) (by omega) hlt
  exact .inl (Nat.lt_of_lt_of_le h4 h1)

/-! ## Data -/

theorem Linked.promoteOne {payload : Bytes} (hp : b.recvPackets.lookup b.recvNextNumber = some payload) :
    Linked a (b.promoteOne payload) log accepted taken ∧
      Step (link a b log) (link a (b.promoteOne payload) log) := by
  have he : (link a b log).early (link a b log).next = some payload := by
    simp only [link, earlyOf_toNat, hp]
  have hlog : log[b.recvNextNumber.toNat]? = some payload := h.safe.early_eq _ _ he
  have hlt : b.recvNextNumber.toNat < log.length := (List.getElem?_eq_some_iff.mp hlog).1
  have hcount := h.count_lt
  have hnext : (b.recvNextNumber + 1).toNat = b.recvNextNumber.toNat + 1 := toNat_succ (by omega)
  have hlink : link a (b.promoteOne payload) log =
      { link a b log with
        next := (link a b log).next + 1
        early := fun i => if i = (link a b log).next then none else (link a b log).early i } := by
    simp only [link, XrayKcpSession.promoteOne, hnext, Link.mk.injEq, true_and]
    funext n
    unfold earlyOf
    split
    · rename_i hn
      rw [lookup_erase]
      simp only [ofNat_eq_iff hn]
    · rename_i hn
      rw [if_neg (by omega)]
  have hstep : Step (link a b log) (link a (b.promoteOne payload) log) := by
    rw [hlink]
    exact Step.advance (link a b log) payload he
  refine ⟨⟨hstep.safe h.safe, h.count_lt, h.next_eq, fun seg hs => hstep.allows (h.window seg hs),
    fun ack hk => hstep.allows (h.acks ack hk), h.accepted_eq, ?_, h.chunk_lt, h.mss_lt⟩,
    hstep⟩
  simp only [XrayKcpSession.promoteOne, hnext, flatten_append, flatten_cons, flatten_nil,
    append_nil]
  rw [← append_assoc, h.taken_eq, take_add_one, hlog, Option.toList_some, flatten_append,
    flatten_cons, flatten_nil, append_nil]

omit h in
theorem Linked.promote (fuel : Nat) : ∀ {b : XrayKcpSession}, Linked a b log accepted taken →
    Linked a (promoteReceived.go fuel b) log accepted taken ∧
      Steps (link a b log) (link a (promoteReceived.go fuel b) log) := by
  induction fuel with
  | zero => intro b h; exact ⟨h, .refl⟩
  | succ fuel ih =>
    intro b h
    simp only [promoteReceived.go]
    split
    · exact ⟨h, .refl⟩
    rename_i payload hp
    obtain ⟨h1, h2⟩ := h.promoteOne hp
    obtain ⟨h3, h4⟩ := ih h1
    exact ⟨h3, .head h2 h4⟩

theorem Linked.storeData {seg : DataSegment} (hseg : (link a b log).Allows (.data seg.number.toNat seg.payload)) :
    Linked a (b.storeData seg) log accepted taken ∧ Steps (link a b log) (link a (b.storeData seg) log) := by
  have hlink : link a (b.storeData seg) log =
      { link a b log with
        early := fun i => if i = seg.number.toNat then
          some ((b.recvPackets.lookup seg.number).getD seg.payload) else (link a b log).early i } := by
    simp only [link, XrayKcpSession.storeData, Link.mk.injEq, true_and]
    funext n
    unfold earlyOf
    split
    · rename_i hn
      rw [lookup_orInsert]
      simp only [ofNat_eq_iff hn]
    · rename_i hn
      rw [if_neg (by have := seg.number.toNat_lt; omega)]
  have hdata : (link a b log).Allows
      (.data seg.number.toNat ((b.recvPackets.lookup seg.number).getD seg.payload)) := by
    cases hl : b.recvPackets.lookup seg.number with
    | none => exact hseg
    | some w => exact h.safe.early_eq _ _ (by simp only [link, earlyOf_toNat, hl, Option.getD_some])
  have hstep : Step (link a b log) (link a (b.storeData seg) log) := by
    rw [hlink]
    exact Step.store (link a b log) _ _ hdata
  refine ⟨⟨hstep.safe h.safe, h.count_lt, h.next_eq, fun seg hs => hstep.allows (h.window seg hs),
    fun ack hk => ?_, h.accepted_eq, h.taken_eq, h.chunk_lt, h.mss_lt⟩, .single hstep⟩
  rcases List.mem_append.mp hk with hk | hk
  · exact hstep.allows (h.acks ack hk)
  · rw [List.mem_singleton.mp hk]
    right
    rw [hlink]
    simp

/-- **A data segment is stored once and delivered in order.** -/
theorem Linked.processDataSegment {seg : DataSegment} (current : UInt32)
    (hseg : (link a b log).Allows (.data seg.number.toNat seg.payload)) :
    Linked a (b.processDataSegment seg current) log accepted taken ∧
      Steps (link a b log) (link a (b.processDataSegment seg current) log) := by
  have hsame := (handleOption_same b current seg.option).2
  unfold XrayKcpSession.processDataSegment
  simp only
  generalize b.handleOption seg.option current = b' at hsame ⊢
  have h' := h.same_receiver hsame
  rw [← link_receiver hsame.next hsame.packets] at hseg ⊢
  split
  · exact ⟨h', .refl⟩
  obtain ⟨h1, h2⟩ := h'.storeData hseg
  obtain ⟨h3, h4⟩ := Linked.promote (b'.storeData seg).recvPackets.length h1
  exact ⟨h3, h2.trans h4⟩

/-! ## Sending -/

theorem Linked.numberChunk {payload : Bytes} {rest : List Bytes}
    (hp : a.pendingSendChunks = payload :: rest) (hlt : log.length + 1 < 2 ^ 31) :
    Linked (a.numberChunk payload rest) b (log ++ [payload]) accepted taken ∧
      Step (link a b log) (link (a.numberChunk payload rest) b (log ++ [payload])) := by
  have hnext : (a.nextSendNumber + 1).toNat = a.nextSendNumber.toNat + 1 :=
    toNat_succ (by have := h.next_eq; omega)
  have hlink : link (a.numberChunk payload rest) b (log ++ [payload]) =
      { link a b log with
        log := (link a b log).log ++ [payload]
        unacked := (link a b log).unacked ++ [(link a b log).log.length] } := by
    simp only [link, XrayKcpSession.numberChunk, map_append, map_cons, map_nil, h.next_eq]
  have hstep : Step (link a b log) (link (a.numberChunk payload rest) b (log ++ [payload])) := by
    rw [hlink]
    exact Step.number (link a b log) payload
  have htake : b.recvNextNumber.toNat ≤ log.length := h.safe.next_le
  refine ⟨⟨hstep.safe h.safe, by simpa using hlt, ?_, fun seg hs => ?_,
    fun ack hk => hstep.allows (h.acks ack hk), ?_, ?_, fun c hc => ?_, h.mss_lt⟩, hstep⟩
  · simp only [XrayKcpSession.numberChunk, hnext, h.next_eq, length_append, length_singleton]
  · rcases List.mem_append.mp hs with hs | hs
    · exact hstep.allows (h.window seg hs)
    · rw [List.mem_singleton.mp hs]
      show (log ++ [payload])[a.nextSendNumber.toNat]? = some payload
      rw [h.next_eq, List.getElem?_append_right (Nat.le_refl _), Nat.sub_self]
      rfl
  · rw [h.accepted_eq, hp, XrayKcpSession.numberChunk]
    simp
  · rw [h.taken_eq, take_append_of_le_length htake]
  · refine h.chunk_lt c ?_
    rw [hp]
    rcases hc with hc | hc
    · rcases List.mem_append.mp hc with hc | hc
      · exact .inl hc
      · exact .inr (by rw [List.mem_singleton.mp hc]; exact mem_cons_self)
    · exact .inr (mem_cons_of_mem _ hc)

end

/-- The chunks an operation has numbered: those that are no longer pending. -/
def numberedBy (s s' : XrayKcpSession) : List Bytes :=
  s.pendingSendChunks.take (s.pendingSendChunks.length - s'.pendingSendChunks.length)

theorem numberedBy_of_append {s s' : XrayKcpSession} {moved : List Bytes}
    (h : s.pendingSendChunks = moved ++ s'.pendingSendChunks) : numberedBy s s' = moved := by
  unfold numberedBy
  rw [h, length_append, Nat.add_sub_cancel, take_left]

theorem fillSendWindow_go_moved (fuel : Nat) : ∀ (s : XrayKcpSession),
    ∃ moved, s.pendingSendChunks = moved ++ (fillSendWindow.go fuel s).pendingSendChunks := by
  induction fuel with
  | zero => intro s; exact ⟨[], rfl⟩
  | succ fuel ih =>
    intro s
    simp only [fillSendWindow.go]
    split
    · split
      · exact ⟨[], rfl⟩
      rename_i payload rest hp
      obtain ⟨moved, hm⟩ := ih (s.numberChunk payload rest)
      exact ⟨payload :: moved, by rw [hp, cons_append, ← hm]; rfl⟩
    · exact ⟨[], rfl⟩

theorem Linked.fill (fuel : Nat) : ∀ {a : XrayKcpSession} {log : List Bytes}, Linked a b log
    accepted taken → (log ++ numberedBy a (fillSendWindow.go fuel a)).length < 2 ^ 31 →
    Linked (fillSendWindow.go fuel a) b (log ++ numberedBy a (fillSendWindow.go fuel a)) accepted taken ∧
      Steps (link a b log) (link (fillSendWindow.go fuel a) b
        (log ++ numberedBy a (fillSendWindow.go fuel a))) := by
  have hself : ∀ s : XrayKcpSession, numberedBy s s = [] := fun s => numberedBy_of_append (nil_append _).symm
  induction fuel with
  | zero =>
    intro a log h _
    simp only [fillSendWindow.go, hself, append_nil]
    exact ⟨h, .refl⟩
  | succ fuel ih =>
    intro a log h hlt
    simp only [fillSendWindow.go] at hlt ⊢
    by_cases hfull : a.sendWindow.length < a.sendBufferSize
    · rw [if_pos hfull] at hlt ⊢
      cases hp : a.pendingSendChunks with
      | nil =>
        simp only [hself, append_nil]
        exact ⟨h, .refl⟩
      | cons payload rest =>
        rw [hp] at hlt
        obtain ⟨moved, hm⟩ := fillSendWindow_go_moved fuel (a.numberChunk payload rest)
        have hn : numberedBy a (fillSendWindow.go fuel (a.numberChunk payload rest)) =
            payload :: numberedBy (a.numberChunk payload rest)
              (fillSendWindow.go fuel (a.numberChunk payload rest)) := by
          rw [numberedBy_of_append hm]
          exact numberedBy_of_append (by rw [hp, cons_append, ← hm]; rfl)
        rw [hn] at hlt ⊢
        have hl : log.length + 1 < 2 ^ 31 := by
          simp only [length_append, length_cons] at hlt
          omega
        obtain ⟨h1, h2⟩ := h.numberChunk hp hl
        obtain ⟨h3, h4⟩ := ih h1 (by simpa using hlt)
        rw [append_assoc, singleton_append] at h3 h4
        exact ⟨h3, .head h2 h4⟩
    · rw [if_neg hfull]
      simp only [hself, append_nil]
      exact ⟨h, .refl⟩

end

/-! ## Packets

A session takes part in two links: it sends on `out` and acknowledges what it
receives on `back`. -/

/-- What a segment claims is true. -/
def SegmentOk (out back : Link Bytes) : Segment → Prop
  | .data seg => out.Allows (.data seg.number.toNat seg.payload)
  | .ack seg =>
    (∀ n ∈ seg.numbers, back.Allows (.ack n.toNat)) ∧ back.Allows (.upTo seg.receivingNext.toNat)
  | .cmd seg => back.Allows (.upTo seg.receivingNext.toNat)

def PacketOk (out back : Link Bytes) (packet : Bytes) : Prop :=
  ∀ seg ∈ readSegments packet, SegmentOk out back seg

theorem SegmentOk.mono {out back out' back' : Link Bytes} {seg : Segment} (h : SegmentOk out back seg)
    (ho : Steps out out') (hb : Steps back back') : SegmentOk out' back' seg := by
  cases seg with
  | data seg => exact ho.allows (m := .data _ _) h
  | ack seg => exact ⟨fun n hn => hb.allows (h.1 n hn), hb.allows h.2⟩
  | cmd seg => exact hb.allows (m := .upTo _) h

section
variable {a b : XrayKcpSession} {log log' : List Bytes} {accepted accepted' taken taken' : Bytes}
variable (hout : Linked a b log accepted taken) (hback : Linked b a log' accepted' taken')
include hout hback

/-- **A session only sends what is true.** -/
theorem sends_ok {current : UInt32} {p : Bytes} (hp : XrayKcpSession.Sends a current p) :
    PacketOk (link a b log) (link b a log') p := by
  intro seg hseg
  cases hp with
  | acks part pending short =>
    have hlen : (part.map (·.number)).length < 256 := by
      rw [length_map]
      exact Nat.lt_of_le_of_lt short (by decide)
    rw [XrayKcpSession.ackPacket, readSegments_single (readSegment_serializeAck _ _ _ _ _ _ hlen)] at hseg
    rw [List.mem_singleton.mp hseg]
    refine ⟨fun n hn => ?_, Nat.le_refl _⟩
    obtain ⟨ack, hk, rfl⟩ := List.mem_map.mp hn
    exact hback.acks ack (pending ack hk)
  | data seg' kept =>
    have hw := hout.window seg' kept
    have hlen : seg'.payload.length < 65536 :=
      hout.chunk_lt _ (.inl (List.mem_of_getElem? hw))
    rw [XrayKcpSession.dataPacket, readSegments_single (readSegment_serializeData _ _ _ _ _ _ hlen)] at hseg
    rw [List.mem_singleton.mp hseg]
    exact hw
  | cmd cmd known =>
    have h01 : cmd ≠ 0 ∧ cmd ≠ 1 := by
      rcases known with rfl | rfl <;> decide
    rw [XrayKcpSession.cmdPacket, readSegments_single (readSegment_serializeCmd _ _ _ h01.1 h01.2 _ _ _)] at hseg
    rw [List.mem_singleton.mp hseg]
    exact Nat.le_refl _

/-- **One incoming segment** is a run of both links. -/
theorem processSegment_linked (current : UInt32) {seg : Segment}
    (hseg : SegmentOk (link b a log') (link a b log) seg) :
    let a' := a.processSegment seg current
    Linked a' b log accepted taken ∧ Linked b a' log' accepted' taken' ∧
      Steps (link a b log) (link a' b log) ∧ Steps (link b a log') (link b a' log') := by
  cases seg with
  | data seg =>
    have hs := processDataSegment_sender a seg current
    have hw : (a.processDataSegment seg current).sendWindow.map (fun seg => (seg.number, seg.payload)) =
        a.sendWindow.map (fun seg => (seg.number, seg.payload)) := by rw [hs.window]
    obtain ⟨h1, h2⟩ := hback.processDataSegment current hseg
    exact ⟨hout.same_sender hw hs.pending hs.next hs.mss, h1, .of_eq (link_sender hw), h2⟩
  | ack seg =>
    have hr := processAckSegment_receiver a seg current
    obtain ⟨h1, h2⟩ := hout.releases (processAckSegment_releases a seg current)
      (fun s hs hg => by
        rcases hg with hlt | hmem
        · exact received_before hout hseg.2 hs hlt
        · exact hseg.1 _ hmem)
    exact ⟨h1, hback.same_receiver hr, h2, .of_eq (link_receiver hr.next hr.packets)⟩
  | cmd seg =>
    have hr := processCmdSegment_receiver a seg current
    obtain ⟨h1, h2⟩ := hout.releases (processCmdSegment_releases a seg current)
      (fun s hs hlt => received_before hout hseg hs hlt)
    exact ⟨h1, hback.same_receiver hr, h2, .of_eq (link_receiver hr.next hr.packets)⟩

omit hout hback in
theorem processSegments_linked (current : UInt32) (segs : List Segment) : ∀ {a : XrayKcpSession},
    Linked a b log accepted taken → Linked b a log' accepted' taken' →
    (∀ seg ∈ segs, SegmentOk (link b a log') (link a b log) seg) →
    let a' := segs.foldl (fun s seg => s.processSegment seg current) a
    Linked a' b log accepted taken ∧ Linked b a' log' accepted' taken' ∧
      Steps (link a b log) (link a' b log) ∧ Steps (link b a log') (link b a' log') := by
  induction segs with
  | nil => intro a hout hback _; exact ⟨hout, hback, .refl, .refl⟩
  | cons seg segs ih =>
    intro a hout hback hok
    obtain ⟨h1, h2, h3, h4⟩ := processSegment_linked hout hback current (hok seg mem_cons_self)
    obtain ⟨h5, h6, h7, h8⟩ := ih h1 h2
      (fun s hs => (hok s (mem_cons_of_mem _ hs)).mono h4 h3)
    exact ⟨h5, h6, h3.trans h7, h4.trans h8⟩

/-- **A packet of the peer** is a run of both links. -/
theorem input_linked (current : UInt32) {packet : Bytes}
    (hp : PacketOk (link b a log') (link a b log) packet) :
    let a' := a.input packet current
    Linked a' b log accepted taken ∧ Linked b a' log' accepted' taken' ∧
      Steps (link a b log) (link a' b log) ∧ Steps (link b a log') (link b a' log') := by
  have hout' : Linked { a with lastIncoming := current } b log accepted taken :=
    hout.same_sender rfl rfl rfl rfl
  have hback' : Linked b { a with lastIncoming := current } log' accepted' taken' :=
    hback.same_receiver ⟨rfl, rfl, rfl, rfl, rfl⟩
  exact processSegments_linked current (readSegments packet) hout' hback' hp

/-- The moves between states and the numbering of a `flush`. -/
theorem filled_linked (current : UInt32)
    (hlt : (log ++ numberedBy a (a.filled current)).length < 2 ^ 31) :
    let f := a.filled current
    Linked f b (log ++ numberedBy a f) accepted taken ∧ Linked b f log' accepted' taken' ∧
      Steps (link a b log) (link f b (log ++ numberedBy a f)) ∧ link b f log' = link b a log' := by
  obtain ⟨hs, hr⟩ := flushState_same a current
  have hw : (a.flushState current).sendWindow.map (fun seg => (seg.number, seg.payload)) =
      a.sendWindow.map (fun seg => (seg.number, seg.payload)) := by rw [hs.window]
  have h1 : Linked (a.flushState current) b log accepted taken :=
    hout.same_sender hw hs.pending hs.next hs.mss
  have hn : numberedBy a (a.filled current) = numberedBy (a.flushState current)
      (fillSendWindow.go (a.flushState current).pendingSendChunks.length
        (a.flushState current)) := by
    simp only [numberedBy, filled, fillSendWindow,
      XrayKcpSession.updateFirstUnacked, hs.pending]
  have hrecv : XrayKcpSession.SameReceiver a (a.filled current) :=
    hr.trans (fillSendWindow_receiver _)
  simp only
  rw [hn] at hlt ⊢
  obtain ⟨h2, h3⟩ := h1.fill _ hlt
  rw [link_sender hw] at h3
  -- `update_first_unacked` behind the loop touches nothing of the link
  have hu : XrayKcpSession.SameSender (fillSendWindow.go
      (a.flushState current).pendingSendChunks.length (a.flushState current)) (a.filled current) := by
    exact updateFirstUnacked_same _
  have hw' : (a.filled current).sendWindow.map (fun seg => (seg.number, seg.payload)) =
      (fillSendWindow.go (a.flushState current).pendingSendChunks.length
        (a.flushState current)).sendWindow.map (fun seg => (seg.number, seg.payload)) := by rw [hu.window]
  refine ⟨h2.same_sender hw' hu.pending hu.next hu.mss, hback.same_receiver hrecv, ?_,
    link_receiver hrecv.next hrecv.packets⟩
  exact h3

/-- **A `flush`** is a run of the outgoing link, and what it sends is true. -/
theorem flush_linked (current : UInt32)
    (hlt : (log ++ numberedBy a (a.flush current).2).length < 2 ^ 31) :
    let a' := (a.flush current).2
    Linked a' b (log ++ numberedBy a a') accepted taken ∧ Linked b a' log' accepted' taken' ∧
      Steps (link a b log) (link a' b (log ++ numberedBy a a')) ∧ link b a' log' = link b a log' ∧
      ∀ p ∈ (a.flush current).1, PacketOk (link a' b (log ++ numberedBy a a')) (link b a' log') p := by
  by_cases hterm : a.state = .terminated
  · have he : a.flush current = ([], a) := by
      unfold flush
      rw [if_pos hterm]
    have hn : numberedBy a a = [] := numberedBy_of_append (nil_append _).symm
    simp only [he, hn, append_nil]
    exact ⟨hout, hback, .refl, trivial, by simp⟩
  · obtain ⟨hf, hsends⟩ := flush_spec a current hterm
    have hn : numberedBy a (a.flush current).2 = numberedBy a (a.filled current) := by
      unfold numberedBy
      rw [hf.pending]
    simp only
    rw [hn] at hlt ⊢
    obtain ⟨h1, h2, h3, h4⟩ := filled_linked hout hback current hlt
    have hl : link (a.flush current).2 b (log ++ numberedBy a (a.filled current)) =
        link (a.filled current) b (log ++ numberedBy a (a.filled current)) := link_sender hf.window
    have hback' : Linked b (a.flush current).2 log' accepted' taken' ∧
        link b (a.flush current).2 log' = link b (a.filled current) log' := by
      rcases hf.receiver with hr | hr
      · exact ⟨h2.same_receiver hr, link_receiver hr.next hr.packets⟩
      · have he : link b (a.flush current).2 log' =
          link b { a.filled current with pendingAcks := [] } log' := link_receiver hr.next hr.packets
        exact ⟨h2.acks_sent.same_receiver hr, he.trans link_acks_sent⟩
    rw [hl, hback'.2]
    exact ⟨h1.same_sender hf.window hf.pending hf.next hf.mss, hback'.1, h3, h4,
      fun p hp => sends_ok h1 h2 (hsends p hp)⟩

end

end Wrongsv.L3.Kcp
