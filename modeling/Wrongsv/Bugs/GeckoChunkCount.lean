import Wrongsv.L2Machine.QuicObfs.Gecko

/-!
# Gecko: chunks that are announced and not sent

The sender draws a number of chunks, rounds their size up, and leaves out the chunks
behind the end of the datagram (server/handler/quic_obfs.rs:349-364). All frames announce
the number that was drawn, so the receiver waits for the others until the entry expires:
of ten bytes in eight chunks of two, five are sent. A datagram of one byte is not sent at
all: its one chunk is refused by `encode_gecko_frame` (:572-577).

What holds: a datagram of at most 1500 bytes is delivered if and only if it has two bytes
or more and its last chunk is not empty. The receiver must have room for it: fewer than
eight entries for the source (:431-435), and fewer than 4095 in all (:302-312).

Fix: announce `len.div_ceil(payload_chunk_size)`, and pass datagrams of one byte through.
-/
namespace Wrongsv.Bugs.GeckoChunkCount
open L1.Gecko L2.Gecko List
open L2.Salamander (quicObfsBufferSize)

/-! ## Delivery -/

/-- The receiver has room for a message when its first fragment comes, and has nothing
else pending under its source and id. -/
structure Room (order : Order) (s : GeckoReceiver) (first : Received) (msgId : UInt8) : Prop where
  fresh : (s.gcReassembly order first.gcTime).reassembly.lookup ⟨first.source, msgId⟩ = none
  source : ((s.gcReassembly order first.gcTime).perSource first.source).getD 0 < geckoMaxPerSource
  table : (s.gcReassembly order first.gcTime).reassembly.keys.length + 1 < geckoMaxReassembly

/-- Exactly the fragments that were sent arrive, once each and in time. -/
structure Arrives (order : Order) (s : GeckoReceiver) (msgId : UInt8) (contents : Bytes)
    (sent : List Bytes) (first : Received) (others : List Received) : Prop where
  perm : ((first :: others).map (·.data)).Perm sent
  source : ∀ p ∈ others, p.source = first.source
  inTime : ∀ p ∈ others, p.gcTime ≤ first.insertTime + geckoReassemblyTtl
  buffer : ∀ p ∈ first :: others, contents.length ≤ p.room
  room : Room order s first msgId

/-- The datagram is sent, and is what is delivered when its fragments arrive. -/
def Delivers (config : GeckoConfig) (draws : Draws) (contents : Bytes) (msgId : UInt32) : Prop :=
  (trySend config draws contents msgId).1.2 = .ok () ∧
    ∀ order s first others,
      Arrives order s msgId.toUInt8 contents (trySend config draws contents msgId).1.1 first others →
      GeckoReceiver.run order s (first :: others) = [contents]

/-- The chunks that are announced are sent. -/
def AllSent (draws : Draws) (contents : Bytes) : Prop :=
  2 ≤ contents.length ∧
    (chunkCount draws.chunks contents.length - 1) *
      divCeil contents.length (chunkCount draws.chunks contents.length) < contents.length

instance (draws : Draws) (contents : Bytes) : Decidable (AllSent draws contents) :=
  inferInstanceAs (Decidable (_ ∧ _))

/-! ## Fragments of one datagram -/

section
variable {order : Order} {s : GeckoReceiver} {msgId : UInt8} {chunks : List Bytes} {got : List Nat}

/-- A frame of the chunk with this index. -/
def FrameAt (msgId : UInt8) (chunks : List Bytes) (data : Bytes) (i : Nat) : Prop :=
  ∃ payload, chunks[i]? = some payload ∧ Frame msgId (UInt8.ofNat chunks.length) i payload data

/-- Some of the fragments have arrived, and some have not. -/
structure Progress (s : GeckoReceiver) (key : GeckoReassemblyKey) (chunks : List Bytes)
    (got : List Nat) (deadline : Nat) : Prop where
  entry : ∃ e, s.reassembly.lookup key = some e ∧ Holds chunks got e ∧ e.deadline = deadline
  small : s.reassembly.keys.length < geckoMaxReassembly

theorem length_put {s : GeckoReceiver} {key : GeckoReassemblyKey} {e e' : GeckoReassemblyEntry}
    (h : s.reassembly.lookup key = some e) :
    (s.put key e').reassembly.keys.length = s.reassembly.keys.length := by
  have hmem : key ∈ s.reassembly.keys := AList.mem_keys.mp (AList.lookup_isSome.mp (by rw [h]; rfl))
  have hpos := length_pos_of_mem hmem
  rw [GeckoReceiver.put, AList.keys_insert, length_cons, length_erase_of_mem hmem]
  omega

variable {deadline : Nat}

/-- **The next fragment**, once its entry is there. -/
theorem Progress.receive {p : Received} {s' : GeckoReceiver} {i : Nat} (hsmall : chunks.length ≤ 8)
    (henter : (s.gcReassembly order p.gcTime).enter p msgId (UInt8.ofNat chunks.length) = some s')
    (h : Progress s' ⟨p.source, msgId⟩ chunks got deadline) (hframe : FrameAt msgId chunks p.data i) (hi : i ∉ got)
    (hroom : chunks.flatten.length ≤ p.room) :
    (got.length + 1 < chunks.length ∧ ∃ next, s.receive order p = (none, next) ∧
      Progress next ⟨p.source, msgId⟩ chunks (i :: got) deadline) ∨
    (got.length + 1 = chunks.length ∧ (s.receive order p).1 = some chunks.flatten) := by
  obtain ⟨e, hlookup, hholds, hdeadline⟩ := h.entry
  obtain ⟨payload, hchunk, hframe⟩ := hframe
  have hlt : i < chunks.length := (List.getElem?_eq_some_iff.mp hchunk).1
  have hidx : (UInt8.ofNat i).toNat = i := UInt8.toNat_ofNat_of_lt' (by show i < 256; omega)
  have htotal : (UInt8.ofNat chunks.length).toNat = chunks.length :=
    UInt8.toNat_ofNat_of_lt' (by show chunks.length < 256; omega)
  rcases GeckoReceiver.receive_cases order s hframe with ⟨hnone, -⟩ | ⟨s'', e', padLen, henter', hlookup', hcases⟩
  · rw [henter] at hnone
    cases hnone
  cases henter.symm.trans henter'
  cases hlookup.symm.trans hlookup'
  rcases hholds.store ⟨padLen, msgId, UInt8.ofNat i, UInt8.ofNat chunks.length⟩ htotal
    (by rw [hidx]; exact hchunk) with ⟨hmem, -⟩ | ⟨-, stored, hstore, hstored, hkept⟩
  · rw [hidx] at hmem
    exact absurd hmem hi
  rw [hidx] at hstored
  rcases hcases with ⟨hnone, -⟩ | ⟨stored', hstore', hcases⟩
  · rw [hstore] at hnone
    cases hnone
  cases hstore.symm.trans hstore'
  rcases hcases with ⟨hmore, heq⟩ | ⟨hfull, heq⟩
  · left
    rw [hstored.total, hstored.received, length_cons] at hmore
    refine ⟨hmore, _, heq, ⟨stored, AList.lookup_insert _, hstored, by rw [hkept, hdeadline]⟩, ?_⟩
    rw [length_put hlookup]
    exact h.small
  · right
    obtain ⟨hlen, hjoin⟩ := hstored.join hfull
    simp_all

theorem Progress.enter {p : Received} (h : Progress s ⟨p.source, msgId⟩ chunks got deadline)
    (order : Order) (htime : p.gcTime ≤ deadline) (total : UInt8) :
    (s.gcReassembly order p.gcTime).enter p msgId total = some (s.gcReassembly order p.gcTime) ∧
      Progress (s.gcReassembly order p.gcTime) ⟨p.source, msgId⟩ chunks got deadline := by
  obtain ⟨e, hlookup, hholds, hdeadline⟩ := h.entry
  have hkept : (s.gcReassembly order p.gcTime).reassembly.lookup ⟨p.source, msgId⟩ = some e :=
    GeckoReceiver.lookup_gc_of_small h.small hlookup (by rw [hdeadline]; exact htime)
  refine ⟨?_, ⟨e, hkept, hholds, hdeadline⟩, GeckoReceiver.length_evict order _ (Nat.le_refl _)⟩
  rw [GeckoReceiver.enter, if_pos (AList.lookup_isSome.mp (by rw [hkept]; rfl))]

theorem Room.enter {p : Received} (h : Room order s p msgId) {chunks : List Bytes} (hsmall : chunks.length ≤ 8) :
    ∃ s', (s.gcReassembly order p.gcTime).enter p msgId (UInt8.ofNat chunks.length) = some s' ∧
      Progress s' ⟨p.source, msgId⟩ chunks [] (p.insertTime + geckoReassemblyTtl) := by
  have hnot : (⟨p.source, msgId⟩ : GeckoReassemblyKey) ∉ (s.gcReassembly order p.gcTime).reassembly :=
    AList.lookup_eq_none.mp h.fresh
  have htotal : (UInt8.ofNat chunks.length).toNat = chunks.length :=
    UInt8.toNat_ofNat_of_lt' (by show chunks.length < 256; omega)
  refine ⟨_, by rw [GeckoReceiver.enter, if_neg hnot, if_neg (Nat.not_le.mpr h.source)],
    ⟨_, AList.lookup_insert _, holds_new htotal p.insertTime, rfl⟩, ?_⟩
  have hlen : ((s.gcReassembly order p.gcTime).reassembly.keys.erase ⟨p.source, msgId⟩).length ≤
      (s.gcReassembly order p.gcTime).reassembly.keys.length := length_erase_le
  have htable := h.table
  rw [AList.keys_insert, length_cons]
  omega

/-- **The rest of the fragments**: the last one completes the datagram if all chunks
are there. -/
theorem Progress.run (order : Order) {source : String} (hsmall : chunks.length ≤ 8)
    {packets : List Received} {indices : List Nat}
    (hframes : List.Forall₂ (fun p i => FrameAt msgId chunks p.data i) packets indices) :
    ∀ {s : GeckoReceiver} {got : List Nat}, Progress s ⟨source, msgId⟩ chunks got deadline →
      (indices ++ got).Nodup → (∀ i ∈ indices ++ got, i < chunks.length) → got.length < chunks.length →
      (∀ p ∈ packets, p.source = source ∧ p.gcTime ≤ deadline ∧ chunks.flatten.length ≤ p.room) →
      s.run order packets = if got.length + packets.length = chunks.length then [chunks.flatten] else [] := by
  induction hframes with
  | nil =>
    intro s got _ _ _ hgot _
    rw [if_neg (by simp; omega)]
    rfl
  | @cons p i packets indices hframe hframes ih =>
    intro s got h hnodup hbound hgot hpackets
    obtain ⟨rfl, htime, hroom⟩ := hpackets p mem_cons_self
    have hlen : packets.length = indices.length := hframes.length_eq
    obtain ⟨hi, hrest⟩ : i ∉ indices ++ got ∧ (indices ++ got).Nodup := List.nodup_cons.mp hnodup
    have hcount : (i :: indices ++ got).length ≤ chunks.length := Slots.length_le_of_nodup hnodup hbound
    obtain ⟨henter, hprogress⟩ := h.enter order htime (UInt8.ofNat chunks.length)
    rcases hprogress.receive hsmall henter hframe (fun hmem => hi (mem_append_right _ hmem)) hroom with
      ⟨hmore, next, heq, hnext⟩ | ⟨hlast, heq⟩
    · have hnodup' : (indices ++ i :: got).Nodup := List.nodup_middle.mpr hnodup
      have hbound' : ∀ j ∈ indices ++ i :: got, j < chunks.length := fun j hj =>
        hbound j (List.perm_middle.mem_iff.mp hj)
      have htail := ih hnext hnodup' hbound' (by simpa using hmore)
        fun q hq => hpackets q (mem_cons_of_mem _ hq)
      rw [GeckoReceiver.run, heq]
      grind
    · -- nothing can follow the last fragment
      have hnil : packets = [] := by
        rw [length_append, length_cons] at hcount
        exact eq_nil_of_length_eq_zero (by omega)
      subst hnil
      rw [GeckoReceiver.run, heq, if_pos (by simpa using hlast)]
      rfl

theorem forall₂_range {sent : List Bytes} (hframes : ∀ i data, sent[i]? = some data → FrameAt msgId chunks data i) :
    List.Forall₂ (FrameAt msgId chunks) sent (List.range sent.length) := by
  rw [forall₂_iff_get]
  refine ⟨List.length_range.symm, fun i h₁ h₂ => ?_⟩
  rw [get_eq_getElem, get_eq_getElem, getElem_range]
  exact hframes i _ (List.getElem?_eq_getElem h₁)

/-- **All fragments**, in any order: they are delivered if there are as many as
announced. -/
theorem run_arrives (order : Order) (s : GeckoReceiver) (htwo : 2 ≤ chunks.length) (hsmall : chunks.length ≤ 8) {sent : List Bytes}
    (hframes : ∀ i data, sent[i]? = some data → FrameAt msgId chunks data i) {first : Received} {others : List Received}
    (h : Arrives order s msgId chunks.flatten sent first others) : s.run order (first :: others) =
    if sent.length = chunks.length then [chunks.flatten] else [] := by
  obtain ⟨indices, hindices, hperm⟩ := perm_comp_forall₂ h.perm (forall₂_range hframes)
  rw [forall₂_map_left_iff] at hindices
  have hbound : ∀ i ∈ indices, i < chunks.length := by
    intro i hi
    have hlt : i < sent.length := List.mem_range.mp (hperm.mem_iff.mp hi)
    obtain ⟨payload, hchunk, -⟩ := hframes i _ (List.getElem?_eq_getElem hlt)
    exact (List.getElem?_eq_some_iff.mp hchunk).1
  have hnodup : indices.Nodup := hperm.nodup_iff.mpr nodup_range
  have hcount : (first :: others).length = sent.length := by
    have hlen := h.perm.length_eq
    rwa [length_map] at hlen
  cases hindices with
  | @cons _ i _ indices hframe hrest =>
    obtain ⟨s', henter, hprogress⟩ := h.room.enter hsmall
    rcases hprogress.receive hsmall henter hframe not_mem_nil (h.buffer first mem_cons_self) with
      ⟨hmore, next, heq, hnext⟩ | ⟨hlast, -⟩
    · have htail := hnext.run order hsmall hrest (List.nodup_middle.mpr (by rwa [append_nil]))
        (fun j hj => hbound j (by rw [List.perm_middle.mem_iff, append_nil] at hj; exact hj)) hmore
        fun q hq => ⟨h.source q hq, h.inTime q hq, h.buffer q (mem_cons_of_mem _ hq)⟩
      have hsum : [i].length + others.length = sent.length := by
        grind
      rw [hsum] at htail
      rw [GeckoReceiver.run, heq]
      exact htail
    · rw [length_nil] at hlast
      omega

end

/-! ## The condition -/

/-- The fragments in the order in which they were sent, all at the same time. -/
def received (contents : Bytes) (data : Bytes) : Received := ⟨"", data, 0, 0, contents.length⟩

theorem arrives_received (contents : Bytes) (msgId : UInt8) (data : Bytes) (rest : List Bytes) :
    Arrives anyOrder .new msgId contents (data :: rest) (received contents data) (rest.map (received contents)) := by
  refine ⟨?_, fun p hp => ?_, fun p hp => ?_, fun p hp => ?_, ⟨rfl, Nat.zero_lt_succ _, Nat.succ_lt_succ (Nat.zero_lt_succ _)⟩⟩
  · rw [← map_cons, map_map]
    exact List.Perm.of_eq (map_id _)
  · obtain ⟨d, -, rfl⟩ := List.mem_map.mp hp
    rfl
  · obtain ⟨d, -, rfl⟩ := List.mem_map.mp hp
    exact Nat.zero_le _
  · rw [← map_cons] at hp
    obtain ⟨d, -, rfl⟩ := List.mem_map.mp hp
    exact Nat.le_refl _

/-- **What is sent and what comes of it.** The datagram is delivered if there are as many
fragments as chunks, and nothing is otherwise. -/
theorem sent_delivered (config : GeckoConfig) (draws : Draws) {contents : Bytes} (hlong : LongHeader contents)
    (htwo : 2 ≤ contents.length) (hlen : contents.length ≤ 1500) (msgId : UInt32) :
    ∃ sent, trySend config draws contents msgId = ((sent, .ok ()), msgId + 1) ∧ sent ≠ [] ∧
      (sent.length = chunkCount draws.chunks contents.length ↔ AllSent draws contents) ∧
      ∀ order s first others, Arrives order s msgId.toUInt8 contents sent first others →
        GeckoReceiver.run order s (first :: others) =
          if sent.length = chunkCount draws.chunks contents.length then [contents] else [] := by
  set count := chunkCount draws.chunks contents.length with hcountDef
  have hcount : 2 ≤ count := two_le_chunkCount draws.chunks htwo
  have hsize : divCeil contents.length count ≤ 750 := divCeil_le (by omega) (by
    omega)
  obtain ⟨sent, hsend, hsent, hframes⟩ := trySend_frames config draws hlong htwo
    (by unfold geckoHeaderSize quicObfsBufferSize; rw [← hcountDef]; omega) msgId
  rw [← hcountDef] at hsent hframes
  have hchunks : (chunksOf contents count).length = count := chunksOf_length contents count
  have hflatten : (chunksOf contents count).flatten = contents := chunksOf_flatten contents (by omega)
  have hframes' : ∀ i data, sent[i]? = some data → FrameAt msgId.toUInt8 (chunksOf contents count) data i := by
    intro i data hdata
    obtain ⟨payload, hchunk, hframe⟩ := hframes i data hdata
    exact ⟨payload, hchunk, by rw [hchunks]; exact hframe⟩
  refine ⟨sent, hsend, ?_, ?_, fun order s first others h => ?_⟩
  · exact ne_nil_of_length_pos ((hsent 0).mpr ⟨by omega, by omega⟩)
  · -- all chunks are sent if the last one is
    have hlast := hsent (count - 1)
    have hend := hsent count
    unfold AllSent
    rw [← hcountDef]
    omega
  all_goals grind [run_arrives, chunkCount_le]

/-- **Datagrams are delivered if and only if their announced chunks are sent.** -/
theorem datagram_delivered_iff (config : GeckoConfig) (draws : Draws) (contents : Bytes)
    (msgId : UInt32) (hlong : LongHeader contents) (hlen : contents.length ≤ 1500) :
    Delivers config draws contents msgId ↔ AllSent draws contents := by
  by_cases htwo : 2 ≤ contents.length
  · obtain ⟨sent, hsend, hne, hall, hrun⟩ := sent_delivered config draws hlong htwo hlen msgId
    unfold Delivers
    rw [hsend, ← hall]
    constructor
    · rintro ⟨-, hdelivers⟩
      by_contra hfew
      obtain ⟨data, rest, rfl⟩ := exists_cons_of_ne_nil hne
      have harrives := arrives_received contents msgId.toUInt8 data rest
      have hdelivered := hdelivers _ _ _ _ harrives
      rw [hrun _ _ _ _ harrives, if_neg hfew] at hdelivered
      cases hdelivered
    · intro hfull
      refine ⟨rfl, fun order s first others h => ?_⟩
      rw [hrun order s first others h, if_pos hfull]
  · -- one byte
    have hpos : 1 ≤ contents.length := by
      obtain ⟨first, hfirst, -⟩ := hlong
      cases contents with
      | nil => cases hfirst
      | cons _ _ => simp
    refine iff_of_false (fun h => ?_) (fun h => htwo h.1)
    have herror := h.1
    rw [trySend_one config draws hlong (by omega)] at herror
    cases herror

/-- Frames without padding for chunks of two bytes. -/
def config : GeckoConfig := ⟨1, 7, by decide, by decide, by decide⟩

def drawn (chunks : UInt32) : Draws := ⟨chunks, 0, fun _ _ => 0⟩

/-- Two bytes in two chunks. -/
theorem two_byte_datagram_delivered : Delivers config (drawn 0) [0xc0, 1] 0 :=
  (datagram_delivered_iff config (drawn 0) [0xc0, 1] 0 ⟨0xc0, rfl, by decide⟩ (by decide)).mpr (by decide)

def tenBytes : Bytes := [0xc0, 1, 2, 3, 4, 5, 6, 7, 8, 9]

def frames (contents : Bytes) (msgId : UInt32) : List Received :=
  (trySend config (drawn 0) contents msgId).1.1.map (received contents)

/-- One byte is not sent. Ten bytes in eight chunks: five are sent, and nothing is
delivered. Two bytes behind the first fragments of eight others: nothing is
delivered either. -/
theorem announced_chunks_missing :
    trySend config (drawn 0) [0xc0] 0 = (([], .error (.frame .header)), 1) ∧
    ((trySend config (drawn 6) tenBytes 0).1.2 = .ok () ∧ (trySend config (drawn 6) tenBytes 0).1.1.length = 5 ∧
      GeckoReceiver.run anyOrder .new ((trySend config (drawn 6) tenBytes 0).1.1.map (received tenBytes)) = []) ∧
    GeckoReceiver.run anyOrder .new
      ([0, 1, 2, 3, 4, 5, 6, 7].flatMap (fun msgId => (frames [0xc0, 1] msgId).take 1) ++ frames [0xc0, 1] 8) = [] := by
  decide

end Wrongsv.Bugs.GeckoChunkCount
