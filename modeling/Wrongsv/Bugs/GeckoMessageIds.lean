import Wrongsv.L2Machine.QuicObfs.Gecko

/-!
# Gecko: message ids that are used again

A message id has eight bits (server/handler/quic_obfs.rs:273-275). The receiver tells
datagrams apart by source and message id only (:426-429), and keeps what is pending for
eight seconds (:446). If a fragment is lost, that of the datagram 256 later takes its
place, and the two halves are delivered as one datagram.

What holds: if fragments of different datagrams with the same id arrive more than eight
seconds apart, everything that is delivered was sent. The frames must fit the receiver's
buffers, which cut them off (:21,265).

Fix: send all 32 bits of the counter as message id.
-/
namespace Wrongsv.Bugs.GeckoMessageIds
open L1.Gecko L2.Gecko List
open L2.Salamander (quicObfsBufferSize)

/-! ## The sender -/

/-- A datagram with a long header whose frames fit into the buffers. -/
structure Datagram where
  contents : Bytes
  draws : Draws
  long : LongHeader contents
  fits : geckoHeaderSize + divCeil contents.length (chunkCount draws.chunks contents.length) ≤ quicObfsBufferSize

namespace Datagram

def count (d : Datagram) : Nat := chunkCount d.draws.chunks d.contents.length

def chunks (d : Datagram) : List Bytes := chunksOf d.contents d.count

theorem chunks_length (d : Datagram) : d.chunks.length = d.count := chunksOf_length ..

theorem chunks_flatten (d : Datagram) : d.chunks.flatten = d.contents :=
  chunksOf_flatten _ (chunkCount_pos ..)

end Datagram

/-- What is sent for each datagram. -/
def sendAll (config : GeckoConfig) : UInt32 → List Datagram → List (List Bytes)
  | _, [] => []
  | msgId, d :: datagrams =>
    let sent := trySend config d.draws d.contents msgId
    sent.1.1 :: sendAll config sent.2 datagrams

/-- The message id of a datagram, by its number. -/
def idOf (start : UInt32) (i : Nat) : UInt8 := (start + UInt32.ofNat i).toUInt8

theorem idOf_eq_iff (start : UInt32) (i j : Nat) :
    idOf start i = idOf start j ↔ i % 256 = j % 256 := by
  grind [idOf, UInt8.toNat_inj, UInt32.toNat_toUInt8, UInt32.toNat_add, UInt32.toNat_ofNat']

theorem trySend_counter (config : GeckoConfig) (d : Datagram) (msgId : UInt32) :
    (trySend config d.draws d.contents msgId).2 = msgId + 1 := by
  rw [trySend, if_neg (not_not_intro d.long)]

/-- **Everything that is sent** is a frame of a chunk of its datagram. -/
theorem sendAll_frames {config : GeckoConfig} {start : UInt32} {datagrams : List Datagram} :
    ∀ {i : Nat} {sent : List Bytes} {data : Bytes}, (sendAll config start datagrams)[i]? = some sent → data ∈ sent →
      ∃ d idx payload, datagrams[i]? = some d ∧ idx < d.count ∧ d.chunks[idx]? = some payload ∧
        Frame (idOf start i) (UInt8.ofNat d.count) idx payload data := by
  induction datagrams generalizing start with
  | nil =>
    intro i sent data h _
    cases h
  | cons d datagrams ih =>
    intro i sent data h hdata
    rw [sendAll] at h
    cases i with
    | zero =>
      cases h
      have hstart : idOf start 0 = start.toUInt8 := by simp [idOf]
      by_cases htwo : 2 ≤ d.contents.length
      · obtain ⟨sent, hsend, hsent, hframes⟩ := trySend_frames config d.draws d.long htwo d.fits start
        rw [hsend] at hdata
        obtain ⟨idx, hidx, rfl⟩ := getElem_of_mem hdata
        obtain ⟨payload, hchunk, hframe⟩ := hframes idx _ (List.getElem?_eq_getElem hidx)
        exact ⟨d, idx, payload, rfl, ((hsent idx).mp hidx).1, hchunk, by rw [hstart]; exact hframe⟩
      · have hone : d.contents.length = 1 := by
          obtain ⟨first, hfirst, -⟩ := d.long
          have hpos : 0 < d.contents.length := by
            grind
          omega
        rw [trySend_one config d.draws d.long hone] at hdata
        cases hdata
    | succ i =>
      rw [List.getElem?_cons_succ, trySend_counter] at h
      have hid : idOf (start + 1) i = idOf start (i + 1) := by
        unfold idOf
        congr 1
        apply UInt32.toNat_inj.mp
        simp only [UInt32.toNat_add, UInt32.toNat_ofNat', UInt32.reduceToNat]
        omega
      grind

/-! ## The receiver -/

/-- The number of a datagram and one of its fragments, as it arrives. -/
abbrev Arrival := Nat × Received

/-- The network delivers what was sent, as often and in whatever order it likes. -/
def Network (config : GeckoConfig) (start : UInt32) (datagrams : List Datagram) (source : String)
    (arrivals : List Arrival) : Prop :=
  ∀ a ∈ arrivals, a.2.source = source ∧
    ∃ sent, (sendAll config start datagrams)[a.1]? = some sent ∧ a.2.data ∈ sent

/-- Fragments of different datagrams with the same message id are more than eight
seconds apart. -/
def Apart (arrivals : List Arrival) : Prop :=
  arrivals.Pairwise fun a b => a.1 ≠ b.1 → a.1 % 256 = b.1 % 256 →
    a.2.insertTime + geckoReassemblyTtl < b.2.gcTime

section
variable {config : GeckoConfig} {start : UInt32} {datagrams : List Datagram} {source : String}
  {order : Order}

/-- An entry has chunks of one datagram only, and was made when one of them arrived. -/
def Of (start : UInt32) (datagrams : List Datagram) (source : String) (past : List Arrival)
    (k : GeckoReassemblyKey) (e : GeckoReassemblyEntry) : Prop :=
  ∃ i d got, datagrams[i]? = some d ∧ k = ⟨source, idOf start i⟩ ∧ Holds d.chunks got e ∧
    ∃ a ∈ past, a.1 = i ∧ e.deadline = a.2.insertTime + geckoReassemblyTtl

def Inv (start : UInt32) (datagrams : List Datagram) (source : String) (past : List Arrival) (s : GeckoReceiver) : Prop :=
  ∀ k e, s.reassembly.lookup k = some e → Of start datagrams source past k e

theorem inv_new : Inv start datagrams source [] .new := fun _ _ h => (nomatch h)

variable {past past' : List Arrival} {s s' : GeckoReceiver} {k : GeckoReassemblyKey} {e : GeckoReassemblyEntry}
  {i : Nat} {p : Received}

theorem Of.mono (hsub : past ⊆ past')
    (h : Of start datagrams source past k e) : Of start datagrams source past' k e := by
  obtain ⟨i, d, got, hd, hk, hholds, a, ha, hrest⟩ := h
  exact ⟨i, d, got, hd, hk, hholds, a, hsub ha, hrest⟩

section
variable (h : Inv start datagrams source past s)
include h

theorem Inv.put (he : Of start datagrams source past k e)
    (hs' : s'.reassembly = s.reassembly.insert k e) : Inv start datagrams source past s' := by
  intro key e' hlookup
  rw [hs'] at hlookup
  by_cases hk : key = k
  · grind [AList.lookup_insert]
  · rw [AList.lookup_insert_ne hk] at hlookup
    exact h key e' hlookup

theorem Inv.dropEntry (key : GeckoReassemblyKey) :
    Inv start datagrams source past (s.dropEntry key) := by
  intro k e hlookup
  rw [GeckoReceiver.lookup_dropEntry] at hlookup
  split at hlookup
  · cases hlookup
  · exact h k e hlookup

/-- **The entry that a fragment meets** is one of its own datagram. -/
theorem Inv.meets {d : Datagram} (hsource : p.source = source)
    (hd : datagrams[i]? = some d) (htotal : (UInt8.ofNat d.count).toNat = d.chunks.length)
    (hapart : ∀ b ∈ past, b.1 ≠ i → b.1 % 256 = i % 256 → b.2.insertTime + geckoReassemblyTtl < p.gcTime)
    (hgc : Inv start datagrams source (past ++ [(i, p)]) (s.gcReassembly order p.gcTime))
    (henter : (s.gcReassembly order p.gcTime).enter p (idOf start i) (UInt8.ofNat d.count) = some s')
    (hlookup : s'.reassembly.lookup ⟨p.source, idOf start i⟩ = some e) :
    Inv start datagrams source (past ++ [(i, p)]) s' ∧ ∃ got, Holds d.chunks got e ∧
      ∃ b ∈ past ++ [(i, p)], b.1 = i ∧ e.deadline = b.2.insertTime + geckoReassemblyTtl := by
  rcases GeckoReceiver.enter_some henter with ⟨rfl, -⟩ | ⟨-, hnew⟩
  · refine ⟨hgc, ?_⟩
    obtain ⟨hbefore, htime⟩ := GeckoReceiver.lookup_gc hlookup
    obtain ⟨j, d', got, hd', hkey, hholds, b, hb, rfl, hdeadline⟩ := h _ e hbefore
    by_cases hij : b.1 = i
    · grind
    · -- an entry of another datagram would have expired
      grind [idOf_eq_iff]
  · rw [hnew, AList.lookup_insert] at hlookup
    cases hlookup
    have hholds := holds_new htotal p.insertTime
    exact ⟨hgc.put ⟨i, d, [], hd, by rw [← hsource], hholds, (i, p), by simp, rfl, rfl⟩ hnew, [], hholds, (i, p),
      by simp, rfl, rfl⟩

/-- **The step.** What is delivered is the datagram of the fragment. -/
theorem Inv.receive (order : Order) (hsource : p.source = source) {sent : List Bytes}
    (hsent : (sendAll config start datagrams)[i]? = some sent) (hdata : p.data ∈ sent)
    (hapart : ∀ b ∈ past, b.1 ≠ i → b.1 % 256 = i % 256 → b.2.insertTime + geckoReassemblyTtl < p.gcTime) :
    Inv start datagrams source (past ++ [(i, p)]) (s.receive order p).2 ∧
      ∀ out, (s.receive order p).1 = some out → ∃ d ∈ datagrams, out = d.contents := by
  obtain ⟨d, idx, payload, hd, hidx, hchunk, hframe⟩ := sendAll_frames hsent hdata
  have hcount : d.count ≤ 8 := chunkCount_le ..
  have htotal : (UInt8.ofNat d.count).toNat = d.chunks.length := by
    rw [d.chunks_length]
    exact UInt8.toNat_ofNat_of_lt' (by show d.count < 256; omega)
  have hidx' : (UInt8.ofNat idx).toNat = idx := UInt8.toNat_ofNat_of_lt' (by show idx < 256; omega)
  have hgc : Inv start datagrams source (past ++ [(i, p)]) (s.gcReassembly order p.gcTime) := fun k e hlookup =>
    (h k e (GeckoReceiver.lookup_gc hlookup).1).mono (subset_append_left ..)
  rcases GeckoReceiver.receive_cases order s hframe with
    ⟨-, heq⟩ | ⟨s', e, padLen, henter, hlookup, hcases⟩
  · simp_all
  obtain ⟨hinv, got, hholds, b, hb, hbi, hdeadline⟩ := h.meets hsource hd htotal hapart hgc henter hlookup
  rcases hcases with ⟨-, heq⟩ | ⟨stored, hstore, hcases⟩
  · simp_all
  obtain ⟨hstored, hkept⟩ : Holds d.chunks (idx :: got) stored ∧ stored.deadline = e.deadline := by
    rcases hholds.store ⟨padLen, idOf start i, UInt8.ofNat idx, UInt8.ofNat d.count⟩ htotal
      (by rw [hidx']; exact hchunk) with ⟨-, hnone⟩ | ⟨-, stored', hstore', hstored, hkept⟩
    all_goals grind
  have hput : Inv start datagrams source (past ++ [(i, p)]) (s'.put ⟨p.source, idOf start i⟩ stored) :=
    hinv.put ⟨i, d, _, hd, by rw [← hsource], hstored, b, hb, hbi, by rw [hkept, hdeadline]⟩ rfl
  rcases hcases with ⟨-, heq⟩ | ⟨hfull, heq⟩
  · simp_all
  · rw [heq]
    refine ⟨hput.dropEntry _, fun out hout => ?_⟩
    obtain ⟨-, hjoin⟩ := hstored.join hfull
    rw [hjoin, d.chunks_flatten] at hout
    grind

end

/-- **The run.** -/
theorem Inv.run (arrivals : List Arrival) :
    ∀ {past : List Arrival} {s : GeckoReceiver}, Inv start datagrams source past s →
      Network config start datagrams source arrivals → Apart (past ++ arrivals) →
      ∀ out ∈ s.run order (arrivals.map (·.2)), ∃ d ∈ datagrams, out = d.contents := by
  induction arrivals with
  | nil => exact fun _ _ _ out hout => absurd hout not_mem_nil
  | cons a arrivals ih =>
    intro past s h hnetwork hapart out hout
    obtain ⟨hsource, sent, hsent, hdata⟩ := hnetwork a mem_cons_self
    have hpast : ∀ b ∈ past, b.1 ≠ a.1 → b.1 % 256 = a.1 % 256 →
        b.2.insertTime + geckoReassemblyTtl < a.2.gcTime := fun b hb =>
      (List.pairwise_append.mp hapart).2.2 b hb a mem_cons_self
    obtain ⟨hnext, hown⟩ := h.receive order hsource hsent hdata hpast
    rcases List.mem_append.mp hout with hnow | hlater
    · exact hown out (Option.mem_toList.mp hnow)
    · refine ih hnext (fun b hb => hnetwork b (mem_cons_of_mem _ hb)) ?_ out hlater
      rw [append_assoc]
      exact hapart

end

/-- **Nothing is fabricated** if fragments of different datagrams with the same message
id are more than eight seconds apart. -/
theorem nothing_fabricated (config : GeckoConfig) (start : UInt32) (datagrams : List Datagram) (source : String)
    (order : Order) (arrivals : List Arrival) (hnetwork : Network config start datagrams source arrivals)
    (hapart : Apart arrivals) :
    ∀ out ∈ GeckoReceiver.run order .new (arrivals.map (·.2)), ∃ d ∈ datagrams, out = d.contents :=
  inv_new.run arrivals hnetwork hapart

def config : GeckoConfig := ⟨1, 6, Nat.one_pos, by decide, by decide⟩

/-- Two bytes in two chunks. -/
def datagram (first second : UInt8) (h : first &&& 0x80 ≠ 0) : Datagram :=
  ⟨[first, second], ⟨0, 0, fun _ _ => 0⟩, ⟨first, rfl, h⟩,
    show geckoHeaderSize + divCeil 2 (chunkCount 0 2) ≤ quicObfsBufferSize by decide⟩

/-- The last of 257 datagrams has the message id of the first one. -/
def datagrams : List Datagram :=
  List.replicate 256 (datagram 0xc0 1 (by decide)) ++ [datagram 0xd0 2 (by decide)]

def arrival (i : Nat) (data : Bytes) (now : Nat) : Arrival := (i, ⟨"", data, now, now, 1500⟩)

/-- The fragments of the first datagram, the second one twice, and ten seconds later a
fragment of the last one. -/
def slow : List Arrival :=
  [arrival 0 [0x80, 0, 0x12, 0, 0, 1] 0, arrival 0 [0x80, 0, 0x12, 0, 0, 1] 0, arrival 0
    [0x80, 0, 0x02, 0, 0, 0xc0] 0, arrival 256 [0x80, 0, 0x12, 0, 0, 2] (10 ^ 10)]

/-- One fragment of the first datagram and one of the last one, at the same time. -/
def fast : List Arrival :=
  [arrival 0 [0x80, 0, 0x02, 0, 0, 0xc0] 0, arrival 256 [0x80, 0, 0x12, 0, 0, 2] 0]

theorem network_of_any {arrivals : List Arrival} (h : ∀ a ∈ arrivals, a.2.source = "" ∧
    (((sendAll config 0 datagrams)[a.1]?).any fun sent => a.2.data ∈ sent) = true) :
    Network config 0 datagrams "" arrivals := by
  intro a ha
  obtain ⟨hsource, hany⟩ := h a ha
  cases hsent : (sendAll config 0 datagrams)[a.1]? with
  | none =>
    rw [hsent] at hany
    cases hany
  | some sent =>
    rw [hsent] at hany
    exact ⟨hsource, sent, rfl, of_decide_eq_true hany⟩

theorem slow_not_fabricated : GeckoReceiver.run anyOrder .new (slow.map (·.2)) = [[0xc0, 1]] ∧
    ∀ out ∈ GeckoReceiver.run anyOrder .new (slow.map (·.2)), ∃ d ∈ datagrams, out = d.contents :=
  ⟨by decide, nothing_fabricated config 0 datagrams "" anyOrder slow
    (network_of_any (by decide +kernel)) (by unfold Apart; decide)⟩

/-- In two chunks, its frames are longer than the buffers. -/
def tooLong : Bytes := List.replicate 4100 0xc0

/-- What is delivered has a byte of each of two datagrams. And of a datagram that is too
long for the buffers only a part is delivered. -/
theorem fast_fabricated :
    (Network config 0 datagrams "" fast ∧ GeckoReceiver.run anyOrder .new (fast.map (·.2)) =
      [[0xc0, 2]] ∧ ∀ d ∈ datagrams, d.contents ≠ [0xc0, 2]) ∧
    (GeckoReceiver.run anyOrder .new
      ((trySend config ⟨0, 0, fun _ _ => 0⟩ tooLong 0).1.1.map fun data => ⟨"", data, 0, 0, 4100⟩)).map List.length =
        [4086] :=
  ⟨⟨network_of_any (by decide +kernel), by decide, by decide +kernel⟩, by decide +kernel⟩

end Wrongsv.Bugs.GeckoMessageIds
