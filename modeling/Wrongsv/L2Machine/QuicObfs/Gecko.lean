import Mathlib.Data.List.MinMax
import Wrongsv.Core.Slots
import Wrongsv.Core.Table
import Wrongsv.L1Encoding.GeckoFrame
import Wrongsv.L2Machine.QuicObfs.Salamander

/-!
# Gecko: datagrams in fragments

The socket cuts a datagram with a long header into a random number of fragments and
pads them (server/handler/quic_obfs.rs:277-287,344-387). The receiver
collects the fragments by source and message id (:389-486). What is pending expires
after eight seconds, and there are bounds on how much may be pending
(:289-328,431-435).

The socket below is whatever takes and gives datagrams; it cuts off what does not fit
into a buffer. Random numbers, the time and the order of a hash map are given.

`trySend_frames`: what is sent are frames of the chunks of the datagram.
`Holds.receive`: what the next frame does to the entry of its datagram.
-/
namespace Wrongsv.L2.Gecko
open L1.Gecko List
open L2.Salamander (quicObfsBufferSize)

def geckoMaxReassembly : Nat := 4096
def geckoMaxPerSource : Nat := 8

/-- `GECKO_REASSEMBLY_TTL`, in nanoseconds. -/
def geckoReassemblyTtl : Nat := 8 * 10 ^ 9

/-- The sizes that `wrap_async_udp_socket_gecko` accepts. -/
structure GeckoConfig where
  minPacketSize : Nat
  maxPacketSize : Nat
  min_pos : 1 ≤ minPacketSize
  min_le_max : minPacketSize ≤ maxPacketSize
  max_le : maxPacketSize ≤ quicObfsBufferSize

/-! ## Sending -/

/-- What the random number generator gives for a datagram: a number for the chunks,
one for the size, and the padding of each fragment. -/
structure Draws where
  chunks : UInt32
  target : UInt32
  noise : Nat → Nat → UInt8

inductive SendError where
  | frame (e : FrameError)
  /-- the slice of the buffer is out of range: the call panics -/
  | slice
  deriving DecidableEq, Repr

/-- `usize::div_ceil` -/
def divCeil (a b : Nat) : Nat := (a + b - 1) / b

def chunkCount (draw : UInt32) (len : Nat) : Nat :=
  min (max (2 + draw.toNat % (8 - 2 + 1)) 1) (max len 1)

/-- quic_obfs.rs:277-287 -/
def chooseFragmentTargetSize (config : GeckoConfig) (draw : UInt32) (payloadLen chunks : Nat) :
    Nat :=
  let lower := max config.minPacketSize (geckoHeaderSize + divCeil payloadLen chunks)
  if config.maxPacketSize ≤ lower then lower
  else lower + draw.toNat % (config.maxPacketSize - lower + 1)

/-- The loop over the chunks; what was sent before it ended. -/
def sendChunks (noise : Nat → Nat → UInt8) (msgId : UInt8) (contents : Bytes)
    (chunkCount targetSize chunkSize : Nat) : List Nat → List Bytes × Except SendError Unit
  | [] => ([], .ok ())
  | idx :: rest =>
    let start := idx * chunkSize
    let stop := min (start + chunkSize) contents.length
    if stop ≤ start then ([], .ok ())
    else
      let payload := (contents.drop start).take (stop - start)
      let padLen := targetSize - (geckoHeaderSize + payload.length)
      let header : GeckoFrameHeader := ⟨UInt16.ofNat padLen, msgId, UInt8.ofNat idx, UInt8.ofNat chunkCount⟩
      if quicObfsBufferSize * 8 < targetSize then ([], .error .slice)
      else
        match encodeGeckoFrame (noise idx) header payload targetSize with
        | .error e => ([], .error (.frame e))
        | .ok fragment =>
          let sent := sendChunks noise msgId contents chunkCount targetSize chunkSize rest
          (fragment :: sent.1, sent.2)

/-- Whether a datagram goes out in fragments. -/
def LongHeader (contents : Bytes) : Prop :=
  ∃ first, contents.head? = some first ∧ first &&& 0x80 ≠ 0

instance (contents : Bytes) : Decidable (LongHeader contents) :=
  decidable_of_iff (contents.head?.any fun first => first &&& 0x80 ≠ 0) (by
    cases contents <;> simp [LongHeader])

/-- What is sent, and the counter of the message ids afterwards. -/
def trySend (config : GeckoConfig) (draws : Draws) (contents : Bytes) (msgId : UInt32) :
    (List Bytes × Except SendError Unit) × UInt32 :=
  if ¬ LongHeader contents then (([contents], .ok ()), msgId)
  else
    let count := chunkCount draws.chunks contents.length
    let targetSize := chooseFragmentTargetSize config draws.target contents.length count
    (sendChunks draws.noise msgId.toUInt8 contents count targetSize (divCeil contents.length count)
      (List.range count), msgId + 1)

/-! ## Receiving -/

structure GeckoReassemblyKey where
  addr : String
  msgId : UInt8
  deriving DecidableEq, Repr

structure GeckoReassemblyEntry where
  chunks : Slots UInt8
  received : Nat
  total : UInt8
  deadline : Nat

abbrev Reassembly := AList fun _ : GeckoReassemblyKey => GeckoReassemblyEntry

abbrev Order := HashOrder (Sigma fun _ : GeckoReassemblyKey => GeckoReassemblyEntry)

def anyOrder : Order := ⟨id, fun _ => List.Perm.refl _⟩

structure GeckoReceiver where
  reassembly : Reassembly
  perSource : Table String Nat

/-- A datagram of the socket below, the times at which the clock is read, and the room
in the buffer of the caller. -/
structure Received where
  source : String
  data : Bytes
  gcTime : Nat
  insertTime : Nat
  room : Nat

def GeckoReassemblyEntry.new (totalChunks : UInt8) (now : Nat) : GeckoReassemblyEntry :=
  ⟨Slots.new totalChunks.toNat, 0, totalChunks, now + geckoReassemblyTtl⟩

/-- The entry with the chunk, unless it does not fit or has come before. -/
def GeckoReassemblyEntry.store (entry : GeckoReassemblyEntry) (header : GeckoFrameHeader)
    (payload : Bytes) : Option GeckoReassemblyEntry :=
  if entry.total ≠ header.totalChunks ∨ entry.chunks.length ≤ header.chunkIdx.toNat ∨
      (entry.chunks.getD header.chunkIdx.toNat none).isSome then none
  else some { entry with
    chunks := entry.chunks.set header.chunkIdx.toNat (some payload), received := entry.received + 1 }

namespace GeckoReceiver

def new : GeckoReceiver := ⟨∅, .empty⟩

def dropEntry (s : GeckoReceiver) (key : GeckoReassemblyKey) : GeckoReceiver :=
  if key ∈ s.reassembly then
    ⟨s.reassembly.erase key,
      match s.perSource key.addr with
      | none => s.perSource
      | some count =>
        if count - 1 = 0 then s.perSource.remove key.addr else s.perSource.insert key.addr (count - 1)⟩
  else s

def expired (order : Order) (now : Nat) (s : GeckoReceiver) : List GeckoReassemblyKey :=
  ((order.visit s.reassembly.entries).filter fun e => e.2.deadline < now).map (·.1)

/-- The oldest entries are dropped while there are too many. -/
def evict (order : Order) : Nat → GeckoReceiver → GeckoReceiver
  | 0, s => s
  | fuel + 1, s =>
    if geckoMaxReassembly ≤ s.reassembly.keys.length then
      match (order.visit s.reassembly.entries).argmin (·.2.deadline) with
      | some oldest => evict order fuel (s.dropEntry oldest.1)
      | none => s
    else s

def gcReassembly (order : Order) (now : Nat) (s : GeckoReceiver) : GeckoReceiver :=
  let s := (s.expired order now).foldl dropEntry s
  s.evict order s.reassembly.keys.length

/-- The entry of a message is made if there is none; `none` if the source has too many. -/
def enter (s : GeckoReceiver) (p : Received) (msgId totalChunks : UInt8) : Option GeckoReceiver :=
  if ⟨p.source, msgId⟩ ∈ s.reassembly then some s
  else if geckoMaxPerSource ≤ (s.perSource p.source).getD 0 then none
  else some ⟨s.reassembly.insert ⟨p.source, msgId⟩ (.new totalChunks p.insertTime),
    s.perSource.insert p.source ((s.perSource p.source).getD 0 + 1)⟩

def put (s : GeckoReceiver) (key : GeckoReassemblyKey) (entry : GeckoReassemblyEntry) :
    GeckoReceiver :=
  { s with reassembly := s.reassembly.insert key entry }

/-- A fragment; what is delivered. -/
def fragment (order : Order) (p : Received) (header : GeckoFrameHeader) (payload : Bytes)
    (s : GeckoReceiver) : Option Bytes × GeckoReceiver :=
  let key : GeckoReassemblyKey := ⟨p.source, header.msgId⟩
  let s := s.gcReassembly order p.gcTime
  match s.enter p header.msgId header.totalChunks with
  | none => (none, s)
  | some s =>
    match s.reassembly.lookup key with
    | none => (none, s)
    | some entry =>
      match entry.store header payload with
      | none => (none, s)
      | some entry =>
        let s := s.put key entry
        if entry.received < entry.total.toNat then (none, s)
        else if p.room < entry.chunks.join.length then (none, s.dropEntry key)
        else (some entry.chunks.join, s.dropEntry key)

/-- One round of the loop; what is delivered. -/
def receive (order : Order) (p : Received) (s : GeckoReceiver) : Option Bytes × GeckoReceiver :=
  match p.data.take quicObfsBufferSize with
  | [] => (some [], s)
  | first :: rest =>
    if first &&& geckoFlagFragment = 0 then (some ((first :: rest).take p.room), s)
    else
      match decodeGeckoFrame (first :: rest) with
      | .error _ => (none, s)
      | .ok (header, payload) => s.fragment order p header payload

/-- What is delivered, call after call, until the socket below has no more. -/
def run (order : Order) : GeckoReceiver → List Received → List Bytes
  | _, [] => []
  | s, p :: packets => (s.receive order p).1.toList ++ run order (s.receive order p).2 packets

end GeckoReceiver

/-! ## What is sent -/

/-- The chunks of a datagram, also those that are empty and not sent. -/
def chunksOf (contents : Bytes) (count : Nat) : List Bytes :=
  let size := divCeil contents.length count
  (List.range count).map fun i => (contents.drop (i * size)).take size

/-- A frame of a fragment that gets through the buffers. -/
structure Frame (msgId total : UInt8) (idx : Nat) (payload data : Bytes) : Prop where
  short : data.length ≤ quicObfsBufferSize
  decoded : ∃ padLen, decodeGeckoFrame data = .ok (⟨padLen, msgId, UInt8.ofNat idx, total⟩, payload)

theorem le_mul_divCeil (a : Nat) {b : Nat} (hb : 1 ≤ b) : a ≤ b * divCeil a b := by
  unfold divCeil
  have hmod := Nat.mod_lt (a + b - 1) hb
  have hdiv := Nat.div_add_mod (a + b - 1) b
  omega

theorem divCeil_le {a b c : Nat} (hb : 1 ≤ b) (h : a ≤ b * c) : divCeil a b ≤ c := by
  have hlt : a + b - 1 < b * (c + 1) := by
    rw [Nat.mul_succ]
    omega
  exact Nat.lt_succ_iff.mp (Nat.div_lt_of_lt_mul hlt)

theorem divCeil_pos {a b : Nat} (ha : 1 ≤ a) (hb : 1 ≤ b) : 1 ≤ divCeil a b := by
  have h := le_mul_divCeil a hb
  grind

theorem flatten_windows (l : Bytes) (size count : Nat) :
    ((List.range count).map fun i => (l.drop (i * size)).take size).flatten = l.take (count * size) := by
  induction count with
  | zero => simp
  | succ count ih =>
    rw [range_succ, map_append, flatten_append, ih, Nat.succ_mul, take_add]
    simp

variable {count : Nat} (contents : Bytes)

/-- **The chunks are the datagram.** -/
theorem chunksOf_flatten (hcount : 1 ≤ count) :
    (chunksOf contents count).flatten = contents := by
  unfold chunksOf
  rw [flatten_windows]
  exact take_of_length_le (le_mul_divCeil _ hcount)

theorem chunksOf_length (count : Nat) : (chunksOf contents count).length = count := by
  simp [chunksOf]

variable (draw : UInt32)

theorem chunkCount_le (len : Nat) : chunkCount draw len ≤ 8 := by
  unfold chunkCount
  omega

theorem chunkCount_pos (len : Nat) : 1 ≤ chunkCount draw len := by
  unfold chunkCount
  omega

theorem two_le_chunkCount {len : Nat} (hlen : 2 ≤ len) : 2 ≤ chunkCount draw len := by
  unfold chunkCount
  omega

variable (config : GeckoConfig)

/-- The size of a frame is at least that of a chunk, and fits into the buffers if a
chunk does. -/
theorem targetSize_bounds (draw : UInt32) (len count : Nat) :
    geckoHeaderSize + divCeil len count ≤ chooseFragmentTargetSize config draw len count ∧
      chooseFragmentTargetSize config draw len count ≤
        max quicObfsBufferSize (geckoHeaderSize + divCeil len count) := by
  have hmax := config.max_le
  have hmin := config.min_le_max
  unfold chooseFragmentTargetSize
  simp only
  split
  · omega
  have hmod : draw.toNat % (config.maxPacketSize - max config.minPacketSize (geckoHeaderSize + divCeil len count) + 1) <
      config.maxPacketSize - max config.minPacketSize (geckoHeaderSize + divCeil len count) + 1 :=
    Nat.mod_lt _ (Nat.succ_pos _)
  omega

theorem frame_of_chunk (noise : Nat → UInt8) (msgId : UInt8) (payload : Bytes) (htwo : 2 ≤ count)
    (height : count ≤ 8) {idx : Nat} (hidx : idx < count) {targetSize : Nat}
    (htarget : geckoHeaderSize + payload.length ≤ targetSize) (hsmall : targetSize ≤ quicObfsBufferSize) :
    ∃ data, encodeGeckoFrame noise
        ⟨UInt16.ofNat (targetSize - (geckoHeaderSize + payload.length)), msgId, UInt8.ofNat idx, UInt8.ofNat count⟩
        payload targetSize = .ok data ∧
      Frame msgId (UInt8.ofNat count) idx payload data := by
  have hpad : (UInt16.ofNat (targetSize - (geckoHeaderSize + payload.length))).toNat =
      targetSize - (geckoHeaderSize + payload.length) := by
    rw [UInt16.toNat_ofNat', Nat.mod_eq_of_lt]
    have hbuffer : targetSize ≤ 2048 := hsmall
    omega
  have hgood : ¬ (⟨UInt16.ofNat (targetSize - (geckoHeaderSize + payload.length)), msgId,
      UInt8.ofNat idx, UInt8.ofNat count⟩ : GeckoFrameHeader).Bad := by
    have hc : (UInt8.ofNat count).toNat = count := UInt8.toNat_ofNat_of_lt' (by show count < 256; omega)
    have hi : (UInt8.ofNat idx).toNat = idx := UInt8.toNat_ofNat_of_lt' (by show idx < 256; omega)
    have hmin : geckoMinFragmentChunks.toNat = 2 := rfl
    have hmax : geckoMaxFragmentChunks.toNat = 8 := rfl
    unfold GeckoFrameHeader.Bad
    simp only [gt_iff_lt, ge_iff_le, UInt8.lt_iff_toNat_lt, UInt8.le_iff_toNat_le, hc, hi, hmin, hmax]
    omega
  have hroom : geckoHeaderSize + (UInt16.ofNat (targetSize - (geckoHeaderSize + payload.length))).toNat + payload.length ≤
      targetSize := by
    omega
  obtain ⟨data, hdata, hlen, -⟩ := encode_ok noise hgood payload hroom
  refine ⟨data, hdata, ?_, _, decode_encode hdata⟩
  grind

theorem take_clamped (start size : Nat) :
    (contents.drop start).take (min (start + size) contents.length - start) = (contents.drop start).take size := by
  grind [take_of_length_le]

/-- **The loop over the chunks** from some index on: a frame for each chunk that is
not empty. -/
theorem sendChunks_frames (noise : Nat → Nat → UInt8) (msgId : UInt8) (contents : Bytes)
    {targetSize : Nat} (htwo : 2 ≤ count) (height : count ≤ 8) (hlen : 1 ≤ contents.length)
    (htarget : geckoHeaderSize + divCeil contents.length count ≤ targetSize)
    (hsmall : targetSize ≤ quicObfsBufferSize) (m : Nat) :
    ∀ j, j + m = count → ∃ sent,
      sendChunks noise msgId contents count targetSize (divCeil contents.length count) (List.range' j m) =
        (sent, .ok ()) ∧
      (∀ i, i < sent.length ↔ i < m ∧ (j + i) * divCeil contents.length count < contents.length) ∧
      ∀ i data, sent[i]? = some data → ∃ payload, (chunksOf contents count)[j + i]? = some payload ∧
        Frame msgId (UInt8.ofNat count) (j + i) payload data := by
  have hsize := divCeil_pos (b := count) hlen (by omega)
  induction m with
  | zero =>
    intro j _
    exact ⟨[], rfl, fun i => by simp, fun i data h => (nomatch h)⟩
  | succ m ih =>
    intro j hj
    set size := divCeil contents.length count
    rw [List.range'_succ, sendChunks]
    by_cases hstart : contents.length ≤ j * size
    · -- the chunks from here on are empty
      refine ⟨[], by rw [if_pos (by omega)], fun i => ?_, fun i data h => (nomatch h)⟩
      grind
    · have hpayload := take_clamped contents (j * size) size
      have hplen : ((contents.drop (j * size)).take size).length ≤ size := length_take_le ..
      have hj' : j < count := by omega
      have htarget' : geckoHeaderSize + ((contents.drop (j * size)).take size).length ≤ targetSize := by omega
      obtain ⟨data, hdata, hframe⟩ := frame_of_chunk (noise j) msgId _ htwo height hj' htarget' hsmall
      obtain ⟨sent, hsent, hcount, hframes⟩ := ih (j + 1) (by omega)
      refine ⟨data :: sent, ?_, fun i => ?_, fun i d hd => ?_⟩
      · grind
      · cases i with
        | zero =>
          simp
          omega
        | succ i =>
          have hi := hcount i
          grind
      all_goals grind [chunksOf]

/-- **What is sent** for a datagram that is long enough to be cut. -/
theorem trySend_frames (draws : Draws) {contents : Bytes} (hlong : LongHeader contents)
    (htwo : 2 ≤ contents.length)
    (hfits : geckoHeaderSize + divCeil contents.length (chunkCount draws.chunks contents.length) ≤ quicObfsBufferSize)
    (msgId : UInt32) :
    ∃ sent, trySend config draws contents msgId = ((sent, .ok ()), msgId + 1) ∧
      (∀ i, i < sent.length ↔ i < chunkCount draws.chunks contents.length ∧
        i * divCeil contents.length (chunkCount draws.chunks contents.length) < contents.length) ∧
      ∀ i data, sent[i]? = some data → ∃ payload,
        (chunksOf contents (chunkCount draws.chunks contents.length))[i]? = some payload ∧
          Frame msgId.toUInt8 (UInt8.ofNat (chunkCount draws.chunks contents.length)) i payload data := by
  obtain ⟨hlower, hupper⟩ := targetSize_bounds config draws.target contents.length (chunkCount draws.chunks contents.length)
  obtain ⟨sent, hsent, hcount, hframes⟩ := sendChunks_frames draws.noise msgId.toUInt8 contents
    (two_le_chunkCount draws.chunks htwo) (chunkCount_le ..) (by omega) hlower (by omega) _ 0 (Nat.zero_add _)
  grind [trySend, range_eq_range']

theorem trySend_one (draws : Draws) {contents : Bytes} (hlong : LongHeader contents)
    (hone : contents.length = 1) (msgId : UInt32) :
    (trySend config draws contents msgId).1 = ([], .error (.frame .header)) := by
  have hcount : chunkCount draws.chunks contents.length = 1 := by
    unfold chunkCount
    omega
  have hsize : divCeil contents.length 1 = 1 := by rw [hone]; rfl
  obtain ⟨-, hupper⟩ := targetSize_bounds config draws.target contents.length 1
  have hbuffer : ¬ quicObfsBufferSize * 8 < chooseFragmentTargetSize config draws.target contents.length 1 := by
    unfold quicObfsBufferSize geckoHeaderSize at *
    omega
  rw [trySend, if_neg (not_not_intro hlong)]
  simp only [hcount, hsize, range_one, sendChunks]
  rw [if_neg (by omega), if_neg hbuffer, encodeGeckoFrame, if_pos (.inl (show UInt8.ofNat 1 < geckoMinFragmentChunks by decide))]

/-! ## Expiry -/

namespace GeckoReceiver

theorem lookup_dropEntry (s : GeckoReceiver) (key k : GeckoReassemblyKey) :
    (s.dropEntry key).reassembly.lookup k = if k = key then none else s.reassembly.lookup k := by
  unfold dropEntry
  by_cases hk : k = key
  all_goals grind [AList.lookup_erase, AList.lookup_eq_none, AList.lookup_erase_ne]

theorem length_dropEntry_le (s : GeckoReceiver) (key : GeckoReassemblyKey) :
    (s.dropEntry key).reassembly.keys.length ≤ s.reassembly.keys.length := by
  grind [dropEntry, AList.keys_erase]

theorem length_dropEntry_lt {s : GeckoReceiver} {key : GeckoReassemblyKey} (h : key ∈ s.reassembly) :
    (s.dropEntry key).reassembly.keys.length < s.reassembly.keys.length := by
  have hmem : key ∈ s.reassembly.keys := AList.mem_keys.mp h
  grind [dropEntry, AList.keys_erase]

theorem lookup_dropAll (keys : List GeckoReassemblyKey) (k : GeckoReassemblyKey) :
    ∀ s : GeckoReceiver, (keys.foldl dropEntry s).reassembly.lookup k =
      if k ∈ keys then none else s.reassembly.lookup k := by
  induction keys with
  | nil => intro s; rfl
  | cons key keys ih => grind [lookup_dropEntry]

theorem length_dropAll_le (keys : List GeckoReassemblyKey) : ∀ s : GeckoReceiver,
    (keys.foldl dropEntry s).reassembly.keys.length ≤ s.reassembly.keys.length := by
  induction keys with
  | nil => intro s; exact Nat.le_refl _
  | cons key keys ih => exact fun s => Nat.le_trans (ih _) (length_dropEntry_le s key)

theorem mem_expired (order : Order) (now : Nat) (s : GeckoReceiver) (k : GeckoReassemblyKey) :
    k ∈ s.expired order now ↔ ∃ e, s.reassembly.lookup k = some e ∧ e.deadline < now := by
  unfold expired
  simp only [mem_map, mem_filter, (order.perm _).mem_iff, decide_eq_true_eq]
  constructor
  · rintro ⟨⟨k', e⟩, ⟨hmem, hlate⟩, rfl⟩
    exact ⟨e, AList.mem_lookup_iff.mpr hmem, hlate⟩
  · rintro ⟨e, hlookup, hlate⟩
    exact ⟨⟨k, e⟩, ⟨AList.mem_lookup_iff.mp hlookup, hlate⟩, rfl⟩

theorem evict_of_small (order : Order) (fuel : Nat) {s : GeckoReceiver}
    (h : s.reassembly.keys.length < geckoMaxReassembly) : s.evict order fuel = s := by
  cases fuel with
  | zero => rfl
  | succ fuel => rw [evict, if_neg (Nat.not_le.mpr h)]

theorem lookup_evict (order : Order) {k : GeckoReassemblyKey} {e : GeckoReassemblyEntry} (fuel : Nat) :
    ∀ {s : GeckoReceiver}, (s.evict order fuel).reassembly.lookup k = some e → s.reassembly.lookup k = some e := by
  induction fuel with
  | zero => exact fun h => h
  | succ fuel ih => grind [evict, lookup_dropEntry]

/-- The loop of `evict` ends because there are few enough. -/
theorem length_evict (order : Order) (fuel : Nat) :
    ∀ {s : GeckoReceiver}, s.reassembly.keys.length ≤ fuel →
      (s.evict order fuel).reassembly.keys.length < geckoMaxReassembly := by
  induction fuel with
  | zero =>
    intro s h
    exact Nat.lt_of_le_of_lt h (by decide)
  | succ fuel ih =>
    intro s h
    rw [evict]
    split
    · rename_i hmany
      split
      · rename_i oldest holdest
        have hmem : oldest ∈ s.reassembly.entries := (order.perm _).mem_iff.mp (argmin_mem holdest)
        have hkey : oldest.1 ∈ s.reassembly := AList.mem_keys.mpr (mem_map_of_mem hmem)
        exact ih (Nat.lt_succ_iff.mp (Nat.lt_of_lt_of_le (length_dropEntry_lt hkey) h))
      · -- there is an oldest one among at least one
        rename_i hnone
        have hnil := List.perm_nil.mp ((List.argmin_eq_none.mp hnone ▸ order.perm s.reassembly.entries).symm)
        grind [AList.keys]
    · rename_i hfew
      exact Nat.not_le.mp hfew

variable {order : Order} {now : Nat} {s : GeckoReceiver} {k : GeckoReassemblyKey}
  {e : GeckoReassemblyEntry}

/-- **What is left** has not expired and was there before. -/
theorem lookup_gc (h : (s.gcReassembly order now).reassembly.lookup k = some e) :
    s.reassembly.lookup k = some e ∧ now ≤ e.deadline := by
  have hdrop := lookup_evict order _ h
  grind [lookup_dropAll, mem_expired]

theorem lookup_gc_of_small (hsmall : s.reassembly.keys.length < geckoMaxReassembly)
    (h : s.reassembly.lookup k = some e) (htime : now ≤ e.deadline) :
    (s.gcReassembly order now).reassembly.lookup k = some e := by
  grind [gcReassembly, evict_of_small, length_dropAll_le, lookup_dropAll, mem_expired]

/-! ## What a fragment does -/

/-- The entry that is there after `enter`: an old one, or a new one. -/
theorem enter_some {p : Received} {msgId total : UInt8} {s' : GeckoReceiver} (h : s.enter p msgId total = some s') :
    (s' = s ∧ ∃ e, s.reassembly.lookup ⟨p.source, msgId⟩ = some e) ∨ (s.reassembly.lookup ⟨p.source, msgId⟩ = none ∧
        s'.reassembly = s.reassembly.insert ⟨p.source, msgId⟩ (.new total p.insertTime)) := by
  unfold enter at h
  grind [Option.isSome_iff_exists, AList.lookup_isSome, AList.lookup_eq_none]

/-- **One frame.** It is refused; or it is not stored; or it is stored, and its message
is complete or not. -/
theorem receive_cases (order : Order) (s : GeckoReceiver) {msgId total : UInt8} {idx : Nat}
    {payload : Bytes} {p : Received} (hframe : Frame msgId total idx payload p.data) :
    ((s.gcReassembly order p.gcTime).enter p msgId total = none ∧
      s.receive order p = (none, s.gcReassembly order p.gcTime)) ∨
    ∃ s' entry padLen, (s.gcReassembly order p.gcTime).enter p msgId total = some s' ∧
      s'.reassembly.lookup ⟨p.source, msgId⟩ = some entry ∧
      ((entry.store ⟨padLen, msgId, UInt8.ofNat idx, total⟩ payload = none ∧ s.receive order p = (none, s')) ∨
        ∃ stored, entry.store ⟨padLen, msgId, UInt8.ofNat idx, total⟩ payload = some stored ∧
          ((stored.received < stored.total.toNat ∧ s.receive order p = (none, s'.put
            ⟨p.source, msgId⟩ stored)) ∨ (stored.total.toNat ≤ stored.received ∧ s.receive order p =
              (if p.room < stored.chunks.join.length then none else some stored.chunks.join,
                (s'.put ⟨p.source, msgId⟩ stored).dropEntry ⟨p.source, msgId⟩)))) := by
  obtain ⟨padLen, hdecoded⟩ := hframe.decoded
  have hreceive : s.receive order p = s.fragment order p ⟨padLen, msgId, UInt8.ofNat idx, total⟩ payload := by
    unfold receive
    rw [take_of_length_le hframe.short]
    match hdata : p.data with
    | [] =>
      rw [hdata] at hdecoded
      cases hdecoded
    | first :: rest => grind [flagged_of_decode]
  rw [hreceive]
  unfold fragment
  simp only
  cases henter : (s.gcReassembly order p.gcTime).enter p msgId total with
  | none => exact .inl ⟨rfl, rfl⟩
  | some s' =>
    right
    have hsome : ∃ entry, s'.reassembly.lookup ⟨p.source, msgId⟩ = some entry := by
      rcases enter_some henter with ⟨rfl, hold⟩ | ⟨-, hnew⟩
      all_goals simp_all
    grind

end GeckoReceiver

/-! ## Entries of a datagram -/

/-- An entry in which some chunks of a datagram have arrived, and nothing else. -/
structure Holds (chunks : List Bytes) (got : List Nat) (e : GeckoReassemblyEntry) : Prop where
  total : e.total.toNat = chunks.length
  received : e.received = got.length
  arrived : Slots.Arrived chunks got e.chunks

theorem holds_new {chunks : List Bytes} {total : UInt8} (htotal : total.toNat = chunks.length)
    (now : Nat) : Holds chunks [] (.new total now) := by
  refine ⟨htotal, rfl, ?_⟩
  show Slots.Arrived chunks [] (Slots.new total.toNat)
  rw [htotal]
  exact Slots.arrived_new chunks

theorem isSome_getD_iff (slots : Slots UInt8) (i : Nat) :
    (slots.getD i none).isSome = true ↔ slots.Filled i := by
  unfold Slots.Filled
  rw [List.getD_eq_getElem?_getD]
  cases slots[i]? with
  | none => simp
  | some slot => cases slot <;> simp

section
variable {chunks : List Bytes} {got : List Nat} {e : GeckoReassemblyEntry}
  {header : GeckoFrameHeader} {payload : Bytes}

/-- A chunk of the same datagram is stored if it has not come before. -/
theorem Holds.store (h : Holds chunks got e) (header : GeckoFrameHeader) (htotal : header.totalChunks.toNat = chunks.length)
    (hchunk : chunks[header.chunkIdx.toNat]? = some payload) :
    (header.chunkIdx.toNat ∈ got ∧ e.store header payload = none) ∨
      (header.chunkIdx.toNat ∉ got ∧ ∃ stored, e.store header payload = some stored ∧
        Holds chunks (header.chunkIdx.toNat :: got) stored ∧ stored.deadline = e.deadline) := by
  have hlt : header.chunkIdx.toNat < chunks.length := (List.getElem?_eq_some_iff.mp hchunk).1
  have hsame : e.total = header.totalChunks := UInt8.toNat_inj.mp (h.total.trans htotal.symm)
  by_cases hmem : header.chunkIdx.toNat ∈ got
  · left
    refine ⟨hmem, if_pos (.inr (.inr ?_))⟩
    exact (isSome_getD_iff ..).mpr ((h.arrived.filled _).mpr hmem)
  · right
    refine ⟨hmem, _, if_neg ?_, ⟨h.total, ?_, h.arrived.set hchunk hmem⟩, rfl⟩
    · rw [not_or, not_or, not_not, Nat.not_le, isSome_getD_iff, h.arrived.filled, h.arrived.part.length]
      exact ⟨hsame, hlt, hmem⟩
    · rw [length_cons, ← h.received]

theorem Holds.join (h : Holds chunks got e) (hfull : e.total.toNat ≤ e.received) :
    got.length = chunks.length ∧ e.chunks.join = chunks.flatten := by
  have hlen : got.length = chunks.length := by
    have hle := h.arrived.length_le
    rw [h.total, h.received] at hfull
    omega
  exact ⟨hlen, h.arrived.part.join (h.arrived.full_iff.mpr hlen)⟩

end

end Wrongsv.L2.Gecko
