import Wrongsv.Core

/-!
# Gecko: frames of fragments

A fragment of a datagram is sent behind five bytes and some padding
(server/handler/quic_obfs.rs:227-233,567-613): the flag, the message id,
the index and the number of the fragments in half a byte each, and the length of the
padding.

`decode_encode`: what is encoded is decoded as it was.
-/
namespace Wrongsv.L1.Gecko
open List

def geckoFlagFragment : UInt8 := 0x80
def geckoHeaderSize : Nat := 5
def geckoMinFragmentChunks : UInt8 := 2
def geckoMaxFragmentChunks : UInt8 := 8

structure GeckoFrameHeader where
  padLen : UInt16
  msgId : UInt8
  chunkIdx : UInt8
  totalChunks : UInt8
  deriving DecidableEq, Repr

inductive FrameError where
  /-- invalid gecko frame header -/
  | header
  /-- gecko frame buffer too small -/
  | bufferTooSmall
  /-- invalid gecko frame -/
  | frame
  /-- invalid gecko chunk counters -/
  | chunkCounters
  /-- truncated gecko frame -/
  | truncated
  deriving DecidableEq, Repr

/-- The check of both directions. -/
def GeckoFrameHeader.Bad (header : GeckoFrameHeader) : Prop :=
  header.totalChunks < geckoMinFragmentChunks ∨ header.totalChunks > geckoMaxFragmentChunks ∨
    header.chunkIdx ≥ header.totalChunks

instance (header : GeckoFrameHeader) : Decidable header.Bad := inferInstanceAs (Decidable (_ ∨ _))

/-- The random bytes in front of a payload. -/
def padding (noise : Nat → UInt8) (padLen : UInt16) : Bytes := (List.range padLen.toNat).map noise

/-- `out` has `room` bytes; what is written to it.
quic_obfs.rs:567-590 -/
def encodeGeckoFrame (noise : Nat → UInt8) (header : GeckoFrameHeader) (payload : Bytes)
    (room : Nat) : Except FrameError Bytes :=
  if header.Bad then .error .header
  else if room < geckoHeaderSize + header.padLen.toNat + payload.length then .error .bufferTooSmall
  else .ok ([geckoFlagFragment, header.msgId, (header.chunkIdx <<< 4) ||| (header.totalChunks &&&
    0x0f)] ++ be16 header.padLen.toNat ++ padding noise header.padLen ++ payload)

/-- quic_obfs.rs:592-613 -/
def decodeGeckoFrame : Bytes → Except FrameError (GeckoFrameHeader × Bytes)
  | flag :: msgId :: counters :: hi :: lo :: rest =>
    if flag &&& geckoFlagFragment = 0 then .error .frame
    else
      let header : GeckoFrameHeader := ⟨UInt16.ofNat (u16 hi lo), msgId, counters >>> 4, counters &&& 0x0f⟩
      if header.Bad then .error .chunkCounters
      else if rest.length < header.padLen.toNat then .error .truncated
      else .ok (header, rest.drop header.padLen.toNat)
  | _ => .error .frame

/-! ## Round trip -/

theorem counters_halves :
    ∀ i < 8, ∀ t < 9, ((UInt8.ofNat i <<< 4) ||| (UInt8.ofNat t &&& 0x0f)) >>> 4 = UInt8.ofNat i ∧
      ((UInt8.ofNat i <<< 4) ||| (UInt8.ofNat t &&& 0x0f)) &&& 0x0f = UInt8.ofNat t := by
  decide

variable {header : GeckoFrameHeader}

theorem counters_decoded (h : ¬ header.Bad) :
    ((header.chunkIdx <<< 4) ||| (header.totalChunks &&& 0x0f)) >>> 4 = header.chunkIdx ∧
      ((header.chunkIdx <<< 4) ||| (header.totalChunks &&& 0x0f)) &&& 0x0f = header.totalChunks := by
  unfold GeckoFrameHeader.Bad geckoMaxFragmentChunks at h
  simp only [not_or, gt_iff_lt, ge_iff_le, UInt8.lt_iff_toNat_lt, UInt8.le_iff_toNat_le] at h
  obtain ⟨-, hmax, hidx⟩ := h
  have hmax' : header.totalChunks.toNat ≤ 8 := Nat.not_lt.mp hmax
  have hhalves := counters_halves header.chunkIdx.toNat (by omega) header.totalChunks.toNat (by omega)
  rwa [UInt8.ofNat_toNat, UInt8.ofNat_toNat] at hhalves

theorem padding_length (noise : Nat → UInt8) (padLen : UInt16) :
    (padding noise padLen).length = padLen.toNat := by
  simp [padding]

theorem uint16_ofNat_u16_be16 (n : UInt16) :
    UInt16.ofNat (u16 (UInt8.ofNat (n.toNat / 256)) (UInt8.ofNat n.toNat)) = n := by
  rw [u16_be16 _ n.toNat_lt, UInt16.ofNat_toNat]

/-- **Round trip of a frame.** -/
theorem decode_encode {noise : Nat → UInt8} {payload : Bytes} {room : Nat} {frame : Bytes}
    (h : encodeGeckoFrame noise header payload room = .ok frame) : decodeGeckoFrame frame = .ok (header, payload) := by
  unfold encodeGeckoFrame at h
  split at h
  · cases h
  rename_i hgood
  split at h
  · cases h
  cases h
  obtain ⟨hidx, htotal⟩ := counters_decoded hgood
  have hpad := padding_length noise header.padLen
  simp only [be16, cons_append, nil_append]
  rw [decodeGeckoFrame, if_neg (by decide)]
  simp only [uint16_ofNat_u16_be16, hidx, htotal]
  rw [if_neg hgood, if_neg (by rw [length_append]; omega), ← hpad, drop_left]

theorem encode_ok (noise : Nat → UInt8) (hgood : ¬ header.Bad) (payload : Bytes) {room : Nat}
    (hroom : geckoHeaderSize + header.padLen.toNat + payload.length ≤ room) :
    ∃ frame, encodeGeckoFrame noise header payload room = .ok frame ∧
      frame.length = geckoHeaderSize + header.padLen.toNat + payload.length ∧ frame.head? = some geckoFlagFragment := by
  refine ⟨_, by rw [encodeGeckoFrame, if_neg hgood, if_neg (Nat.not_lt.mpr hroom)], ?_, rfl⟩
  simp only [length_append, length_cons, length_nil, be16_length, padding_length, geckoHeaderSize]

theorem flagged_of_decode {first : UInt8} {rest payload : Bytes}
    (h : decodeGeckoFrame (first :: rest) = .ok (header, payload)) : first &&& geckoFlagFragment ≠ 0 := by
  intro hflag
  unfold decodeGeckoFrame at h
  split at h
  · rename_i heq
    cases heq
    rw [if_pos hflag] at h
    cases h
  · cases h

end Wrongsv.L1.Gecko
