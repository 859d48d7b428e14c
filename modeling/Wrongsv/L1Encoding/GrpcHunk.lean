import Wrongsv.Core.Framing

/-!
# gRPC frames of Hunk messages

The frame codec of grpc/lib.rs: a compression flag, a length of four
bytes, and the protobuf message `Hunk` with one field of bytes
(crates/grpc/proto/gun.proto). An empty field is not written, so the message of
no data is no bytes.

The message encoding is that of prost and a parameter (`HunkCodec`): its decoder reads
back what was encoded, and may take messages that no encoder writes. `onlyData` is a
codec for this one field.

Results: `Hunk.frame`.
-/
namespace Wrongsv.L1.GrpcHunk
open Framing List

/-! ## The message -/

/-- `Hunk::encode` and `Hunk::decode`, with `none` for an error. -/
structure HunkCodec where
  encode : Bytes → Bytes
  decode : Bytes → Option Bytes
  encode_nil : encode [] = []
  decode_encode : ∀ data, (encode data).length < 2 ^ 32 → decode (encode data) = some data

/-! ## The frame -/

/-- lib.rs:145-160; the other errors are not returned here -/
inductive GrpcError where
  | protoDecode
  | compressionNotSupported (flag : UInt8)
  deriving DecidableEq, Repr

/-- The length is cut to 32 bits.
lib.rs:39-51 -/
def encodeHunkFrame (c : HunkCodec) (data : Bytes) : Bytes :=
  0 :: (beBytes 4 (c.encode data).length ++ c.encode data)

/-- lib.rs:57-78 -/
def decodeHunkFrame (c : HunkCodec) : Bytes → Except GrpcError (Option (Bytes × Bytes))
  | compression :: a :: b :: d :: e :: rest =>
    if compression ≠ 0 then .error (.compressionNotSupported compression)
    else if rest.length < ofBe [a, b, d, e] then .ok none
    else
      match c.decode (rest.take (ofBe [a, b, d, e])) with
      | none => .error .protoDecode
      | some data => .ok (some (data, rest.drop (ofBe [a, b, d, e])))
  | _ => .ok none

section
variable (c : HunkCodec)

theorem decodeHunkFrame_short {b : Bytes} (h : b.length < 5) : decodeHunkFrame c b = .ok none := by
  match b with
  | [] | [_] | [_, _] | [_, _, _] | [_, _, _, _] => rfl
  | _ :: _ :: _ :: _ :: _ :: _ => simp at h; omega

theorem decodeHunkFrame_header {len : Bytes} (h : len.length = 4) (rest : Bytes) :
    decodeHunkFrame c (0 :: (len ++ rest)) =
      if rest.length < ofBe len then .ok none
      else match c.decode (rest.take (ofBe len)) with
        | none => .error .protoDecode
        | some data => .ok (some (data, rest.drop (ofBe len))) := by
  match len with
  | [a, b, d, e] => simp [decodeHunkFrame]

theorem decodeHunkFrame_shrinks {b rest data : Bytes}
    (h : decodeHunkFrame c b = .ok (some (data, rest))) : rest.length < b.length := by
  unfold decodeHunkFrame at h
  split at h
  · split at h
    · cases h
    split at h
    · cases h
    split at h
    · cases h
    cases h
    simp only [length_drop, length_cons]
    omega
  · cases h

/-- `decode_hunk_frame` as a decoder. -/
def decoder : Decoder GrpcError Bytes := ⟨decodeHunkFrame c, decodeHunkFrame_shrinks c⟩

end

/-- The data of a message whose length fits into the header. -/
structure Hunk (c : HunkCodec) where
  data : Bytes
  fits : (c.encode data).length < 2 ^ 32

def Hunk.empty (c : HunkCodec) : Hunk c := ⟨[], by rw [c.encode_nil]; decide⟩

variable {c : HunkCodec}

theorem Hunk.ofBe_length (h : Hunk c) :
    ofBe (beBytes 4 (c.encode h.data).length) = (c.encode h.data).length :=
  ofBe_beBytes (by have := h.fits; omega)

/-- **An encoded hunk is a frame.** -/
def Hunk.frame (h : Hunk c) : Frame (decoder c) where
  bytes := encodeHunkFrame c h.data
  value := h.data
  whole := by
    intro t
    show decodeHunkFrame c (0 :: (beBytes 4 (c.encode h.data).length ++ c.encode h.data ++ t)) = _
    rw [append_assoc, decodeHunkFrame_header c (beBytes_length 4 _), h.ofBe_length, take_left,
      drop_left, c.decode_encode h.data h.fits, if_neg (by rw [length_append]; omega)]
  part := by
    intro k hk
    show decodeHunkFrame c ((encodeHunkFrame c h.data).take k) = _
    have hlen : (encodeHunkFrame c h.data).length = (c.encode h.data).length + 5 := by
      simp only [encodeHunkFrame, length_cons, length_append, beBytes_length]
      omega
    by_cases hshort : k < 5
    · exact decodeHunkFrame_short c (by rw [length_take]; omega)
    · obtain ⟨j, rfl⟩ : ∃ j, k = 4 + j + 1 := ⟨k - 5, by omega⟩
      have htake : (encodeHunkFrame c h.data).take (4 + j + 1) =
          0 :: (beBytes 4 (c.encode h.data).length ++ (c.encode h.data).take j) := by
        rw [encodeHunkFrame, take_succ_cons]
        congr 1
        rw [take_append, beBytes_length, take_of_length_le (by rw [beBytes_length]; omega),
          Nat.add_sub_cancel_left]
      rw [htake, decodeHunkFrame_header c (beBytes_length 4 _), h.ofBe_length,
        if_pos (by rw [length_take]; omega)]

/-! ## A codec -/

/-- Base 128, the low digit first; at most `fuel` digits. -/
def varintGo : Nat → Nat → Bytes
  | 0, _ => []
  | fuel + 1, n =>
    if n < 128 then [UInt8.ofNat n] else UInt8.ofNat (n % 128 + 128) :: varintGo fuel (n / 128)

def encodeVarint (n : Nat) : Bytes := varintGo 10 n

def encodeData (data : Bytes) : Bytes :=
  if data = [] then [] else 0x0a :: (encodeVarint data.length ++ data)

/-- At most `fuel` digits. -/
def readVarint : Nat → Bytes → Option (Nat × Bytes)
  | 0, _ => none
  | _ + 1, [] => none
  | fuel + 1, b :: rest =>
    if b.toNat < 128 then some (b.toNat, rest)
    else (readVarint fuel rest).map fun r => (b.toNat - 128 + 128 * r.1, r.2)

theorem readVarint_digit {n : Nat} (h : n < 128) (fuel : Nat) (t : Bytes) :
    readVarint (fuel + 1) (UInt8.ofNat n :: t) = some (n, t) := by
  have hb : (UInt8.ofNat n).toNat = n := by rw [UInt8.toNat_ofNat']; omega
  simp [readVarint, hb, h]

theorem readVarint_varintGo (fuel : Nat) : ∀ {n : Nat}, n < 128 ^ (fuel + 1) → ∀ t : Bytes,
    readVarint (fuel + 1) (varintGo (fuel + 1) n ++ t) = some (n, t) := by
  induction fuel with
  | zero =>
    intro n h t
    rw [varintGo, if_pos (by omega)]
    exact readVarint_digit (by omega) 0 t
  | succ fuel ih =>
    intro n h t
    rw [varintGo]
    split
    · exact readVarint_digit ‹_› (fuel + 1) t
    have hb : (UInt8.ofNat (n % 128 + 128)).toNat = n % 128 + 128 := by rw [UInt8.toNat_ofNat']; omega
    have hlt : n / 128 < 128 ^ (fuel + 1) := by
      rw [Nat.div_lt_iff_lt_mul (by decide), ← Nat.pow_succ]
      exact h
    rw [cons_append, readVarint, hb, if_neg (by omega), ih hlt]
    simp only [Option.map_some, Option.some.injEq, Prod.mk.injEq, and_true]
    omega

/-- Only the field of the data, as it is encoded. -/
def readData : Bytes → Option Bytes
  | [] => some []
  | field :: rest =>
    match readVarint 10 rest with
    | some (n, data) => if field = 0x0a ∧ data.length = n then some data else none
    | none => none

def onlyData : HunkCodec where
  encode := encodeData
  decode := readData
  encode_nil := rfl
  decode_encode := by
    intro data hfits
    unfold encodeData at hfits ⊢
    split
    · rename_i hnil
      rw [hnil]
      rfl
    · rename_i hne
      rw [if_neg hne] at hfits
      have hlen : data.length < 128 ^ 10 := by
        simp only [length_cons, length_append] at hfits
        omega
      rw [readData, encodeVarint, readVarint_varintGo 9 hlen]
      simp

end Wrongsv.L1.GrpcHunk
