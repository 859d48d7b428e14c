import Wrongsv.L1Encoding.WebSocketFrame

/-!
# WebSocket frames: the writer and the reader

What `read_frame` makes of the frames `write_frame` writes, with a mask or without
one. A length may be written in three forms, and the reader takes every form that
the length fits in (`settles_framed`). The writer picks one by two comparisons.

Results: `pick_shortest`, `frame_codec`.
-/
namespace Wrongsv.L1.WebSocket
open List

/-! ## The three forms of a length -/

/-- The form `write_frame` picks. -/
def LengthForm.pick (len : Nat) : LengthForm :=
  if len < 126 then short else if len ≤ 65535 then medium else long

/-- A frame with its length in a form. -/
def frameBytes (maskKey : Option MaskKey) (form : LengthForm) (frame : Frame) : Bytes :=
  ((if frame.fin then 0x80 else 0x00) ||| frame.opcode.toU8) ::
    (form.field (maskByte maskKey) frame.payload.length ++ maskedPayload maskKey frame.payload)

variable (maskKey : Option MaskKey) {form : LengthForm}

theorem writeFrameKeyed_eq (frame : Frame) :
    writeFrameKeyed maskKey frame = frameBytes maskKey (.pick frame.payload.length) frame := by
  have hfield : (if frame.payload.length < 126 then [maskByte maskKey ||| UInt8.ofNat frame.payload.length]
      else if frame.payload.length ≤ 65535 then (maskByte maskKey ||| 126) :: be16
      frame.payload.length else (maskByte maskKey ||| 127) :: beBytes 8 frame.payload.length) =
      (LengthForm.pick frame.payload.length).field (maskByte maskKey) frame.payload.length := by
    unfold LengthForm.pick
    split
    · rfl
    · split <;> rfl
  rw [frameBytes, ← hfield]
  rfl

/-- What `read_frame` lets through: at most 256 KiB, and 125 bytes in a control frame. -/
structure Frame.Allowed (frame : Frame) : Prop where
  size : frame.payload.length ≤ maxFrameSize
  control : frame.opcode ≠ .binary → frame.opcode ≠ .text → frame.payload.length ≤ maxCtrlPayload

theorem LengthForm.pick_fits {len : Nat} (h : len ≤ maxFrameSize) : len < (pick len).bound := by
  have hmax : maxFrameSize = 262144 := rfl
  unfold pick
  split
  · assumption
  · split
    · show len < 256 ^ 2
      omega
    · show len < 256 ^ 8
      omega

/-! ## Reading -/

theorem head_fields (fin : Bool) (opcode : Opcode) :
    Opcode.fromU8 (((if fin then 0x80 else 0x00) ||| opcode.toU8) &&& 0x0F) = some opcode ∧
      (((if fin then 0x80 else 0x00) ||| opcode.toU8) &&& 0x80 != 0) = fin := by
  cases fin <;> cases opcode <;> decide

theorem Frame.Allowed.checkHead {frame : Frame} (h : frame.Allowed) (requireMasked masked : Bool) :
    checkHead requireMasked masked frame.opcode frame.payload.length =
      if requireMasked && !masked then .error .notMasked else .ok () := by
  have hcontrol : ¬ (frame.opcode ≠ .binary ∧ frame.opcode ≠ .text ∧ maxCtrlPayload < frame.payload.length) :=
    fun ⟨hb, ht, hlong⟩ => absurd (h.control hb ht) (Nat.not_le.mpr hlong)
  rw [WebSocket.checkHead, if_neg (Nat.not_lt.mpr h.size), if_neg hcontrol]

theorem settles_frameBytes (requireMasked : Bool) {frame : Frame}
    (hfits : frame.payload.length < form.bound) (h : frame.Allowed) (t : Bytes) :
    if requireMasked && !maskKey.isSome then
      ∃ left, (readFrame requireMasked).Settles (frameBytes maskKey form frame ++ t) (.error .notMasked) left
    else (readFrame requireMasked).Settles (frameBytes maskKey form frame ++ t) (.ok frame) t := by
  obtain ⟨hop, hfin⟩ := head_fields frame.fin frame.opcode
  obtain ⟨left, hread, hleft⟩ := settles_framed maskKey requireMasked
    ((if frame.fin then 0x80 else 0x00) ||| frame.opcode.toU8) hfits t
  simp only [frameOutcome, hop, hfin, h.checkHead] at hread hleft
  split
  · rename_i hunmasked
    simp only [hunmasked, if_true] at hread
    exact ⟨left, hread⟩
  · rename_i hmasked
    simp only [hmasked, Bool.false_eq_true, if_false] at hread hleft
    rw [hleft ⟨frame, rfl⟩] at hread
    exact hread

/-! ## The codec -/

/-- The picked form is the only one of its length or shorter that the length fits in. -/
theorem pick_shortest (frame : Frame) (hfits : frame.payload.length < form.bound)
    (hne : form ≠ .pick frame.payload.length) :
    (writeFrameKeyed maskKey frame).length < (frameBytes maskKey form frame).length := by
  rw [writeFrameKeyed_eq]
  simp only [frameBytes, length_cons, length_append]
  revert hfits hne
  unfold LengthForm.pick
  split
  · cases form <;> simp [LengthForm.field]
  split
  · cases form <;> simp [LengthForm.field, LengthForm.bound]
    omega
  · cases form <;> simp [LengthForm.field, LengthForm.bound] <;> omega

/-- **Writing and reading a frame.** Every frame that is allowed, with any mask or
without one, is read back as it was with exactly `t` left; a reader that requires
masks refuses the frame if it has none. Every other form in which the length could
be written is longer. -/
theorem frame_codec (maskKey : Option MaskKey) (frame : Frame) (h : frame.Allowed) (t : Bytes) :
    (∀ requireMasked, (requireMasked = true → maskKey ≠ none) →
      (readFrame requireMasked).Settles (writeFrameKeyed maskKey frame ++ t) (.ok frame) t) ∧
    (maskKey = none → ∃ left,
      (readFrame true).Settles (writeFrameKeyed maskKey frame ++ t) (.error .notMasked) left) ∧
    ∀ form : LengthForm, frame.payload.length < form.bound → form ≠ .pick frame.payload.length →
      (writeFrameKeyed maskKey frame).length < (frameBytes maskKey form frame).length := by
  have hread := fun requireMasked =>
    settles_frameBytes maskKey requireMasked (LengthForm.pick_fits h.size) h t
  rw [writeFrameKeyed_eq]
  refine ⟨fun requireMasked hmask => ?_, fun hnone => ?_, fun form hfits hne => ?_⟩
  · have htaken := hread requireMasked
    rwa [if_neg] at htaken
    cases requireMasked
    · simp
    · simpa [Option.isSome_iff_ne_none] using hmask rfl
  · have hrefused := hread true
    rwa [if_pos (by simp [hnone])] at hrefused
  · rw [← writeFrameKeyed_eq]
    exact pick_shortest maskKey frame hfits hne

/-- A masked pong of three bytes. -/
theorem pong_codec :
    let frame := pongFrame [1, 2, 3]
    frame.Allowed ∧
      (readFrame true).Settles (writeFrameKeyed (some ⟨[9, 8, 7, 6], rfl⟩) frame ++ [0]) (.ok frame) [0] := by
  have h : (pongFrame [1, 2, 3]).Allowed := ⟨by decide, fun _ _ => by decide⟩
  exact ⟨h, (frame_codec (some ⟨[9, 8, 7, 6], rfl⟩) _ h [0]).1 true (by simp)⟩

end Wrongsv.L1.WebSocket
