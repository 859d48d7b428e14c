import Wrongsv.Core.Reader

/-!
# WebSocket frames

`read_frame` and the frame writers of websocket/frame.rs. A frame
has a head byte (FIN, three reserved bits, opcode), a length of seven bits or of
two or eight more bytes, a mask of four bytes if it comes from a client, and
the payload, masked with it.

A `ClientFrame` is what a client may put on the wire: any head byte, the length
in any form it fits in, any mask. `ClientFrame.received` says what the server
makes of it, and `settles_readFrame` that `read_frame` does so.
-/
namespace Wrongsv.L1.WebSocket
open List

def maxFrameSize : Nat := 256 * 1024
def maxCtrlPayload : Nat := 125

inductive Opcode where
  | text
  | binary
  | close
  | ping
  | pong
  deriving DecidableEq, Repr

def Opcode.toU8 : Opcode → UInt8
  | text => 0x01
  | binary => 0x02
  | close => 0x08
  | ping => 0x09
  | pong => 0x0A

/-- frame.rs:25-34 -/
def Opcode.fromU8 (v : UInt8) : Option Opcode :=
  if v = 0x01 then some text
  else if v = 0x02 then some binary
  else if v = 0x08 then some close
  else if v = 0x09 then some ping
  else if v = 0x0A then some pong
  else none

structure Frame where
  fin : Bool
  opcode : Opcode
  payload : Bytes
  deriving DecidableEq, Repr

/-- The errors of the inner stream. `WouldBlock` and `TimedOut` are one: no
caller treats them differently. -/
inductive ReadError where
  | wouldBlock
  | truncated
  deriving DecidableEq, Repr

inductive FrameError where
  | io (e : ReadError)
  | invalidOpcode (opcode : UInt8)
  | payloadTooLarge (len : Nat)
  | controlPayloadTooLarge (len : Nat)
  | notMasked
  deriving DecidableEq, Repr

/-! ## Reading -/

/-- frame.rs:241-257 -/
def readExact (n : Nat) : Reader FrameError Bytes :=
  Reader.readExact (.io .wouldBlock) (.io .truncated) n

/-- `byte ^= mk[i % 4]` for every byte. -/
def applyMask (mk payload : Bytes) : Bytes :=
  payload.mapIdx fun i byte => byte ^^^ mk.getD (i % 4) 0

/-- The payload length, by the second byte of the head. -/
def readPayloadLen (head1 : UInt8) : Reader FrameError Nat :=
  if head1 &&& 0x7F = 126 then do return ofBe (← readExact 2)
  else if head1 &&& 0x7F = 127 then do return ofBe (← readExact 8)
  else pure (head1 &&& 0x7F).toNat

/-- Size check, control frames, mask enforcement. -/
def checkHead (requireMasked masked : Bool) (opcode : Opcode) (payloadLen : Nat) :
    Except FrameError Unit :=
  if maxFrameSize < payloadLen then .error (.payloadTooLarge payloadLen)
  else if opcode ≠ .binary ∧ opcode ≠ .text ∧ maxCtrlPayload < payloadLen then
    .error (.controlPayloadTooLarge payloadLen)
  else if requireMasked && !masked then .error .notMasked
  else .ok ()

def readMaskKey (masked : Bool) : Reader FrameError (Option Bytes) :=
  if masked then do return some (← readExact 4) else pure none

def readPayload (payloadLen : Nat) : Reader FrameError Bytes :=
  if 0 < payloadLen then readExact payloadLen else pure []

/-- The mask, if there is one, and the payload. -/
def readBody (masked : Bool) (payloadLen : Nat) : Reader FrameError Bytes := do
  let maskKey ← readMaskKey masked
  let payload ← readPayload payloadLen
  match maskKey with
  | some mk => return applyMask mk payload
  | none => return payload

/-- frame.rs:64-129 -/
def readFrame (requireMasked : Bool) : Reader FrameError Frame := do
  let head ← readExact 2
  let head0 := head.getD 0 0
  let head1 := head.getD 1 0
  let fin := head0 &&& 0x80 != 0
  match Opcode.fromU8 (head0 &&& 0x0F) with
  | none => throw (.invalidOpcode (head0 &&& 0x0F))
  | some opcode =>
    let masked := head1 &&& 0x80 != 0
    let payloadLen ← readPayloadLen head1
    match checkHead requireMasked masked opcode payloadLen with
    | .error e => throw e
    | .ok () => return ⟨fin, opcode, ← readBody masked payloadLen⟩

/-! ## Writing -/

/-- The four bytes of a mask. -/
abbrev MaskKey := { b : Bytes // b.length = 4 }

/-- `if masked { 0x80 } else { 0x00 }` -/
def maskByte (maskKey : Option MaskKey) : UInt8 := if maskKey.isSome then 0x80 else 0x00

/-- The mask key, if there is one, and the payload. -/
def maskedPayload (maskKey : Option MaskKey) (payload : Bytes) : Bytes :=
  match maskKey with
  | some mk => mk.1 ++ applyMask mk.1 payload
  | none => payload

/-- websocket/frame.rs:137-179, with the random mask key as an argument;
`maskKey` is `none` for `masked = false` -/
def writeFrameKeyed (maskKey : Option MaskKey) (frame : Frame) : Bytes :=
  let head0 := (if frame.fin then 0x80 else 0x00) ||| frame.opcode.toU8
  let len := frame.payload.length
  let length : Bytes :=
    if len < 126 then [maskByte maskKey ||| UInt8.ofNat len]
    else if len ≤ 65535 then (maskByte maskKey ||| 126) :: be16 len
    else (maskByte maskKey ||| 127) :: beBytes 8 len
  head0 :: (length ++ maskedPayload maskKey frame.payload)

/-- For a server: without a mask.
frame.rs:134-182 -/
def writeFrame : Frame → Bytes := writeFrameKeyed none

def binaryFrame (data : Bytes) : Frame := ⟨true, .binary, data⟩
def pongFrame (data : Bytes) : Frame := ⟨true, .pong, data⟩
def closeFrame (code : Nat) : Frame := ⟨true, .close, be16 code⟩

def writePong (data : Bytes) : Except FrameError Bytes :=
  if maxCtrlPayload < data.length then .error (.controlPayloadTooLarge data.length)
  else .ok (writeFrame (pongFrame data))

def writeClose (code : Nat) : Bytes := writeFrame (closeFrame code)

/-! ## What a client sends -/

inductive LengthForm where
  | short
  | medium
  | long
  deriving DecidableEq, Repr

/-- The lengths below this one can be written so. -/
def LengthForm.bound : LengthForm → Nat
  | short => 126
  | medium => 256 ^ 2
  | long => 256 ^ 8

/-- The second byte of the head and the rest of the length. -/
def LengthForm.field (mask : UInt8) (len : Nat) : LengthForm → Bytes
  | short => [mask ||| UInt8.ofNat len]
  | medium => (mask ||| 126) :: beBytes 2 len
  | long => (mask ||| 127) :: beBytes 8 len

/-- A masked frame. -/
structure ClientFrame where
  /-- FIN, the reserved bits and the opcode -/
  head : UInt8
  form : LengthForm
  mask : Bytes
  payload : Bytes
  mask_length : mask.length = 4
  fits : payload.length < form.bound

namespace ClientFrame

/-- A Binary frame with `hi`. -/
def hi : ClientFrame := ⟨0x82, .short, [1, 2, 3, 4], [0x68, 0x69], rfl, by decide⟩

def empty (head a b c d : UInt8) : ClientFrame := ⟨head, .short, [a, b, c, d], [], rfl, by decide⟩

variable (f : ClientFrame)

def bytes : Bytes :=
  f.head :: (f.form.field 0x80 f.payload.length ++ maskedPayload (some ⟨f.mask, f.mask_length⟩) f.payload)

/-- What the server makes of the frame. -/
def received : Except FrameError Frame :=
  match Opcode.fromU8 (f.head &&& 0x0F) with
  | none => .error (.invalidOpcode (f.head &&& 0x0F))
  | some opcode =>
    match checkHead true true opcode f.payload.length with
    | .error e => .error e
    | .ok () => .ok ⟨f.head &&& 0x80 != 0, opcode, f.payload⟩

end ClientFrame

/-! ## Reading what a client sends -/

@[simp] theorem length_applyMask (mk payload : Bytes) :
    (applyMask mk payload).length = payload.length :=
  length_mapIdx

theorem applyMask_applyMask (mk payload : Bytes) : applyMask mk (applyMask mk payload) = payload :=
  mapIdx_xor_twice (fun i => mk.getD (i % 4) 0) payload

theorem settles_exact {n : Nat} {a : Bytes} (ha : a.length = n) (left : Bytes) :
    (readExact n).Settles (a ++ left) (.ok a) left := by
  subst ha
  exact Reader.settles_readExact a left

section
variable (maskKey : Option MaskKey) {form : LengthForm}

/-- The second byte tells whether there is a mask, and the length is read back. -/
theorem settles_field {len : Nat} (h : len < form.bound) (left : Bytes) : ∃ head1 more,
    form.field (maskByte maskKey) len = head1 :: more ∧ (head1 &&& 0x80 != 0) = maskKey.isSome ∧
      (readPayloadLen head1).Settles (more ++ left) (.ok len) left := by
  have hbits : ∀ n < 128, ((maskByte maskKey ||| UInt8.ofNat n) &&& 0x80 != 0) = maskKey.isSome ∧
      (maskByte maskKey ||| UInt8.ofNat n) &&& 0x7F = UInt8.ofNat n := by
    cases maskKey <;> simp only [maskByte, Option.isSome] <;> decide +kernel
  cases form with
  | short =>
    have hlen : len < 126 := h
    have hval : (UInt8.ofNat len).toNat = len := by
      rw [UInt8.toNat_ofNat']
      omega
    obtain ⟨hmask, hlow⟩ := hbits len (by omega)
    refine ⟨_, [], rfl, hmask, ?_⟩
    have h126 : UInt8.ofNat len ≠ 126 := fun he => by rw [he] at hval; exact absurd hlen (hval ▸ by decide)
    have h127 : UInt8.ofNat len ≠ 127 := fun he => by rw [he] at hval; exact absurd hlen (hval ▸ by decide)
    rw [readPayloadLen, hlow, if_neg h126, if_neg h127, hval]
    exact Reader.settles_pure len left
  | medium =>
    have hlow : (maskByte maskKey ||| 126) &&& 0x7F = 126 := (hbits 126 (by decide)).2
    refine ⟨_, _, rfl, (hbits 126 (by decide)).1, ?_⟩
    rw [readPayloadLen, hlow, if_pos rfl]
    refine (settles_exact (beBytes_length 2 len) left).bind ?_
    rw [ofBe_beBytes h]
    exact Reader.settles_pure len left
  | long =>
    have hlow : (maskByte maskKey ||| 127) &&& 0x7F = 127 := (hbits 127 (by decide)).2
    refine ⟨_, _, rfl, (hbits 127 (by decide)).1, ?_⟩
    rw [readPayloadLen, hlow, if_neg (by decide), if_pos rfl]
    refine (settles_exact (beBytes_length 8 len) left).bind ?_
    rw [ofBe_beBytes h]
    exact Reader.settles_pure len left

theorem settles_readPayload (payload left : Bytes) :
    (readPayload payload.length).Settles (payload ++ left) (.ok payload) left := by
  unfold readPayload
  split
  · exact settles_exact rfl left
  rename_i h
  rw [eq_nil_of_length_eq_zero (Nat.eq_zero_of_not_pos h)]
  exact Reader.settles_pure [] left

theorem settles_maskedPayload (payload left : Bytes) :
    (readBody maskKey.isSome payload.length).Settles (maskedPayload maskKey payload ++ left) (.ok payload) left := by
  cases maskKey with
  | none =>
    have hkey : (readMaskKey false).Settles (payload ++ left) (.ok none) (payload ++ left) :=
      Reader.settles_pure _ _
    exact hkey.bind ((settles_readPayload payload left).bind (Reader.settles_pure _ _))
  | some mk =>
    have hkey : (readMaskKey true).Settles (maskedPayload (some mk) payload ++ left) (.ok (some mk.1))
        (applyMask mk.1 payload ++ left) := by
      rw [maskedPayload, append_assoc]
      exact (settles_exact mk.2 _).bind (Reader.settles_pure _ _)
    have hpayload := settles_readPayload (applyMask mk.1 payload) left
    rw [length_applyMask] at hpayload
    refine hkey.bind (hpayload.bind ?_)
    simp only [applyMask_applyMask]
    exact Reader.settles_pure _ _

theorem readFrame_eq (requireMasked : Bool) :
    readFrame requireMasked = readExact 2 >>= fun head =>
      match Opcode.fromU8 (head.getD 0 0 &&& 0x0F) with
      | none => throw (.invalidOpcode (head.getD 0 0 &&& 0x0F))
      | some opcode => readPayloadLen (head.getD 1 0) >>= fun payloadLen =>
        match checkHead requireMasked (head.getD 1 0 &&& 0x80 != 0) opcode payloadLen with
        | .error e => throw e
        | .ok () => readBody (head.getD 1 0 &&& 0x80 != 0) payloadLen >>= fun payload =>
          pure ⟨head.getD 0 0 &&& 0x80 != 0, opcode, payload⟩ := rfl

/-- What `read_frame` makes of a whole frame with this head byte. -/
def frameOutcome (requireMasked masked : Bool) (head : UInt8) (payload : Bytes) :
    Except FrameError Frame :=
  match Opcode.fromU8 (head &&& 0x0F) with
  | none => .error (.invalidOpcode (head &&& 0x0F))
  | some opcode =>
    match checkHead requireMasked masked opcode payload.length with
    | .error e => .error e
    | .ok () => .ok ⟨head &&& 0x80 != 0, opcode, payload⟩

/-- **Reading any form.** A whole frame settles the outcome, and exactly what is
behind it is left if it is accepted. -/
theorem settles_framed (requireMasked : Bool) (head : UInt8) {payload : Bytes}
    (hfits : payload.length < form.bound) (t : Bytes) : ∃ left, (readFrame requireMasked).Settles
        (head :: (form.field (maskByte maskKey) payload.length ++ maskedPayload maskKey payload) ++ t)
        (frameOutcome requireMasked maskKey.isSome head payload) left ∧
      ((∃ frame, frameOutcome requireMasked maskKey.isSome head payload = .ok frame) → left = t) := by
  obtain ⟨head1, more, hfield, hmask, hlen⟩ := settles_field maskKey hfits (maskedPayload maskKey payload ++ t)
  have hbytes : head :: (form.field (maskByte maskKey) payload.length ++ maskedPayload maskKey payload) ++ t =
      [head, head1] ++ (more ++ (maskedPayload maskKey payload ++ t)) := by
    rw [hfield]
    simp
  have hhead := settles_exact (a := [head, head1]) rfl (more ++ (maskedPayload maskKey payload ++ t))
  rw [hbytes, readFrame_eq, frameOutcome]
  cases hop : Opcode.fromU8 (head &&& 0x0F) with
  | none =>
    refine ⟨more ++ (maskedPayload maskKey payload ++ t), hhead.bind ?_, fun ⟨_, h⟩ => by cases h⟩
    simp only [getD_cons_zero, hop]
    exact Reader.settles_throw _ _
  | some opcode =>
    cases hcheck : checkHead requireMasked maskKey.isSome opcode payload.length with
    | error e =>
      refine ⟨maskedPayload maskKey payload ++ t, hhead.bind ?_, fun ⟨_, h⟩ => by simp only [hcheck] at h; cases h⟩
      simp only [getD_cons_zero, getD_cons_succ, hop, hmask]
      refine hlen.bind ?_
      simp only [hcheck]
      exact Reader.settles_throw _ _
    | ok _ =>
      refine ⟨t, hhead.bind ?_, fun _ => rfl⟩
      simp only [getD_cons_zero, getD_cons_succ, hop, hmask]
      refine hlen.bind ?_
      simp only [hcheck]
      exact (settles_maskedPayload maskKey payload t).bind (Reader.settles_pure _ _)

end

/-- **Reading a frame.** A complete frame settles the outcome, and an accepted
one is taken as a whole. -/
theorem settles_readFrame (f : ClientFrame) :
    ∃ left, (readFrame true).Settles f.bytes f.received left ∧ ((∃ frame, f.received = .ok frame) → left = []) := by
  have h := settles_framed (some ⟨f.mask, f.mask_length⟩) true f.head f.fits []
  rw [append_nil] at h
  exact h

/-! ## Reading a part of a frame -/

theorem exact_readFrame (requireMasked : Bool) :
    (readFrame requireMasked).Exact (.io .wouldBlock) (.io .truncated) := by
  have hexact : ∀ n, (readExact n).Exact (.io .wouldBlock) (.io .truncated) := Reader.exact_readExact
  have hbody : ∀ masked len, (readBody masked len).Exact (.io .wouldBlock) (.io .truncated) := by
    intro masked len
    have hkey : (readMaskKey masked).Exact (.io .wouldBlock) (.io .truncated) := by
      unfold readMaskKey
      split
      · exact Reader.exact_bind (hexact 4) fun _ => Reader.exact_pure _
      · exact Reader.exact_pure _
    have hpayload : (readPayload len).Exact (.io .wouldBlock) (.io .truncated) := by
      unfold readPayload
      split
      · exact hexact len
      · exact Reader.exact_pure _
    refine Reader.exact_bind hkey fun key => Reader.exact_bind hpayload fun payload => ?_
    cases key <;> exact Reader.exact_pure _
  have hlen : ∀ head1, (readPayloadLen head1).Exact (.io .wouldBlock) (.io .truncated) := by
    intro head1
    unfold readPayloadLen
    split
    · exact Reader.exact_bind (hexact 2) fun _ => Reader.exact_pure _
    split
    · exact Reader.exact_bind (hexact 8) fun _ => Reader.exact_pure _
    · exact Reader.exact_pure _
  rw [readFrame_eq]
  refine Reader.exact_bind (hexact 2) fun head => ?_
  split
  · exact Reader.exact_throw _
  refine Reader.exact_bind (hlen _) fun len => ?_
  split
  · exact Reader.exact_throw _
  · exact Reader.exact_bind (hbody _ _) fun _ => Reader.exact_pure _

theorem starves_readFrame_nil : (readFrame true).Starves (.io .wouldBlock) (.io .truncated) [] := by
  exact Reader.Starves.bind ⟨fun _ _ => rfl, rfl⟩

end Wrongsv.L1.WebSocket
