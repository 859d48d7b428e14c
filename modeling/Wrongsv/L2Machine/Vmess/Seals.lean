import Wrongsv.Core.Counter
import Wrongsv.L2Machine.Vmess.Endpoints

/-!
# VMess: what a writer seals

The inputs of every sealing a sequence of `write_chunk` calls on one writer makes, in
order: the payload first, then the size if it is sealed (server/vmess.rs:
774-805, 871-879, 1103-1130). A call that is too large seals nothing, and one that
fails for want of a padding length has sealed its payload already.

Results: `PayloadOnly.pairs`, `PayloadAndSize.pairs`.
-/
namespace Wrongsv.L2.Vmess
open List

/-! ## One call -/

/-- The inputs of `encrypt`'s next sealing. -/
def PayloadCipher.sealing (plaintext : Bytes) : PayloadCipher → Option Sealing
  | .none => Option.none
  | .aes128Gcm s | .chacha20Poly1305 s => some ⟨s.key, chunkNonce s.iv s.counter 12, [], plaintext⟩

/-- A `write_chunk` call with the randomness for its padding. -/
structure ChunkCall where
  plaintext : Bytes
  fill : Nat → UInt8

namespace VmessBodyWriter

variable (x : Crypto)

/-- What is sealed for the size of a chunk of `total` bytes. -/
def sizeSealing (c : SizeCodec) (total : Nat) : Option Sealing :=
  match c.sizeMode with
  | .authenticatedLength inner =>
    if total < aeadTagLen then none else inner.sealing (be16 (total - aeadTagLen))
  | .plain | .shakeMasked => none

/-- The sealings of one call, along the lines of `writeChunk`. -/
def sealings (w : VmessBodyWriter) (plaintext : Bytes) : List Sealing :=
  if maxChunkPayload < plaintext.length then []
  else
    (w.payload.sealing plaintext).toList ++
      match w.nextPaddingLen x with
      | (.error _, _) => []
      | (.ok paddingLen, c) =>
        (sizeSealing c (((w.payload.encrypt x plaintext).1.length + paddingLen) % 65536)).toList

/-- The writer after a call, whether it succeeded or not. -/
def after (w : VmessBodyWriter) (call : ChunkCall) : VmessBodyWriter :=
  (w.writeChunk x call.plaintext call.fill).2

/-- The sealings of a sequence of calls. -/
def sealLog (w : VmessBodyWriter) : List ChunkCall → List Sealing
  | [] => []
  | call :: calls => w.sealings x call.plaintext ++ sealLog (w.after x call) calls

/-- What the calls return. -/
def outcomes (w : VmessBodyWriter) : List ChunkCall → List (Except VmessError Bytes)
  | [] => []
  | call :: calls => (w.writeChunk x call.plaintext call.fill).1 :: outcomes (w.after x call) calls

end VmessBodyWriter

/-! ## Two ciphers and their counters -/

/-- Key and nonce of the sealing `i` calls from now. -/
def AeadState.pairAt (s : AeadState) (i : Nat) : Bytes × Bytes :=
  (s.key, chunkNonce s.iv (s.counter + UInt16.ofNat i) 12)

theorem AeadState.pairAt_next (s : AeadState) (i : Nat) : s.next.pairAt i = s.pairAt (i + 1) := by
  have hcount : s.counter + 1 + UInt16.ofNat i = s.counter + UInt16.ofNat (i + 1) := by
    rw [UInt16.ofNat_add, UInt16.add_assoc, UInt16.add_comm 1]
    rfl
  simp [pairAt, next, hcount]

/-- The state of a cipher that seals. -/
def PayloadCipher.state : PayloadCipher → Option AeadState
  | .none => Option.none
  | .aes128Gcm s | .chacha20Poly1305 s => some s

section
variable {c : PayloadCipher} {s : AeadState} (h : c.state = some s)
include h

theorem PayloadCipher.overhead_of_state : c.overhead = aeadTagLen := by
  cases c with
  | none => cases h
  | aes128Gcm state | chacha20Poly1305 state => rfl

theorem PayloadCipher.sealing_pair (plaintext : Bytes) :
    ((c.sealing plaintext).toList.map fun s => (s.key, s.nonce)) = [s.pairAt 0] := by
  cases c with
  | none => cases h
  | aes128Gcm state | chacha20Poly1305 state =>
    cases h
    simp [sealing, AeadState.pairAt]

theorem PayloadCipher.state_encrypt (x : Crypto) (plaintext : Bytes) :
    (c.encrypt x plaintext).2.state = some s.next := by
  cases c with
  | none => cases h
  | aes128Gcm state | chacha20Poly1305 state =>
    cases h
    rfl

end

/-- A writer whose sizes are not sealed: they are not to be, or no call gets that far. -/
structure PayloadOnly (w : VmessBodyWriter) (payload : AeadState) : Prop where
  payload_state : w.payload.state = some payload
  unsealed : (∀ inner, w.sizeMode ≠ .authenticatedLength inner) ∨ (w.useGlobalPadding = true ∧ w.shake = none)

/-- A writer that seals payloads and sizes. -/
structure PayloadAndSize (w : VmessBodyWriter) (payload size : AeadState) : Prop where
  payload_state : w.payload.state = some payload
  size_state : ∃ inner, w.sizeMode = .authenticatedLength inner ∧ inner.state = some size
  padded : w.useGlobalPadding = true → w.shake.isSome = true

section
variable {x : Crypto} {w : VmessBodyWriter} {payload size : AeadState}

theorem after_eq {call : ChunkCall} (h : call.plaintext.length ≤ maxChunkPayload) :
    w.after x call =
      ⟨match w.nextPaddingLen x with
        | (.error _, c) => c
        | (.ok n, c) => (c.encodeSize x (((w.payload.encrypt x call.plaintext).1.length + n) % 65536)).2,
        (w.payload.encrypt x call.plaintext).2⟩ := by
  unfold VmessBodyWriter.after VmessBodyWriter.writeChunk
  grind

theorem SizeCodec.nextPaddingLen_mode (c : SizeCodec) : (c.nextPaddingLen x).2.sizeMode = c.sizeMode := by
  unfold nextPaddingLen
  split
  · rfl
  · split <;> rfl

theorem SizeCodec.encodeSize_mode {c : SizeCodec} (h : ∀ inner, c.sizeMode ≠ .authenticatedLength inner)
    (total : Nat) : (c.encodeSize x total).2.sizeMode = c.sizeMode := by
  grind [encodeSize]

theorem VmessBodyWriter.sizeSealing_none {c : SizeCodec} (h : ∀ inner, c.sizeMode ≠ .authenticatedLength inner)
    (total : Nat) : sizeSealing c total = none := by
  grind [sizeSealing]

theorem PayloadOnly.call (h : PayloadOnly w payload) {call : ChunkCall}
    (hlen : call.plaintext.length ≤ maxChunkPayload) :
    PayloadOnly (w.after x call) payload.next ∧
      (w.sealings x call.plaintext).map (fun s => (s.key, s.nonce)) = [payload.pairAt 0] := by
  have hpayload := PayloadCipher.state_encrypt h.payload_state x call.plaintext
  have hpair := PayloadCipher.sealing_pair h.payload_state call.plaintext
  rw [after_eq hlen, VmessBodyWriter.sealings, if_neg (by omega), map_append, hpair]
  rcases h.unsealed with hmode | ⟨hpad, hshake⟩
  · -- no size is sealed, whatever becomes of the padding
    have hmode' : ∀ inner, (w.nextPaddingLen x).2.sizeMode ≠ .authenticatedLength inner := by
      rw [SizeCodec.nextPaddingLen_mode]
      exact hmode
    rcases hn : w.nextPaddingLen x with ⟨_ | n, c⟩
    · rw [hn] at hmode'
      exact ⟨⟨hpayload, .inl hmode'⟩, rfl⟩
    · rw [hn] at hmode'
      refine ⟨⟨hpayload, .inl ?_⟩, by simp [VmessBodyWriter.sizeSealing_none hmode']⟩
      simp only [SizeCodec.encodeSize_mode hmode']
      exact hmode'
  · -- the call fails before the size
    have hn : w.nextPaddingLen x =
        (.error (.protocol "global padding requested without shake state"), w.toSizeCodec) := by
      simp [SizeCodec.nextPaddingLen, hpad, hshake]
    rw [hn]
    exact ⟨⟨hpayload, .inr ⟨hpad, hshake⟩⟩, rfl⟩

theorem PayloadAndSize.call (h : PayloadAndSize w payload size) {call : ChunkCall}
    (hlen : call.plaintext.length ≤ maxChunkPayload) :
    PayloadAndSize (w.after x call) payload.next size.next ∧
      (w.sealings x call.plaintext).map (fun s => (s.key, s.nonce)) = [payload.pairAt 0, size.pairAt 0] := by
  have hpayload := PayloadCipher.state_encrypt h.payload_state x call.plaintext
  have hpair := PayloadCipher.sealing_pair h.payload_state call.plaintext
  have hcipher := w.payload.length_encrypt x call.plaintext
  rw [PayloadCipher.overhead_of_state h.payload_state] at hcipher
  obtain ⟨inner, hmode, hinner⟩ := h.size_state
  obtain ⟨n, c, hn, hn64, hcmode, hcpad⟩ := SizeCodec.nextPaddingLen_ok x h.padded
  rw [hmode] at hcmode
  rw [after_eq hlen, VmessBodyWriter.sealings, if_neg (by omega), hn, map_append, hpair]
  simp only
  -- a sealed payload is longer than the tag, and the sum does not wrap
  have htotal : ¬ ((w.payload.encrypt x call.plaintext).1.length + n) % 65536 < aeadTagLen := by
    simp only [maxChunkPayload, maxPaddingLen, aeadTagLen] at *
    omega
  generalize ((w.payload.encrypt x call.plaintext).1.length + n) % 65536 = total at htotal
  refine ⟨⟨hpayload, ?_, ?_⟩, ?_⟩
  · refine ⟨(inner.encrypt x (be16 (total - aeadTagLen))).2, ?_, PayloadCipher.state_encrypt hinner x _⟩
    simp [SizeCodec.encodeSize, hcmode, htotal]
  · simpa [SizeCodec.encodeSize, hcmode, htotal] using hcpad
  · have hsize := PayloadCipher.sealing_pair hinner (be16 (total - aeadTagLen))
    simp [VmessBodyWriter.sizeSealing, hcmode, htotal] at hsize ⊢
    exact hsize

end

/-! ## A run -/

/-- The calls that are not too large. -/
def sealedChunks (calls : List ChunkCall) : Nat :=
  (calls.filter fun call => call.plaintext.length ≤ maxChunkPayload).length

/-- Keys and nonces of a run, one after the other. -/
def VmessBodyWriter.pairs (x : Crypto) (w : VmessBodyWriter) (calls : List ChunkCall) : List (Bytes × Bytes) :=
  (w.sealLog x calls).map fun s => (s.key, s.nonce)

section
variable {x : Crypto}

theorem pairs_cons (w : VmessBodyWriter) (call : ChunkCall) (calls : List ChunkCall) : w.pairs x (call :: calls) =
      (w.sealings x call.plaintext).map (fun s => (s.key, s.nonce)) ++ (w.after x call).pairs x calls := by
  simp [VmessBodyWriter.pairs, VmessBodyWriter.sealLog]

theorem sealedChunks_cons {call : ChunkCall} (h : call.plaintext.length ≤ maxChunkPayload)
    (calls : List ChunkCall) : sealedChunks (call :: calls) = sealedChunks calls + 1 := by
  simp [sealedChunks, h]

theorem cons_tooLarge {call : ChunkCall} (h : ¬ call.plaintext.length ≤ maxChunkPayload)
    (w : VmessBodyWriter) (calls : List ChunkCall) : w.pairs x (call :: calls) = w.pairs x calls ∧
    sealedChunks (call :: calls) = sealedChunks calls := by
  obtain ⟨hafter, hseals⟩ : w.after x call = w ∧ w.sealings x call.plaintext = [] := by
    simp [VmessBodyWriter.after, VmessBodyWriter.writeChunk, VmessBodyWriter.sealings, Nat.lt_of_not_le h]
  grind [pairs_cons, sealedChunks]

/-- **The run, with payloads only.** -/
theorem PayloadOnly.pairs : ∀ (calls : List ChunkCall) {w : VmessBodyWriter} {payload : AeadState},
    PayloadOnly w payload → w.pairs x calls = (List.range (sealedChunks calls)).map payload.pairAt
  | [], _, _, _ => rfl
  | call :: calls, w, payload, h => by
    by_cases hlen : call.plaintext.length ≤ maxChunkPayload
    · obtain ⟨hnext, hpairs⟩ := h.call (x := x) hlen
      rw [pairs_cons, hpairs, PayloadOnly.pairs calls hnext, sealedChunks_cons hlen,
        range_succ_eq_map, map_cons, map_map]
      simp only [singleton_append, List.cons.injEq, true_and]
      exact map_congr_left fun i _ => payload.pairAt_next i
    · obtain ⟨hsame, hcount⟩ := cons_tooLarge (x := x) hlen w calls
      rw [hsame, hcount, PayloadOnly.pairs calls h]

/-- **The run, with sizes.** -/
theorem PayloadAndSize.pairs : ∀ (calls : List ChunkCall) {w : VmessBodyWriter}
    {payload size : AeadState}, PayloadAndSize w payload size → w.pairs x calls =
    (List.range (sealedChunks calls)).flatMap fun i => [payload.pairAt i, size.pairAt i]
  | [], _, _, _, _ => rfl
  | call :: calls, w, payload, size, h => by
    by_cases hlen : call.plaintext.length ≤ maxChunkPayload
    · obtain ⟨hnext, hpairs⟩ := h.call (x := x) hlen
      rw [pairs_cons, hpairs, PayloadAndSize.pairs calls hnext, sealedChunks_cons hlen,
        range_succ_eq_map, flatMap_cons, flatMap_map]
      congr 1
      exact flatMap_congr fun i _ => by rw [payload.pairAt_next, size.pairAt_next]
    · obtain ⟨hsame, hcount⟩ := cons_tooLarge (x := x) hlen w calls
      rw [hsame, hcount, PayloadAndSize.pairs calls h]

end

end Wrongsv.L2.Vmess
