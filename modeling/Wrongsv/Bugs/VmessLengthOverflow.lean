import Wrongsv.Core.Checked
import Wrongsv.L2Machine.Vmess.Endpoints

/-!
# VMess: a sealed length near 65535 overflows

With AUTHENTICATED_LENGTH the client seals the length of a chunk without its tag, and
`decode_size` (server/vmess.rs:881-889) adds the sixteen bytes of the tag back in `u16`. For a
length of 65520 or more this overflows: a build with overflow checks panics, and a release
build takes the chunk for one of fewer than sixteen bytes.

What should hold: on every stream a call of `read_chunk` computes its sizes without
overflow and its slices are in range.

Fix: `checked_add`, or a sum in `usize`, which the limit on chunks then refuses.
-/
namespace Wrongsv.Bugs.VmessLengthOverflow
open L2.Vmess Checked

/-! ## The reader with its panics -/

/-- `a + b` in `u16` -/
def addU16 (a b : Nat) : Option Nat := if a + b < 65536 then some (a + b) else none

variable (x : Crypto)

def aeadDecrypt (a : Aead) (s : AeadState) (ciphertext : Bytes) :
    Option (Except VmessError Bytes × AeadState) :=
  if ciphertext.length < aeadTagLen then some (.error (.protocol "body ciphertext too short"), s)
  else do
    let split ← subUsize ciphertext.length aeadTagLen
    let out ← slice ciphertext 0 split
    let tag ← slice ciphertext split ciphertext.length
    return s.decrypt a (out ++ tag)

def decrypt (ciphertext : Bytes) : PayloadCipher → Option (Except VmessError Bytes × PayloadCipher)
  | .none => some (.ok ciphertext, .none)
  | .aes128Gcm s => (aeadDecrypt x.aes128Gcm s ciphertext).map fun r => (r.1, .aes128Gcm r.2)
  | .chacha20Poly1305 s => (aeadDecrypt x.chacha20Poly1305 s ciphertext).map fun r => (r.1, .chacha20Poly1305 r.2)

def decodeSizeBytes (c : SizeCodec) (buf : Bytes) : Option (Except VmessError Nat × SizeCodec) :=
  match c.sizeMode with
  | .authenticatedLength inner => do
    let r ← decrypt x buf inner
    let c := { c with sizeMode := .authenticatedLength r.2 }
    match r.1 with
    | .error e => return (.error e, c)
    | .ok plaintext =>
      if plaintext.length ≠ 2 then return (.error (.protocol "invalid authenticated length size"), c)
      else
        let bytes ← slice plaintext 0 2
        let size ← addU16 (SizeCodec.readU16 bytes) aeadTagLen
        return (.ok size, c)
  | _ => some (c.decodeSizeBytes x buf)

def readPayload (r : VmessBodyReader) (src : Schedule) (totalSize paddingLen : Nat) :
    Option (Except VmessError (Option Bytes) × VmessBodyReader × Schedule) :=
  let overhead := r.payload.overhead
  if totalSize ≤ overhead + paddingLen ∨ maxChunkPayload + overhead + maxPaddingLen < totalSize then
    some (r.readPayload x src totalSize paddingLen)
  else
    match src.readExact totalSize with
    | (.block _, src) => some (.error (.read .wouldBlock), r, src)
    | (.eof _, src) => some (.error (.read .unexpectedEof), r, src)
    | (.done chunk, src) => do
      let payloadSize ← subUsize totalSize paddingLen
      let d ← decrypt x (← slice chunk 0 payloadSize) r.payload
      return (d.1.map some, { r with payload := d.2 }, src)

def decodeSize (r : VmessBodyReader) (src : Schedule) :
    Option (Except VmessError (Nat × Nat) × VmessBodyReader × Schedule) :=
  match r.nextPaddingLen x with
  | (.error e, c) => some (.error e, r.setSizes c, src)
  | (.ok paddingLen, c) =>
    match src.readExact c.sizeMode.width with
    | (.block _, src) => some (.error (.read .wouldBlock), r.setSizes c, src)
    | (.eof _, src) => some (.error (.read .unexpectedEof), r.setSizes c, src)
    | (.done buf, src) => do
      match ← decodeSizeBytes x c buf with
      | (.error e, c) => return (.error e, r.setSizes c, src)
      | (.ok size, c) => return (.ok (size, paddingLen), r.setSizes c, src)

/-- `none` is a panic. -/
def readChunk (r : VmessBodyReader) (src : Schedule) :
    Option (Except VmessError (Option Bytes) × VmessBodyReader × Schedule) :=
  if r.done then some (.ok none, r, src)
  else do
    match ← decodeSize x r src with
    | (.error (.read .unexpectedEof), r, src) => return (.ok none, r, src)
    | (.error e, r, src) => return (.error e, r, src)
    | (.ok (totalSize, paddingLen), r, src) => readPayload x r src totalSize paddingLen

/-! ## Where it panics -/

variable {x}

theorem aeadDecrypt_eq (a : Aead) (s : AeadState) (ciphertext : Bytes) :
    aeadDecrypt a s ciphertext = some (s.decrypt a ciphertext) := by
  unfold aeadDecrypt
  split
  · rename_i hshort
    rw [AeadState.decrypt, if_pos hshort]
  · rename_i hlong
    have htag := Nat.not_lt.mp hlong
    simp [subUsize, slice, htag, List.take_of_length_le]

theorem decrypt_eq (ciphertext : Bytes) (c : PayloadCipher) :
    decrypt x ciphertext c = some (c.decrypt x ciphertext) := by
  cases c <;> simp [decrypt, aeadDecrypt_eq, PayloadCipher.decrypt]

/-- A sealed length to which the tag cannot be added. -/
def Overflows (x : Crypto) (c : SizeCodec) (buf : Bytes) : Prop :=
  ∃ inner plaintext, c.sizeMode = .authenticatedLength inner ∧ (inner.decrypt x buf).1 = .ok plaintext ∧
    plaintext.length = 2 ∧ 65520 ≤ SizeCodec.readU16 plaintext

theorem decodeSizeBytes_eq (c : SizeCodec) (buf : Bytes) :
    (Overflows x c buf ∧ decodeSizeBytes x c buf = none) ∨
      (¬ Overflows x c buf ∧ decodeSizeBytes x c buf = some (c.decodeSizeBytes x buf)) := by
  unfold decodeSizeBytes SizeCodec.decodeSizeBytes Overflows
  cases hmode : c.sizeMode with
  | plain => exact .inr ⟨fun ⟨_, _, h, _⟩ => (nomatch h), rfl⟩
  | shakeMasked => exact .inr ⟨fun ⟨_, _, h, _⟩ => (nomatch h), rfl⟩
  | authenticatedLength inner =>
    simp only [decrypt_eq, SizeMode.authenticatedLength.injEq]
    cases hopen : (inner.decrypt x buf).1 with
    | error e => grind
    | ok plaintext =>
      by_cases htwo : plaintext.length = 2
      · have hslice : slice plaintext 0 2 = some plaintext := by simp [slice, htwo, List.take_of_length_le]
        by_cases hlarge : 65520 ≤ SizeCodec.readU16 plaintext
        · have hsum : ¬ SizeCodec.readU16 plaintext + aeadTagLen < 65536 := by unfold aeadTagLen; omega
          exact .inl ⟨⟨inner, plaintext, rfl, hopen, htwo, hlarge⟩, by simp [hopen, htwo, hslice, addU16, hsum]⟩
        · have hsum : SizeCodec.readU16 plaintext + aeadTagLen < 65536 := by unfold aeadTagLen; omega
          refine .inr ⟨?_, by simp [hopen, htwo, hslice, addU16, hsum, Nat.mod_eq_of_lt hsum]⟩
          grind
      · refine .inr ⟨?_, by simp [hopen, htwo]⟩
        grind

theorem readPayload_eq (r : VmessBodyReader) (src : Schedule) (totalSize paddingLen : Nat) :
    readPayload x r src totalSize paddingLen = some (r.readPayload x src totalSize paddingLen) := by
  unfold readPayload
  simp only
  split
  · rfl
  rename_i hsize
  have hpad : paddingLen ≤ totalSize := by omega
  unfold VmessBodyReader.readPayload
  rw [if_neg (by omega), if_neg (by omega), if_neg (by omega)]
  have hlen : ∀ chunk src', src.readExact totalSize = (.done chunk, src') → chunk.length = totalSize := by
    grind [Schedule.readExact]
  rcases hread : src.readExact totalSize with ⟨got, src'⟩
  cases got with
  | block _ | eof _ => rfl
  | done chunk =>
    simp [subUsize, hpad, slice, hlen chunk src' hread, decrypt_eq]

/-- A call comes across a length that overflows. -/
def Meets (x : Crypto) (r : VmessBodyReader) (src : Schedule) : Prop :=
  ∃ paddingLen c buf src', r.nextPaddingLen x = (.ok paddingLen, c) ∧
    src.readExact c.sizeMode.width = (.done buf, src') ∧ Overflows x c buf

theorem decodeSize_eq (r : VmessBodyReader) (src : Schedule) :
    (Meets x r src ∧ decodeSize x r src = none) ∨
      (¬ Meets x r src ∧ decodeSize x r src = some (r.decodeSize x src)) := by
  unfold Meets decodeSize VmessBodyReader.decodeSize
  rcases r.nextPaddingLen x with ⟨_ | paddingLen, c⟩
  · simp
  · cases hread : src.readExact c.sizeMode.width with
    | mk got src' =>
      cases got with
      | block _ | eof _ => simp [hread]
      | done buf =>
        rcases decodeSizeBytes_eq (x := x) c buf with ⟨hover, hnone⟩ | ⟨hfits, hsome⟩
        · exact .inl ⟨⟨_, _, _, _, rfl, hread, hover⟩, by simp [hread, hnone]⟩
        · refine .inr ⟨by grind, ?_⟩
          simp only [hread, hsome]
          rcases c.decodeSizeBytes x buf with ⟨_ | size, c'⟩ <;> rfl

/-- **What holds**, for every reader and every stream: a call panics exactly where it
comes across a length that overflows, and otherwise returns. -/
theorem readChunk_safe_iff (x : Crypto) (r : VmessBodyReader) (src : Schedule) :
    (readChunk x r src = none ↔ r.done = false ∧ Meets x r src) ∧
      ∀ res, readChunk x r src = some res → res = r.readChunk x src := by
  unfold readChunk VmessBodyReader.readChunk
  cases r.done with
  | true => simp
  | false =>
    rcases decodeSize_eq (x := x) r src with ⟨hmeets, hnone⟩ | ⟨hnot, hsome⟩
    · simp [hnone, hmeets]
    · simp only [hsome, hnot]
      rcases r.decodeSize x src with ⟨((_ | _) | _ | _) | ⟨totalSize, paddingLen⟩, r', src'⟩ <;>
        simp +contextual [readPayload_eq]

/-- **Counterexample**: AES-128-GCM with AUTHENTICATED_LENGTH, and a chunk of the sealed
length 65535. -/
theorem length_65535_panics :
    ∃ r, VmessBodyReader.newWithOptions plainCrypto (List.replicate 16 1) (List.replicate 16 2) (List.replicate 16 1)
        (List.replicate 16 2) 0x11 0x03 = .ok r ∧
      readChunk plainCrypto r ⟨0xff :: 0xff :: List.replicate 16 0, []⟩ = none :=
  ⟨_, rfl, rfl⟩

end Wrongsv.Bugs.VmessLengthOverflow
