import Wrongsv.L2Machine.Vmess.Endpoints

/-!
# VMess: option and security pairs that do not round-trip

`new_with_options` accepts every option byte with every supported security byte, but two
combinations do not work; all others do (`roundTrips_iff`):

* AUTHENTICATED_LENGTH with SECURITY_NONE or SECURITY_ZERO. The length cipher is no cipher, so
  `encode_size` (server/vmess.rs:871-879) emits the two bytes of the size, while `decode_size`
  (:976-980) reads eighteen. A chunk of fewer than sixteen bytes is not even written.
* GLOBAL_PADDING without CHUNK_MASKING. There is no SHAKE stream to take a padding length
  from, so every call of writer and reader fails (:946-956), also at the end of the stream.

Fix: reject the second combination in `new_with_options`, and for the first read and write
the plain size when the security has no cipher.
-/
namespace Wrongsv.Bugs.VmessOptionSpace
open L2.Vmess List

/-- Whatever chunks are written, they are read back, and then the end of the
stream is reported. -/
def RoundTrips {x : Crypto} (e : Endpoints x) : Prop :=
  ∀ (chunks : List Write) (pieces : List Bytes) (w : VmessBodyWriter) (fill : Nat → UInt8),
    e.writer.writeAll x chunks = some (pieces, w) →
    e.reader.reads x (chunks.length + 1) ⟨pieces.flatten ++ w.eofBytes x fill, []⟩ =
      chunks.map (fun c => .ok (some c.plaintext)) ++ [.ok none]

/-! ## What goes wrong -/

variable {x : Crypto}

theorem readChunk_unpadded {w : VmessBodyWriter} (hp : w.useGlobalPadding = true)
    (hs : w.shake = none) (src : Schedule) : (w.reader.readChunk x src).1 =
    .error (.protocol "global padding requested without shake state") := by
  have hn : w.reader.nextPaddingLen x =
      (.error (.protocol "global padding requested without shake state"), w.toSizeCodec) := by
    show w.nextPaddingLen x = _
    unfold SizeCodec.nextPaddingLen
    rw [hp, hs]
    rfl
  have hnot : w.reader.done ≠ true := Bool.false_ne_true
  unfold VmessBodyReader.readChunk VmessBodyReader.decodeSize
  rw [if_neg hnot, hn]

section
variable {c : SizeCodec} (hmode : c.sizeMode = .authenticatedLength .none)
include hmode

theorem encodeSize_untagged {total : Nat} (h : 16 ≤ total) :
    c.encodeSize x total = (.ok (be16 (total - 16)), c) := by
  have hge : ¬ total < aeadTagLen := Nat.not_lt.mpr h
  unfold SizeCodec.encodeSize
  rw [hmode]
  simp only [if_neg hge, PayloadCipher.encrypt, ← hmode]
  rfl

theorem decodeSizeBytes_untagged {bytes : Bytes} (h : bytes.length ≠ 2) :
    (c.decodeSizeBytes x bytes).1 = .error (.protocol "invalid authenticated length size") := by
  unfold SizeCodec.decodeSizeBytes
  rw [hmode]
  simp only [PayloadCipher.decrypt, if_pos h]

end

/-- Sixteen bytes of payload. -/
def sixteen : Write := ⟨List.replicate 16 0, fun _ => 0, by decide, by decide⟩

/-- A size without a tag: a chunk of sixteen bytes is written, and the read of
its size fails. -/
theorem readChunk_untagged {w : VmessBodyWriter} (hp : w.useGlobalPadding = true → w.shake.isSome = true)
    (hm : w.sizeMode = .authenticatedLength .none) :
    ∃ bytes w', w.writeChunk x sixteen.plaintext sixteen.fill = (.ok bytes, w') ∧
      ∀ more, (w.reader.readChunk x ⟨bytes ++ more, []⟩).1 =
        .error (.protocol "invalid authenticated length size") := by
  obtain ⟨n, c, hn, hlt, hmode, -⟩ := SizeCodec.nextPaddingLen_ok x hp
  rw [hm] at hmode
  have hlen : (w.payload.encrypt x sixteen.plaintext).1.length = 16 + w.payload.overhead :=
    w.payload.length_encrypt x _
  have hov := overhead_le w.payload
  generalize hsealed : w.payload.encrypt x sixteen.plaintext = sealed at hlen
  have htotal : (sealed.1.length + n) % 65536 = sealed.1.length + n := by
    simp only [maxPaddingLen, aeadTagLen] at hlt hov
    omega
  have hencode : c.encodeSize x (sealed.1.length + n) = (.ok (be16 (sealed.1.length + n - 16)), c) :=
    encodeSize_untagged hmode (by omega)
  refine ⟨be16 (sealed.1.length + n - 16) ++ sealed.1 ++ (List.range n).map sixteen.fill,
    ⟨c, sealed.2⟩, ?_, ?_⟩
  · have hshort : ¬ maxChunkPayload < sixteen.plaintext.length := by decide
    unfold VmessBodyWriter.writeChunk
    simp only [if_neg hshort, hsealed, hn, htotal, hencode]
  · intro more
    generalize hbytes : be16 (sealed.1.length + n - 16) ++ sealed.1 ++ (List.range n).map sixteen.fill ++ more
      = avail
    have h18 : 18 ≤ avail.length := by
      rw [← hbytes]
      simp only [length_append, be16_length]
      omega
    have hread : Schedule.readExact ⟨avail, []⟩ 18 = (.done (avail.take 18), ⟨avail.drop 18, []⟩) := by
      rw [Schedule.readExact, if_pos h18]
    have hdecode : (c.decodeSizeBytes x (avail.take 18)).1 =
        .error (.protocol "invalid authenticated length size") := by
      apply decodeSizeBytes_untagged hmode
      rw [length_take]
      omega
    have hnot : w.reader.done ≠ true := Bool.false_ne_true
    have hn' : w.reader.nextPaddingLen x = (.ok n, c) := hn
    unfold VmessBodyReader.readChunk VmessBodyReader.decodeSize
    rw [if_neg hnot, hn']
    simp only [hmode, SizeMode.width, hread]
    generalize c.decodeSizeBytes x (avail.take 18) = result at hdecode ⊢
    obtain ⟨result, c'⟩ := result
    cases hdecode
    rfl

/-! ## Result -/

/-- **The option space.** Writer and reader round-trip exactly when sizes are
not sealed without a cipher and padding comes with masking. -/
theorem roundTrips_iff (e : Endpoints x) : RoundTrips e ↔ Supported e.option e.security := by
  obtain ⟨hreader, hnew⟩ := e.codec
  rw [← newCodec_sound hnew]
  constructor
  · intro h
    have hpad : e.writer.useGlobalPadding = true → e.writer.shake.isSome = true := by
      intro hp
      cases hs : e.writer.shake with
      | some s => rfl
      | none =>
        have h0 := h [] [] e.writer (fun _ => 0) rfl
        rw [hreader] at h0
        simp only [length_nil, VmessBodyReader.reads, readChunk_unpadded hp hs] at h0
        cases h0
    refine ⟨fun inner hi => ?_, hpad⟩
    cases inner with
    | aes128Gcm | chacha20Poly1305 => rfl
    | none =>
      exfalso
      obtain ⟨bytes, w', hw, hr⟩ := readChunk_untagged (x := x) hpad hi
      have hall : e.writer.writeAll x [sixteen] = some ([bytes], w') := by
        unfold VmessBodyWriter.writeAll
        rw [hw]
        rfl
      have h1 := h [sixteen] _ w' (fun _ => 0) hall
      rw [hreader, flatten_singleton] at h1
      simp only [length_singleton, VmessBodyReader.reads, hr] at h1
      cases h1
  · intro hs chunks pieces w fill hw
    rw [hreader]
    exact reads_writeAll x fill chunks hs hw

/-! ## Counterexample -/

/-- AUTHENTICATED_LENGTH with SECURITY_NONE. -/
def lengthWithoutCipher : Endpoints plainCrypto where
  payloadKey := List.replicate 16 1
  payloadIv := List.replicate 16 2
  sizeKeySource := List.replicate 16 1
  sizeIvSource := List.replicate 16 2
  option := 0x10
  security := 0x05
  writer := ⟨⟨⟨.authenticatedLength .none, none, false⟩, .none⟩⟩
  reader := ⟨⟨⟨.authenticatedLength .none, none, false⟩, .none⟩, false⟩
  writer_new := rfl
  reader_new := rfl

/-- Eighteen bytes are written for a chunk of sixteen, and the reader takes all
of them for its size. -/
theorem size_without_cipher_rejected : lengthWithoutCipher.writer.writeAll plainCrypto [sixteen] =
        some ([0 :: 0 :: List.replicate 16 0], lengthWithoutCipher.writer) ∧
      lengthWithoutCipher.writer.eofBytes plainCrypto (fun _ => 0) = [] ∧
      lengthWithoutCipher.reader.reads plainCrypto 2 ⟨0 :: 0 :: List.replicate 16 0, []⟩ =
        [.error (.protocol "invalid authenticated length size"), .ok none] := by
  exact ⟨rfl, rfl, rfl⟩

end Wrongsv.Bugs.VmessOptionSpace
