import Wrongsv.L2Machine.Vmess.Body

/-!
# VMess: writer and reader in step

A reader that has the state of the writer reads back what is written
(`readChunk_writeChunk`), and is in the writer's state again behind it. The
state has to be `Sound`: sealed sizes have a tag, and padding is only asked
for when there is a SHAKE stream to take its length from.
-/
namespace Wrongsv.L2.Vmess
open List

variable (x : Crypto)

namespace PayloadCipher

variable (c : PayloadCipher) (plaintext : Bytes)

theorem overhead_encrypt : (c.encrypt x plaintext).2.overhead = c.overhead := by
  cases c <;> rfl

theorem length_encrypt : (c.encrypt x plaintext).1.length = plaintext.length + c.overhead := by
  cases c with
  | none => rfl
  | aes128Gcm s => exact x.aes128Gcm.encrypt_length _ _ _ _
  | chacha20Poly1305 s => exact x.chacha20Poly1305.encrypt_length _ _ _ _

theorem aeadDecrypt_encrypt (a : Aead) (s : AeadState) :
    s.decrypt a (s.encrypt a plaintext) = (.ok plaintext, s.next) := by
  have hlen : ¬ (s.encrypt a plaintext).length < aeadTagLen := by
    rw [AeadState.encrypt, a.encrypt_length]
    omega
  rw [AeadState.decrypt, if_neg hlen, AeadState.encrypt, a.decrypt_encrypt]

theorem decrypt_encrypt : c.decrypt x (c.encrypt x plaintext).1 = (.ok plaintext, (c.encrypt x plaintext).2) := by
  cases c with
  | none => rfl
  | aes128Gcm s => simp only [decrypt, encrypt, aeadDecrypt_encrypt]
  | chacha20Poly1305 s => simp only [decrypt, encrypt, aeadDecrypt_encrypt]

end PayloadCipher

/-! ## Sizes -/

theorem width_pos (mode : SizeMode) : 0 < mode.width := by
  cases mode <;> exact Nat.zero_lt_succ _

namespace SizeCodec

theorem nextPaddingLen_flag (c : SizeCodec) : (c.nextPaddingLen x).2.useGlobalPadding = c.useGlobalPadding := by
  unfold nextPaddingLen
  split
  · rfl
  · split <;> rfl

theorem encodeSize_flag (c : SizeCodec) (total : Nat) :
    (c.encodeSize x total).2.useGlobalPadding = c.useGlobalPadding := by
  grind [encodeSize]

structure Sound (c : SizeCodec) : Prop where
  tagged : ∀ inner, c.sizeMode = .authenticatedLength inner → inner.overhead = aeadTagLen
  padded : c.useGlobalPadding = true → c.shake.isSome = true

theorem readU16_be16 (n : Nat) (h : n < 65536) : readU16 (be16 n) = n := u16_be16 n h

variable {c : SizeCodec}

/-- With a SHAKE stream where one is needed, a length is known, and the mode of
the sizes stays. -/
theorem nextPaddingLen_ok (h : c.useGlobalPadding = true → c.shake.isSome = true) :
    ∃ n c', c.nextPaddingLen x = (.ok n, c') ∧ n < maxPaddingLen ∧ c'.sizeMode = c.sizeMode ∧
      (c'.useGlobalPadding = true → c'.shake.isSome = true) := by
  unfold nextPaddingLen
  cases hp : c.useGlobalPadding with
  | false => exact ⟨0, c, rfl, by decide, rfl, h⟩
  | true =>
    obtain ⟨s, hs⟩ := Option.isSome_iff_exists.mp (h hp)
    rw [hs]
    exact ⟨_, _, rfl, Nat.mod_lt _ (by decide), rfl, fun _ => rfl⟩

theorem nextPaddingLen_sound (h : c.Sound) :
    ∃ n c', c.nextPaddingLen x = (.ok n, c') ∧ n < maxPaddingLen ∧ c'.Sound := by
  obtain ⟨n, c', hn, hlt, hm, hp⟩ := nextPaddingLen_ok x h.padded
  exact ⟨n, c', hn, hlt, ⟨hm ▸ h.tagged, hp⟩⟩

/-- **Sizes in step.** -/
theorem decodeSizeBytes_encodeSize {c' : SizeCodec} {total : Nat} {bytes : Bytes} (h : c.Sound)
    (ht : total < 65536) (he : c.encodeSize x total = (.ok bytes, c')) :
    bytes.length = c.sizeMode.width ∧ c.decodeSizeBytes x bytes = (.ok total, c') ∧ c'.Sound := by
  obtain ⟨mode, shake, padding⟩ := c
  unfold encodeSize at he
  unfold decodeSizeBytes
  cases mode with
  | plain =>
    obtain ⟨rfl, rfl⟩ := he
    exact ⟨rfl, by rw [readU16_be16 total ht], h⟩
  | shakeMasked =>
    cases shake with
    | none => cases he
    | some s =>
      obtain ⟨rfl, rfl⟩ := he
      have hmask : (s.nextU16 x).1 < 2 ^ 16 := u16_lt _ _
      have hlt : (s.nextU16 x).1 ^^^ total < 2 ^ 16 := Nat.xor_lt_two_pow hmask ht
      refine ⟨rfl, ?_, ⟨(fun _ hm => by cases hm), fun _ => rfl⟩⟩
      grind [readU16_be16]
  | authenticatedLength inner =>
    have hov : inner.overhead = aeadTagLen := h.tagged inner rfl
    simp only at he
    split at he
    · cases he
    obtain ⟨rfl, rfl⟩ := he
    have hlen := inner.length_encrypt x (be16 (total - aeadTagLen))
    refine ⟨by rw [hlen, hov]; rfl, ?_, ⟨fun i hi => ?_, h.padded⟩⟩
    · simp only [inner.decrypt_encrypt x, be16_length, ne_eq, not_true_eq_false, if_false]
      grind [readU16_be16]
    · cases hi
      rw [inner.overhead_encrypt x, hov]

end SizeCodec

/-! ## Chunks -/

/-- What a successful `write_chunk` has done. -/
structure Wrote (w : VmessBodyWriter) (plaintext bytes : Bytes) (w' : VmessBodyWriter) where
  size : Bytes
  padding : Bytes
  padded : SizeCodec
  bytes_eq : bytes = size ++ ((w.payload.encrypt x plaintext).1 ++ padding)
  short : plaintext.length ≤ maxChunkPayload
  padding_lt : padding.length < maxPaddingLen
  nextPaddingLen_eq : w.nextPaddingLen x = (.ok padding.length, padded)
  encodeSize_eq : padded.encodeSize x ((w.payload.encrypt x plaintext).1.length + padding.length) =
    (.ok size, w'.toSizeCodec)
  payload_eq : w'.payload = (w.payload.encrypt x plaintext).2

theorem overhead_le (c : PayloadCipher) : c.overhead ≤ aeadTagLen := by
  cases c with
  | none => exact Nat.zero_le _
  | aes128Gcm | chacha20Poly1305 => exact Nat.le_refl _

variable {w : VmessBodyWriter}

theorem writeChunk_wrote {w' : VmessBodyWriter} {plaintext bytes : Bytes} {fill : Nat → UInt8}
    (hs : w.Sound) (h : w.writeChunk x plaintext fill = (.ok bytes, w')) :
    Nonempty (Wrote x w plaintext bytes w') := by
  obtain ⟨n, c, hn, hlt, -⟩ := w.nextPaddingLen_sound x hs
  unfold VmessBodyWriter.writeChunk at h
  split at h
  · cases h
  rename_i hshort
  simp only [hn] at h
  have hlen := w.payload.length_encrypt x plaintext
  have hov := overhead_le w.payload
  have hmod : ((w.payload.encrypt x plaintext).1.length + n) % 65536 =
      (w.payload.encrypt x plaintext).1.length + n := by
    apply Nat.mod_eq_of_lt
    simp only [maxChunkPayload, maxPaddingLen, aeadTagLen] at hshort hlt hov
    omega
  rw [hmod] at h
  cases he : c.encodeSize x ((w.payload.encrypt x plaintext).1.length + n) with
  | mk result c' =>
    rw [he] at h
    cases result with
    | error e => cases h
    | ok size =>
      obtain ⟨rfl, rfl⟩ := h
      refine ⟨⟨size, (List.range n).map fill, c, ?_, Nat.not_lt.mp hshort, ?_, ?_, ?_, rfl⟩⟩
      all_goals simp_all

section
variable {x : Crypto} {w w' : VmessBodyWriter} {plaintext bytes : Bytes}

/-- The reader in the state of the writer. -/
def VmessBodyWriter.reader (w : VmessBodyWriter) : VmessBodyReader := ⟨w.toBodyCodec, false⟩

variable (h : Wrote x w plaintext bytes w')
include h

theorem Wrote.total_lt : (w.payload.encrypt x plaintext).1.length + h.padding.length < 65536 := by
  have hlen := w.payload.length_encrypt x plaintext
  have hov := overhead_le w.payload
  have h1 := h.short
  have h2 := h.padding_lt
  simp only [maxChunkPayload, maxPaddingLen, aeadTagLen] at h1 h2 hov
  omega

theorem Wrote.padded_sound (hs : w.Sound) : h.padded.Sound := by
  obtain ⟨n, c, hn, -, hc⟩ := w.nextPaddingLen_sound x hs
  rw [h.nextPaddingLen_eq] at hn
  simp only [Prod.mk.injEq] at hn
  exact hn.2 ▸ hc

theorem Wrote.sound (hs : w.Sound) : w'.Sound :=
  (SizeCodec.decodeSizeBytes_encodeSize x (h.padded_sound hs) h.total_lt h.encodeSize_eq).2.2

theorem Wrote.bytes_pos (hs : w.Sound) : 0 < bytes.length := by
  have h1 := (SizeCodec.decodeSizeBytes_encodeSize x (h.padded_sound hs) h.total_lt h.encodeSize_eq).1
  have h2 := width_pos h.padded.sizeMode
  rw [h.bytes_eq, length_append]
  omega

theorem Wrote.useGlobalPadding_eq : w'.useGlobalPadding = w.useGlobalPadding := by
  have h1 := SizeCodec.nextPaddingLen_flag x w.toSizeCodec
  have h2 := SizeCodec.encodeSize_flag x h.padded
    ((w.payload.encrypt x plaintext).1.length + h.padding.length)
  rw [h.nextPaddingLen_eq] at h1
  rw [h.encodeSize_eq] at h2
  exact h2.trans h1

theorem Wrote.decodeSize (hs : w.Sound) (rest : Bytes) (later : List Bytes) :
    w.reader.decodeSize x ⟨bytes ++ rest, later⟩ =
      (.ok ((w.payload.encrypt x plaintext).1.length + h.padding.length, h.padding.length),
        w.reader.setSizes w'.toSizeCodec,
        ⟨(w.payload.encrypt x plaintext).1 ++ h.padding ++ rest, later⟩) := by
  obtain ⟨h1, h2, -⟩ :=
    SizeCodec.decodeSizeBytes_encodeSize x (h.padded_sound hs) h.total_lt h.encodeSize_eq
  have hn : w.reader.nextPaddingLen x = (.ok h.padding.length, h.padded) := h.nextPaddingLen_eq
  have hb : bytes ++ rest = h.size ++ ((w.payload.encrypt x plaintext).1 ++ h.padding ++ rest) := by
    conv => lhs; rw [h.bytes_eq]
    rw [append_assoc, append_assoc]
  unfold VmessBodyReader.decodeSize
  rw [hn, hb]
  simp only [← h1, Schedule.readExact_append, h2]

/-- **A chunk is read back**, and reader and writer are in step again. -/
theorem Wrote.readChunk (hs : w.Sound) (hne : plaintext ≠ []) (rest : Bytes) (later : List Bytes) :
    w.reader.readChunk x ⟨bytes ++ rest, later⟩ = (.ok (some plaintext), w'.reader, ⟨rest, later⟩) := by
  have hlen := w.payload.length_encrypt x plaintext
  have hdec := w.payload.decrypt_encrypt x plaintext
  have hpos := List.length_pos_iff.mpr hne
  have hshort := h.short
  have hpad := h.padding_lt
  have hnot : w.reader.done ≠ true := Bool.false_ne_true
  unfold VmessBodyReader.readChunk
  rw [if_neg hnot, h.decodeSize hs rest later]
  have hpay := h.payload_eq
  generalize w.payload.encrypt x plaintext = sealed at hlen hdec hpay ⊢
  -- the size is neither that of an empty chunk nor too small nor too large
  have h1 : ¬ sealed.1.length + h.padding.length = w.payload.overhead + h.padding.length := by omega
  have h2 : ¬ sealed.1.length + h.padding.length < w.payload.overhead + h.padding.length := by omega
  have h3 : ¬ maxChunkPayload + w.payload.overhead + maxPaddingLen <
      sealed.1.length + h.padding.length := by omega
  have hread := Schedule.readExact_append (sealed.1 ++ h.padding) rest later
  rw [length_append] at hread
  simp only [VmessBodyReader.readPayload, VmessBodyReader.setSizes, VmessBodyWriter.reader, if_neg
    h1, if_neg h2, if_neg h3, hread, Nat.add_sub_cancel, take_left, hdec, ← hpay]
  rfl

omit h in
theorem Wrote.readChunk_nil (h : Wrote x w [] bytes w') (hs : w.Sound) (rest : Bytes)
    (later : List Bytes) : (w.reader.readChunk x ⟨bytes ++ rest, later⟩).1 = .ok none := by
  have hlen : (w.payload.encrypt x []).1.length = w.payload.overhead := by
    rw [w.payload.length_encrypt x, length_nil, Nat.zero_add]
  have hnot : w.reader.done ≠ true := Bool.false_ne_true
  unfold VmessBodyReader.readChunk
  rw [if_neg hnot, h.decodeSize hs rest later]
  simp only [VmessBodyReader.readPayload, VmessBodyReader.setSizes, VmessBodyWriter.reader, hlen, if_true]

end

/-! ## Nothing to read -/

section
variable {x} {r : VmessBodyReader} {n : Nat} {c : SizeCodec}

theorem readChunk_eof (hd : r.done = false) (hn : r.nextPaddingLen x = (.ok n, c)) :
    r.readChunk x ⟨[], []⟩ = (.ok none, r.setSizes c, ⟨[], []⟩) := by
  have hread : Schedule.readExact ⟨[], []⟩ c.sizeMode.width = (.eof [], ⟨[], []⟩) :=
    Schedule.readExact_eof (width_pos _) rfl
  unfold VmessBodyReader.readChunk VmessBodyReader.decodeSize
  simp_all

/-- On a timeout before the first byte the reader is left with the SHAKE stream
behind the padding length. -/
theorem readChunk_idle (hd : r.done = false) (hn : r.nextPaddingLen x = (.ok n, c)) (next : Bytes)
    (later : List Bytes) : r.readChunk x ⟨[], next :: later⟩ =
    (.error (.read .wouldBlock), r.setSizes c, ⟨next, later⟩) := by
  have hread : Schedule.readExact ⟨[], next :: later⟩ c.sizeMode.width = (.block [], ⟨next, later⟩) :=
    (Schedule.readExact_block (width_pos _) rfl 0).1
  unfold VmessBodyReader.readChunk VmessBodyReader.decodeSize
  simp_all

end

/-! ## Bodies -/

/-- A chunk the relay writes, with the random bytes for its padding. -/
structure Write where
  plaintext : Bytes
  fill : Nat → UInt8
  nonempty : plaintext ≠ []
  short : plaintext.length ≤ maxChunkPayload

/-- The bytes of every chunk, when every `write_chunk` returns `Ok`. -/
def VmessBodyWriter.writeAll (w : VmessBodyWriter) : List Write → Option (List Bytes × VmessBodyWriter)
  | [] => some ([], w)
  | c :: chunks =>
    match w.writeChunk x c.plaintext c.fill with
    | (.error _, _) => none
    | (.ok bytes, w) => (w.writeAll chunks).map (fun r => (bytes :: r.1, r.2))

/-- What `write_eof` adds. -/
def VmessBodyWriter.eofBytes (w : VmessBodyWriter) (fill : Nat → UInt8) : Bytes :=
  match (w.writeEof x fill).1 with
  | .ok bytes => bytes
  | .error _ => []

/-- The results of `n` calls of `read_chunk`. -/
def VmessBodyReader.reads : Nat → VmessBodyReader → Schedule → List (Except VmessError (Option Bytes))
  | 0, _, _ => []
  | n + 1, r, src => (r.readChunk x src).1 :: reads n (r.readChunk x src).2.1 (r.readChunk x src).2.2

theorem writeAll_cons {w' : VmessBodyWriter} {c : Write} {chunks : List Write} {pieces : List Bytes}
    (h : w.writeAll x (c :: chunks) = some (pieces, w')) :
    ∃ first rest w₁, w.writeChunk x c.plaintext c.fill = (.ok first, w₁) ∧
      w₁.writeAll x chunks = some (rest, w') ∧ pieces = first :: rest := by
  grind [VmessBodyWriter.writeAll, Option.map_eq_some_iff]

theorem writeAll_sound (chunks : List Write) : ∀ {w w' : VmessBodyWriter} {pieces : List Bytes},
    w.Sound → w.writeAll x chunks = some (pieces, w') →
    w'.Sound ∧ w'.useGlobalPadding = w.useGlobalPadding := by
  induction chunks with
  | nil => grind [VmessBodyWriter.writeAll]
  | cons c chunks ih =>
    intro w w' pieces hs h
    obtain ⟨first, rest, w₁, hc, hr, rfl⟩ := writeAll_cons x h
    obtain ⟨hw⟩ := writeChunk_wrote x hs hc
    obtain ⟨h1, h2⟩ := ih (hw.sound hs) hr
    exact ⟨h1, h2.trans hw.useGlobalPadding_eq⟩

/-- The end of a body: an empty chunk, or the end of the stream if none can be
written. -/
theorem readChunk_eofBytes (hs : w.Sound) (fill : Nat → UInt8) :
    (w.reader.readChunk x ⟨w.eofBytes x fill, []⟩).1 = .ok none := by
  unfold VmessBodyWriter.eofBytes
  split
  · rename_i bytes he
    have he' : w.writeChunk x [] fill = (.ok bytes, (w.writeEof x fill).2) := Prod.ext he rfl
    obtain ⟨hw⟩ := writeChunk_wrote x hs he'
    have := hw.readChunk_nil hs [] []
    rwa [append_nil] at this
  · obtain ⟨n, c, hn, -, -⟩ := w.nextPaddingLen_sound x hs
    rw [readChunk_eof (r := w.reader) rfl hn]

/-- **A body is read back**: all chunks in order, then the end of the stream. -/
theorem reads_writeAll (fill : Nat → UInt8) (chunks : List Write) :
    ∀ {w w' : VmessBodyWriter} {pieces : List Bytes},
    w.Sound → w.writeAll x chunks = some (pieces, w') →
    w.reader.reads x (chunks.length + 1) ⟨pieces.flatten ++ w'.eofBytes x fill, []⟩ =
      chunks.map (fun c => .ok (some c.plaintext)) ++ [.ok none] := by
  induction chunks with
  | nil =>
    grind [VmessBodyWriter.writeAll, VmessBodyReader.reads, readChunk_eofBytes]
  | cons c chunks ih =>
    intro w w' pieces hs h
    obtain ⟨first, rest, w₁, hc, hr, rfl⟩ := writeAll_cons x h
    obtain ⟨hw⟩ := writeChunk_wrote x hs hc
    have hread := hw.readChunk hs c.nonempty (rest.flatten ++ w'.eofBytes x fill) []
    simp only [length_cons, VmessBodyReader.reads, flatten_cons, append_assoc, hread,
      map_cons, cons_append, ih (hw.sound hs) hr]

end Wrongsv.L2.Vmess
