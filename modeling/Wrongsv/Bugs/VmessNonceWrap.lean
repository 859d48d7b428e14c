import Wrongsv.L2Machine.Vmess.Seals

/-!
# VMess: body nonces come back after 65536 chunks

The nonce of a chunk is a 16-bit counter in front of ten bytes of the IV, and the counter
wraps (server/vmess.rs:728-733, 780, 794). The chunk number 65537 is sealed under the key and
the nonce of the first one, with no error, which gives away the XOR of two plaintexts and
the means to forge.

Spec clause: on one `VmessBodyWriter`, no two sealings have the same key and nonce, payloads
and sizes together; a writer without a fresh nonce returns an error.

Fix: `counter.checked_add(1)`, and an error when it is exhausted.
-/
namespace Wrongsv.Bugs.VmessNonceWrap
open L2.Vmess List

/-- No two sealings of the run have the same key and nonce. -/
def Fresh (x : Crypto) (w : VmessBodyWriter) (calls : List ChunkCall) : Prop :=
  (w.pairs x calls).Nodup

/-! ## Nonces -/

theorem chunkNonce_eq (base : Bytes) (counter : UInt16) :
    chunkNonce base counter 12 = be16 counter.toNat ++ (base.drop 2).take 10 := by
  unfold chunkNonce
  rw [take_append, be16_length, take_of_length_le (by rw [be16_length]; omega)]

theorem be16_inj {a b : UInt16} (h : be16 a.toNat = be16 b.toNat) : a = b := by
  have hread : SizeCodec.readU16 (be16 a.toNat) = SizeCodec.readU16 (be16 b.toNat) := by rw [h]
  rw [SizeCodec.readU16_be16 _ a.toNat_lt, SizeCodec.readU16_be16 _ b.toNat_lt] at hread
  exact UInt16.toNat_inj.mp hread

theorem chunkNonce_inj {base base' : Bytes} {a b : UInt16} : chunkNonce base a 12 =
    chunkNonce base' b 12 ↔ a = b ∧ (base.drop 2).take 10 = (base'.drop 2).take 10 := by
  grind [chunkNonce_eq, be16_length, be16_inj, append_inj]

theorem counter_add_inj {c : UInt16} {i j : Nat} :
    c + UInt16.ofNat i = c + UInt16.ofNat j ↔ i % 65536 = j % 65536 := by
  rw [UInt16.add_right_inj, ← UInt16.toNat_inj, UInt16.toNat_ofNat', UInt16.toNat_ofNat']

theorem pairAt_periodic (s : AeadState) : Counter.Periodic 65536 s.pairAt := by
  intro i j
  simp only [AeadState.pairAt, Prod.mk.injEq, true_and, and_true, chunkNonce_inj, counter_add_inj]

/-- Two ciphers that start together meet, if at all, at the same counters. -/
theorem pairAt_eq_iff {s t : AeadState} (h : s.counter = t.counter) (i j : Nat) :
    s.pairAt i = t.pairAt j ↔
      (s.key = t.key ∧ (s.iv.drop 2).take 10 = (t.iv.drop 2).take 10) ∧ i % 65536 = j % 65536 := by
  simp only [AeadState.pairAt, Prod.mk.injEq, chunkNonce_inj, h, counter_add_inj]
  tauto

/-! ## The writers of `new_with_options` -/

/-- The sizes are sealed, and a call gets that far. -/
def SizesSealed (option : UInt8) : Prop :=
  option &&& requestOptionAuthenticatedLength ≠ 0 ∧
    (option &&& requestOptionGlobalPadding ≠ 0 → option &&& requestOptionChunkMasking ≠ 0)

section
variable (x : Crypto)

/-- The key a cipher is used with. -/
def bodyKey (security : UInt8) (key : Bytes) : Bytes :=
  if security = securityChacha20Poly1305 then generateChacha20poly1305Key x key else key

def sizeKey (security : UInt8) (sizeKeySource : Bytes) : Bytes :=
  bodyKey x security (vmessKdf16 x sizeKeySource [ascii "auth_len"])

end

section
variable {x : Crypto} {security : UInt8}
  (hsec : security = securityAes128Gcm ∨ security = securityChacha20Poly1305)
include hsec

theorem newCipher_state (key iv : Bytes) : ∃ c, PayloadCipher.new x key iv security = .ok c ∧
    c.state = some ⟨bodyKey x security key, iv, 0⟩ := by
  rcases hsec with rfl | rfl
  · exact ⟨_, rfl, rfl⟩
  · exact ⟨_, rfl, rfl⟩

theorem newWriter {payloadKey payloadIv sizeKeySource sizeIvSource : Bytes} {option : UInt8} {w : VmessBodyWriter}
    (hw : VmessBodyWriter.newWithOptions x payloadKey payloadIv sizeKeySource sizeIvSource option security = .ok w) :
    (SizesSealed option → PayloadAndSize w ⟨bodyKey x security payloadKey, payloadIv, 0⟩
        ⟨sizeKey x security sizeKeySource, sizeIvSource, 0⟩) ∧
      (¬ SizesSealed option → PayloadOnly w ⟨bodyKey x security payloadKey, payloadIv, 0⟩) := by
  obtain ⟨payload, hnew, hpayload⟩ := newCipher_state (x := x) hsec payloadKey payloadIv
  obtain ⟨inner, hnew', hinner⟩ :=
    newCipher_state (x := x) hsec (vmessKdf16 x sizeKeySource [ascii "auth_len"]) sizeIvSource
  unfold VmessBodyWriter.newWithOptions BodyCodec.newWithOptions authenticatedLengthCipher at hw
  rw [hnew, hnew'] at hw
  by_cases hauth : option &&& requestOptionAuthenticatedLength = 0
  · simp [hauth, bind, Except.bind, pure, Except.pure, Except.map] at hw
    subst hw
    refine ⟨fun hs => absurd hauth hs.1, fun _ => ⟨hpayload, .inl fun i => ?_⟩⟩
    split <;> simp
  · simp [hauth, bind, Except.bind, pure, Except.pure, Except.map] at hw
    subst hw
    by_cases hmask : option &&& requestOptionChunkMasking = 0
    · refine ⟨fun hs => ⟨hpayload, ⟨inner, rfl, hinner⟩, fun hpad => ?_⟩, fun hs => ⟨hpayload, .inr ⟨?_, ?_⟩⟩⟩
      · exact absurd hmask (hs.2 (by simpa using hpad))
      · have hpad : option &&& requestOptionGlobalPadding ≠ 0 := by
          intro h0
          exact hs ⟨hauth, fun h => absurd h0 h⟩
        simpa using hpad
      · simp [hmask]
    · refine ⟨fun _ => ⟨hpayload, ⟨inner, rfl, hinner⟩, fun _ => by simp [hmask]⟩, fun hs => ?_⟩
      exact absurd ⟨hauth, fun _ => hmask⟩ hs

end

/-- **Exactly 65536 chunks.** Whatever is written, with whatever keys and options, the
keys and nonces of one writer differ if and only if at most 65536 chunks are sealed
and, where sizes are sealed, the two ciphers do not share key and IV bytes 2 to 11. -/
theorem fresh_iff (x : Crypto) (payloadKey payloadIv sizeKeySource sizeIvSource : Bytes) (option security : UInt8)
    (hsec : security = securityAes128Gcm ∨ security = securityChacha20Poly1305) (w : VmessBodyWriter)
    (hw : VmessBodyWriter.newWithOptions x payloadKey payloadIv sizeKeySource sizeIvSource option security = .ok w)
    (calls : List ChunkCall) :
    Fresh x w calls ↔ sealedChunks calls ≤ 65536 ∧
        (SizesSealed option → bodyKey x security payloadKey = sizeKey x security sizeKeySource →
          (payloadIv.drop 2).take 10 = (sizeIvSource.drop 2).take 10 → sealedChunks calls = 0) := by
  obtain ⟨hboth, hpayload⟩ := newWriter hsec hw
  by_cases hsizes : SizesSealed option
  · have hcross := pairAt_eq_iff (s := ⟨bodyKey x security payloadKey, payloadIv, 0⟩)
      (t := ⟨sizeKey x security sizeKeySource, sizeIvSource, 0⟩) rfl
    rw [Fresh, (hboth hsizes).pairs,
      Counter.nodup_flatMap_range_iff (by decide) (pairAt_periodic _) (pairAt_periodic _) hcross]
    simp [hsizes]
  · rw [Fresh, (hpayload hsizes).pairs, Counter.nodup_map_range_iff (by decide) (pairAt_periodic _)]
    simp [hsizes]

/-! ## Counterexample -/

def someKey : Bytes := List.replicate 16 1

def someIv : Bytes := List.replicate 16 2

/-- Plain sizes, AES-128-GCM. -/
def someWriter : VmessBodyWriter := ⟨⟨⟨.plain, none, false⟩, .aes128Gcm ⟨someKey, someIv, 0⟩⟩⟩

theorem someWriter_new :
    VmessBodyWriter.newWithOptions plainCrypto someKey someIv someKey someIv 0x01 0x03 = .ok someWriter := rfl

def oneByte : ChunkCall := ⟨[0x61], fun _ => 0⟩

theorem fresh_iff_two : Fresh plainCrypto someWriter [oneByte, oneByte] ↔ sealedChunks [oneByte, oneByte] ≤ 65536 ∧
        (SizesSealed 0x01 → bodyKey plainCrypto 0x03 someKey = sizeKey plainCrypto 0x03 someKey →
          (someIv.drop 2).take 10 = (someIv.drop 2).take 10 → sealedChunks [oneByte, oneByte] = 0) :=
  fresh_iff plainCrypto someKey someIv someKey someIv 0x01 0x03 (.inl rfl) someWriter someWriter_new _

/-- A writer without padding and with plain sizes writes everything. -/
theorem outcomes_ok (x : Crypto) : ∀ (calls : List ChunkCall) {w : VmessBodyWriter},
    w.sizeMode = .plain → w.useGlobalPadding = false →
    (∀ call ∈ calls, call.plaintext.length ≤ maxChunkPayload) →
    ∀ r ∈ w.outcomes x calls, ∃ bytes, r = .ok bytes
  | [], _, _, _, _, r, hr => by cases hr
  | call :: calls, w, hmode, hpad, hlen, r, hr => by
    have hwrite : w.writeChunk x call.plaintext call.fill =
        (.ok (be16 (((w.payload.encrypt x call.plaintext).1.length + 0) % 65536) ++
          (w.payload.encrypt x call.plaintext).1 ++ (List.range 0).map call.fill),
          ⟨w.toSizeCodec, (w.payload.encrypt x call.plaintext).2⟩) := by
      have hshort := hlen call (by simp)
      have hpadding : w.nextPaddingLen x = (.ok 0, w.toSizeCodec) := by simp [SizeCodec.nextPaddingLen, hpad]
      unfold VmessBodyWriter.writeChunk
      rw [if_neg (by omega), hpadding]
      simp [SizeCodec.encodeSize, hmode]
    rcases List.mem_cons.mp hr with rfl | hr
    · exact ⟨_, by rw [hwrite]⟩
    · refine outcomes_ok x calls ?_ ?_ (fun c hc => hlen c (mem_cons_of_mem _ hc)) r hr
      · rw [VmessBodyWriter.after, hwrite]
        exact hmode
      · rw [VmessBodyWriter.after, hwrite]
        exact hpad

theorem someWriter_payloadOnly : PayloadOnly someWriter ⟨someKey, someIv, 0⟩ :=
  ⟨rfl, .inl fun _ h => by cases h⟩

theorem sealedChunks_replicate (n : Nat) : sealedChunks (List.replicate n oneByte) = n := by
  simp [sealedChunks, oneByte, maxChunkPayload]

/-- **65537 chunks** of one byte are all written, and the last one is sealed under the
key and the nonce of the first. -/
theorem nonce_wraps :
    (∀ r ∈ someWriter.outcomes plainCrypto (List.replicate 65537 oneByte), ∃ bytes, r = .ok bytes) ∧
      (someWriter.pairs plainCrypto (List.replicate 65537 oneByte))[0]? =
        some (someKey, [0, 0] ++ List.replicate 10 2) ∧
      (someWriter.pairs plainCrypto (List.replicate 65537 oneByte))[65536]? =
        some (someKey, [0, 0] ++ List.replicate 10 2) ∧
      ¬ Fresh plainCrypto someWriter (List.replicate 65537 oneByte) := by
  have hpairs : someWriter.pairs plainCrypto (List.replicate 65537 oneByte) =
      (List.range 65537).map (AeadState.pairAt ⟨someKey, someIv, 0⟩) := by
    rw [someWriter_payloadOnly.pairs, sealedChunks_replicate]
  refine ⟨?_, ?_, ?_, ?_⟩
  · refine outcomes_ok _ _ rfl rfl ?_
    intro call hcall
    rw [eq_of_mem_replicate hcall]
    decide
  · rw [hpairs, List.getElem?_map, List.getElem?_range (by decide)]
    rfl
  · rw [hpairs, List.getElem?_map, List.getElem?_range (by decide)]
    rfl
  · rw [Fresh, hpairs, Counter.nodup_map_range_iff (by decide) (pairAt_periodic _)]
    decide

end Wrongsv.Bugs.VmessNonceWrap
