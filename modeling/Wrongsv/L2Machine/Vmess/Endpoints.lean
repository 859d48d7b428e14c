import Wrongsv.L2Machine.Vmess.InStep

/-!
# VMess: what the option and security bytes make of a codec

`new_with_options` accepts every option byte with each of the four security
bytes. The codec it builds is `Sound` exactly when the pair is `Supported`
(`newCodec_sound`).
-/
namespace Wrongsv.L2.Vmess

/-- A writer and a reader that `new_with_options` has built from the same
keys and options. -/
structure Endpoints (x : Crypto) where
  payloadKey : Bytes
  payloadIv : Bytes
  sizeKeySource : Bytes
  sizeIvSource : Bytes
  option : UInt8
  security : UInt8
  writer : VmessBodyWriter
  reader : VmessBodyReader
  writer_new : VmessBodyWriter.newWithOptions x payloadKey payloadIv sizeKeySource sizeIvSource
    option security = .ok writer
  reader_new : VmessBodyReader.newWithOptions x payloadKey payloadIv sizeKeySource sizeIvSource
    option security = .ok reader

/-- The pairs under which writer and reader can work together: sizes are not
sealed without a cipher, and padding comes with masking. -/
def Supported (option security : UInt8) : Prop :=
  ¬ (option &&& requestOptionAuthenticatedLength ≠ 0 ∧
      (security = securityNone ∨ security = securityZero)) ∧
    ¬ (option &&& requestOptionGlobalPadding ≠ 0 ∧ option &&& requestOptionChunkMasking = 0)

instance (option security : UInt8) : Decidable (Supported option security) := by
  unfold Supported; infer_instance

variable {x : Crypto}

theorem newCipher_overhead {key iv : Bytes} {security : UInt8} {c : PayloadCipher}
    (h : PayloadCipher.new x key iv security = .ok c) :
    c.overhead = aeadTagLen ↔ ¬ (security = securityNone ∨ security = securityZero) := by
  unfold PayloadCipher.new at h
  split at h
  · rename_i hs
    cases h
    rw [hs]
    exact ⟨fun _ => by decide, fun _ => rfl⟩
  · split at h
    · rename_i hs
      cases h
      rw [hs]
      exact ⟨fun _ => by decide, fun _ => rfl⟩
    · split at h
      · rename_i hs
        cases h
        exact ⟨(fun h => by cases h), fun hn => absurd hs hn⟩
      · cases h

theorem newCodec_padded (option : UInt8) (iv : Bytes) : ((option &&& requestOptionGlobalPadding != 0) = true →
        (if option &&& requestOptionChunkMasking != 0 then some (⟨iv, 0⟩ : ShakeState) else none).isSome = true) ↔
      ¬ (option &&& requestOptionGlobalPadding ≠ 0 ∧ option &&& requestOptionChunkMasking = 0) := by
  by_cases hm : option &&& requestOptionChunkMasking = 0 <;> simp [hm]

section
variable {payloadKey payloadIv sizeKeySource sizeIvSource : Bytes} {option security : UInt8} {c : BodyCodec}
  (h : BodyCodec.newWithOptions x payloadKey payloadIv sizeKeySource sizeIvSource option security = .ok c)
include h

theorem newCodec_sound : c.Sound ↔ Supported option security := by
  unfold BodyCodec.newWithOptions at h
  unfold Supported
  cases hp : PayloadCipher.new x payloadKey payloadIv security with
  | error e => rw [hp] at h; cases h
  | ok payload =>
    rw [hp] at h
    by_cases ha : option &&& requestOptionAuthenticatedLength = 0
    · -- sizes are not sealed
      simp only [ha, bne_self_eq_false, Bool.false_eq_true, if_false] at h
      cases h
      rw [← newCodec_padded option payloadIv]
      refine ⟨fun hs => ⟨fun hn => hn.1 ha, hs.padded⟩, fun hn => ⟨fun inner hi => ?_, hn.2⟩⟩
      exfalso
      by_cases hm : option &&& requestOptionChunkMasking = 0 <;> simp [hm] at hi
    · have ha' : (option &&& requestOptionAuthenticatedLength != 0) = true := by simpa using ha
      simp only [ha', if_true] at h
      cases hi : authenticatedLengthCipher x sizeKeySource sizeIvSource security with
      | error e => rw [hi] at h; cases h
      | ok inner =>
        rw [hi] at h
        cases h
        have hov := newCipher_overhead hi
        rw [← newCodec_padded option payloadIv]
        refine ⟨fun hs => ⟨fun hn => hov.mp (hs.tagged inner rfl) hn.2, hs.padded⟩,
          fun hn => ⟨fun i he => ?_, hn.2⟩⟩
        cases he
        exact hov.mpr (fun hsec => hn.1 ⟨ha, hsec⟩)

theorem newCodec_useGlobalPadding : c.useGlobalPadding = (option &&& requestOptionGlobalPadding != 0) := by
  unfold BodyCodec.newWithOptions at h
  cases hp : PayloadCipher.new x payloadKey payloadIv security with
  | error e => rw [hp] at h; cases h
  | ok payload =>
    rw [hp] at h
    by_cases ha : (option &&& requestOptionAuthenticatedLength != 0) = true
    · simp only [ha, if_true] at h
      cases hi : authenticatedLengthCipher x sizeKeySource sizeIvSource security with
      | error e => rw [hi] at h; cases h
      | ok inner => rw [hi] at h; cases h; rfl
    · simp only [ha] at h
      cases h
      rfl

end

theorem Endpoints.codec (e : Endpoints x) : e.reader = e.writer.reader ∧
      BodyCodec.newWithOptions x e.payloadKey e.payloadIv e.sizeKeySource e.sizeIvSource e.option e.security =
        .ok e.writer.toBodyCodec := by
  have hw := e.writer_new
  have hr := e.reader_new
  unfold VmessBodyWriter.newWithOptions at hw
  unfold VmessBodyReader.newWithOptions at hr
  cases hc : BodyCodec.newWithOptions x e.payloadKey e.payloadIv e.sizeKeySource e.sizeIvSource
    e.option e.security with
  | error err => rw [hc] at hw; cases hw
  | ok c =>
    rw [hc] at hw hr
    simp only [Except.map, Except.ok.injEq] at hw hr
    rw [← hw, ← hr]
    exact ⟨rfl, rfl⟩

/-- Parameters to compute with; the SHAKE stream is 0, 1, 2, … -/
def plainCrypto : Crypto where
  aes128Gcm := .transparent
  chacha20Poly1305 := .transparent
  md5 data := data
  hmacSha256 _ data := data
  shake128 _ i := UInt8.ofNat i

end Wrongsv.L2.Vmess
