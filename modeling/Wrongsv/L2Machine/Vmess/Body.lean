import Wrongsv.Core.Aead
import Wrongsv.Core.Schedule

/-!
# VMess: the body codec

`VmessBodyWriter` and `VmessBodyReader` of server/vmess.rs. A body
is a sequence of chunks: a size, the sealed payload, random padding. The size
is plain, masked with a SHAKE-128 stream, or sealed itself, and the length of
the padding comes from the same SHAKE stream, so writer and reader have to
stay in step. An empty chunk ends the body.

The ciphers and digests are parameters (`Crypto`). A value and the state that
belongs to it are returned together: an error leaves the state as far as the
code had advanced it.
-/
namespace Wrongsv.L2.Vmess

structure Crypto where
  aes128Gcm : Aead
  chacha20Poly1305 : Aead
  md5 : Bytes → Bytes
  hmacSha256 : (key data : Bytes) → Bytes
  /-- the bytes of the SHAKE-128 output, by seed and position -/
  shake128 : (seed : Bytes) → Nat → UInt8

inductive ReadError where
  | wouldBlock
  | unexpectedEof
  deriving DecidableEq, Repr

inductive VmessError where
  | read (e : ReadError)
  | protocol (message : String)
  | unsupportedSecurity (security : UInt8)
  deriving DecidableEq, Repr

def maxChunkPayload : Nat := 16 * 1024
def maxPaddingLen : Nat := 64

def requestOptionChunkMasking : UInt8 := 0x04
def requestOptionGlobalPadding : UInt8 := 0x08
def requestOptionAuthenticatedLength : UInt8 := 0x10

def securityAes128Gcm : UInt8 := 0x03
def securityChacha20Poly1305 : UInt8 := 0x04
def securityNone : UInt8 := 0x05
def securityZero : UInt8 := 0x06

variable (x : Crypto)

/-! ## Key derivation -/

def ascii (text : String) : Bytes := text.toList.map (fun c => UInt8.ofNat c.toNat)

/-- The key of an HMAC, filled up with zeros to a block. -/
def keyBlock (hash : Bytes → Bytes) (key : Bytes) : Bytes :=
  let key := if 64 < key.length then (hash key).take 32 else key
  key ++ List.replicate (64 - key.length) 0

/-- vmess.rs:148-176 -/
def hmacNestedWith (hash : Bytes → Bytes) (key data : Bytes) : Bytes :=
  let inner := hash ((keyBlock hash key).map (· ^^^ 0x36) ++ data)
  hash ((keyBlock hash key).map (· ^^^ 0x5c) ++ inner)

/-- The path is walked from its last element on.
vmess.rs:178-183 -/
def vmessKdfDigest : (reversed : List Bytes) → Bytes → Bytes
  | [], data => x.hmacSha256 (ascii "VMess AEAD KDF") data
  | last :: rest, data => hmacNestedWith (vmessKdfDigest rest) last data

/-- vmess.rs:189-194 -/
def vmessKdf16 (key : Bytes) (paths : List Bytes) : Bytes := (vmessKdfDigest x paths.reverse key).take 16

/-- vmess.rs:714-726 -/
def generateChacha20poly1305Key (key : Bytes) : Bytes :=
  let first := (x.md5 key).take 16
  first ++ (x.md5 first).take 16

/-! ## The SHAKE stream -/

structure ShakeState where
  seed : Bytes
  pos : Nat
  deriving DecidableEq, Repr

def ShakeState.nextU16 (s : ShakeState) : Nat × ShakeState :=
  (u16 (x.shake128 s.seed s.pos) (x.shake128 s.seed (s.pos + 1)), { s with pos := s.pos + 2 })

def ShakeState.nextPaddingLen (s : ShakeState) : Nat × ShakeState :=
  ((s.nextU16 x).1 % maxPaddingLen, (s.nextU16 x).2)

/-! ## Payload ciphers -/

/-- vmess.rs:728-733 -/
def chunkNonce (base : Bytes) (counter : UInt16) (size : Nat) : Bytes :=
  (be16 counter.toNat ++ base.drop 2).take size

structure AeadState where
  key : Bytes
  iv : Bytes
  counter : UInt16
  deriving DecidableEq, Repr

/-- The counter moves on before the tag is checked. -/
def AeadState.next (s : AeadState) : AeadState := { s with counter := s.counter + 1 }

/-- vmess.rs:774-805 -/
def AeadState.encrypt (a : Aead) (s : AeadState) (plaintext : Bytes) : Bytes :=
  a.encrypt s.key (chunkNonce s.iv s.counter 12) [] plaintext

/-- The result of opening a chunk.
vmess.rs:807-850 -/
def AeadState.decrypt (a : Aead) (s : AeadState) (ciphertext : Bytes) : Except VmessError Bytes × AeadState :=
  if ciphertext.length < aeadTagLen then (.error (.protocol "body ciphertext too short"), s)
  else
    match a.decrypt s.key (chunkNonce s.iv s.counter 12) [] ciphertext with
    | some plaintext => (.ok plaintext, s.next)
    | none => (.error (.protocol "body decrypt: aead::Error"), s.next)

inductive PayloadCipher where
  | none
  | aes128Gcm (s : AeadState)
  | chacha20Poly1305 (s : AeadState)
  deriving DecidableEq, Repr

namespace PayloadCipher

def new (key iv : Bytes) (security : UInt8) : Except VmessError PayloadCipher :=
  if security = securityAes128Gcm then .ok (.aes128Gcm ⟨key, iv, 0⟩)
  else if security = securityChacha20Poly1305 then
    .ok (.chacha20Poly1305 ⟨generateChacha20poly1305Key x key, iv, 0⟩)
  else if security = securityNone ∨ security = securityZero then .ok .none
  else .error (.unsupportedSecurity security)

/-- vmess.rs:767-772 -/
def overhead : PayloadCipher → Nat
  | .none => 0
  | .aes128Gcm _ | .chacha20Poly1305 _ => aeadTagLen

/-- Sealing a chunk of a few kilobytes does not fail.
vmess.rs:774-805 -/
def encrypt (plaintext : Bytes) : PayloadCipher → Bytes × PayloadCipher
  | .none => (plaintext, .none)
  | .aes128Gcm s => (s.encrypt x.aes128Gcm plaintext, .aes128Gcm s.next)
  | .chacha20Poly1305 s => (s.encrypt x.chacha20Poly1305 plaintext, .chacha20Poly1305 s.next)

/-- vmess.rs:807-850 -/
def decrypt (ciphertext : Bytes) : PayloadCipher → Except VmessError Bytes × PayloadCipher
  | .none => (.ok ciphertext, .none)
  | .aes128Gcm s => ((s.decrypt x.aes128Gcm ciphertext).1, .aes128Gcm (s.decrypt x.aes128Gcm ciphertext).2)
  | .chacha20Poly1305 s =>
    ((s.decrypt x.chacha20Poly1305 ciphertext).1, .chacha20Poly1305 (s.decrypt x.chacha20Poly1305 ciphertext).2)

end PayloadCipher

/-! ## Sizes -/

/-- vmess.rs:853-861. The cipher of an
`AuthenticatedLengthCipher` is its only field. -/
inductive SizeMode where
  | plain
  | shakeMasked
  | authenticatedLength (inner : PayloadCipher)
  deriving DecidableEq, Repr

/-- The bytes `decode_size` reads. -/
def SizeMode.width : SizeMode → Nat
  | .plain | .shakeMasked => 2
  | .authenticatedLength _ => 18

/-- The part of a reader or writer that sizes and padding depend on. -/
structure SizeCodec where
  sizeMode : SizeMode
  shake : Option ShakeState
  useGlobalPadding : Bool
  deriving DecidableEq, Repr

namespace SizeCodec

def nextPaddingLen (c : SizeCodec) : Except VmessError Nat × SizeCodec :=
  if c.useGlobalPadding = false then (.ok 0, c)
  else
    match c.shake with
    | some s => (.ok (s.nextPaddingLen x).1, { c with shake := some (s.nextPaddingLen x).2 })
    | none => (.error (.protocol "global padding requested without shake state"), c)

/-- vmess.rs:1088-1101; the sealed size is in 871-879 -/
def encodeSize (c : SizeCodec) (totalSize : Nat) : Except VmessError Bytes × SizeCodec :=
  match c.sizeMode with
  | .plain => (.ok (be16 totalSize), c)
  | .shakeMasked =>
    match c.shake with
    | some s => (.ok (be16 ((s.nextU16 x).1 ^^^ totalSize)), { c with shake := some (s.nextU16 x).2 })
    | none => (.error (.protocol "missing shake state"), c)
  | .authenticatedLength inner =>
    if totalSize < aeadTagLen then (.error (.protocol "authenticated length underflow"), c)
    else
      let r := inner.encrypt x (be16 (totalSize - aeadTagLen))
      (.ok r.1, { c with sizeMode := .authenticatedLength r.2 })

/-- `u16::from_be_bytes` of a two-byte buffer. -/
def readU16 : Bytes → Nat
  | [hi, lo] => u16 hi lo
  | _ => 0

/-- The size in the bytes `decode_size` has read. The sum in the sealed case
is one of `u16`.
vmess.rs:960-981; the sealed size is in 881-889 -/
def decodeSizeBytes (c : SizeCodec) (buf : Bytes) : Except VmessError Nat × SizeCodec :=
  match c.sizeMode with
  | .plain => (.ok (readU16 buf), c)
  | .shakeMasked =>
    match c.shake with
    | some s => (.ok (readU16 buf ^^^ (s.nextU16 x).1), { c with shake := some (s.nextU16 x).2 })
    | none => (.error (.protocol "missing shake state"), c)
  | .authenticatedLength inner =>
    let r := inner.decrypt x buf
    let c := { c with sizeMode := .authenticatedLength r.2 }
    match r.1 with
    | .error e => (.error e, c)
    | .ok plaintext =>
      if plaintext.length ≠ 2 then (.error (.protocol "invalid authenticated length size"), c)
      else (.ok ((readU16 plaintext + aeadTagLen) % 65536), c)

end SizeCodec

/-! ## Reader and writer -/

/-- What reader and writer have in common. -/
structure BodyCodec extends SizeCodec where
  payload : PayloadCipher
  deriving DecidableEq, Repr

/-- `AuthenticatedLengthCipher::new`. -/
def authenticatedLengthCipher (keySource ivSource : Bytes) (security : UInt8) : Except VmessError PayloadCipher :=
  PayloadCipher.new x (vmessKdf16 x keySource [ascii "auth_len"]) ivSource security

def BodyCodec.newWithOptions (payloadKey payloadIv sizeKeySource sizeIvSource : Bytes)
    (option security : UInt8) : Except VmessError BodyCodec := do
  let payload ← PayloadCipher.new x payloadKey payloadIv security
  let hasChunkMasking := option &&& requestOptionChunkMasking != 0
  let useGlobalPadding := option &&& requestOptionGlobalPadding != 0
  let shake := if hasChunkMasking then some ⟨payloadIv, 0⟩ else none
  if option &&& requestOptionAuthenticatedLength != 0 then
    let inner ← authenticatedLengthCipher x sizeKeySource sizeIvSource security
    return ⟨⟨.authenticatedLength inner, shake, useGlobalPadding⟩, payload⟩
  else return ⟨⟨if hasChunkMasking then .shakeMasked else .plain, shake, useGlobalPadding⟩, payload⟩

structure VmessBodyReader extends BodyCodec where
  done : Bool
  deriving DecidableEq, Repr

namespace VmessBodyReader

def newWithOptions (payloadKey payloadIv sizeKeySource sizeIvSource : Bytes)
    (option security : UInt8) : Except VmessError VmessBodyReader :=
  (BodyCodec.newWithOptions x payloadKey payloadIv sizeKeySource sizeIvSource option security).map (⟨·, false⟩)

def setSizes (r : VmessBodyReader) (c : SizeCodec) : VmessBodyReader := { r with toSizeCodec := c }

/-- Size and padding length of the next chunk. The padding length is taken from
the SHAKE stream before anything is read. -/
def decodeSize (r : VmessBodyReader) (src : Schedule) :
    Except VmessError (Nat × Nat) × VmessBodyReader × Schedule :=
  match r.nextPaddingLen x with
  | (.error e, c) => (.error e, r.setSizes c, src)
  | (.ok paddingLen, c) =>
    match src.readExact c.sizeMode.width with
    | (.block _, src) => (.error (.read .wouldBlock), r.setSizes c, src)
    | (.eof _, src) => (.error (.read .unexpectedEof), r.setSizes c, src)
    | (.done buf, src) =>
      match c.decodeSizeBytes x buf with
      | (.error e, c) => (.error e, r.setSizes c, src)
      | (.ok size, c) => (.ok (size, paddingLen), r.setSizes c, src)

/-- The payload of a chunk whose size is known. -/
def readPayload (r : VmessBodyReader) (src : Schedule) (totalSize paddingLen : Nat) :
    Except VmessError (Option Bytes) × VmessBodyReader × Schedule :=
  let overhead := r.payload.overhead
  if totalSize = overhead + paddingLen then (.ok none, { r with done := true }, src)
  else if totalSize < overhead + paddingLen then
    (.error (.protocol
      s!"chunk smaller than overhead: size={totalSize} overhead={overhead} padding={paddingLen}"), r, src)
  else if maxChunkPayload + overhead + maxPaddingLen < totalSize then
    (.error (.protocol s!"chunk too large: {totalSize}"), r, src)
  else
    match src.readExact totalSize with
    | (.block _, src) => (.error (.read .wouldBlock), r, src)
    | (.eof _, src) => (.error (.read .unexpectedEof), r, src)
    | (.done chunk, src) =>
      let d := r.payload.decrypt x (chunk.take (totalSize - paddingLen))
      (d.1.map some, { r with payload := d.2 }, src)

/-- `Ok(true)` with the plaintext appended to `out` is `ok (some plaintext)`,
`Ok(false)` is `ok none`.
vmess.rs:985-1021 -/
def readChunk (r : VmessBodyReader) (src : Schedule) :
    Except VmessError (Option Bytes) × VmessBodyReader × Schedule :=
  if r.done then (.ok none, r, src)
  else
    match r.decodeSize x src with
    | (.error (.read .unexpectedEof), r, src) => (.ok none, r, src)
    | (.error e, r, src) => (.error e, r, src)
    | (.ok (totalSize, paddingLen), r, src) => r.readPayload x src totalSize paddingLen

end VmessBodyReader

structure VmessBodyWriter extends BodyCodec where
  deriving DecidableEq, Repr

namespace VmessBodyWriter

def newWithOptions (payloadKey payloadIv sizeKeySource sizeIvSource : Bytes)
    (option security : UInt8) : Except VmessError VmessBodyWriter :=
  (BodyCodec.newWithOptions x payloadKey payloadIv sizeKeySource sizeIvSource option security).map (⟨·⟩)

/-- The bytes a call writes; `fill` is the random padding. Nothing is written
when it fails.
vmess.rs:1103-1130 -/
def writeChunk (w : VmessBodyWriter) (plaintext : Bytes) (fill : Nat → UInt8) :
    Except VmessError Bytes × VmessBodyWriter :=
  if maxChunkPayload < plaintext.length then
    (.error (.protocol s!"chunk payload too large: {plaintext.length}"), w)
  else
    let (ciphertext, payload) := w.payload.encrypt x plaintext
    match w.nextPaddingLen x with
    | (.error e, c) => (.error e, ⟨c, payload⟩)
    | (.ok paddingLen, c) =>
      match c.encodeSize x ((ciphertext.length + paddingLen) % 65536) with
      | (.error e, c) => (.error e, ⟨c, payload⟩)
      | (.ok size, c) => (.ok (size ++ ciphertext ++ (List.range paddingLen).map fill), ⟨c, payload⟩)

def writeEof (w : VmessBodyWriter) (fill : Nat → UInt8) : Except VmessError Bytes × VmessBodyWriter :=
  w.writeChunk x [] fill

end VmessBodyWriter

end Wrongsv.L2.Vmess
