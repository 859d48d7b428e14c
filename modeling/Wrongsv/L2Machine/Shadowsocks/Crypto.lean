import Wrongsv.Core.Aead
import Wrongsv.Core.SealedReader
import Wrongsv.L1Encoding.ShadowsocksHeader

/-!
# Shadowsocks: keys and sealed blocks

Reader and writer of a stream derive the same key from the password and the
salt, and count the blocks they open and seal in a little-endian nonce
(shadowsocks/lib.rs:873-976). The ciphers and hashes are those of other
crates and are parameters (`Primitives`); of the ciphers only what `Aead` says is
used, of the hashes nothing.

`open_seal`: a block is opened by the state it was sealed with, and both sides
then agree again. `opens_readSealed` is the same for a block on a stream.
-/
namespace Wrongsv.L2.Shadowsocks
open L1.VlessHeader L1.Shadowsocks

/-! ## Keys -/

inductive Base64Engine where
  | standard
  | standardNoPad
  | urlSafe
  | urlSafeNoPad
  deriving DecidableEq, Repr

/-- The code of other crates. -/
structure Primitives where
  aes128Gcm : Aead
  aes256Gcm : Aead
  chaCha20Poly1305 : Aead
  hkdfSha1 : (salt masterKey info : Bytes) → (len : Nat) → Bytes
  blake3DeriveKey : (context : String) → (keyMaterial : Bytes) → Bytes
  md5 : Bytes → { digest : Bytes // digest.length = 16 }
  trim : String → String
  base64 : Base64Engine → String → Option Bytes

/-- Ciphers that protect nothing, and one key for all: the PSK
`QkJCQkJCQkJCQkJCQkJCQg==` is sixteen times the letter B. -/
def Primitives.transparent : Primitives where
  aes128Gcm := .transparent
  aes256Gcm := .transparent
  chaCha20Poly1305 := .transparent
  hkdfSha1 _ _ _ len := List.replicate len 0
  blake3DeriveKey _ _ := List.replicate 32 0
  md5 _ := ⟨List.replicate 16 0, rfl⟩
  trim := id
  base64 _ _ := some (List.replicate 16 0x42)

section
variable (p : Primitives)

/-- The loop of `evp_bytes_to_key`; a pass adds sixteen bytes. -/
def evpBytesToKey.go (password : Bytes) (keyLen : Nat) : Nat → Bytes → Bytes → Bytes
  | 0, key, _ => key
  | fuel + 1, key, previous =>
    if key.length < keyLen then
      go password keyLen fuel (key ++ (p.md5 (previous ++ password)).val) (p.md5 (previous ++ password)).val
    else key

/-- lib.rs:962-976 -/
def evpBytesToKey (password : Bytes) (keyLen : Nat) : Bytes :=
  (evpBytesToKey.go p password keyLen keyLen [] []).take keyLen

def decodeAead2022Psk (password : String) (method : Method) : Except ShadowsocksError Bytes :=
  let password := p.trim password
  match p.base64 .standard password <|> p.base64 .standardNoPad password <|> p.base64 .urlSafe password <|>
    p.base64 .urlSafeNoPad password with
  | none => .error .invalidKey
  | some decoded =>
    if decoded.length ≠ method.keyLen then .error (.invalidKeyLength method.keyLen decoded.length) else .ok decoded

def deriveSubkey (method : Method) (masterKey salt : Bytes) : Bytes :=
  if method.isAead2022 then
    (p.blake3DeriveKey "shadowsocks 2022 session subkey" (masterKey ++ salt)).take method.keyLen
  else p.hkdfSha1 salt masterKey (utf8 "ss-subkey") method.keyLen

end

/-! ## Blocks -/

inductive Cipher where
  | aes128 (key : Bytes)
  | aes256 (key : Bytes)
  | chaCha (key : Bytes)
  deriving DecidableEq, Repr

structure CryptoState where
  cipher : Cipher
  nonce : Bytes
  deriving DecidableEq, Repr

/-- `for byte in &mut self.nonce`, up to the first that does not wrap. -/
def incrementNonce : Bytes → Bytes
  | [] => []
  | byte :: rest => if byte + 1 ≠ 0 then (byte + 1) :: rest else (byte + 1) :: incrementNonce rest

section
variable (p : Primitives)

def Cipher.encrypt (nonce plaintext : Bytes) : Cipher → Bytes
  | .aes128 key => p.aes128Gcm.encrypt key nonce [] plaintext
  | .aes256 key => p.aes256Gcm.encrypt key nonce [] plaintext
  | .chaCha key => p.chaCha20Poly1305.encrypt key nonce [] plaintext

def Cipher.decrypt (nonce ciphertext : Bytes) : Cipher → Option Bytes
  | .aes128 key => p.aes128Gcm.decrypt key nonce [] ciphertext
  | .aes256 key => p.aes256Gcm.decrypt key nonce [] ciphertext
  | .chaCha key => p.chaCha20Poly1305.decrypt key nonce [] ciphertext

theorem Cipher.encrypt_length (nonce plaintext : Bytes) (c : Cipher) :
    (c.encrypt p nonce plaintext).length = plaintext.length + aeadTagLen := by
  cases c <;> exact Aead.encrypt_length _ _ _ _ _

theorem Cipher.decrypt_encrypt (nonce plaintext : Bytes) (c : Cipher) :
    c.decrypt p nonce (c.encrypt p nonce plaintext) = some plaintext := by
  cases c <;> exact Aead.decrypt_encrypt _ _ _ _ _

namespace CryptoState

def new (method : Method) (masterKey salt : Bytes) : Except ShadowsocksError CryptoState :=
  if salt.length ≠ method.saltLen then .error (.invalidSaltLength method.saltLen salt.length)
  else
    let subkey := deriveSubkey p method masterKey salt
    let cipher :=
      match method with
      | .aes128Gcm | .aead2022Blake3Aes128Gcm => Cipher.aes128 subkey
      | .aes256Gcm | .aead2022Blake3Aes256Gcm => Cipher.aes256 subkey
      | .chaCha20IetfPoly1305 => Cipher.chaCha subkey
    .ok ⟨cipher, List.replicate 12 0⟩

/-- The nonce moves on with every block, opened or not. -/
def next (s : CryptoState) : CryptoState := { s with nonce := incrementNonce s.nonce }

def seal_ (s : CryptoState) (plaintext : Bytes) : Bytes := s.cipher.encrypt p s.nonce plaintext

def open_ (s : CryptoState) (ciphertext : Bytes) : Except ShadowsocksError Bytes × CryptoState :=
  match s.cipher.decrypt p s.nonce ciphertext with
  | some plaintext => (.ok plaintext, s.next)
  | none => (.error .decrypt, s.next)

@[simp] theorem seal_length (s : CryptoState) (plaintext : Bytes) :
    (s.seal_ p plaintext).length = plaintext.length + aeadTagLen :=
  Cipher.encrypt_length p s.nonce plaintext s.cipher

theorem open_seal (s : CryptoState) (plaintext : Bytes) :
    s.open_ p (s.seal_ p plaintext) = (.ok plaintext, s.next) := by
  rw [open_, seal_, Cipher.decrypt_encrypt]

end CryptoState

/-- `read_exact` of a sealed block of `n` bytes, and `crypto.open`. -/
def readSealed (n : Nat) : SealedReader CryptoState ShadowsocksError Bytes := do
  let block ← SealedReader.readExact (.io .wouldBlock) (.io .unexpectedEof) (n + aeadTagLen)
  SealedReader.update fun s => s.open_ p block

/-- **A sealed block is read back.** -/
theorem opens_readSealed (s : CryptoState) (plaintext : Bytes) :
    SealedReader.Opens (readSealed p plaintext.length) s (s.seal_ p plaintext) plaintext s.next := by
  have hread := SealedReader.opens_readExact (.io .wouldBlock : ShadowsocksError) (.io .unexpectedEof) s
    (s.seal_ p plaintext)
  rw [CryptoState.seal_length] at hread
  intro rest later
  exact (hread.bind_append rest later).trans
    (SealedReader.opens_update (CryptoState.open_seal p s plaintext) rest later)

theorem readSealed_nil (n : Nat) (s : CryptoState) :
    readSealed p n (⟨[], []⟩, s) = (.error (.io .unexpectedEof), (⟨[], []⟩, s)) := by
  have hn : 0 < n + aeadTagLen := Nat.succ_pos _
  rw [readSealed, SealedReader.bind_apply, SealedReader.readExact_nil _ _ hn]

end

end Wrongsv.L2.Shadowsocks
