import Wrongsv.Core

/-!
# Authenticated encryption

An AEAD with a 16-byte tag behind the ciphertext. Which one it is does not
matter to the framing around it: what counts is that sealed bytes are 16
longer, and that opening inverts sealing under the same key, nonce and
associated data. Of a block cipher it counts that it can be undone.
-/
namespace Wrongsv

def aeadTagLen : Nat := 16

structure Aead where
  encrypt : (key nonce aad plaintext : Bytes) → Bytes
  decrypt : (key nonce aad ciphertext : Bytes) → Option Bytes
  encrypt_length : ∀ key nonce aad plaintext, (encrypt key nonce aad plaintext).length = plaintext.length + aeadTagLen
  decrypt_encrypt : ∀ key nonce aad plaintext, decrypt key nonce aad (encrypt key nonce aad plaintext) = some plaintext

/-- The inputs of one sealing. -/
structure Sealing where
  key : Bytes
  nonce : Bytes
  aad : Bytes
  plaintext : Bytes
  deriving DecidableEq, Repr

/-- The ideal case, after `s` and nothing else was sealed: its ciphertext opens
under the key, nonce and associated data it was sealed with, and nothing else
opens under anything. -/
structure OnlySealed (encrypt : (key nonce aad plaintext : Bytes) → Bytes)
    (decrypt : (key nonce aad ciphertext : Bytes) → Option Bytes) (s : Sealing) : Prop where
  opens : decrypt s.key s.nonce s.aad (encrypt s.key s.nonce s.aad s.plaintext) = some s.plaintext
  only : ∀ {key nonce aad ciphertext m : Bytes}, decrypt key nonce aad ciphertext = some m →
    key = s.key ∧ nonce = s.nonce ∧ aad = s.aad ∧ ciphertext = encrypt s.key s.nonce s.aad s.plaintext

/-- A decryption that knows of one sealing. -/
def Sealing.decrypt (encrypt : (key nonce aad plaintext : Bytes) → Bytes) (s : Sealing)
    (key nonce aad ciphertext : Bytes) : Option Bytes :=
  if key = s.key ∧ nonce = s.nonce ∧ aad = s.aad ∧ ciphertext = encrypt s.key s.nonce s.aad s.plaintext then
    some s.plaintext
  else none

theorem Sealing.onlySealed (encrypt : (key nonce aad plaintext : Bytes) → Bytes) (s : Sealing) :
    OnlySealed encrypt (s.decrypt encrypt) s := by
  refine ⟨if_pos ⟨rfl, rfl, rfl, rfl⟩, fun {key nonce aad ciphertext m} h => ?_⟩
  unfold Sealing.decrypt at h
  split at h
  · rename_i hall; exact hall
  · cases h

/-- A cipher on blocks of sixteen bytes. -/
structure BlockCipher where
  encrypt : (key : Bytes) → { b : Bytes // b.length = 16 } → { b : Bytes // b.length = 16 }
  decrypt : (key : Bytes) → { b : Bytes // b.length = 16 } → { b : Bytes // b.length = 16 }
  decrypt_encrypt : ∀ key block, decrypt key (encrypt key block) = block

def BlockCipher.transparent : BlockCipher :=
  ⟨fun _ block => block, fun _ block => block, fun _ _ => rfl⟩

/-- An AEAD that protects nothing: the plaintext and sixteen zeros. -/
def Aead.transparent : Aead where
  encrypt _ _ _ plaintext := plaintext ++ List.replicate aeadTagLen 0
  decrypt _ _ _ ciphertext := some (ciphertext.take (ciphertext.length - aeadTagLen))
  encrypt_length _ _ _ plaintext := by rw [List.length_append, List.length_replicate]
  decrypt_encrypt _ _ _ plaintext := by
    rw [List.length_append, List.length_replicate, Nat.add_sub_cancel, List.take_left]

end Wrongsv
