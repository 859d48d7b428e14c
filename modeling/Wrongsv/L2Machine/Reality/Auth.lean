import Wrongsv.Core.Aead
import Wrongsv.L1Encoding.ClientHello

/-!
# REALITY authentication

The session id of the client's hello is a sealed block of 16 bytes:

  version(3) reserved(1) timestamp(4) short_id(4) zeros(4)

The key comes from X25519 and HKDF, the nonce is the end of the hello's random,
and the associated data is the handshake message with 32 zeros where the session
id will be. The server parses the hello and zeroes the same 32 bytes, at offset
39 of the message.

X25519, HKDF-SHA256 and AES-256-GCM are parameters (`Primitives`), and so is
the server's clock.

Results: `authenticate_sealed`, `safe_authenticateHello`, `authentication_bound`.
-/
namespace Wrongsv.L2.Reality
open Checked L1.ClientHello List

/-- `[u8; 4]` -/
abbrev ShortId := { b : Bytes // b.length = 4 }

structure Primitives where
  publicKey : Bytes32 → Bytes32
  diffieHellman : (secret peer : Bytes32) → Bytes32
  hkdf : (salt ikm info : Bytes) → Bytes32
  encrypt : (key nonce aad plaintext : Bytes) → Bytes
  decrypt : (key nonce aad ciphertext : Bytes) → Option Bytes

/-- The fields of the configuration that the handshake reads.
reality/lib.rs:83-97 -/
structure RealityConfig where
  privateKey : Bytes32
  shortIds : List ShortId
  maxTimeDiff : Nat
  dest : Option String
  deriving DecidableEq, Repr

/-! ## The server -/

/-- `b"REALITY"`, reality/auth.rs:31 -/
def label : Bytes := [0x52, 0x45, 0x41, 0x4c, 0x49, 0x54, 0x59]

/-- reality/auth.rs:21-51 -/
def deriveAuthKey (p : Primitives) (serverSk clientKeyShare clientRandom : Bytes32) : Bytes32 :=
  p.hkdf (clientRandom.val.take 20) (p.diffieHellman serverSk clientKeyShare).val label

/-- The payload of a session id: version, timestamp and short id.
reality/auth.rs:77-95 -/
def readPayload (plaintext : Bytes) : Checked RealityError (Bytes × UInt32 × ShortId) := do
  rejectIf (plaintext.length < 16) (.authFailed "decrypted payload too short")
  let version ← copyFrom 3 plaintext 0
  let reserved ← index plaintext 3
  let a ← index plaintext 4
  let b ← index plaintext 5
  let c ← index plaintext 6
  let d ← index plaintext 7
  let shortId ← copyFrom 4 plaintext 8
  rejectIf (reserved ≠ 0) (.authFailed "reserved byte must be 0")
  return (version.val, u32 a b c d, shortId)

/-- reality/auth.rs:56-96 -/
def decryptSessionId (p : Primitives) (authKey clientRandom sessionId : Bytes32) (aad : Bytes) :
    Checked RealityError (Bytes × UInt32 × ShortId) :=
  match p.decrypt authKey.val (clientRandom.val.drop 20) aad sessionId.val with
  | none => throw (.authFailed "AES-GCM decryption failed")
  | some plaintext => readPayload plaintext

/-- `u64::abs_diff` -/
def absDiff (a b : Nat) : Nat := (a - b) + (b - a)

/-- reality/auth.rs:99-113 -/
def verifyTimestamp (now : Nat) (timestamp : UInt32) (maxTimeDiff : Nat) :
    Checked RealityError Unit :=
  rejectIf (absDiff now timestamp.toNat > maxTimeDiff)
    (.authFailed ("timestamp out of range: diff=" ++ toString (absDiff now timestamp.toNat) ++
      "s, max=" ++ toString maxTimeDiff ++ "s"))

/-- reality/auth.rs:116-124 -/
def verifyShortId (shortId : ShortId) (shortIds : List ShortId) : Checked RealityError Unit :=
  rejectIf (shortId ∉ shortIds) (.authFailed "short_id not in allow-list")

/-- The associated data: zeros in place of the session id. -/
def zeroSessionId (rawBody : Bytes) : Bytes :=
  if rawBody.length ≥ 39 + 32 then rawBody.take 39 ++ (List.replicate 32 0 ++ rawBody.drop 71) else rawBody

/-- reality/auth.rs:128-155 -/
def authenticate (p : Primitives) (config : RealityConfig) (now : Nat) (hello : ParsedClientHello) :
    Checked RealityError Bytes32 := do
  let authKey := deriveAuthKey p config.privateKey hello.keyShare hello.random
  let (_, timestamp, shortId) ←
    decryptSessionId p authKey hello.random hello.sessionId (zeroSessionId hello.rawBody)
  verifyTimestamp now timestamp config.maxTimeDiff
  verifyShortId shortId config.shortIds
  return authKey

/-- What the server makes of a record.
reality/tls.rs:291-324 -/
def authenticateHello (p : Primitives) (config : RealityConfig) (now : Nat) (record : Bytes) :
    Checked RealityError Bytes32 := do
  let parsed ← parseClientHello record
  authenticate p config now parsed

/-! ## The client -/

/-- reality/auth.rs:172-181 -/
def deriveClientAuthKey (p : Primitives) (clientRandom sharedSecret : Bytes32) : Bytes32 :=
  p.hkdf (clientRandom.val.take 20) sharedSecret.val label

def sessionPayload (timestamp : UInt32) (shortId : ShortId) : Bytes :=
  [1, 2, 3] ++ ([0] ++ (be32 timestamp ++ (shortId.val ++ [0, 0, 0, 0])))

/-- `copy_from_slice` panics on a ciphertext of another length.
reality/auth.rs:188-219 -/
def buildSessionId (p : Primitives) (authKey clientRandom : Bytes32) (timestamp : UInt32)
    (shortId : ShortId) (aad : Bytes) : Checked RealityError Bytes32 :=
  let ct := p.encrypt authKey.val (clientRandom.val.drop 20) aad (sessionPayload timestamp shortId)
  if h : ct.length = 32 then pure ⟨ct, h⟩ else panicked

def zeros : Bytes32 := ⟨List.replicate 32 0, length_replicate⟩

/-- The client's key and hello, by the functions of the crate: `derive_client_auth_key` and
`build_session_id` (reality/auth.rs:172-219) over a `build_reality_client_hello`
(reality/hello.rs:137-210) that has zeros for the session id. A client may refuse keys before. -/
def clientHello (p : Primitives) (serverPk clientSk random : Bytes32) (timestamp : UInt32)
    (shortId : ShortId) (sni : String) : Checked RealityError (Bytes32 × Bytes) := do
  let authKey := deriveClientAuthKey p random (p.diffieHellman clientSk serverPk)
  let tempHello := buildRealityClientHello random zeros (p.publicKey clientSk) sni
  let aad ← range tempHello 5 tempHello.length
  let sessionId ← buildSessionId p authKey random timestamp shortId aad
  return (authKey, buildRealityClientHello random sessionId (p.publicKey clientSk) sni)

/-- What the client seals. -/
def clientSealing (p : Primitives) (serverPk clientSk random : Bytes32) (timestamp : UInt32)
    (shortId : ShortId) (sni : String) : Sealing where
  key := (deriveClientAuthKey p random (p.diffieHellman clientSk serverPk)).val
  nonce := random.val.drop 20
  aad := buildBody random zeros (p.publicKey clientSk) sni
  plaintext := sessionPayload timestamp shortId

/-! ## The session id in the message -/

/-- The bytes around the session id of a built hello do not depend on it. -/
theorem buildBody_split (random keyShare : Bytes32) (sni : String) : ∃ before behind : Bytes,
    before.length = 39 ∧ ∀ sessionId : Bytes32,
      buildBody random sessionId keyShare sni = before ++ (sessionId.val ++ behind) := by
  let extensions := buildExtensions keyShare sni.toUTF8.data.toList
  -- the length in the header counts the session id's 32 bytes, not what they are
  let n := 73 + [(0x13 : UInt8), 0x01].length + extensions.length
  refine ⟨0x01 :: UInt8.ofNat (n / 65536) :: UInt8.ofNat (n / 256) :: UInt8.ofNat n :: 0x03 ::
    0x03 :: (random.val ++ [32]), be16 2 ++ (0x13 :: 0x01 :: 0x01 :: 0x00 ::
    (be16 extensions.length ++ extensions)), ?_, fun sessionId => ?_⟩
  all_goals grind [buildBody_eq, handshake, helloFields_length, helloFields]

theorem zeroSessionId_append {before behind : Bytes} (h : before.length = 39) (sessionId : Bytes32) :
    zeroSessionId (before ++ (sessionId.val ++ behind)) = before ++ (zeros.val ++ behind) := by
  have hs := sessionId.property
  have hlong : (before ++ (sessionId.val ++ behind)).length ≥ 39 + 32 := by
    simp only [length_append, h, hs]
    omega
  have hdrop : (before ++ (sessionId.val ++ behind)).drop 71 = behind := by
    grind [drop_left']
  rw [zeroSessionId, if_pos hlong, take_left' h, hdrop]
  rfl

theorem eq_of_zeroSessionId {b c : Bytes} (hb : 71 ≤ b.length) (hc : 71 ≤ c.length)
    (h : zeroSessionId b = zeroSessionId c) (hid : (b.drop 39).take 32 = (c.drop 39).take 32) : b = c := by
  have hsplit : ∀ a : Bytes, a = a.take 39 ++ ((a.drop 39).take 32 ++ a.drop 71) := by
    grind [drop_drop, take_append_drop]
  rw [zeroSessionId, zeroSessionId, if_pos hb, if_pos hc] at h
  obtain ⟨hstart, hrest⟩ := append_inj h (by rw [length_take, length_take]; omega)
  obtain ⟨-, hend⟩ := append_inj hrest rfl
  rw [hsplit b, hsplit c, hstart, hid, hend]

/-! ## The client's hello is accepted -/

theorem readPayload_sessionPayload (timestamp : UInt32) (shortId : ShortId) :
    readPayload (sessionPayload timestamp shortId) = pure ([1, 2, 3], timestamp, shortId) := by
  have hlong : ¬(sessionPayload timestamp shortId).length < 16 := by
    grind [sessionPayload, be32]
  have hversion : copyFrom (ε := RealityError) 3 (sessionPayload timestamp shortId) 0 = pure ⟨[1, 2, 3], rfl⟩ :=
    At.copyFrom .start
  have hshort : copyFrom (ε := RealityError) 4 (sessionPayload timestamp shortId) 8 = pure shortId :=
    At.copyFrom ⟨[1, 2, 3] ++ ([0] ++ be32 timestamp), rfl, rfl⟩
  rw [readPayload, rejectIf_neg hlong, pure_bind, hversion, pure_bind, hshort]
  exact congrArg (fun t => (pure ([1, 2, 3], t, shortId) : Checked RealityError (Bytes × UInt32 × ShortId)))
    (u32_be32 timestamp)

section
variable {p : Primitives} {config : RealityConfig} {clientSk random : Bytes32} {timestamp : UInt32}
  {shortId : ShortId} {sni : String}

/-- **Complete.** The server accepts the client's hello and derives its key. -/
theorem authenticate_sealed (hcommute : ∀ a b, p.diffieHellman a (p.publicKey b) = p.diffieHellman b (p.publicKey a))
    (honly : OnlySealed p.encrypt p.decrypt
      (clientSealing p (p.publicKey config.privateKey) clientSk random timestamp shortId sni))
    {now : Nat} (htime : absDiff now timestamp.toNat ≤ config.maxTimeDiff) (hid : shortId ∈ config.shortIds)
    {sessionId : Bytes32}
    (hsession : sessionId.val = p.encrypt (deriveClientAuthKey p random
      (p.diffieHellman clientSk (p.publicKey config.privateKey))).val (random.val.drop 20)
      (buildBody random zeros (p.publicKey clientSk) sni) (sessionPayload timestamp shortId)) :
    authenticate p config now ⟨buildBody random sessionId (p.publicKey clientSk) sni, random,
      sessionId, p.publicKey clientSk⟩ =
      pure (deriveClientAuthKey p random (p.diffieHellman clientSk (p.publicKey config.privateKey))) := by
  have hkey : deriveAuthKey p config.privateKey (p.publicKey clientSk) random =
      deriveClientAuthKey p random (p.diffieHellman clientSk (p.publicKey config.privateKey)) := by
    rw [deriveAuthKey, hcommute, deriveClientAuthKey]
  have haad : zeroSessionId (buildBody random sessionId (p.publicKey clientSk) sni) =
      buildBody random zeros (p.publicKey clientSk) sni := by
    obtain ⟨before, behind, hlen, hbody⟩ := buildBody_split random (p.publicKey clientSk) sni
    rw [hbody, hbody, zeroSessionId_append hlen]
  have hopen := honly.opens
  grind [clientSealing, authenticate, decryptSessionId, readPayload_sessionPayload, verifyTimestamp,
      verifyShortId, rejectIf_neg]

end

/-! ## Nothing else is -/

theorem safe_readPayload (plaintext : Bytes) : Safe (readPayload plaintext) (fun _ => True) := by
  refine safe_bind (safe_rejectIf _ _) fun _ h16 => ?_
  refine safe_bind (safe_copyFrom (by omega)) fun _ _ => safe_bind (safe_index (by omega)) fun _ _ => ?_
  refine safe_bind (safe_index (by omega)) fun _ _ => safe_bind (safe_index (by omega)) fun _ _ => ?_
  refine safe_bind (safe_index (by omega)) fun _ _ => safe_bind (safe_index (by omega)) fun _ _ => ?_
  grind [safe_bind, safe_copyFrom, safe_rejectIf, safe_pure]

theorem safe_authenticate (p : Primitives) (config : RealityConfig) (now : Nat)
    (hello : ParsedClientHello) : Safe (authenticate p config now hello) (fun _ => ∃ key m : Bytes,
      p.decrypt key (hello.random.val.drop 20) (zeroSessionId hello.rawBody) hello.sessionId.val = some m) := by
  have hopened : Safe (decryptSessionId p (deriveAuthKey p config.privateKey hello.keyShare hello.random)
      hello.random hello.sessionId (zeroSessionId hello.rawBody)) (fun _ => ∃ key m : Bytes,
      p.decrypt key (hello.random.val.drop 20) (zeroSessionId hello.rawBody) hello.sessionId.val = some m) := by
    unfold decryptSessionId
    split
    · exact safe_throw _ _
    · grind [safe_readPayload]
  refine safe_bind hopened fun _ h => ?_
  exact safe_bind (safe_rejectIf _ _) fun _ _ => safe_bind (safe_rejectIf _ _) fun _ _ => safe_pure h

/-- **Bound.** What is accepted after one sealing has its associated data and
its ciphertext, at the offsets of the handshake message. -/
theorem safe_authenticateHello {p : Primitives} {s : Sealing} (honly : OnlySealed p.encrypt p.decrypt s)
    (config : RealityConfig) (now : Nat) (record : Bytes) :
    Safe (authenticateHello p config now record) (fun _ => 75 ≤ (handshakeMessage record).length ∧
      zeroSessionId (handshakeMessage record) = s.aad ∧
      ((handshakeMessage record).drop 39).take 32 = p.encrypt s.key s.nonce s.aad s.plaintext) := by
  refine safe_bind (safe_parseClientHello record) fun parsed h => (safe_authenticate p config now parsed).mono ?_
  rintro _ ⟨key, m, hm⟩
  obtain ⟨-, -, haad, hct⟩ := honly.only hm
  rw [← h.rawBody]
  exact ⟨h.long, haad, h.sessionId.symm.trans hct⟩

/-- **Authentication is complete and bound to the hello.** With X25519 that
commutes and an AEAD that opens what the client sealed and nothing else, the
client's hello is accepted, both sides have the same key, and every record with
another handshake message is rejected. -/
theorem authentication_bound (p : Primitives)
    (hcommute : ∀ a b, p.diffieHellman a (p.publicKey b) = p.diffieHellman b (p.publicKey a))
    (hlength : ∀ key nonce aad m, (p.encrypt key nonce aad m).length = m.length + aeadTagLen)
    (config : RealityConfig) (clientSk random : Bytes32) (timestamp : UInt32) (shortId : ShortId) (sni : String)
    (now : Nat) (hid : shortId ∈ config.shortIds) (htime : absDiff now timestamp.toNat ≤ config.maxTimeDiff)
    (hsni : sni.utf8ByteSize ≤ 255)
    (honly : OnlySealed p.encrypt p.decrypt
      (clientSealing p (p.publicKey config.privateKey) clientSk random timestamp shortId sni)) :
    ∃ hello, clientHello p (p.publicKey config.privateKey) clientSk random timestamp shortId sni =
        pure (deriveClientAuthKey p random (p.diffieHellman clientSk (p.publicKey config.privateKey)), hello) ∧
      authenticateHello p config now hello =
        pure (deriveClientAuthKey p random (p.diffieHellman clientSk (p.publicKey config.privateKey))) ∧
      ∀ record, handshakeMessage record ≠ handshakeMessage hello →
        ∃ e, authenticateHello p config now record = throw e := by
  let s := clientSealing p (p.publicKey config.privateKey) clientSk random timestamp shortId sni
  have hpayload : s.plaintext.length = 16 := by
    show (sessionPayload timestamp shortId).length = 16
    simp only [sessionPayload, be32, length_append, length_cons, length_nil, shortId.property]
  have hct : (p.encrypt s.key s.nonce s.aad s.plaintext).length = 32 := by
    rw [hlength, hpayload, aeadTagLen]
  let sessionId : Bytes32 := ⟨p.encrypt s.key s.nonce s.aad s.plaintext, hct⟩
  have haad : range (ε := RealityError) (buildRealityClientHello random zeros (p.publicKey clientSk) sni) 5
      (buildRealityClientHello random zeros (p.publicKey clientSk) sni).length = pure s.aad :=
    At.range ⟨[0x16, 0x03, 0x01] ++ be16 s.aad.length, rfl, rfl⟩
  have hbuilt : buildSessionId p (deriveClientAuthKey p random (p.diffieHellman clientSk
      (p.publicKey config.privateKey))) random timestamp shortId s.aad = pure sessionId := dif_pos hct
  have hparse := parseClientHello_build random sessionId (p.publicKey clientSk) hsni
  have haccept : authenticateHello p config now (buildRealityClientHello random sessionId (p.publicKey clientSk) sni) =
      pure (deriveClientAuthKey p random (p.diffieHellman clientSk (p.publicKey config.privateKey))) := by
    rw [authenticateHello, hparse, pure_bind]
    exact authenticate_sealed hcommute honly htime hid rfl
  refine ⟨buildRealityClientHello random sessionId (p.publicKey clientSk) sni, ?_, haccept, fun record hne => ?_⟩
  · rw [clientHello, haad, pure_bind, hbuilt, pure_bind]
  · obtain ⟨r, hr, hbound⟩ := safe_authenticateHello honly config now record
    cases r with
    | error e => exact ⟨e, hr⟩
    | ok key =>
      -- the accepted message has the client's associated data and session id
      obtain ⟨hlong, hzero, hsession⟩ := hbound key rfl
      obtain ⟨r', hr', hbound'⟩ := safe_authenticateHello honly config now
        (buildRealityClientHello random sessionId (p.publicKey clientSk) sni)
      obtain ⟨hlong', hzero', hsession'⟩ := hbound' _ (Option.some.inj (hr'.symm.trans haccept))
      exact absurd (eq_of_zeroSessionId (by omega) (by omega) (hzero.trans hzero'.symm)
        (hsession.trans hsession'.symm)) hne

/-- The first bytes of a key as a group of order 256: the public key is three times the secret,
the agreement is the product. -/
def Primitives.small : Primitives where
  publicKey secret := constBytes 32 (3 * secret.val.headD 0)
  diffieHellman secret peer := constBytes 32 (secret.val.headD 0 * peer.val.headD 0)
  hkdf salt ikm _ := constBytes 32 (salt.headD 0 + ikm.headD 0)
  encrypt _ _ _ m := m ++ List.replicate aeadTagLen 0
  decrypt _ _ _ _ := none

theorem authentication_bound_small :
    let shortId : ShortId := constBytes 4 8
    let config : RealityConfig := ⟨constBytes 32 5, [constBytes 4 6, shortId], 60, none⟩
    let serverPk := Primitives.small.publicKey config.privateKey
    let p : Primitives := { Primitives.small with
      decrypt := (clientSealing .small serverPk (constBytes 32 2) (constBytes 32 7) 5 shortId
        "a.b").decrypt Primitives.small.encrypt }
    ∃ hello, clientHello p serverPk (constBytes 32 2) (constBytes 32 7) 5 shortId "a.b" =
        pure (constBytes 32 37, hello) ∧
      authenticateHello p config 65 hello = pure (constBytes 32 37) ∧
      ∀ record, handshakeMessage record ≠ handshakeMessage hello →
        ∃ e, authenticateHello p config 65 record = throw e := by
  intro shortId config serverPk p
  have hcommute (a b : Bytes32) : p.diffieHellman a (p.publicKey b) = p.diffieHellman b (p.publicKey a) := by
    show constBytes 32 (a.val.headD 0 * (3 * b.val.headD 0)) = constBytes 32 (b.val.headD 0 * (3 * a.val.headD 0))
    rw [UInt8.mul_comm (a.val.headD 0), UInt8.mul_comm 3 (b.val.headD 0), UInt8.mul_assoc]
  exact authentication_bound p hcommute (fun _ _ _ m => length_append.trans (congrArg _ length_replicate))
    config (constBytes 32 2) (constBytes 32 7) 5 shortId "a.b" 65 (by decide) (by decide) (by decide)
    (Sealing.onlySealed Primitives.small.encrypt _)

end Wrongsv.L2.Reality
