import Wrongsv.Core.ReplayWindow
import Wrongsv.Core.Table
import Wrongsv.L2Machine.Shadowsocks.Stream

/-!
# Shadowsocks 2022: UDP

A packet (shadowsocks/lib.rs:444-714) starts with a block of its own:

  session(8) packet number(8)

encrypted with the key of the server. What follows is sealed under a key derived
from the session, with the last twelve bytes of the block as the nonce. In a
request it is a timestamp, padding, the destination and the payload; a response has
another type byte, and the session of the client behind the timestamp.

The server keeps an entry for each session of a client (:189-262): the numbers it
has accepted, and the session and the next number of its responses. Entries that
were idle for more than 60 seconds are dropped.

Results: `udp_packets_round_trip`, `decryptRequest_encrypt`, `decryptResponse_encrypt`.
-/
namespace Wrongsv.L2.Shadowsocks
open L1.VlessHeader L1.Shadowsocks List

/-! ## Sessions -/

abbrev SessionId := { b : Bytes // b.length = 8 }

structure Aead2022UdpSession where
  lastSeen : Nat
  serverSessionId : SessionId
  nextServerPacketId : UInt64
  replayWindow : ReplayWindow 128

abbrev UdpSessionCache := Table SessionId Aead2022UdpSession

structure Aead2022UdpResponseContext where
  serverSessionId : SessionId
  packetId : UInt64
  deriving DecidableEq

/-- The errors that only UDP has, and the others. -/
inductive UdpError where
  | unsupportedUdpMethod (name : String)
  | shortUdpPacket
  | shadowsocks (e : ShadowsocksError)
  deriving DecidableEq, Repr

def methodName : Method → String
  | .aes128Gcm => "aes-128-gcm"
  | .aes256Gcm => "aes-256-gcm"
  | .chaCha20IetfPoly1305 => "chacha20-ietf-poly1305"
  | .aead2022Blake3Aes128Gcm => "2022-blake3-aes-128-gcm"
  | .aead2022Blake3Aes256Gcm => "2022-blake3-aes-256-gcm"

def UdpSessionCache.live (now : Nat) (cache : UdpSessionCache) : UdpSessionCache :=
  cache.retain fun session => decide (now - session.lastSeen ≤ replayWindow)

/-- The entry of a client session; `drawn` are the random bytes for a new one. -/
def UdpSessionCache.entry (now : Nat) (drawn clientSessionId : SessionId)
    (cache : UdpSessionCache) : Aead2022UdpSession :=
  (cache clientSessionId).getD ⟨now, drawn, 0, .new⟩

def acceptAead2022UdpPacket (method : Method) (now : Nat) (drawn clientSessionId : SessionId)
    (clientPacketId : UInt64) (cache : UdpSessionCache) :
    Except UdpError Aead2022UdpResponseContext × UdpSessionCache :=
  if method.isAead2022 = false then (.error (.unsupportedUdpMethod (methodName method)), cache)
  else
    let cache := cache.live now
    let session := cache.entry now drawn clientSessionId
    match session.replayWindow.check clientPacketId.toNat with
    | none => (.error (.shadowsocks .replayDetected), cache.insert clientSessionId session)
    | some window =>
      (.ok ⟨session.serverSessionId, session.nextServerPacketId⟩,
        cache.insert clientSessionId
          ⟨now, session.serverSessionId, session.nextServerPacketId + 1, window⟩)

/-! ## Packets -/

abbrev SeparateHeader := { b : Bytes // b.length = 16 }

/-- The block ciphers are also those of another crate. -/
structure UdpPrimitives extends Primitives where
  aes128 : BlockCipher
  aes256 : BlockCipher

def UdpPrimitives.transparent : UdpPrimitives := ⟨.transparent, .transparent, .transparent⟩

/-- lib.rs:605-613 -/
def buildSeparateHeader (sessionId : SessionId) (packetId : UInt64) : SeparateHeader :=
  ⟨sessionId.val ++ beBytes 8 packetId.toNat, by rw [length_append, sessionId.property, beBytes_length]⟩

/-- lib.rs:615-621 -/
def sessionIdFromHeader (header : SeparateHeader) : SessionId :=
  ⟨header.val.take 8, by rw [length_take, header.property]; rfl⟩

/-- lib.rs:623-629 -/
def packetIdFromHeader (header : SeparateHeader) : UInt64 := UInt64.ofNat (ofBe (header.val.drop 8))

/-- lib.rs:631-636 -/
def nonceFromSeparateHeader (header : SeparateHeader) : Bytes := header.val.drop 4

section
variable (p : UdpPrimitives)

/-- lib.rs:638-672; the key has the length of the method -/
def cryptAead2022SeparateHeader (method : Method) (masterKey : Bytes) (input : SeparateHeader)
    (encrypt : Bool) : Except UdpError SeparateHeader :=
  match method with
  | .aead2022Blake3Aes128Gcm =>
    .ok (if encrypt then p.aes128.encrypt masterKey input else p.aes128.decrypt masterKey input)
  | .aead2022Blake3Aes256Gcm =>
    .ok (if encrypt then p.aes256.encrypt masterKey input else p.aes256.decrypt masterKey input)
  | .aes128Gcm | .aes256Gcm | .chaCha20IetfPoly1305 => .error (.unsupportedUdpMethod (methodName method))

/-- The cipher of a session. -/
def onceCipher (method : Method) (masterKey : Bytes) (sessionId : SessionId) :
    Except UdpError Cipher :=
  match method with
  | .aead2022Blake3Aes128Gcm => .ok (.aes128 (deriveSubkey p.toPrimitives method masterKey sessionId.val))
  | .aead2022Blake3Aes256Gcm => .ok (.aes256 (deriveSubkey p.toPrimitives method masterKey sessionId.val))
  | .aes128Gcm | .aes256Gcm | .chaCha20IetfPoly1305 => .error (.unsupportedUdpMethod (methodName method))

def aead2022SealOnce (method : Method) (masterKey : Bytes) (sessionId : SessionId)
    (nonce plaintext : Bytes) : Except UdpError Bytes :=
  (onceCipher p method masterKey sessionId).map (·.encrypt p.toPrimitives nonce plaintext)

def aead2022OpenOnce (method : Method) (masterKey : Bytes) (sessionId : SessionId)
    (nonce ciphertext : Bytes) : Except UdpError Bytes := do
  let cipher ← onceCipher p method masterKey sessionId
  match cipher.decrypt p.toPrimitives nonce ciphertext with
  | none => .error (.shadowsocks .decrypt)
  | some plaintext => .ok plaintext

/-- `config.master_key()?` -/
def udpMasterKey (config : ServerConfig) : Except UdpError Bytes :=
  (config.masterKey p.toPrimitives).mapError .shadowsocks

def decryptAead2022UdpPacket (config : ServerConfig) (packet : Bytes) :
    Except UdpError (SeparateHeader × Bytes) :=
  if config.method.isAead2022 = false then .error (.unsupportedUdpMethod (methodName config.method))
  else if h : packet.length < 16 + aeadTagLen then .error .shortUdpPacket
  else do
    let masterKey ← udpMasterKey p config
    let encryptedHeader : SeparateHeader := ⟨packet.take 16, by rw [length_take]; omega⟩
    let header ← cryptAead2022SeparateHeader p config.method masterKey encryptedHeader false
    let body ← aead2022OpenOnce p config.method masterKey (sessionIdFromHeader header)
      (nonceFromSeparateHeader header) (packet.drop 16)
    return (header, body)

def encryptAead2022UdpBody (config : ServerConfig) (sessionId : SessionId) (packetId : UInt64)
    (body : Bytes) : Except UdpError Bytes :=
  if config.method.isAead2022 = false then .error (.unsupportedUdpMethod (methodName config.method))
  else do
    let masterKey ← udpMasterKey p config
    let header := buildSeparateHeader sessionId packetId
    let encryptedBody ← aead2022SealOnce p config.method masterKey sessionId (nonceFromSeparateHeader header) body
    let encryptedHeader ← cryptAead2022SeparateHeader p config.method masterKey header true
    return encryptedHeader.val ++ encryptedBody

end

/-! ## Requests -/

structure Aead2022UdpRequest where
  clientSessionId : SessionId
  packetId : UInt64
  address : Address
  port : Nat
  payload : Bytes

structure Aead2022UdpResponse where
  serverSessionId : SessionId
  packetId : UInt64
  clientSessionId : SessionId
  address : Address
  port : Nat
  payload : Bytes

/-- The timestamp of a body that has one. -/
def bodyTimestamp (body : Bytes) : Nat := ofBe ((body.drop 1).take 8)

def parseUdpRequestBody (now : SystemTime) (body : Bytes) :
    Except ShadowsocksError (Address × Nat × Bytes) :=
  if body.length < 1 then .error .invalidHeader
  else if body.getD 0 0 ≠ 0 then .error .invalidHeader
  else if body.length < 9 then .error .invalidHeader
  else
    match validateTimestamp now (bodyTimestamp body) with
    | .error e => .error e
    | .ok () =>
      if body.length < 11 then .error .invalidHeader
      else if body.length < 11 + u16At body 9 then .error .invalidHeader
      else
        let rest := body.drop (11 + u16At body 9)
        (parseRequestHeader rest).map fun (address, port, consumed) => (address, port, rest.drop consumed)

def parseUdpResponseBody (now : SystemTime) (body : Bytes) :
    Except ShadowsocksError (SessionId × Address × Nat × Bytes) :=
  if body.length < 1 then .error .invalidHeader
  else if body.getD 0 0 ≠ 1 then .error .invalidHeader
  else if body.length < 9 then .error .invalidHeader
  else
    match validateTimestamp now (bodyTimestamp body) with
    | .error e => .error e
    | .ok () =>
      if h : body.length < 17 then .error .invalidHeader
      else if body.length < 19 then .error .invalidHeader
      else if body.length < 19 + u16At body 17 then .error .invalidHeader
      else
        let clientSessionId : SessionId := ⟨(body.drop 9).take 8, by rw [length_take, length_drop]; omega⟩
        let rest := body.drop (19 + u16At body 17)
        (parseRequestHeader rest).map fun (address, port, consumed) =>
          (clientSessionId, address, port, rest.drop consumed)

section
variable (p : UdpPrimitives)

def decryptAead2022UdpRequest (now : SystemTime) (config : ServerConfig) (packet : Bytes) :
    Except UdpError Aead2022UdpRequest := do
  let (header, body) ← decryptAead2022UdpPacket p config packet
  let (address, port, payload) ← (parseUdpRequestBody now body).mapError .shadowsocks
  return ⟨sessionIdFromHeader header, packetIdFromHeader header, address, port, payload⟩

def encryptAead2022UdpRequest (now : SystemTime) (config : ServerConfig) (clientSessionId : SessionId)
    (packetId : UInt64) (address : Address) (port : UInt16) (payload : Bytes) : Except UdpError Bytes := do
  let secs ← (unixTimeSecs now).mapError .shadowsocks
  let body := 0 :: (beBytes 8 secs ++ (be16 0 ++ (writeRequestHeader address port ++ payload)))
  encryptAead2022UdpBody p config clientSessionId packetId body

def decryptAead2022UdpResponse (now : SystemTime) (config : ServerConfig) (packet : Bytes) :
    Except UdpError Aead2022UdpResponse := do
  let (header, body) ← decryptAead2022UdpPacket p config packet
  let (clientSessionId, address, port, payload) ← (parseUdpResponseBody now body).mapError .shadowsocks
  return ⟨sessionIdFromHeader header, packetIdFromHeader header, clientSessionId, address, port, payload⟩

def encryptAead2022UdpResponse (now : SystemTime) (config : ServerConfig) (response : Aead2022UdpResponseContext)
    (clientSessionId : SessionId) (address : Address) (port : UInt16) (payload : Bytes) : Except UdpError Bytes := do
  let secs ← (unixTimeSecs now).mapError .shadowsocks
  let body := 1 :: (beBytes 8 secs ++ (clientSessionId.val ++ (be16 0 ++ (writeRequestHeader address port ++ payload))))
  encryptAead2022UdpBody p config response.serverSessionId response.packetId body

end

/-! ## Reading back -/

theorem sessionIdFromHeader_build (sessionId : SessionId) (packetId : UInt64) :
    sessionIdFromHeader (buildSeparateHeader sessionId packetId) = sessionId := by
  grind [sessionIdFromHeader, buildSeparateHeader]

theorem packetIdFromHeader_build (sessionId : SessionId) (packetId : UInt64) :
    packetIdFromHeader (buildSeparateHeader sessionId packetId) = packetId := by
  have hlen := sessionId.property
  have hlt : packetId.toNat < 256 ^ 8 := packetId.toNat_lt
  have hdrop : (sessionId.val ++ beBytes 8 packetId.toNat).drop 8 = beBytes 8 packetId.toNat :=
    drop_left' hlen
  simp only [packetIdFromHeader, buildSeparateHeader, hdrop, ofBe_beBytes hlt, UInt64.ofNat_toNat]

/-- **No two responses share a key and a nonce** unless they have the same session
and number. -/
theorem response_nonce_injective {a b : Aead2022UdpResponseContext} (hid : a.serverSessionId = b.serverSessionId)
    (hnonce : nonceFromSeparateHeader (buildSeparateHeader a.serverSessionId a.packetId) =
      nonceFromSeparateHeader (buildSeparateHeader b.serverSessionId b.packetId)) : a = b := by
  have hpacket : packetIdFromHeader (buildSeparateHeader a.serverSessionId a.packetId) =
      packetIdFromHeader (buildSeparateHeader b.serverSessionId b.packetId) := by
    -- the number is the last eight bytes of the nonce
    have h := congrArg (List.drop 4) hnonce
    simp only [nonceFromSeparateHeader, drop_drop] at h
    simp only [packetIdFromHeader, h]
  rw [packetIdFromHeader_build, packetIdFromHeader_build] at hpacket
  cases a
  cases b
  simp_all

section
variable (p : UdpPrimitives)

theorem crypt_crypt {method : Method} {masterKey : Bytes} {input output : SeparateHeader}
    (h : cryptAead2022SeparateHeader p method masterKey input true = .ok output) :
    cryptAead2022SeparateHeader p method masterKey output false = .ok input := by
  cases method <;> simp only [cryptAead2022SeparateHeader, if_true, Except.ok.injEq, reduceCtorEq] at h <;>
    simp [cryptAead2022SeparateHeader, ← h, BlockCipher.decrypt_encrypt]

theorem openOnce_sealOnce {method : Method} {masterKey nonce plaintext ciphertext : Bytes} {sessionId : SessionId}
    (h : aead2022SealOnce p method masterKey sessionId nonce plaintext = .ok ciphertext) :
    aead2022OpenOnce p method masterKey sessionId nonce ciphertext = .ok plaintext ∧
      ciphertext.length = plaintext.length + aeadTagLen := by
  unfold aead2022SealOnce at h
  unfold aead2022OpenOnce
  cases hc : onceCipher p method masterKey sessionId with
  | error e => rw [hc] at h; cases h
  | ok cipher =>
    rw [hc] at h
    cases h
    simp [bind, Except.bind, Cipher.decrypt_encrypt, Cipher.encrypt_length]

/-- **A packet is opened as it was sealed.** -/
theorem decryptPacket_encrypt {config : ServerConfig} {sessionId : SessionId} {packetId : UInt64} {body packet : Bytes}
    (h : encryptAead2022UdpBody p config sessionId packetId body = .ok packet) :
    decryptAead2022UdpPacket p config packet = .ok (buildSeparateHeader sessionId packetId, body) := by
  unfold encryptAead2022UdpBody at h
  split at h
  · cases h
  rename_i hm
  cases hkey : udpMasterKey p config with
  | error e => simp [hkey, bind, Except.bind] at h
  | ok masterKey =>
    cases hbody : aead2022SealOnce p config.method masterKey sessionId
        (nonceFromSeparateHeader (buildSeparateHeader sessionId packetId)) body with
    | error e => simp [hkey, hbody, bind, Except.bind] at h
    | ok encryptedBody =>
      cases hheader : cryptAead2022SeparateHeader p config.method masterKey
          (buildSeparateHeader sessionId packetId) true with
      | error e => simp [hkey, hbody, hheader, bind, Except.bind] at h
      | ok encryptedHeader =>
        simp only [hkey, hbody, hheader, bind, Except.bind, pure, Except.pure, Except.ok.injEq] at h
        obtain ⟨hopen, hlen⟩ := openOnce_sealOnce p hbody
        have hlong : ¬ packet.length < 16 + aeadTagLen := by
          grind
        have htake : packet.take 16 = encryptedHeader.val := by
          grind
        have hdrop : packet.drop 16 = encryptedBody := by
          grind
        unfold decryptAead2022UdpPacket
        simp only [if_neg hm, dif_neg hlong, hkey, htake, hdrop, bind, Except.bind, crypt_crypt p
          hheader, sessionIdFromHeader_build, hopen]
        rfl

/-- Where the fields of a body are; `ids` is the session of the client in a response. -/
theorem body_layout (kind : UInt8) {secs : Nat} (hsecs : secs < 256 ^ 8) (ids rest : Bytes)
    {body : Bytes} (hbody : body = kind :: (beBytes 8 secs ++ (ids ++ (be16 0 ++ rest)))) :
    body.length = 11 + ids.length + rest.length ∧ body.getD 0 0 = kind ∧ bodyTimestamp body = secs ∧
      (body.drop 9).take ids.length = ids ∧ u16At body (9 + ids.length) = 0 ∧
      body.drop (11 + ids.length) = rest := by
  have hsplit : body = (kind :: (beBytes 8 secs ++ ids)) ++ (be16 0 ++ rest) := by simp [hbody]
  have hhead : (kind :: (beBytes 8 secs ++ ids)).length = 9 + ids.length := by
    simp
    omega
  refine ⟨?_, by rw [hbody]; rfl, ?_, ?_, ?_, ?_⟩
  · simp [hbody]
    omega
  · rw [bodyTimestamp, hbody, drop_one, tail_cons, take_left' (beBytes_length 8 secs), ofBe_beBytes hsecs]
  · rw [hbody, drop_succ_cons, drop_left' (beBytes_length 8 secs), take_left]
  · rw [hsplit, ← hhead]
    exact u16At_append _ (by decide) rest
  · rw [hsplit, ← append_assoc]
    exact drop_left' (by rw [length_append, hhead, be16_length]; omega)

section
variable {now : SystemTime} {secs : Nat} (hsecs : secs < 256 ^ 8) (htime : validateTimestamp now secs = .ok ())
  {address : Address} (hfits : address.Fits) (port : UInt16) (payload : Bytes)
include hsecs htime hfits

/-- The fields of a request that the server reads at a moment at which its
timestamp is valid. -/
theorem parseUdpRequestBody_encode :
    parseUdpRequestBody now (0 :: (beBytes 8 secs ++ (be16 0 ++ (writeRequestHeader address port ++ payload)))) =
      .ok (address, port.toNat, payload) := by
  obtain ⟨hlen, hfirst, htimestamp, -, hpadding, hdrop⟩ := body_layout 0 hsecs [] (writeRequestHeader address port ++ payload) rfl
  simp only [nil_append, length_nil, Nat.add_zero] at hlen hfirst htimestamp hpadding hdrop
  unfold parseUdpRequestBody
  rw [if_neg (by omega), if_neg (not_not_intro hfirst), if_neg (by omega), htimestamp, htime]
  simp only [hpadding, Nat.add_zero, hdrop, parseRequestHeader_write hfits, Except.map, drop_left]
  rw [if_neg (by omega), if_neg (by omega)]

theorem parseUdpResponseBody_encode (clientSessionId : SessionId) : parseUdpResponseBody now
        (1 :: (beBytes 8 secs ++ (clientSessionId.val ++ (be16 0 ++ (writeRequestHeader address port ++ payload))))) =
      .ok (clientSessionId, address, port.toNat, payload) := by
  obtain ⟨hlen, hfirst, htimestamp, hids, hpadding, hdrop⟩ :=
    body_layout 1 hsecs clientSessionId.val (writeRequestHeader address port ++ payload) rfl
  simp only [clientSessionId.property, Nat.reduceAdd] at hlen hids hpadding hdrop
  unfold parseUdpResponseBody
  rw [if_neg (by omega), if_neg (not_not_intro hfirst), if_neg (by omega), htimestamp, htime]
  simp only [hpadding, Nat.add_zero, hdrop, hids, parseRequestHeader_write hfits, Except.map, drop_left]
  rw [dif_neg (by omega), if_neg (by omega), if_neg (by omega)]

end

/-- A body with another type byte is refused. -/
theorem parseUdpBody_kind (now : SystemTime) (rest : Bytes) :
    parseUdpRequestBody now (1 :: rest) = .error .invalidHeader ∧
      parseUdpResponseBody now (0 :: rest) = .error .invalidHeader := by
  simp [parseUdpRequestBody, parseUdpResponseBody]

section
variable {config : ServerConfig} {sent now : SystemTime} {clientSessionId : SessionId} {packetId : UInt64}
  {address : Address} {port : UInt16} {payload packet : Bytes}

/-- **A request is read as it was made.** -/
theorem decryptRequest_encrypt (hfits : address.Fits)
    (h : encryptAead2022UdpRequest p sent config clientSessionId packetId address port payload = .ok packet)
    (htime : Timely now sent) : decryptAead2022UdpRequest p now config packet =
    .ok ⟨clientSessionId, packetId, address, port.toNat, payload⟩ := by
  obtain ⟨secs, hsecs, hvalid⟩ := htime
  have hlt : secs < 256 ^ 8 := unixTimeSecs_lt hsecs
  simp only [encryptAead2022UdpRequest, hsecs, bind, Except.bind, Except.mapError] at h
  unfold decryptAead2022UdpRequest
  simp only [decryptPacket_encrypt p h, bind, Except.bind, parseUdpRequestBody_encode hlt hvalid
    hfits port payload, Except.mapError, sessionIdFromHeader_build, packetIdFromHeader_build]
  rfl

theorem decryptResponse_encrypt {response : Aead2022UdpResponseContext} (hfits : address.Fits)
    (h : encryptAead2022UdpResponse p sent config response clientSessionId address port payload = .ok packet)
    (htime : Timely now sent) :
    decryptAead2022UdpResponse p now config packet =
      .ok ⟨response.serverSessionId, response.packetId, clientSessionId, address, port.toNat, payload⟩ := by
  obtain ⟨secs, hsecs, hvalid⟩ := htime
  have hlt : secs < 256 ^ 8 := unixTimeSecs_lt hsecs
  simp only [encryptAead2022UdpResponse, hsecs, bind, Except.bind, Except.mapError] at h
  unfold decryptAead2022UdpResponse
  simp only [decryptPacket_encrypt p h, bind, Except.bind, parseUdpResponseBody_encode hlt hvalid
    hfits port payload, Except.mapError, sessionIdFromHeader_build, packetIdFromHeader_build]
  rfl

end

theorem encryptBody_ok {config : ServerConfig} (hmethod : config.method.isAead2022 = true) {key : Bytes}
    (hkey : udpMasterKey p config = .ok key) (sessionId : SessionId) (packetId : UInt64) (body : Bytes) :
    ∃ packet, encryptAead2022UdpBody p config sessionId packetId body = .ok packet := by
  unfold encryptAead2022UdpBody
  rw [if_neg (by rw [hmethod]; decide), hkey]
  cases hm : config.method <;> rw [hm] at hmethod
  case aead2022Blake3Aes128Gcm => exact ⟨_, rfl⟩
  case aead2022Blake3Aes256Gcm => exact ⟨_, rfl⟩
  all_goals cases hmethod

/-- **UDP packets.** A request and a response are made, read back by their own decoder
while the timestamp is valid, and refused by the other one at any time. Different
sessions or numbers have different inputs of the subkey or different nonces. -/
theorem udp_packets_round_trip {config : ServerConfig} (hmethod : config.method.isAead2022 = true) {key : Bytes}
    (hkey : udpMasterKey p config = .ok key) {sent now : SystemTime} (htime : Timely now sent)
    (clientSessionId serverSessionId : SessionId) (packetId : UInt64) {address : Address} (hfits : address.Fits)
    (port : UInt16) (payload : Bytes) :
    (∃ packet, encryptAead2022UdpRequest p sent config clientSessionId packetId address port
      payload = .ok packet ∧ decryptAead2022UdpRequest p now config packet =
        .ok ⟨clientSessionId, packetId, address, port.toNat, payload⟩ ∧ ∀ later,
      decryptAead2022UdpResponse p later config packet = .error (.shadowsocks .invalidHeader)) ∧
    (∃ packet, encryptAead2022UdpResponse p sent config ⟨serverSessionId, packetId⟩ clientSessionId
        address port payload = .ok packet ∧
      decryptAead2022UdpResponse p now config packet =
        .ok ⟨serverSessionId, packetId, clientSessionId, address, port.toNat, payload⟩ ∧ ∀ later,
      decryptAead2022UdpRequest p later config packet = .error (.shadowsocks .invalidHeader)) ∧
    ∀ (id id' : SessionId) (n n' : UInt64), (id, n) ≠ (id', n') →
      (key ++ id.val, nonceFromSeparateHeader (buildSeparateHeader id n)) ≠
        (key ++ id'.val, nonceFromSeparateHeader (buildSeparateHeader id' n')) := by
  obtain ⟨secs, hsecs, -⟩ := id htime
  refine ⟨?_, ?_, fun id id' n n' hne heq => ?_⟩
  · obtain ⟨packet, hbody⟩ := encryptBody_ok p hmethod hkey clientSessionId packetId
      (0 :: (beBytes 8 secs ++ (be16 0 ++ (writeRequestHeader address port ++ payload))))
    have hpacket : encryptAead2022UdpRequest p sent config clientSessionId packetId address port payload = .ok packet := by
      simp only [encryptAead2022UdpRequest, hsecs, bind, Except.bind, Except.mapError, hbody]
    refine ⟨packet, hpacket, decryptRequest_encrypt p hfits hpacket htime, fun later => ?_⟩
    simp only [decryptAead2022UdpResponse, decryptPacket_encrypt p hbody, bind, Except.bind,
      (parseUdpBody_kind later _).2, Except.mapError]
  · obtain ⟨packet, hbody⟩ := encryptBody_ok p hmethod hkey serverSessionId packetId
      (1 :: (beBytes 8 secs ++ (clientSessionId.val ++ (be16 0 ++ (writeRequestHeader address port ++ payload)))))
    have hpacket : encryptAead2022UdpResponse p sent config ⟨serverSessionId, packetId⟩ clientSessionId address port
        payload = .ok packet := by
      simp only [encryptAead2022UdpResponse, hsecs, bind, Except.bind, Except.mapError, hbody]
    refine ⟨packet, hpacket, decryptResponse_encrypt p hfits hpacket htime, fun later => ?_⟩
    simp only [decryptAead2022UdpRequest, decryptPacket_encrypt p hbody, bind, Except.bind,
      (parseUdpBody_kind later _).1, Except.mapError]
  · obtain ⟨hkeys, hnonce⟩ := Prod.mk.inj heq
    obtain rfl : id = id' := Subtype.ext (append_cancel_left hkeys)
    have hsame : (⟨id, n⟩ : Aead2022UdpResponseContext) = ⟨id, n'⟩ := response_nonce_injective rfl hnonce
    cases hsame
    exact hne rfl

end

def pskConfig : ServerConfig := ⟨.aead2022Blake3Aes128Gcm, "QkJCQkJCQkJCQkJCQkJCQg==", []⟩

/-- A request for 127.0.0.1:80, made at second 100 and read at second 130. -/
theorem udp_packets_round_trip_ping :
    Timely ⟨130 * nanosPerSec, by decide⟩ ⟨100 * nanosPerSec, by decide⟩ ∧
      ∃ packet, encryptAead2022UdpRequest .transparent ⟨100 * nanosPerSec, by decide⟩ pskConfig
          ⟨List.replicate 8 1, rfl⟩ 7 (.ipv4 ⟨[127, 0, 0, 1], rfl⟩) 80 [112, 105] = .ok packet ∧
        decryptAead2022UdpRequest .transparent ⟨130 * nanosPerSec, by decide⟩ pskConfig packet =
          .ok ⟨⟨List.replicate 8 1, rfl⟩, 7, .ipv4 ⟨[127, 0, 0, 1], rfl⟩, 80, [112, 105]⟩ := by
  have hmethod : pskConfig.method.isAead2022 = true := rfl
  obtain ⟨key, hkey⟩ : ∃ key, udpMasterKey .transparent pskConfig = .ok key := ⟨_, rfl⟩
  have htime : Timely ⟨130 * nanosPerSec, by decide⟩ ⟨100 * nanosPerSec, by decide⟩ := ⟨100, rfl, rfl⟩
  have hfits : (Address.ipv4 ⟨[127, 0, 0, 1], rfl⟩).Fits := trivial
  obtain ⟨packet, hpacket, hread, -⟩ := (udp_packets_round_trip .transparent hmethod hkey htime
    ⟨List.replicate 8 1, rfl⟩ ⟨List.replicate 8 2, rfl⟩ 7 hfits 80 [112, 105]).1
  exact ⟨htime, packet, hpacket, hread⟩

end Wrongsv.L2.Shadowsocks
