import Wrongsv.L1Encoding.VlessHeader

/-!
# Shadowsocks: headers

A request starts with its destination (shadowsocks/lib.rs:321-374):

  type(1) address port(2)

The 2022 edition puts it into a variable header, with padding so that a request
without data is not empty, behind a fixed header that says when the request was
made and how long the variable header is (:760-829). A response has a fixed
header only, which also repeats the salt of the request (:831-871).

Time is in nanoseconds. The clock of the writer and that of the reader are
arguments, as is the random byte of the padding.

Results: `parseRequestHeader_write`, `parseFixedHeader_encode` and
`decodeVariableHeader_encode` read back what the encoders return.
-/
namespace Wrongsv.L1.Shadowsocks
open L1.VlessHeader List

/-! ## Methods, errors, time -/

inductive Method where
  | aes128Gcm
  | aes256Gcm
  | chaCha20IetfPoly1305
  | aead2022Blake3Aes128Gcm
  | aead2022Blake3Aes256Gcm
  deriving DecidableEq, Repr

def Method.keyLen : Method → Nat
  | .aes128Gcm | .aead2022Blake3Aes128Gcm => 16
  | .aes256Gcm | .chaCha20IetfPoly1305 | .aead2022Blake3Aes256Gcm => 32

def Method.saltLen (method : Method) : Nat := method.keyLen

def Method.isAead2022 : Method → Bool
  | .aead2022Blake3Aes128Gcm | .aead2022Blake3Aes256Gcm => true
  | .aes128Gcm | .aes256Gcm | .chaCha20IetfPoly1305 => false

/-- lib.rs:102-108 -/
def Method.maxChunkLen (method : Method) : Nat := if method.isAead2022 then 0xffff else 0x3fff

inductive IoErrorKind where
  | wouldBlock
  | unexpectedEof
  deriving DecidableEq, Repr

/-- The errors of the TCP stream. Deriving a key, sealing a block and taking the
lock do not fail. -/
inductive ShadowsocksError where
  | invalidKey
  | invalidKeyLength (expected actual : Nat)
  | invalidSaltLength (expected actual : Nat)
  | decrypt
  | invalidChunkLength (len : Nat)
  | chunkTooLarge (len : Nat)
  | shortAddress
  | invalidAddressType (atyp : UInt8)
  | invalidAddress
  | invalidHeader
  | invalidTimestamp
  | replayDetected
  | missingRequestSalt
  | io (kind : IoErrorKind)
  deriving DecidableEq, Repr

def nanosPerSec : Nat := 1000000000

/-- The wall clock, in nanoseconds since the epoch; its seconds are an `i64`. -/
structure SystemTime where
  nanos : Int
  inRange : nanos < 2 ^ 63 * nanosPerSec

/-- lib.rs:744-749 -/
def unixTimeSecs (now : SystemTime) : Except ShadowsocksError Nat :=
  if now.nanos < 0 then .error .invalidTimestamp else .ok (now.nanos.toNat / nanosPerSec)

def maxTimeDiffSecs : Nat := 30

/-- lib.rs:751-758 -/
def validateTimestamp (now : SystemTime) (timestamp : Nat) : Except ShadowsocksError Unit :=
  match unixTimeSecs now with
  | .error e => .error e
  | .ok secs => if maxTimeDiffSecs < max secs timestamp - min secs timestamp then .error .invalidTimestamp else .ok ()

/-- A header made at `sent` passes the timestamp check at `now`. -/
def Timely (now sent : SystemTime) : Prop :=
  ∃ secs, unixTimeSecs sent = .ok secs ∧ validateTimestamp now secs = .ok ()

/-! ## Destinations -/

/-- An address of `n` bytes and the port. -/
def parseOctets (n : Nat) (address : { b : Bytes // b.length = n } → Address) (rest : Bytes) :
    Except ShadowsocksError (Address × Nat × Nat) :=
  if h : rest.length < n + 2 then .error .shortAddress
  else .ok (address ⟨rest.take n, length_take_octets h⟩, u16At rest n, n + 3)

/-- The address, the port, and how many bytes they take.
lib.rs:321-355 -/
def parseRequestHeader : Bytes → Except ShadowsocksError (Address × Nat × Nat)
  | [] => .error .shortAddress
  | atyp :: rest =>
    if atyp = 0x01 then parseOctets 4 .ipv4 rest
    else if atyp = 0x03 then
      match rest with
      | [] => .error .shortAddress
      | len :: rest =>
        if rest.length < len.toNat + 2 then .error .shortAddress
        else
          match String.fromUTF8? ⟨(rest.take len.toNat).toArray⟩ with
          | none => .error .invalidAddress
          | some domain => .ok (.domain domain, u16At rest len.toNat, len.toNat + 4)
    else if atyp = 0x04 then parseOctets 16 .ipv6 rest
    else .error (.invalidAddressType atyp)

/-- lib.rs:357-374 -/
def writeRequestHeader (address : Address) (port : UInt16) : Bytes :=
  (match address with
    | .ipv4 octets => 0x01 :: octets.val
    | .domain domain => 0x03 :: UInt8.ofNat (utf8 domain).length :: utf8 domain
    | .ipv6 octets => 0x04 :: octets.val) ++ be16 port.toNat

theorem parseOctets_append {n : Nat} (address : { b : Bytes // b.length = n } → Address)
    (octets : { b : Bytes // b.length = n }) (port : UInt16) (rest : Bytes) :
    parseOctets n address (octets.val ++ (be16 port.toNat ++ rest)) = .ok (address octets, port.toNat, n + 3) := by
  obtain ⟨octets, rfl⟩ := octets
  have hn : ¬ (octets ++ (be16 port.toNat ++ rest)).length < octets.length + 2 := by
    grind [be16_length]
  simp only [parseOctets, dif_neg hn, take_left, u16At_append octets port.toNat_lt rest]

variable {address : Address}

/-- **A destination is read back**, and its length is known. -/
theorem parseRequestHeader_write (h : address.Fits) (port : UInt16) (rest : Bytes) :
    parseRequestHeader (writeRequestHeader address port ++ rest) =
      .ok (address, port.toNat, (writeRequestHeader address port).length) := by
  cases address with
  | ipv4 octets =>
    have hlen : (writeRequestHeader (.ipv4 octets) port).length = 4 + 3 := by
      simp [writeRequestHeader, octets.property]
    rw [hlen, ← parseOctets_append .ipv4 octets port rest]
    simp [writeRequestHeader, parseRequestHeader]
  | ipv6 octets =>
    have hlen : (writeRequestHeader (.ipv6 octets) port).length = 16 + 3 := by
      simp [writeRequestHeader, octets.property]
    rw [hlen, ← parseOctets_append .ipv6 octets port rest]
    simp [writeRequestHeader, parseRequestHeader]
  | domain domain =>
    have hn : (UInt8.ofNat (utf8 domain).length).toNat = (utf8 domain).length := toNat_ofNat_of_le h
    have hlong : ¬ (utf8 domain ++ (be16 port.toNat ++ rest)).length < (utf8 domain).length + 2 := by
      grind [be16_length]
    have hlen : (writeRequestHeader (.domain domain) port).length = (utf8 domain).length + 4 := by
      simp [writeRequestHeader]
    rw [hlen]
    show parseRequestHeader (0x03 :: UInt8.ofNat (utf8 domain).length :: (utf8 domain ++ be16 port.toNat ++ rest)) = _
    rw [append_assoc, parseRequestHeader, if_neg (by decide), if_pos rfl]
    simp only [hn, if_neg hlong, take_left, fromUTF8_utf8, u16At_append _ port.toNat_lt rest]

/-! ## Fixed headers -/

/-- What both fixed headers have in common: `echo` is the salt of the request in a
response, and nothing in a request. -/
def encodeFixedHeader (now : SystemTime) (headerType : UInt8) (echo : Bytes) (len : Nat) :
    Except ShadowsocksError Bytes :=
  if 0xffff < len then .error (.chunkTooLarge len)
  else (unixTimeSecs now).map fun secs => headerType :: (beBytes 8 secs ++ (echo ++ be16 len))

def parseFixedHeader (now : SystemTime) (headerType : UInt8) (echoLen : Nat) (echo : Bytes)
    (data : Bytes) : Except ShadowsocksError Nat :=
  if data.length ≠ 11 + echoLen then .error .invalidHeader
  else if data.getD 0 0 ≠ headerType then .error .invalidHeader
  else
    match validateTimestamp now (ofBe ((data.drop 1).take 8)) with
    | .error e => .error e
    | .ok () => if (data.drop 9).take echoLen ≠ echo then .error .invalidHeader else .ok (u16At data (9 + echoLen))

def headerTypeClientStream : UInt8 := 0

def headerTypeServerStream : UInt8 := 1

def aead2022RequestFixedHeaderLen : Nat := 11

def encodeAead2022RequestFixedHeader (now : SystemTime) (variableHeaderLen : Nat) :
    Except ShadowsocksError Bytes :=
  encodeFixedHeader now headerTypeClientStream [] variableHeaderLen

def parseAead2022RequestFixedHeader (now : SystemTime) (data : Bytes) :
    Except ShadowsocksError Nat :=
  parseFixedHeader now headerTypeClientStream 0 [] data

def aead2022ResponseFixedHeaderLen (method : Method) : Nat := 1 + 8 + method.saltLen + 2

def encodeAead2022ResponseFixedHeader (now : SystemTime) (requestSalt : Bytes) (payloadLen : Nat) :
    Except ShadowsocksError Bytes :=
  encodeFixedHeader now headerTypeServerStream requestSalt payloadLen

def parseAead2022ResponseFixedHeader (now : SystemTime) (method : Method)
    (requestSalt data : Bytes) : Except ShadowsocksError Nat :=
  parseFixedHeader now headerTypeServerStream method.saltLen requestSalt data

section
variable {now sent : SystemTime} {headerType : UInt8} {echo header : Bytes} {len : Nat}

theorem unixTimeSecs_lt {secs : Nat} (h : unixTimeSecs now = .ok secs) : secs < 256 ^ 8 := by
  have hrange := now.inRange
  grind [unixTimeSecs, nanosPerSec]

theorem encodeFixedHeader_ok (h : encodeFixedHeader now headerType echo len = .ok header) :
    len ≤ 0xffff ∧ ∃ secs, unixTimeSecs now = .ok secs ∧
      header = headerType :: (beBytes 8 secs ++ (echo ++ be16 len)) := by
  unfold encodeFixedHeader at h
  split at h
  · cases h
  rename_i hlen
  cases hsecs : unixTimeSecs now with
  | error e => rw [hsecs] at h; cases h
  | ok secs => rw [hsecs] at h; cases h; exact ⟨Nat.not_lt.mp hlen, secs, rfl, rfl⟩

theorem encodeFixedHeader_length (h : encodeFixedHeader now headerType echo len = .ok header) :
    header.length = 11 + echo.length := by
  obtain ⟨-, secs, -, rfl⟩ := encodeFixedHeader_ok h
  grind [beBytes_length, be16_length]

/-- **A fixed header is read back** in time; if the reader expects another salt,
it refuses the header. -/
theorem parseFixedHeader_encode (h : encodeFixedHeader sent headerType echo len = .ok header)
    (htime : Timely now sent) (expected : Bytes) :
    parseFixedHeader now headerType echo.length expected header =
      if echo = expected then .ok len else .error .invalidHeader := by
  have hlength := encodeFixedHeader_length h
  obtain ⟨hlen, secs, hsecs, rfl⟩ := encodeFixedHeader_ok h
  obtain ⟨secs', hsecs', hvalid⟩ := htime
  rw [hsecs, Except.ok.injEq] at hsecs'
  subst hsecs'
  have hstamp : ((headerType :: (beBytes 8 secs ++ (echo ++ be16 len))).drop 1).take 8 = beBytes 8 secs :=
    take_left' (beBytes_length 8 secs)
  have hrest : (headerType :: (beBytes 8 secs ++ (echo ++ be16 len))).drop 9 = echo ++ be16 len :=
    drop_left' (beBytes_length 8 secs)
  have hu16 : u16At (headerType :: (beBytes 8 secs ++ (echo ++ be16 len))) (9 + echo.length) = len := by
    have := u16At_append (headerType :: (beBytes 8 secs ++ echo)) (Nat.lt_succ_of_le hlen) []
    grind
  have htype : (headerType :: (beBytes 8 secs ++ (echo ++ be16 len))).getD 0 0 = headerType := rfl
  simp only [parseFixedHeader, hlength, htype, ne_eq, not_true_eq_false, if_false, hstamp,
    ofBe_beBytes (unixTimeSecs_lt hsecs), hvalid, hrest, take_left, hu16]
  simp

/-- Only a header that is timely and repeats the expected salt is accepted. -/
theorem parseFixedHeader_ok {echoLen : Nat} (h : parseFixedHeader now headerType echoLen echo header = .ok len) :
    validateTimestamp now (ofBe ((header.drop 1).take 8)) = .ok () ∧ (header.drop 9).take echoLen = echo := by
  unfold parseFixedHeader at h
  split at h
  · cases h
  split at h
  · cases h
  split at h
  · cases h
  rename_i htime
  split at h
  · cases h
  · exact ⟨htime, not_not.mp ‹_›⟩

end

/-! ## Variable headers -/

def encodeAead2022RequestVariableHeader (address : Address) (port : UInt16) (initialPayload : Bytes)
    (padding : UInt8) : Except ShadowsocksError Bytes :=
  let out := writeRequestHeader address port ++
    (if initialPayload = [] then be16 1 ++ [padding] else be16 0 ++ initialPayload)
  if 0xffff < out.length then .error (.chunkTooLarge out.length) else .ok out

/-- The destination and the data behind the padding. -/
def decodeAead2022RequestVariableHeader (data : Bytes) : Except ShadowsocksError Bytes :=
  match parseRequestHeader data with
  | .error e => .error e
  | .ok (_, _, consumed) =>
    if data.length < consumed + 2 then .error .invalidHeader
    else if data.length < consumed + 2 + u16At data consumed then .error .invalidHeader
    else if u16At data consumed = 0 ∧ data.drop (consumed + 2 + u16At data consumed) = [] then .error .invalidHeader
    else .ok (data.take consumed ++ data.drop (consumed + 2 + u16At data consumed))

/-- A destination, `n` bytes of padding and the data. -/
theorem decodeVariableHeader_append (hfits : address.Fits) (port : UInt16) {n : Nat}
    (hn : n < 65536) (pad payload : Bytes) (hpad : pad.length = n) (hne : ¬ (n = 0 ∧ payload = [])) :
    decodeAead2022RequestVariableHeader (writeRequestHeader address port ++ (be16 n ++ (pad ++ payload))) =
      .ok (writeRequestHeader address port ++ payload) := by
  have hparse := parseRequestHeader_write hfits port (be16 n ++ (pad ++ payload))
  have hu16 := u16At_append (writeRequestHeader address port) hn (pad ++ payload)
  generalize writeRequestHeader address port = head at hparse hu16 ⊢
  have hlen : (head ++ (be16 n ++ (pad ++ payload))).length = head.length + 2 + n + payload.length := by
    simp only [length_append, be16_length, hpad]
    omega
  have hdrop : (head ++ (be16 n ++ (pad ++ payload))).drop (head.length + 2 + n) = payload := by
    grind [drop_left']
  simp only [decodeAead2022RequestVariableHeader, hparse, hu16, hlen, hdrop, take_left, if_neg hne]
  rw [if_neg (by omega), if_neg (by omega)]

/-- **A variable header is read back.** -/
theorem decodeVariableHeader_encode (hfits : address.Fits) {port : UInt16}
    {initialPayload header : Bytes} {padding : UInt8}
    (h : encodeAead2022RequestVariableHeader address port initialPayload padding = .ok header) :
    decodeAead2022RequestVariableHeader header = .ok (writeRequestHeader address port ++ initialPayload) := by
  have hheader : writeRequestHeader address port ++
      (if initialPayload = [] then be16 1 ++ [padding] else be16 0 ++ initialPayload) = header := by
    unfold encodeAead2022RequestVariableHeader at h
    generalize writeRequestHeader address port ++
      (if initialPayload = [] then be16 1 ++ [padding] else be16 0 ++ initialPayload) = out at h
    simp only at h
    split at h
    · cases h
    · exact Except.ok.inj h
  rw [← hheader]
  by_cases hempty : initialPayload = []
  · grind [decodeVariableHeader_append]
  · rw [if_neg hempty]
    exact decodeVariableHeader_append hfits port (by decide) [] initialPayload rfl (fun h => hempty h.2)

end Wrongsv.L1.Shadowsocks
