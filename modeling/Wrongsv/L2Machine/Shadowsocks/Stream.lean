import Wrongsv.Core.ExpiringSet
import Wrongsv.L2Machine.Shadowsocks.Crypto

/-!
# Shadowsocks: the TCP stream

`ShadowsocksReader` and `ShadowsocksWriter` (shadowsocks/lib.rs:1026-1315).
A stream starts with its salt. With the older methods everything else is chunks: a
sealed length and a sealed payload. With the 2022 methods the first chunk of a
request is its variable header, and that of a response is announced by the fixed
header; both come without a length block.

Before it reads the variable header, a server looks the salt up in its replay
cache. The cache belongs to the configuration, which is shared by all
connections, so `newWithSalt` returns it together with its result.

A writer is modelled by the bytes it has written. Writing to them does not fail;
a call that returns an error leaves no writer here.
-/
namespace Wrongsv.L2.Shadowsocks
open L1.VlessHeader L1.Shadowsocks

/-! ## Configuration -/

/-- Both clocks, at one moment; the monotonic one in nanoseconds. -/
structure Clock where
  wall : SystemTime
  instant : Nat

/-- lib.rs:112-119; the salt prefixes are for random
salts, the session cache is for UDP. -/
structure ServerConfig where
  method : Method
  password : String
  replayCache : ExpiringSet Bytes

/-- `Duration::from_secs(AEAD_2022_REPLAY_WINDOW_SECS)` -/
def replayWindow : Nat := 60 * nanosPerSec

namespace ServerConfig

/-- lib.rs:157-166 -/
def masterKey (p : Primitives) (config : ServerConfig) : Except ShadowsocksError Bytes :=
  if config.method.isAead2022 then decodeAead2022Psk p config.password config.method
  else .ok (evpBytesToKey p (utf8 config.password) config.method.keyLen)

/-- `CryptoState::new(config.method, &config.master_key()?, salt)` -/
def crypto (p : Primitives) (config : ServerConfig) (salt : Bytes) :
    Except ShadowsocksError CryptoState :=
  match config.masterKey p with
  | .error e => .error e
  | .ok key => CryptoState.new p config.method key salt

/-- lib.rs:168-187 -/
def checkAndStoreReplaySalt (config : ServerConfig) (now : Nat) (salt : Bytes) :
    Except ShadowsocksError Unit × ServerConfig :=
  if config.method.isAead2022 = false then (.ok (), config)
  else
    match config.replayCache.store replayWindow now salt with
    | (true, cache) => (.ok (), { config with replayCache := cache })
    | (false, cache) => (.error .replayDetected, { config with replayCache := cache })

end ServerConfig

/-! ## The reader -/

structure ShadowsocksReader where
  inner : Schedule
  crypto : CryptoState
  method : Method
  pendingChunks : List Bytes
  requestSalt : Option Bytes

def chunkLen (method : Method) (lenPlain : Bytes) : Except ShadowsocksError Nat :=
  if lenPlain.length ≠ 2 then .error (.invalidChunkLength lenPlain.length)
  else if method.maxChunkLen < u16At lenPlain 0 then .error (.chunkTooLarge (u16At lenPlain 0))
  else .ok (u16At lenPlain 0)

section
variable (p : Primitives)

def readRequestFixedHeader (now : SystemTime) : SealedReader CryptoState ShadowsocksError Nat := do
  let fixedHeader ← readSealed p aead2022RequestFixedHeaderLen
  SealedReader.check (parseAead2022RequestFixedHeader now fixedHeader)

def readRequestVariableHeader (len : Nat) : SealedReader CryptoState ShadowsocksError Bytes := do
  let variableHeader ← readSealed p len
  SealedReader.check (decodeAead2022RequestVariableHeader variableHeader)

def readResponseHeader (now : SystemTime) (method : Method) (requestSalt : Bytes) :
    SealedReader CryptoState ShadowsocksError Bytes := do
  let fixedHeader ← readSealed p (aead2022ResponseFixedHeaderLen method)
  let payloadLen ← SealedReader.check (parseAead2022ResponseFixedHeader now method requestSalt fixedHeader)
  readSealed p payloadLen

def readSizedChunk (method : Method) : SealedReader CryptoState ShadowsocksError Bytes := do
  let lenPlain ← readSealed p 2
  let len ← SealedReader.check (chunkLen method lenPlain)
  readSealed p len

namespace ShadowsocksReader

def newWithSalt (now : Clock) (inner : Schedule) (config : ServerConfig) (salt : Bytes) :
    Except ShadowsocksError ShadowsocksReader × ServerConfig :=
  match config.crypto p salt with
  | .error e => (.error e, config)
  | .ok crypto =>
    if config.method.isAead2022 = false then (.ok ⟨inner, crypto, config.method, [], none⟩, config)
    else
      match readRequestFixedHeader p now.wall (inner, crypto) with
      | (.error e, _) => (.error e, config)
      | (.ok variableHeaderLen, stream) =>
        match config.checkAndStoreReplaySalt now.instant salt with
        | (.error e, config) => (.error e, config)
        | (.ok (), config) =>
          match readRequestVariableHeader p variableHeaderLen stream with
          | (.error e, _) => (.error e, config)
          | (.ok firstChunk, (inner, crypto)) => (.ok ⟨inner, crypto, config.method, [firstChunk], some salt⟩, config)

def new (now : Clock) (inner : Schedule) (config : ServerConfig) :
    Except ShadowsocksError ShadowsocksReader × ServerConfig :=
  match inner.readExact config.method.saltLen with
  | (.done salt, inner) => newWithSalt p now inner config salt
  | (.block _, _) => (.error (.io .wouldBlock), config)
  | (.eof _, _) => (.error (.io .unexpectedEof), config)

/-- Only the 2022 methods have a replay cache, and it is for requests. -/
def newResponse (now : Clock) (inner : Schedule) (config : ServerConfig)
    (requestSalt : Option Bytes) : Except ShadowsocksError ShadowsocksReader :=
  if config.method.isAead2022 = false then (new p now inner config).1
  else
    match requestSalt with
    | none => .error .missingRequestSalt
    | some requestSalt =>
      if requestSalt.length ≠ config.method.saltLen then
        .error (.invalidSaltLength config.method.saltLen requestSalt.length)
      else
        match inner.readExact config.method.saltLen with
        | (.block _, _) => .error (.io .wouldBlock)
        | (.eof _, _) => .error (.io .unexpectedEof)
        | (.done salt, inner) =>
          match config.crypto p salt with
          | .error e => .error e
          | .ok crypto =>
            match readResponseHeader p now.wall config.method requestSalt (inner, crypto) with
            | (.error e, _) => .error e
            | (.ok payload, (inner, crypto)) => .ok ⟨inner, crypto, config.method, [payload], none⟩

def readChunk (r : ShadowsocksReader) : Except ShadowsocksError Bytes × ShadowsocksReader :=
  match r.pendingChunks with
  | chunk :: rest => (.ok chunk, { r with pendingChunks := rest })
  | [] =>
    match readSizedChunk p r.method (r.inner, r.crypto) with
    | (result, (inner, crypto)) => (result, { r with inner, crypto })

/-- At most `n` calls of `read_chunk`, up to the first that fails. -/
def readChunks : Nat → ShadowsocksReader → List Bytes × Option ShadowsocksError
  | 0, _ => ([], none)
  | n + 1, r =>
    match r.readChunk p with
    | (.error e, _) => ([], some e)
    | (.ok chunk, r) => (chunk :: (readChunks n r).1, (readChunks n r).2)

/-- Calls of `read_chunk` until one fails: a call that does not takes a pending
chunk or some bytes. -/
def readToEnd (r : ShadowsocksReader) : List Bytes × Option ShadowsocksError :=
  r.readChunks p (r.pendingChunks.length + r.inner.bytes.length + 1)

end ShadowsocksReader

/-! ## The writer -/

structure Aead2022ResponseHeader where
  salt : Bytes
  requestSalt : Bytes
  deriving DecidableEq, Repr

/-- `inner` is what was written. -/
structure ShadowsocksWriter where
  inner : Bytes
  crypto : CryptoState
  method : Method
  aead2022ResponseHeader : Option Aead2022ResponseHeader

namespace ShadowsocksWriter

/-- `inner.write_all(&crypto.seal(plaintext)?)` -/
def put (w : ShadowsocksWriter) (plaintext : Bytes) : ShadowsocksWriter :=
  { w with inner := w.inner ++ w.crypto.seal_ p plaintext, crypto := w.crypto.next }

def newWithSalt (config : ServerConfig) (salt : Bytes) :
    Except ShadowsocksError ShadowsocksWriter :=
  if config.method.isAead2022 then .error .missingRequestSalt
  else if salt.length ≠ config.method.saltLen then
    .error (.invalidSaltLength config.method.saltLen salt.length)
  else
    match config.crypto p salt with
    | .error e => .error e
    | .ok crypto => .ok ⟨salt, crypto, config.method, none⟩

/-- lib.rs:1202-1233 -/
def newResponseWithSalt (config : ServerConfig) (requestSalt : Option Bytes) (salt : Bytes) :
    Except ShadowsocksError ShadowsocksWriter :=
  if config.method.isAead2022 = false then newWithSalt p config salt
  else
    match requestSalt with
    | none => .error .missingRequestSalt
    | some requestSalt =>
      if requestSalt.length ≠ config.method.saltLen then
        .error (.invalidSaltLength config.method.saltLen requestSalt.length)
      else if salt.length ≠ config.method.saltLen then
        .error (.invalidSaltLength config.method.saltLen salt.length)
      else
        match config.crypto p salt with
        | .error e => .error e
        | .ok crypto => .ok ⟨[], crypto, config.method, some ⟨salt, requestSalt⟩⟩

/-- `write_chunk` of a payload that fits into a chunk. -/
def writePiece (now : SystemTime) (w : ShadowsocksWriter) (payload : Bytes) :
    Except ShadowsocksError ShadowsocksWriter :=
  match w.aead2022ResponseHeader with
  | some header =>
    match encodeAead2022ResponseFixedHeader now header.requestSalt payload.length with
    | .error e => .error e
    | .ok fixedHeader =>
      let w := { w with inner := w.inner ++ header.salt, aead2022ResponseHeader := none }
      .ok ((w.put p fixedHeader).put p payload)
  | none => .ok ((w.put p (be16 payload.length)).put p payload)

def writePieces (now : SystemTime) :
    ShadowsocksWriter → List Bytes → Except ShadowsocksError ShadowsocksWriter
  | w, [] => .ok w
  | w, piece :: rest =>
    match w.writePiece p now piece with
    | .error e => .error e
    | .ok w => writePieces now w rest

/-- `payload.chunks(chunk_len)` of a payload that is too long. -/
def pieces (method : Method) (payload : Bytes) : List Bytes :=
  if method.maxChunkLen < payload.length then payload.toChunks method.maxChunkLen else [payload]

/-- The recursive calls are for pieces that fit. -/
def writeChunk (now : SystemTime) (w : ShadowsocksWriter) (payload : Bytes) :
    Except ShadowsocksError ShadowsocksWriter :=
  w.writePieces p now (pieces w.method payload)

/-- lib.rs:1246-1287 -/
def newRequestWithSalt (now : SystemTime) (config : ServerConfig) (address : Address) (port : UInt16)
    (initialPayload salt : Bytes) (padding : UInt8) : Except ShadowsocksError (ShadowsocksWriter × Bytes) :=
  if config.method.isAead2022 = false then
    match newWithSalt p config salt with
    | .error e => .error e
    | .ok w =>
      match w.writeChunk p now (writeRequestHeader address port ++ initialPayload) with
      | .error e => .error e
      | .ok w => .ok (w, [])
  else if salt.length ≠ config.method.saltLen then
    .error (.invalidSaltLength config.method.saltLen salt.length)
  else
    match config.crypto p salt with
    | .error e => .error e
    | .ok crypto =>
      match encodeAead2022RequestVariableHeader address port initialPayload padding with
      | .error e => .error e
      | .ok variableHeader =>
        match encodeAead2022RequestFixedHeader now variableHeader.length with
        | .error e => .error e
        | .ok fixedHeader =>
          let w : ShadowsocksWriter := ⟨salt, crypto, config.method, none⟩
          .ok ((w.put p fixedHeader).put p variableHeader, salt)

end ShadowsocksWriter

/-- A call of `write_chunk`, and when it is made. -/
structure Write where
  now : SystemTime
  payload : Bytes

def ShadowsocksWriter.writeChunks :
    ShadowsocksWriter → List Write → Except ShadowsocksError ShadowsocksWriter
  | w, [] => .ok w
  | w, write :: rest =>
    match w.writeChunk p write.now write.payload with
    | .error e => .error e
    | .ok w => writeChunks w rest

end

end Wrongsv.L2.Shadowsocks
