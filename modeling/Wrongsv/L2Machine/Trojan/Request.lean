import Wrongsv.Core.Incremental
import Wrongsv.L1Encoding.VlessHeader

/-!
# Trojan request

The server's half of the Trojan handshake, inside TLS:

  hash(56, hex) CRLF command(1) type(1) address port(2) CRLF payload

`read_request` runs `parse_request` on all bytes received so far, before every read of up to
1024 bytes. The hash is the first entry's that matches up to the case of the received
digits. A byte that is no hex digit rejects the request as soon as it is there. 320 bytes
always give an answer, so that the limit of 8192 bytes is out of reach.

Results: `stable_requestHead`, `within_requestHead`, `request_chunking`.
-/
namespace Wrongsv.L2.Trojan
open Wrongsv.Parser
open L1.VlessHeader (Address)

def passwordHashHexLen : Nat := 56
def maxRequestHeadLen : Nat := 8192

/-- server/trojan.rs:21-24 -/
structure TrojanPasswordEntry where
  hash : { b : Bytes // b.length = passwordHashHexLen }
  email : Option String
  deriving DecidableEq, Repr

inductive TrojanCommand where
  | connect
  | udpAssociate
  deriving DecidableEq, Repr

inductive TrojanError where
  | io (e : String)
  | tls (e : String)
  | invalidRequest
  | authFailed
  | unsupportedCommand (byte : UInt8)
  | requestHeadTooLarge
  | unexpectedEof
  deriving DecidableEq, Repr

/-- `TrojanRequest` without its `initial_data`. -/
structure RequestHead where
  command : TrojanCommand
  address : Address
  port : Nat
  email : Option String
  deriving DecidableEq, Repr

structure TrojanRequest extends RequestHead where
  initialData : Bytes
  deriving DecidableEq, Repr

structure TrojanAcceptError where
  error : TrojanError
  bufferedData : Bytes
  deriving DecidableEq, Repr

/-! ## The parser -/

def crlf : Bytes := [0x0d, 0x0a]

def TrojanCommand.fromByte (byte : UInt8) : Parser (Stop TrojanError) TrojanCommand :=
  if byte = 0x01 then pure .connect
  else if byte = 0x03 then pure .udpAssociate
  else throw (.rejected (.unsupportedCommand byte))

def isAsciiHexdigit (b : UInt8) : Bool :=
  (0x30 ≤ b && b ≤ 0x39) || (0x41 ≤ b && b ≤ 0x46) || (0x61 ≤ b && b ≤ 0x66)

def toAsciiLowercase (b : UInt8) : UInt8 :=
  if 0x41 ≤ b ∧ b ≤ 0x5a then b + 0x20 else b

/-- server/trojan.rs:344-350 -/
def hashEqIgnoreAsciiCase (received expected : Bytes) : Bool :=
  (received.zip expected).foldl (fun acc (r, e) => acc ||| (toAsciiLowercase r ^^^ e)) 0 == 0

/-- server/trojan.rs:271-316 -/
def parseSocks5Address (addressType : UInt8) : Parser (Stop TrojanError) Address :=
  if addressType = 0x01 then do
    let octets ← readExact .incomplete 4
    return .ipv4 octets
  else if addressType = 0x03 then do
    let len ← readU8 .incomplete
    if len = 0 then throw (.rejected .invalidRequest)
    else
      let domain ← readExact .incomplete len.toNat
      match String.fromUTF8? ⟨domain.val.toArray⟩ with
      | some name => return .domain name
      | none => throw (.rejected .invalidRequest)
  else if addressType = 0x04 then do
    let octets ← readExact .incomplete 16
    return .ipv6 octets
  else throw (.rejected .invalidRequest)

/-- The port and the line's end. -/
def parsePort (command : TrojanCommand) : Parser (Stop TrojanError) Nat := do
  let tail ← readExact .incomplete 4
  let port := u16At tail.val 0
  if port = 0 ∧ command = .connect then throw (.rejected .invalidRequest)
  else if tail.val.drop 2 ≠ crlf then throw (.rejected .invalidRequest)
  else return port

/-- `parse_request` up to the payload. Every `return Ok(None)` of the source is
a read that lacks bytes; the check of the digits comes before the first one. -/
def requestHead (passwords : List TrojanPasswordEntry) : Parser (Stop TrojanError) RequestHead := do
  let line ← readChecked isAsciiHexdigit .invalidRequest passwordHashHexLen (passwordHashHexLen + 2)
  if line.val.drop passwordHashHexLen ≠ crlf then throw (.rejected .invalidRequest)
  else
    match passwords.find? (fun entry => hashEqIgnoreAsciiCase (line.val.take passwordHashHexLen) entry.hash.val) with
    | none => throw (.rejected .authFailed)
    | some matched =>
      let types ← readExact .incomplete 2
      let command ← TrojanCommand.fromByte (types.val.getD 0 0)
      let address ← parseSocks5Address (types.val.getD 1 0)
      let port ← parsePort command
      return { command, address, port, email := matched.email }

/-- `none` is the source's `Ok(None)`: the request is not complete yet.
server/trojan.rs:164-216 -/
def parseRequest (data : Bytes) (passwords : List TrojanPasswordEntry) :
    Except TrojanError (Option TrojanRequest) :=
  match requestHead passwords data with
  | .ok (head, initialData) => .ok (some { head with initialData })
  | .error .incomplete => .ok none
  | .error (.rejected e) => .error e

/-! ## The loop -/

/-- How the client's stream ends: `Ok(0)`, or an error that is not retried. -/
inductive StreamEnd where
  | eof
  | failed (e : String)
  deriving DecidableEq, Repr

def StreamEnd.error : StreamEnd → TrojanError
  | .eof => .unexpectedEof
  | .failed e => .io e

/-- The result and the reads that were not made. A `WouldBlock` or `TimedOut`
is a pause and another read.
server/trojan.rs:114-162 -/
def readRequest (passwords : List TrojanPasswordEntry) (ending : StreamEnd) (pulls : List (ReadStep 1024)) :
    Except TrojanAcceptError TrojanRequest × List (ReadStep 1024) :=
  match awaitDecided (requestHead passwords) maxRequestHeadLen .requestHeadTooLarge ending.error [] pulls with
  | (.ok (head, initialData), unread) => (.ok { head with initialData }, unread)
  | (.error (error, bufferedData), unread) => (.error ⟨error, bufferedData⟩, unread)

/-! ## Answers are final -/

theorem stable_fromByte (byte : UInt8) : Stable (TrojanCommand.fromByte byte) :=
  stable_ite (stable_pure _) (stable_ite (stable_pure _) (stable_throw _))

theorem within_fromByte (byte : UInt8) : Within 0 (TrojanCommand.fromByte byte) :=
  within_ite (within_pure _) (within_ite (within_pure _) (within_reject 0 _))

theorem stable_parseSocks5Address (addressType : UInt8) :
    Stable (parseSocks5Address addressType) := by
  refine stable_ite (stable_bind (stable_readExact 4) fun _ => stable_pure _) ?_
  refine stable_ite ?_ (stable_ite (stable_bind (stable_readExact 16) fun _ => stable_pure _) (stable_throw _))
  refine stable_bind stable_readU8 fun len => stable_ite (stable_throw _) ?_
  grind [stable_bind, stable_readExact, stable_pure, stable_throw]

/-- The longest address is a domain of 255 bytes behind its length. -/
theorem within_parseSocks5Address (addressType : UInt8) :
    Within 256 (parseSocks5Address addressType) := by
  refine within_ite ((within_bind (within_readExact 4) fun _ => within_pure _).mono (by decide)) ?_
  refine within_ite ?_ (within_ite ((within_bind (within_readExact 16) fun _ => within_pure _).mono (by decide))
    (within_reject _ _))
  refine within_bind (n := 1) within_readU8 fun len => within_ite (within_reject 255 _) ?_
  have hlen : len.toNat + 0 ≤ 255 := by have := len.toNat_lt; omega
  refine (within_bind (within_readExact len.toNat) fun domain => ?_).mono hlen
  split
  · exact within_pure _
  · exact within_reject 0 _

theorem stable_parsePort (command : TrojanCommand) : Stable (parsePort command) :=
  stable_bind (stable_readExact 4) fun _ =>
    stable_ite (stable_throw _) (stable_ite (stable_throw _) (stable_pure _))

theorem within_parsePort (command : TrojanCommand) : Within 4 (parsePort command) :=
  within_bind (m := 0) (within_readExact 4) fun _ =>
    within_ite (within_reject 0 _) (within_ite (within_reject 0 _) (within_pure _))

variable (passwords : List TrojanPasswordEntry)

theorem stable_requestHead : Stable (requestHead passwords) := by
  refine stable_bind (stable_readChecked _ _ (Nat.le_add_right _ 2)) fun line =>
    stable_ite (stable_throw _) ?_
  split
  · exact stable_throw _
  refine stable_bind (stable_readExact 2) fun types => ?_
  refine stable_bind (stable_fromByte _) fun command => ?_
  refine stable_bind (stable_parseSocks5Address _) fun address => ?_
  exact stable_bind (stable_parsePort command) fun port => stable_pure _

theorem within_requestHead : Within 320 (requestHead passwords) := by
  refine within_bind (n := 58) (m := 262) (within_readChecked _ _ _ _) fun line =>
    within_ite (within_reject _ _) ?_
  split
  · exact within_reject _ _
  refine within_bind (n := 2) (m := 260) (within_readExact 2) fun types => ?_
  refine within_bind (n := 0) (m := 260) (within_fromByte _) fun command => ?_
  refine within_bind (n := 256) (m := 4) (within_parseSocks5Address _) fun address => ?_
  exact within_bind (n := 4) (m := 0) (within_parsePort command) fun port => within_pure _

/-! ## Every split -/

section
variable {passwords : List TrojanPasswordEntry} {data : Bytes}

theorem parseRequest_append_error {e : TrojanError} (h : parseRequest data passwords = .error e)
    (t : Bytes) : parseRequest (data ++ t) passwords = .error e := by
  unfold parseRequest at h ⊢
  split at h
  · cases h
  · cases h
  · rename_i e' hd
    cases h
    rw [(stable_requestHead passwords).rejects hd]

theorem parseRequest_append_some {request : TrojanRequest} (h : parseRequest data passwords = .ok (some request))
    (t : Bytes) : parseRequest (data ++ t) passwords =
      .ok (some { request with initialData := request.initialData ++ t }) := by
  unfold parseRequest at h ⊢
  split at h
  · rename_i head rest hd
    cases h
    rw [(stable_requestHead passwords).takes.append hd]
  · cases h
  · cases h

theorem parseRequest_long (h : maxRequestHeadLen ≤ data.length) :
    parseRequest data passwords ≠ .ok none := by
  have hdec := (within_requestHead passwords).decided (b := data) (Nat.le_trans (by decide) h)
  grind [parseRequest]

end

/-- `read_request`'s result for a stream about which `parse_request` says
`answer`; `unread` are the reads that were not made. -/
def Answered (ending : StreamEnd) (stream : Bytes) (answer : Except TrojanError (Option TrojanRequest))
    (result : Except TrojanAcceptError TrojanRequest) (unread : List (ReadStep 1024)) : Prop :=
  match answer with
  | .ok (some request) => ∃ received, result = .ok { request with initialData := received } ∧
      request.initialData = received ++ streamOf unread
  | .error error => ∃ received, result = .error ⟨error, received⟩ ∧ stream = received ++ streamOf unread
  | .ok none => result = .error ⟨ending.error, stream⟩ ∧ unread = []

theorem readRequest_answered (ending : StreamEnd)
    (pulls : List (ReadStep 1024)) :
    Answered ending (streamOf pulls) (parseRequest (streamOf pulls) passwords)
      (readRequest passwords ending pulls).1 (readRequest passwords ending pulls).2 := by
  have hloop := awaitDecided_spec (stable_requestHead passwords) (within_requestHead passwords)
    (show _ ≤ maxRequestHeadLen by decide) .requestHeadTooLarge ending.error pulls []
  rw [List.nil_append] at hloop
  unfold readRequest parseRequest
  cases hs : requestHead passwords (streamOf pulls) with
  | ok q =>
    rw [hs] at hloop
    obtain ⟨received, unread, hres, hrest⟩ := hloop
    rw [hres]
    exact ⟨received, rfl, hrest⟩
  | error s =>
    rw [hs] at hloop
    cases s with
    | rejected e =>
      obtain ⟨received, unread, hres, hstream⟩ := hloop
      rw [hres]
      exact ⟨received, rfl, hstream⟩
    | incomplete =>
      have hres : _ = _ := hloop
      rw [hres]
      exact ⟨rfl, rfl⟩

/-- **The reads do not matter.** For any password entries, `read_request` gives
for every cut of a stream what `parse_request` says about the stream: the same
user, command, address and port with a payload that is the first part of the
bytes behind the header; or the same error with all bytes read so far; the
bytes not yet read are the rest. Any answer of `parse_request` other than
"incomplete" stays when bytes are appended, and from 8192 bytes on there is
one. -/
theorem request_chunking (passwords : List TrojanPasswordEntry) :
    (∀ (ending : StreamEnd) (pulls : List (ReadStep 1024)),
      Answered ending (streamOf pulls) (parseRequest (streamOf pulls) passwords)
        (readRequest passwords ending pulls).1 (readRequest passwords ending pulls).2) ∧
    (∀ (data t : Bytes) (e : TrojanError), parseRequest data passwords = .error e →
      parseRequest (data ++ t) passwords = .error e) ∧
    (∀ (data t : Bytes) (request : TrojanRequest), parseRequest data passwords = .ok
      (some request) → parseRequest (data ++ t) passwords =
        .ok (some { request with initialData := request.initialData ++ t })) ∧
    (∀ data : Bytes, maxRequestHeadLen ≤ data.length → parseRequest data passwords ≠ .ok none) :=
  ⟨readRequest_answered passwords, fun _ t _ h => parseRequest_append_error h t,
    fun _ t _ h => parseRequest_append_some h t, fun _ h => parseRequest_long h⟩

-- a request whose last byte comes behind a pause, with the first payload byte
example :
    let entry : TrojanPasswordEntry := ⟨⟨List.replicate 56 0x61, rfl⟩, some "a@b"⟩
    readRequest [entry] .eof [
      .data ⟨List.replicate 56 0x41 ++ [0x0d, 0x0a, 1, 1, 127, 0, 0, 1, 0, 80, 0x0d], by decide⟩,
      .wouldBlock, .data ⟨[0x0a, 7], by decide⟩, .data ⟨[8], by decide⟩] =
    (.ok ⟨⟨.connect, .ipv4 ⟨[127, 0, 0, 1], rfl⟩, 80, some "a@b"⟩, [7]⟩, [.data ⟨[8], by decide⟩]) := by
  decide

end Wrongsv.L2.Trojan
