import Wrongsv.Core.Socket
import Wrongsv.L2Machine.Reality.Auth

/-!
# REALITY accept

`accept_reality` reads the client's first record off the raw socket before any
TLS library sees it. It reads into a buffer of 4096 bytes until the record's
header is there, then what is missing of the record, and cuts the buffer to
the record. The bytes go on in one of two ways: in front of the socket for
rustls (`BufferedStream`), or as `buffered_data` to `spider_fallback`, which
writes them to the real destination and relays the socket behind them.

The certificate, the rustls configuration and the connection made from them
are one parameter (`setup`), which fails or not for a key.

Results, beside `acceptReality_stream`:
* `BufferedStream.read_contents`: behind `accept_reality`, rustls reads the
  buffer and then the socket.
* `relayed_eq_iff`: `spider_fallback` sends what the socket gives up to its first
  error.
-/
namespace Wrongsv.L2.Reality
open Checked L1.ClientHello List

/-- reality/lib.rs:46-50 -/
structure RealityAcceptError where
  error : RealityError
  stream : Socket String
  bufferedData : Bytes
  deriving DecidableEq, Repr

/-- reality/tls.rs:90-94 -/
structure BufferedStream where
  inner : Socket String
  buffer : Bytes
  pos : Nat
  deriving DecidableEq, Repr

/-- `{:02x?}` of a slice. -/
def hexList (b : Bytes) : String := "[" ++ String.intercalate ", " (b.map hex02) ++ "]"

/-- The loop for the record header, with the bytes in the buffer so far. A read
that leaves a part of its segment has filled the buffer. -/
def readHeader (buf : Bytes) (stream : Socket String) :
    Except RealityAcceptError (Bytes × Socket String) :=
  if 5 ≤ buf.length then .ok (buf, stream)
  else match stream with
    | [] => .error ⟨.tlsParse ("EOF after " ++ toString buf.length ++ " bytes: " ++ hexList buf), [], buf⟩
    | .failed e :: stream =>
      .error ⟨.tlsParse ("read error after " ++ toString buf.length ++ " bytes: " ++ e), stream, buf⟩
    | .segment c :: stream =>
      if 4096 - buf.length < c.val.length then
        .ok (buf ++ c.val.take (4096 - buf.length), Socket.rest (4096 - buf.length) c stream)
      else readHeader (buf ++ c.val) stream

def readExactError : Option String → String
  | none => "failed to fill whole buffer"
  | some e => e

/-- Parsing, authentication and setup on the buffered record. -/
def acceptRecord (p : Primitives) (config : RealityConfig) (now : Nat)
    (setup : Bytes32 → Except RealityError Unit) (buf : Bytes) (stream : Socket String) :
    Checked RealityAcceptError BufferedStream :=
  match authenticateHello p config now buf with
  | none => panicked
  | some (.error e) => throw ⟨e, stream, buf⟩
  | some (.ok authKey) =>
    match setup authKey with
    | .error e => throw ⟨e, stream, buf⟩
    | .ok () => pure ⟨stream, buf, 0⟩

/-- Nothing is read when the buffer has the whole record already; bytes behind
it are cut off by `buf.truncate(total)`.
reality/tls.rs:201-374 -/
def acceptReality (p : Primitives) (config : RealityConfig) (now : Nat)
    (setup : Bytes32 → Except RealityError Unit) (stream : Socket String) :
    Checked RealityAcceptError BufferedStream :=
  match readHeader [] stream with
  | .error e => throw e
  | .ok (buf, stream) =>
    let recordLen := u16At buf 3
    if recordLen > 65531 then
      throw ⟨.tlsParse ("TLS record too large: " ++ toString recordLen), stream, buf⟩
    else
      let total := 5 + recordLen
      match stream.readExact (total - buf.length) with
      | (.error (e, _), stream) =>
        throw ⟨.tlsParse ("read TLS record body: " ++ readExactError e), stream, buf⟩
      | (.ok body, stream) => acceptRecord p config now setup ((buf ++ body).take total) stream

/-! ## Behind the accept -/

def BufferedStream.read (size : Nat) (s : BufferedStream) : Except String Bytes × BufferedStream :=
  if s.pos < s.buffer.length then
    let n := min (s.buffer.length - s.pos) size
    (.ok ((s.buffer.drop s.pos).take n), { s with pos := s.pos + n })
  else
    match s.inner.read size with
    | (r, inner) => (r, { s with inner })

def BufferedStream.contents (s : BufferedStream) : Bytes := s.buffer.drop s.pos ++ s.inner.pending

/-- The uplink thread of `spider_fallback`: it ends with the stream or with any
error, a timeout too: that of `accept_reality` is still set if it failed early. The segments are copied 8192 bytes at a time. -/
def relayed : Socket String → Bytes
  | [] => []
  | .failed _ :: _ => []
  | .segment c :: stream => c.val ++ relayed stream

/-- What the destination receives from the client's side. -/
def forwarded (e : RealityAcceptError) : Bytes := e.bufferedData ++ relayed e.stream

theorem BufferedStream.read_contents {size : Nat} {s s' : BufferedStream} {bytes : Bytes}
    (h : s.read size = (.ok bytes, s')) : bytes ++ s'.contents = s.contents := by
  unfold BufferedStream.read at h
  split at h
  · cases h
    unfold BufferedStream.contents
    rw [← append_assoc, ← drop_drop, take_append_drop]
  · rename_i hpos
    have hempty : s.buffer.drop s.pos = [] := drop_eq_nil_of_le (Nat.le_of_not_lt hpos)
    cases hr : s.inner.read size with
    | mk r inner =>
      rw [hr] at h
      cases h
      unfold BufferedStream.contents
      rw [hempty, nil_append, nil_append]
      exact Socket.read_ok hr

/-- A read fails and the client has sent more. -/
def Interrupted (s : Socket String) : Prop :=
  ∃ before err after, s = before ++ .failed err :: after ∧ Socket.pending after ≠ []

theorem relayed_length (s : Socket String) : (relayed s).length ≤ s.pending.length := by
  induction s with
  | nil => exact Nat.le_refl _
  | cons a s ih =>
    cases a with
    | failed err => exact Nat.zero_le _
    | segment c =>
      simp only [relayed, Socket.pending, length_append]
      omega

theorem relayed_eq_iff (s : Socket String) : relayed s = s.pending ↔ ¬Interrupted s := by
  induction s with
  | nil =>
    refine iff_of_true rfl ?_
    rintro ⟨before, err, after, h, -⟩
    exact absurd h.symm (append_ne_nil_of_right_ne_nil before (cons_ne_nil _ _))
  | cons a s ih =>
    cases a with
    | failed err =>
      constructor
      · rintro h ⟨before, err', after, hs, hmore⟩
        have hnil : Socket.pending s = [] := h.symm
        cases before with
        | nil => cases hs; exact hmore hnil
        | cons b before =>
          rw [cons_append] at hs
          rw [(List.cons.inj hs).2, Socket.pending_append] at hnil
          exact hmore (append_eq_nil_iff.mp hnil).2
      · intro h
        by_contra hne
        exact h ⟨[], err, s, rfl, fun hnil => hne hnil.symm⟩
    | segment c =>
      show c.val ++ relayed s = c.val ++ Socket.pending s ↔ _
      rw [append_cancel_left_eq, ih, not_iff_not]
      constructor
      · rintro ⟨before, err, after, rfl, hmore⟩
        exact ⟨.segment c :: before, err, after, rfl, hmore⟩
      · rintro ⟨before, err, after, hs, hmore⟩
        cases before with
        | nil => cases hs
        | cons b before =>
          cases hs
          exact ⟨before, err, after, rfl, hmore⟩

/-! ## The client's bytes -/

/-- What is handed on and what can still be read. -/
def handedOn : Except RealityAcceptError BufferedStream → Bytes × Socket String
  | .ok s => (s.buffer.drop s.pos, s.inner)
  | .error e => (e.bufferedData, e.stream)

/-- The bytes that are neither handed on nor left in the socket: those behind
the record in the buffer, or those that were read of a record that is never
complete. -/
def dropped (stream : Socket String) : Bytes :=
  match readHeader [] stream with
  | .error _ => []
  | .ok (buf, stream) =>
    if u16At buf 3 > 65531 then []
    else match stream.readExact (5 + u16At buf 3 - buf.length) with
      | (.error (_, taken), _) => taken
      | (.ok body, _) => (buf ++ body).drop (5 + u16At buf 3)

/-- The arrivals behind those that `accept_reality` takes. -/
def unread (stream : Socket String) : Socket String :=
  match readHeader [] stream with
  | .error e => e.stream
  | .ok (buf, stream) =>
    if u16At buf 3 > 65531 then stream else (stream.readExact (5 + u16At buf 3 - buf.length)).2

/-- The loop for the header keeps the bytes, whether it succeeds or not. -/
theorem readHeader_bytes (stream : Socket String) : ∀ buf : Bytes,
    (match readHeader buf stream with
      | .ok (got, stream') => got ++ stream'.pending
      | .error e => e.bufferedData ++ e.stream.pending) = buf ++ stream.pending := by
  induction stream with
  | nil => grind [readHeader]
  | cons a stream ih =>
    intro buf
    unfold readHeader
    by_cases hlong : 5 ≤ buf.length
    · rw [if_pos hlong]
    · rw [if_neg hlong]
      cases a with
      | failed e => rfl
      | segment c =>
        simp only
        by_cases hfull : 4096 - buf.length < c.val.length
        · rw [if_pos hfull]
          simp only [Socket.pending_rest, append_assoc]
          rw [← append_assoc (c.val.take _), take_append_drop]
          rfl
        · rw [if_neg hfull, ih, append_assoc]
          rfl

theorem acceptRecord_handedOn (p : Primitives) (config : RealityConfig) (now : Nat)
    (setup : Bytes32 → Except RealityError Unit) (buf : Bytes) (stream : Socket String) :
    ∃ r, acceptRecord p config now setup buf stream = some r ∧ handedOn r = (buf, stream) := by
  have hsafe : Safe (authenticateHello p config now buf) (fun _ => True) :=
    safe_bind (safe_parseClientHello buf) fun parsed _ => (safe_authenticate p config now parsed).mono fun _ _ => trivial
  obtain ⟨auth, hauth, -⟩ := hsafe
  unfold acceptRecord
  rw [hauth]
  cases auth with
  | error e => exact ⟨.error ⟨e, stream, buf⟩, rfl, rfl⟩
  | ok authKey =>
    cases hset : setup authKey with
    | error e => exact ⟨.error ⟨e, stream, buf⟩, by simp only [hset]; rfl, rfl⟩
    | ok u => exact ⟨.ok ⟨stream, buf, 0⟩, by simp only [hset]; rfl, rfl⟩

/-- **Where the client's bytes go.** For every outcome, the stream is what is
handed on, then the dropped bytes, then what is still in the socket. -/
theorem acceptReality_stream (p : Primitives) (config : RealityConfig) (now : Nat)
    (setup : Bytes32 → Except RealityError Unit) (stream : Socket String) :
    ∃ r, acceptReality p config now setup stream = some r ∧ (handedOn r).2 = unread stream ∧
      (handedOn r).1 ++ (dropped stream ++ (unread stream).pending) = stream.pending := by
  have hheader := readHeader_bytes stream []
  rw [nil_append] at hheader
  unfold acceptReality dropped unread
  cases hh : readHeader [] stream with
  | error e =>
    rw [hh] at hheader
    exact ⟨.error e, rfl, rfl, hheader⟩
  | ok q =>
    obtain ⟨buf, stream'⟩ := q
    rw [hh] at hheader
    simp only at hheader ⊢
    by_cases hlarge : u16At buf 3 > 65531
    · rw [if_pos hlarge, if_pos hlarge, if_pos hlarge]
      exact ⟨.error _, rfl, rfl, hheader⟩
    · rw [if_neg hlarge, if_neg hlarge, if_neg hlarge]
      cases hbody : stream'.readExact (5 + u16At buf 3 - buf.length) with
      | mk r stream'' =>
        cases r with
        | error f =>
          refine ⟨.error _, rfl, rfl, ?_⟩
          show buf ++ (f.2 ++ stream''.pending) = stream.pending
          rw [Socket.readExact_error hbody, hheader]
        | ok body =>
          obtain ⟨res, hres, hhanded⟩ := acceptRecord_handedOn p config now setup
            ((buf ++ body).take (5 + u16At buf 3)) stream''
          refine ⟨res, hres, by rw [hhanded], ?_⟩
          rw [hhanded, ← append_assoc, take_append_drop, append_assoc, (Socket.readExact_ok hbody).2, hheader]

end Wrongsv.L2.Reality
