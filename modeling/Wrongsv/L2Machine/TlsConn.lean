import Wrongsv.Core

/-!
# The reading side of a TLS connection

rustls as the server sees it: a FIFO of decrypted bytes (`plaintext`). One
`read_tls` with `process_new_packets` takes some bytes off the socket and adds
what the records they complete decrypt to, which may be nothing. The handlers
take bytes out of the FIFO in order (`reader().read`), and mostly turn to the
socket only when it is empty.

`wire` are the bytes of the socket themselves. They matter to code that goes
on with the raw socket.

Results: `readExact_ok`, `readExact_error`: `tls_read_exact` takes the next bytes of the
plaintext, or all that is left of it when there are fewer.
-/
namespace Wrongsv.L2.TlsConn
open List

/-- One `read_tls`: bytes off the socket and what they complete, or nothing for now. -/
inductive Pull where
  | data (wire : { w : Bytes // w ≠ [] }) (plaintext : Bytes)
  | wouldBlock
  deriving DecidableEq, Repr

/-- A record whose ciphertext does not matter. -/
def Pull.record (plaintext : Bytes) : Pull := .data ⟨[0x17], by decide⟩ plaintext

/-- The end of `socket` is the end of the connection. -/
structure Conn where
  plaintext : Bytes
  socket : List Pull
  deriving DecidableEq, Repr

/-- What the records still to come decrypt to. -/
def toCome : List Pull → Bytes
  | [] => []
  | .data _ p :: socket => p ++ toCome socket
  | .wouldBlock :: socket => toCome socket

/-- The client's plaintext that was not read yet. -/
def Conn.stream (c : Conn) : Bytes := c.plaintext ++ toCome c.socket

/-! ## An exact number of bytes -/

/-- With `got` already in the buffer. A `WouldBlock` of the socket is a pause.
anytls/lib.rs:311-363 -/
def readExact.go (want : Nat) (got plaintext : Bytes) (socket : List Pull) :
    Except Bytes Bytes × Conn :=
  if want - got.length ≤ plaintext.length then
    (.ok (got ++ plaintext.take (want - got.length)), ⟨plaintext.drop (want - got.length), socket⟩)
  else
    match socket with
    | [] => (.error (got ++ plaintext), ⟨[], []⟩)
    | .wouldBlock :: socket => go want (got ++ plaintext) [] socket
    | .data _ p :: socket => go want (got ++ plaintext) p socket

/-- `tls_read_exact`: the bytes, or those read before the end of the stream. -/
def Conn.readExact (want : Nat) (c : Conn) : Except Bytes Bytes × Conn :=
  readExact.go want [] c.plaintext c.socket

theorem readExact_go_spec (want : Nat) (socket : List Pull) (got plaintext : Bytes) (hgot : got.length ≤ want) :
    (∃ bytes c, readExact.go want got plaintext socket = (.ok bytes, c) ∧ bytes.length = want ∧
        bytes ++ c.stream = got ++ (plaintext ++ toCome socket)) ∨
      (readExact.go want got plaintext socket = (.error (got ++ (plaintext ++ toCome socket)),
        ⟨[], []⟩) ∧ (got ++ (plaintext ++ toCome socket)).length < want) := by
  fun_induction readExact.go want got plaintext socket with
  | case1 socket got plaintext hle =>
    refine .inl ⟨_, _, rfl, ?_, ?_⟩
    · rw [length_append, length_take]
      omega
    · rw [Conn.stream, append_assoc, ← append_assoc (plaintext.take _), take_append_drop]
  | case2 got plaintext hle =>
    rw [toCome, append_nil, length_append]
    exact .inr ⟨rfl, by omega⟩
  | case3 got plaintext hle socket ih =>
    have h := ih (by rw [length_append]; omega)
    rwa [append_assoc, nil_append] at h
  | case4 got plaintext hle wire p socket ih =>
    have h := ih (by rw [length_append]; omega)
    rwa [append_assoc] at h

section
variable {want : Nat} {c c' : Conn} {bytes : Bytes}

theorem readExact_ok (h : c.readExact want = (.ok bytes, c')) :
    bytes.length = want ∧ bytes ++ c'.stream = c.stream := by
  rcases readExact_go_spec want c.socket [] c.plaintext (Nat.zero_le _) with ⟨b, d, hgo, hlen, hbytes⟩ | ⟨hgo, -⟩
  · cases h.symm.trans hgo
    exact ⟨hlen, hbytes⟩
  · cases h.symm.trans hgo

/-- At the end of the stream everything was read, and it is too short. -/
theorem readExact_error (h : c.readExact want = (.error bytes, c')) :
    bytes = c.stream ∧ c.stream.length < want ∧ c' = ⟨[], []⟩ := by
  rcases readExact_go_spec want c.socket [] c.plaintext (Nat.zero_le _) with ⟨b, d, hgo, -⟩ | ⟨hgo, hlt⟩
  · cases h.symm.trans hgo
  · cases h.symm.trans hgo
    exact ⟨rfl, hlt, rfl⟩

end

/-! ## Reads until there is an answer -/

/-- Blocks of decrypted bytes are added to `data` until `decide` has an answer;
the bytes of the blocks that were not read stay. -/
def feed {α : Type} (decide : Bytes → Option α) (data : Bytes) (blocks : List Bytes) :
    (α × Bytes × Bytes) ⊕ Bytes :=
  match decide data with
  | some a => .inl (a, data, blocks.flatten)
  | none =>
    match blocks with
    | [] => .inr data
    | block :: blocks => feed decide (data ++ block) blocks

/-- A loop of `read` into a buffer of `size` bytes, until `decide` has an answer
for the bytes read so far. The socket is pulled when there are no decrypted
bytes. Returned are the answer, the bytes read and the connection; at the end
of the stream, the bytes read. -/
def await.go {α : Type} (size : Nat) (decide : Bytes → Option α) (data plaintext : Bytes)
    (socket : List Pull) : Except Bytes (α × Bytes × Conn) :=
  match feed decide data (plaintext.toChunks size) with
  | .inl (a, data, rest) => .ok (a, data, ⟨rest, socket⟩)
  | .inr data =>
    match socket with
    | [] => .error data
    | .wouldBlock :: socket => go size decide data [] socket
    | .data _ p :: socket => go size decide data p socket

def Conn.await {α : Type} (size : Nat) (decide : Bytes → Option α) (c : Conn) :
    Except Bytes (α × Bytes × Conn) :=
  await.go size decide [] c.plaintext c.socket

section
variable {α : Type} {decide : Bytes → Option α}

theorem feed_append (front later : List Bytes) : ∀ data : Bytes, feed decide data (front ++ later) =
    match feed decide data front with
    | .inl (a, data, rest) => .inl (a, data, rest ++ later.flatten)
    | .inr data => feed decide data later := by
  induction front with
  | nil =>
    intro data
    rw [nil_append]
    cases hdata : decide data with
    | some a =>
      rw [feed.eq_def _ _ [], feed.eq_def, hdata]
      rfl
    | none => rw [feed.eq_def _ _ [], hdata]
  | cons block front ih =>
    intro data
    rw [cons_append, feed.eq_def, feed.eq_def _ _ (block :: front)]
    cases hdata : decide data with
    | some a => simp only [flatten_cons, flatten_append, append_assoc]
    | none => exact ih _

end

end Wrongsv.L2.TlsConn
