import Wrongsv.L2Machine.TlsConn

/-!
# AnyTLS accept and fallback

Behind the TLS handshake a client sends

  sha256(password)(32) padding_len(2) padding

and `accept_anytls` reads it off the TLS connection. When that fails, the
handler gives the TCP socket and a few buffered bytes to `anytls_fallback`,
which writes the bytes to a destination and then relays the socket. The TLS
connection is dropped.

Result: `acceptAnytls_error`, the three ways to fail.
-/
namespace Wrongsv.L2.AnyTlsAccept
open L2.TlsConn

/-- anytls/lib.rs:45-53 -/
inductive AnyTlsError where
  | io (text : String)
  | tls (text : String)
  | authFailed
  deriving DecidableEq, Repr

/-- The socket is the one of the connection that is returned with it. -/
structure AnyTlsAcceptError where
  error : AnyTlsError
  bufferedData : Bytes
  deriving DecidableEq, Repr

def tlsEof : AnyTlsError := .io "TLS EOF"

/-- anytls/auth.rs:4-11 -/
def verifyPasswordHash (received expected : Bytes) : Bool :=
  (received.zip expected).foldl (fun acc (r, e) => acc ||| (r ^^^ e)) 0 == 0

/-- One byte at a time. -/
def consumePadding : Nat → Conn → Except AnyTlsAcceptError Unit × Conn
  | 0, c => (.ok (), c)
  | n + 1, c =>
    match c.readExact 1 with
    | (.error _, c) => (.error ⟨tlsEof, []⟩, c)
    | (.ok _, c) => consumePadding n c

/-- Behind the handshake. `header` is an array of 34 bytes, zero where nothing
was read.
anytls/lib.rs:218-295 -/
def acceptAnytls (passwordSha256 : { b : Bytes // b.length = 32 }) (c : Conn) :
    Except AnyTlsAcceptError Unit × Conn :=
  match c.readExact 34 with
  | (.error got, c) => (.error ⟨tlsEof, got ++ List.replicate (34 - got.length) 0⟩, c)
  | (.ok header, c) =>
    if verifyPasswordHash (header.take 32) passwordSha256.val = false then (.error ⟨.authFailed, header⟩, c)
    else consumePadding (u16At header 32) c

/-- The raw bytes that the relay thread copies; it ends with the stream or with
any error, and the read timeout of the handshake is still set. -/
def relayedWire : List Pull → Bytes
  | [] => []
  | .wouldBlock :: _ => []
  | .data wire _ :: socket => wire.val ++ relayedWire socket

/-- What the destination receives from the client's side.
anytls/lib.rs:416-466 -/
def anytlsFallback (e : AnyTlsAcceptError) (c : Conn) : Bytes :=
  e.bufferedData ++ relayedWire c.socket

/-! ## The failures -/

section
variable {hash : { b : Bytes // b.length = 32 }} {c c' : Conn}

/-- Padding that ends early leaves nothing: not the bytes read, and nothing to read. -/
theorem consumePadding_error (n : Nat) : ∀ {c c' : Conn} {e : AnyTlsAcceptError},
    consumePadding n c = (.error e, c') → e = ⟨tlsEof, []⟩ ∧ c' = ⟨[], []⟩ := by
  induction n with
  | zero => intro c c' e h; cases h
  | succ n ih =>
    intro c c' e h
    rw [consumePadding] at h
    rcases hr : c.readExact 1 with ⟨got | byte, d⟩ <;> rw [hr] at h
    · cases h
      exact ⟨rfl, (readExact_error hr).2.2⟩
    · exact ih h

/-- The pulls behind the one that brings the last of `n` bytes. -/
def behind (n : Nat) : List Pull → List Pull
  | [] => []
  | pull :: socket =>
    if n = 0 then pull :: socket
    else match pull with
      | .wouldBlock => behind n socket
      | .data _ p => behind (n - p.length) socket

theorem behind_zero (socket : List Pull) : behind 0 socket = socket := by
  cases socket with
  | nil => rfl
  | cons pull socket => exact if_pos rfl

theorem readExact_socket {want : Nat} {bytes : Bytes} (h : c.readExact want = (.ok bytes, c')) :
    c'.socket = behind (want - c.plaintext.length) c.socket := by
  have hgo : ∀ got plaintext socket, readExact.go want got plaintext socket = (.ok bytes, c') →
      c'.socket = behind (want - got.length - plaintext.length) socket := by
    intro got plaintext socket h
    fun_induction readExact.go want got plaintext socket with
    | case1 socket got plaintext hle =>
      cases h
      rw [Nat.sub_eq_zero_of_le hle, behind_zero]
    | case2 => cases h
    | case3 got plaintext hle socket ih =>
      rw [ih h, behind, if_neg (by omega), List.length_append, List.length_nil, Nat.sub_zero, Nat.sub_sub]
    | case4 got plaintext hle wire p socket ih =>
      rw [ih h, behind, if_neg (by omega), List.length_append, ← Nat.sub_sub want]
  exact hgo [] c.plaintext c.socket h

/-- **The three ways to fail**: too few bytes, another hash, or too little
padding. -/
theorem acceptAnytls_error {e : AnyTlsAcceptError} (h : acceptAnytls hash c = (.error e, c')) :
    (e = ⟨tlsEof, c.stream ++ List.replicate (34 - c.stream.length) 0⟩ ∧ c.stream.length < 34 ∧ c' = ⟨[], []⟩) ∨
      (verifyPasswordHash (c.stream.take 32) hash.val = false ∧ e.bufferedData.length = 34 ∧
        e.bufferedData ++ c'.stream = c.stream ∧ c'.socket = behind (34 - c.plaintext.length) c.socket) ∨
      (e = ⟨tlsEof, []⟩ ∧ verifyPasswordHash (c.stream.take 32) hash.val = true ∧ 34 ≤
        c.stream.length ∧ c' = ⟨[], []⟩) := by
  unfold acceptAnytls at h
  cases hr : c.readExact 34 with
  | mk r d =>
    rw [hr] at h
    cases r with
    | error got =>
      obtain ⟨rfl, hlt, hd⟩ := readExact_error hr
      cases h
      exact .inl ⟨rfl, hlt, hd⟩
    | ok header =>
      obtain ⟨hlen, hbytes⟩ := readExact_ok hr
      have hhash : header.take 32 = c.stream.take 32 := by
        rw [← hbytes, List.take_append_of_le_length (by omega)]
      simp only [hhash] at h
      split at h
      · rename_i hwrong
        cases h
        exact .inr (.inl ⟨hwrong, hlen, hbytes, readExact_socket hr⟩)
      · rename_i hright
        obtain ⟨he, hc⟩ := consumePadding_error _ h
        refine .inr (.inr ⟨he, Bool.eq_true_of_not_eq_false hright, ?_, hc⟩)
        rw [← hbytes, List.length_append]
        omega

end

end Wrongsv.L2.AnyTlsAccept
