import Wrongsv.L2Machine.AnyTls.Accept

/-!
# The AnyTLS fallback is not transparent

Each of the three failures of the accept (anytls/lib.rs:244-294, 412-441) gives the
destination something else than what the client sent.

* Fewer than 34 bytes before the end: `header.to_vec()` is the whole array, so zeros
  are added.
* Another hash: what was decrypted behind the first 34 bytes is dropped with the TLS
  connection, and the relay goes on with TLS records from the raw socket.
* The stream ends inside the padding: `buffered_data` is empty, so all is lost.

Fix: return the bytes that were read, keep the TLS connection in the error, and relay
its plaintext.
-/
namespace Wrongsv.Bugs.AnyTlsFallback
open L2.TlsConn L2.AnyTlsAccept List

/-! ## The same records under another key -/

/-- Other bytes on the wire. -/
def recode (f : UInt8 → UInt8) : Pull → Pull
  | .data wire p => .data ⟨wire.val.map f, fun h => wire.property (map_eq_nil_iff.mp h)⟩ p
  | .wouldBlock => .wouldBlock

/-- The connection of a client that sends the same, where the records are other bytes. -/
def rekeyed (f : UInt8 → UInt8) (c : Conn) : Conn := ⟨c.plaintext, c.socket.map (recode f)⟩

section
variable (f : UInt8 → UInt8)

theorem stream_rekeyed (c : Conn) : (rekeyed f c).stream = c.stream := by
  have htoCome : ∀ socket, toCome (socket.map (recode f)) = toCome socket := by
    intro socket
    induction socket with
    | nil => rfl
    | cons pull socket ih => cases pull <;> simp only [map_cons, recode, toCome, ih]
  exact congrArg (c.plaintext ++ ·) (htoCome c.socket)

theorem readExact_rekeyed (want : Nat) (c : Conn) :
    (rekeyed f c).readExact want = ((c.readExact want).1, rekeyed f (c.readExact want).2) := by
  have hgo : ∀ got plaintext socket, readExact.go want got plaintext (socket.map (recode f)) =
      ((readExact.go want got plaintext socket).1, rekeyed f (readExact.go want got plaintext socket).2) := by
    intro got plaintext socket
    fun_induction readExact.go want got plaintext socket with
    | case1 socket got plaintext hle => rw [readExact.go.eq_def, if_pos hle]; rfl
    | case2 got plaintext hle => rw [map_nil, readExact.go.eq_def, if_neg hle]; rfl
    | case3 got plaintext hle socket ih => rw [map_cons, recode, readExact.go.eq_def, if_neg hle]; exact ih
    | case4 got plaintext hle wire p socket ih => rw [map_cons, recode, readExact.go.eq_def, if_neg hle]; exact ih
  exact hgo [] c.plaintext c.socket

theorem consumePadding_rekeyed (n : Nat) : ∀ c : Conn, consumePadding n (rekeyed f c) =
    ((consumePadding n c).1, rekeyed f (consumePadding n c).2) := by
  induction n with
  | zero => exact fun c => rfl
  | succ n ih =>
    intro c
    rw [consumePadding, consumePadding, readExact_rekeyed]
    rcases c.readExact 1 with ⟨got | byte, d⟩
    · rfl
    · exact ih d

/-- What `accept_anytls` does depends on the plaintext only. -/
theorem acceptAnytls_rekeyed (hash : { b : Bytes // b.length = 32 }) (c : Conn) :
    acceptAnytls hash (rekeyed f c) = ((acceptAnytls hash c).1, rekeyed f (acceptAnytls hash c).2) := by
  rw [acceptAnytls, acceptAnytls, readExact_rekeyed]
  rcases c.readExact 34 with ⟨got | header, d⟩
  · rfl
  · simp only
    split
    · rfl
    · exact consumePadding_rekeyed f _ d

end

/-- The destination receives the client's plaintext. -/
def Transparent (hash : { b : Bytes // b.length = 32 }) (c : Conn) : Prop :=
  ∃ e c', acceptAnytls hash c = (.error e, c') ∧ anytlsFallback e c' = c.stream

/-- Nothing comes next: the end, or a read that times out. -/
def Silent (socket : List Pull) : Prop := ∀ wire p more, socket ≠ .data wire p :: more

theorem relayedWire_silent {socket : List Pull} (h : Silent socket) (f : UInt8 → UInt8) :
    relayedWire (socket.map (recode f)) = [] := by
  cases socket with
  | nil => rfl
  | cons pull socket =>
    cases pull with
    | wouldBlock => rfl
    | data wire p => exact absurd rfl (h wire p socket)

/-- **What holds**, for every client that fails: the destination receives its plaintext,
whatever bytes the records are, if and only if the client sends 34 bytes that start with
another hash, and nothing behind the record that completes them. -/
theorem fallback_transparent_iff (hash : { b : Bytes // b.length = 32 }) (c c' : Conn)
    (e : AnyTlsAcceptError) (h : acceptAnytls hash c = (.error e, c')) :
    (∀ f, Transparent hash (rekeyed f c)) ↔ c.stream.length = 34 ∧
      verifyPasswordHash (c.stream.take 32) hash.val = false ∧
      Silent (behind (34 - c.plaintext.length) c.socket) := by
  have hiff : ∀ f, Transparent hash (rekeyed f c) ↔
      e.bufferedData ++ relayedWire (c'.socket.map (recode f)) = c.stream := by
    intro f
    unfold Transparent
    rw [acceptAnytls_rekeyed, h, stream_rekeyed]
    exact ⟨fun ⟨_, _, heq, hf⟩ => by cases heq; exact hf, fun hf => ⟨e, _, rfl, hf⟩⟩
  simp only [hiff]
  rcases acceptAnytls_error h with ⟨rfl, hlt, rfl⟩ | ⟨hwrong, hlen, hbytes, hsocket⟩ | ⟨rfl, hright, hle, rfl⟩
  · -- at least one zero is added
    refine iff_of_false (fun hall => ?_) (fun hr => by omega)
    have hlen := congrArg List.length (hall id)
    simp only [map_nil, length_append, length_replicate, relayedWire, length_nil] at hlen
    omega
  · rw [← hsocket]
    have hstream := congrArg List.length hbytes
    rw [length_append] at hstream
    constructor
    · intro hall
      have hrest : ∀ f, relayedWire (c'.socket.map (recode f)) = c'.stream := by
        intro f
        have := hall f
        rwa [← hbytes, append_cancel_left_eq] at this
      -- two keys give two first bytes
      have hsilent : Silent c'.socket := by
        intro wire p more hdata
        obtain ⟨b, w, hw⟩ := exists_cons_of_ne_nil wire.property
        have hboth := (hrest fun _ => 0).trans (hrest fun _ => 1).symm
        simp only [hdata, map_cons, recode, relayedWire, hw, cons_append, cons.injEq] at hboth
        exact absurd hboth.1 (by decide)
      have hnil := hrest id
      rw [relayedWire_silent hsilent id] at hnil
      rw [← hnil, length_nil] at hstream
      exact ⟨by omega, hwrong, hsilent⟩
    · rintro ⟨htotal, -, hsilent⟩ f
      have hnil : c'.stream = [] := length_eq_zero_iff.mp (by omega)
      rw [relayedWire_silent hsilent f, ← hbytes, hnil]
  · -- nothing is forwarded
    refine iff_of_false (fun hall => ?_) (fun hr => by rw [hright] at hr; cases hr.2.1)
    have hnil := hall id
    rw [← hnil] at hle
    simp only [map_nil, relayedWire, append_nil, length_nil] at hle
    omega

/-- The hash of the server in the examples. -/
def hash : { b : Bytes // b.length = 32 } := ⟨List.replicate 32 1, rfl⟩

/-- A client whose whole stream is a wrong hash and a length, in two records with a pause
between them. -/
theorem fallback_transparent_exact :
    let c : Conn := ⟨[], [.record (List.replicate 32 0), .wouldBlock, .record [0, 0]]⟩
    acceptAnytls hash c = (.error ⟨.authFailed, List.replicate 34 0⟩, ⟨[], []⟩) ∧ Transparent hash (rekeyed id c) :=
  ⟨by decide, (fallback_transparent_iff hash _ ⟨[], []⟩ ⟨.authFailed, List.replicate 34 0⟩ (by decide)).mpr
    ⟨by decide, by decide, fun _ _ _ h => by cases h⟩ id⟩

/-- What the destination receives, if the client fails. -/
def destination (c : Conn) : Option Bytes :=
  match acceptAnytls hash c with
  | (.error e, c) => some (anytlsFallback e c)
  | (.ok (), _) => none

/-- **Counterexample**: one byte becomes 34; of a wrong hash, a length and two
more bytes in two records, the destination receives the first 34 and the second
record's ciphertext; of a right hash with one byte of padding out of two it
receives nothing. -/
theorem fallback_not_transparent :
    destination ⟨[], [.record [5]]⟩ = some (5 :: List.replicate 33 0) ∧
    destination ⟨[], [.record (List.replicate 34 0 ++ [6]), .data ⟨[0x17, 0x03], by decide⟩ [7]]⟩ =
      some (List.replicate 34 0 ++ [0x17, 0x03]) ∧
    destination ⟨[], [.record (List.replicate 32 1 ++ [0, 2, 9])]⟩ = some [] := by
  decide +kernel

end Wrongsv.Bugs.AnyTlsFallback
