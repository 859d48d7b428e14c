import Wrongsv.L2Machine.HttpUpgradeAccept

/-!
# HTTPUpgrade: a long head is refused when data comes with its last byte

The readers of the head add whole reads of up to 4096 bytes to their buffer and stop with
the read that brings the empty line; a head of up to 16384 bytes gets that far
(server/handler/tls.rs:93-104, httpupgrade.rs:309-319). `parse_httpupgrade_request` then
compares the same limit with the whole buffer (httpupgrade.rs:95-97), which has the
client's first bytes behind the head in it.

Spec clause: a head that is accepted alone is accepted with any bytes behind it and for
every cut into reads, on a plain and on a TLS connection, and early data, pipelined bytes
and unread bytes are always the early data and those bytes.

Fix: compare the limit with the position of the empty line.
-/
namespace Wrongsv.Bugs.HttpUpgradeSegments
open L1.HttpUpgrade L1.HttpUpgradeHead List
open L2.TlsConn L2.HttpUpgradeAccept

section
variable {base64 : Base64} {config : HttpUpgradeConfig} (h : AcceptedHead base64 config) (t : Bytes)

/-- The head is accepted, and nothing behind it is lost or changed. -/
def Kept (r : Except Refusal Upgraded) : Prop :=
  ∃ initial rest, r = .ok (h.request, initial, rest) ∧ initial ++ rest = h.early ++ t

/-- The reads of a plain connection: some bytes, no more than the buffer holds. -/
def PlainSame : Prop :=
  ∀ pieces : List Bytes, (∀ p ∈ pieces, p ≠ [] ∧ p.length ≤ 4096) → pieces.flatten = h.bytes ++ t →
    Kept h t (acceptPlain base64 config pieces)

/-- The records of a TLS connection, in pulls of any size; the handler reads at
most 4096 decrypted bytes at a time. The socket has no read timeout. -/
def TlsSame : Prop :=
  ∀ c : Conn, Pull.wouldBlock ∉ c.socket → c.stream = h.bytes ++ t → Kept h t (acceptTls base64 config c)

/-- The limit has room for what one read can bring behind the head. -/
def Fits : Prop := h.bytes.length + min t.length 4095 ≤ maxHeaderSize

/-! ## Where there is room -/

theorem kept_of_fits (hfits : Fits h t) {p rest : Bytes} (ht : p ++ rest = t)
    (hp : p.length < 4096) : Kept h t (upgraded base64 config (h.bytes ++ p) rest) := by
  have hroom : ¬ maxHeaderSize < (h.bytes ++ p).length := by
    grind [Fits]
  refine ⟨h.early ++ p, rest, ?_, ?_⟩
  · rw [upgraded_append, if_neg hroom]
  · rw [append_assoc, ht]

/-! ## Where there is not -/

/-- The last byte of the head. -/
def lastByte : Bytes := h.bytes.drop (h.bytes.length - 1)

def allButLast : Bytes := h.bytes.take (h.bytes.length - 1)

theorem allButLast_append : allButLast h ++ lastByte h = h.bytes := take_append_drop _ _

theorem lastByte_length : (lastByte h).length = 1 := by
  have := h.length_pos
  rw [lastByte, length_drop]
  omega

theorem lastByte_ne_nil : lastByte h ≠ [] := by
  grind [lastByte_length]

/-- The head byte by byte; its last byte comes with `k` bytes behind it. -/
def cutPieces (k : Nat) : List Bytes :=
  (allButLast h).map (fun b => [b]) ++ (lastByte h ++ t.take k) :: (t.drop k).map fun b => [b]

/-- The same in three pulls. -/
def cutConn (wire : { w : Bytes // w ≠ [] }) (k : Nat) : Conn :=
  ⟨[], [.data wire (allButLast h), .data wire (lastByte h ++ t.take k), .data wire (t.drop k)]⟩

theorem flatten_bytes (b : Bytes) : (b.map fun x => [x]).flatten = b := by
  induction b with
  | nil => rfl
  | cons x b ih => rw [map_cons, flatten_cons, ih]; rfl

theorem cutBlock_length (k : Nat) : (lastByte h ++ t.take k).length = min k t.length + 1 := by
  grind [lastByte_length]

theorem cutPieces_sizes {k : Nat} (hk : k ≤ 4095) :
    ∀ p ∈ cutPieces h t k, p ≠ [] ∧ p.length ≤ 4096 := by
  intro p hp
  rcases List.mem_append.mp hp with hp | hp
  all_goals grind [cutBlock_length]

theorem cutPieces_flatten (k : Nat) : (cutPieces h t k).flatten = h.bytes ++ t := by
  rw [cutPieces, flatten_append, flatten_cons, flatten_bytes, flatten_bytes, append_assoc,
    take_append_drop, ← append_assoc, allButLast_append]

theorem cutConn_stream (wire : { w : Bytes // w ≠ [] }) (k : Nat) :
    (cutConn h t wire k).stream = h.bytes ++ t := by
  simp only [cutConn, Conn.stream, toCome, nil_append, append_nil]
  rw [append_assoc, take_append_drop, ← append_assoc, allButLast_append]

/-- Both handlers give the parser the head and all of the last read. -/
theorem acceptPlain_cut {k : Nat} (hk : k ≤ 4095) : acceptPlain base64 config (cutPieces h t k) =
    upgraded base64 config (h.bytes ++ t.take k) (t.drop k) := by
  obtain ⟨hmax, text, hu, -⟩ := h.parsed
  grind [feed, headDone, allButLast, feed_inside, lastByte_ne_nil, flatten_bytes, allButLast_append,
      cutPieces, feed_append, feed_end, acceptPlain_feed, cutPieces_sizes]

theorem acceptTls_cut (wire : { w : Bytes // w ≠ [] }) {k : Nat} (hk : k ≤ 4095) :
    acceptTls base64 config (cutConn h t wire k) = upgraded base64 config (h.bytes ++ t.take k) (t.drop k) := by
  obtain ⟨hmax, text, hu, -⟩ := h.parsed
  have hflat := (toChunks_spec (by decide : 1 ≤ 4096) (allButLast h)).1
  have hin : feed headDone [] ((allButLast h).toChunks 4096) = .inr (allButLast h) := by
    grind [feed_inside, lastByte_ne_nil, allButLast, allButLast_append]
  have hblock : (lastByte h ++ t.take k).toChunks 4096 = [lastByte h ++ t.take k] := by
    grind [toChunks_short, cutBlock_length]
  have hempty : feed headDone [] (([] : Bytes).toChunks 4096) = .inr [] := rfl
  have hawait : (cutConn h t wire k).await 4096 headDone =
      .ok (true, h.bytes ++ t.take k, ⟨[], [.data wire (t.drop k)]⟩) := by
    rw [Conn.await, cutConn, await_pull hempty, await_pull hin, await.go.eq_def, hblock,
      feed_end hu hmax (lastByte_ne_nil h) (allButLast_append h)]
    rfl
  rw [acceptTls, hawait]
  show upgraded base64 config _ (t.drop k ++ []) = _
  rw [append_nil]

theorem upgraded_late (hfits : ¬ Fits h t) :
    upgraded base64 config (h.bytes ++ t.take 4095) (t.drop 4095) = .error (.request .headerTooLarge) := by
  grind [upgraded_append, Fits]

theorem not_kept_error (e : Refusal) : ¬ Kept h t (.error e) := fun ⟨_, _, heq, _⟩ => nomatch heq

end

/-- **Exactly the heads that leave room for a read.** -/
theorem same_iff (base64 : Base64) (config : HttpUpgradeConfig) (h : AcceptedHead base64 config)
    (t : Bytes) : (PlainSame h t ↔ Fits h t) ∧ (TlsSame h t ↔ Fits h t) := by
  refine ⟨⟨fun hsame => ?_, fun hfits pieces hpieces hbytes => ?_⟩, fun hsame => ?_, fun hfits c _ hbytes => ?_⟩
  · by_contra hfits
    have hlate := hsame (cutPieces h t 4095) (cutPieces_sizes h t (Nat.le_refl _)) (cutPieces_flatten h t 4095)
    grind [acceptPlain_cut, upgraded_late, not_kept_error]
  · obtain ⟨p, rest, ht, hp, heq⟩ := acceptPlain_spec h hpieces hbytes
    rw [heq]
    exact kept_of_fits h t hfits ht hp
  · by_contra hfits
    have hlate := hsame (cutConn h t ⟨[0], cons_ne_nil _ _⟩ 4095)
      (by simp only [cutConn, mem_cons, reduceCtorEq, not_mem_nil, or_self, not_false_eq_true])
      (cutConn_stream h t _ _)
    grind [acceptTls_cut, upgraded_late, not_kept_error]
  · obtain ⟨p, rest, ht, hp, heq⟩ := acceptTls_spec h hbytes
    rw [heq]
    exact kept_of_fits h t hfits ht hp

/-! ## Counterexample -/

def noBase64 : Base64 := ⟨fun _ => none, fun _ => none⟩

def rootPath : HttpUpgradeConfig := ⟨['/'], none, 0, none⟩

instance (s : Text) : Decidable (∀ c ∈ s, 32 ≤ c.toNat ∧ c.toNat < 127) := List.decidableBAll _ _

def requestLine : Line := ⟨"GET / HTTP/1.1".toList, by decide +kernel, by decide +kernel⟩

def upgradeLine : Line := ⟨"Upgrade: websocket".toList, by decide +kernel, by decide +kernel⟩

def connectionLine : Line := ⟨"Connection: Upgrade".toList, by decide +kernel, by decide +kernel⟩

/-- A line that the parser does not look at. -/
def filler (n : Nat) : Line where
  text := List.replicate (n + 1) 'a'
  ne := cons_ne_nil _ _
  printable := fun c hc => by
    rw [eq_of_mem_replicate hc]
    decide

def longLines (n : Nat) : List Line := [requestLine, upgradeLine, connectionLine, filler n]

theorem longLines_length (n : Nat) : (headBytes (longLines n)).length = n + 62 := by
  have hrequest : requestLine.text.length = 14 := by decide +kernel
  have hupgrade : upgradeLine.text.length = 18 := by decide +kernel
  have hconnection : connectionLine.text.length = 19 := by decide +kernel
  simp only [headBytes, longLines, headText, ascii, terminator, length_append, length_map,
    length_cons, length_nil, filler, length_replicate, hrequest, hupgrade, hconnection]
  omega

theorem longLines_parse (n : Nat) :
    parseHead noBase64 rootPath (ascii (headText (longLines n))) = .ok (⟨['/'], none⟩, []) := by
  have hcolon : ':' ∉ (filler n).text := fun hc => absurd (eq_of_mem_replicate hc) (by decide)
  rw [longLines, parseHead_headText]
  show parseLines noBase64 rootPath (requestLine.text :: ([upgradeLine.text, connectionLine.text] ++ [(filler n).text])) = _
  rw [parseLines_skip _ _ _ _ hcolon]
  rfl

/-- A head of `n + 62` bytes that is accepted alone. -/
def longHead (n : Nat) (hn : n + 62 ≤ maxHeaderSize) : AcceptedHead noBase64 rootPath where
  bytes := headBytes (longLines n)
  request := ⟨['/'], none⟩
  early := []
  head := ⟨_, splitHead_headBytes _ _⟩
  accepted := by
    have hlen : ¬ maxHeaderSize < (headBytes (longLines n)).length := by
      rw [longLines_length]
      omega
    rw [parseHttpupgradeRequest, if_neg hlen, longLines, splitHead_headBytes]
    show (parseHead noBase64 rootPath (ascii (headText (longLines n)))).map _ = _
    rw [longLines_parse]
    rfl

/-- 16384 bytes. -/
def fullHead : AcceptedHead noBase64 rootPath := longHead 16322 (by decide)

theorem fullHead_length : fullHead.bytes.length = 16384 := longLines_length 16322

/-- **One byte behind the head.** If it comes after the last byte of the head, the
request is accepted; if it comes with it, the request is refused, on a plain and
on a TLS connection. -/
theorem one_byte_behind : fullHead.bytes.length = 16384 ∧
      acceptPlain noBase64 rootPath (cutPieces fullHead [7] 0) = .ok (⟨['/'], none⟩, [], [7]) ∧
      acceptPlain noBase64 rootPath (cutPieces fullHead [7] 4095) = .error (.request .headerTooLarge) ∧
      acceptTls noBase64 rootPath (cutConn fullHead [7] ⟨[0], List.cons_ne_nil _ _⟩ 4095) =
        .error (.request .headerTooLarge) := by
  have hfits : ¬ Fits fullHead [7] := by
    unfold Fits
    rw [fullHead_length]
    decide
  refine ⟨fullHead_length, ?_, ?_, ?_⟩
  · rw [acceptPlain_cut _ _ (by decide), upgraded_append, take_zero, append_nil, fullHead_length,
      if_neg (by decide)]
    rfl
  all_goals grind [acceptPlain_cut, upgraded_late, acceptTls_cut]

end Wrongsv.Bugs.HttpUpgradeSegments
