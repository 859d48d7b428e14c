import Wrongsv.L1Encoding.HttpUpgradeHead
import Wrongsv.L2Machine.TlsConn
import Wrongsv.L2Machine.WebSocket.Upgrade

/-!
# HTTPUpgrade up to the stream

`handle_httpupgrade_connection` of server/handler/httpupgrade.rs reads
until the empty line has come, on a plain connection with `stream_read_upgrade`
and on a TLS connection with `read_tls_httpupgrade_headers`, both with a buffer
of 4096 bytes, and gives all it has read to the parser. What is returned here is
the request, the initial data of the session, and what the connection still has.

Both loops are `feed headDone` on the blocks their reads return
(`streamReadUpgrade_feed`, `Conn.await`), so one lemma about a read is enough.

Results: `readStep`, `feed_head`, `acceptPlain_spec`, `acceptTls_spec`.
-/
namespace Wrongsv.L2.HttpUpgradeAccept
open L1.HttpUpgrade L1.HttpUpgradeHead List
open L2.TlsConn

/-- Why a connection is not upgraded. -/
inductive Refusal where
  | read (e : WebSocket.HandlerError)
  /-- "connection closed during HTTPUpgrade" -/
  | tlsClosed
  /-- "HTTPUpgrade header too large" -/
  | tlsTooLarge
  | request (e : HttpUpgradeError)
  deriving DecidableEq, Repr

/-- The request, the initial data, and what was not read yet. -/
abbrev Upgraded := HttpUpgradeRequest × Bytes × Bytes

section
variable (base64 : Base64) (config : HttpUpgradeConfig)

/-- The parser on what was read. -/
def upgraded (buf rest : Bytes) : Except Refusal Upgraded :=
  match parseHttpupgradeRequest base64 config buf with
  | .error e => .error (.request e)
  | .ok (request, initial) => .ok (request, initial, rest)

def acceptPlain (pieces : List Bytes) : Except Refusal Upgraded :=
  match WebSocket.streamReadUpgrade [] pieces with
  | .error e => .error (.read e)
  | .ok (buf, later) => upgraded base64 config buf later.flatten

/-- Whether the loop for the HTTP head is done: with the head, or because it is too long.
server/handler/httpupgrade.rs:300-346 -/
def headDone (data : Bytes) : Option Bool :=
  if (splitHead data).isSome then some true
  else if maxHeaderSize ≤ data.length then some false
  else none

def acceptTls (c : Conn) : Except Refusal Upgraded :=
  match c.await 4096 headDone with
  | .error _ => .error .tlsClosed
  | .ok (false, _, _) => .error .tlsTooLarge
  | .ok (true, buf, c) => upgraded base64 config buf c.stream

end

/-! ## One read -/

theorem headDone_head {u text : Bytes} (hu : splitHead u = some (text, [])) (p : Bytes) :
    headDone (u ++ p) = some true := by
  have hsome : (splitHead (u ++ p)).isSome := by rw [splitHead_append hu]; rfl
  rw [headDone, if_pos hsome]

section
variable {u text t data block later : Bytes}

/-- What one read does: the loop is still inside the head, or it has the head
and fewer bytes behind it than were read. -/
theorem readStep (hin : data.length < u.length) (hbytes : data ++ (block ++ later) = u ++ t) :
    (∃ missing, missing ≠ [] ∧ data ++ block ++ missing = u) ∨
      ∃ p, data ++ block = u ++ p ∧ p ++ later = t ∧ p.length < block.length := by
  rw [← append_assoc] at hbytes
  rcases List.append_eq_append_iff.mp hbytes with ⟨missing, hu, hlater⟩ | ⟨p, hp, ht⟩
  all_goals grind

/-! ## The loop -/

variable (hu : splitHead u = some (text, [])) (hmax : u.length ≤ maxHeaderSize)
include hu hmax

theorem headDone_inside (hdata : data ++ later = u) (hlater : later ≠ []) :
    headDone data = none := by
  grind [splitHead, splitHead_take, headDone, length_append, length_pos_of_ne_nil, take_left]

/-- **The loop.** Blocks of at most one buffer, with the bytes before them and
behind them: it ends with the head and less than one buffer behind it, or it has
taken all blocks and is still inside the head. -/
theorem feed_head {size : Nat} (blocks : List Bytes) : ∀ data : Bytes,
    (∀ b ∈ blocks, b.length ≤ size) → data.length < u.length → data ++ (blocks.flatten ++ later) = u ++ t →
      (∃ p rest, feed headDone data blocks = .inl (true, u ++ p, rest) ∧ p ++ (rest ++ later) = t ∧
          p.length < size) ∨
        (feed headDone data blocks = .inr (data ++ blocks.flatten) ∧ (data ++ blocks.flatten).length < u.length) := by
  -- the bytes so far are the first ones of the head
  have hnone : ∀ {data : Bytes}, data.length < u.length → (∃ more, data ++ more = u ++ t) → headDone data = none := by
    intro data hin ⟨more, hmore⟩
    rcases @readStep u t data [] more hin (by rw [nil_append]; exact hmore) with ⟨missing, hne, heq⟩ | ⟨p, -, -, hp⟩
    all_goals grind [headDone_inside]
  induction blocks with
  | nil => grind [feed]
  | cons block blocks ih =>
    intro data hsize hin hbytes
    have hfeed : feed headDone data (block :: blocks) = feed headDone (data ++ block) blocks := by
      rw [feed, hnone hin ⟨_, hbytes⟩]
    rw [hfeed]
    rw [flatten_cons, append_assoc] at hbytes
    have hsize' : ∀ b ∈ blocks, b.length ≤ size := fun b hb => hsize b (mem_cons_of_mem _ hb)
    rcases readStep hin hbytes with ⟨missing, hne, heq⟩ | ⟨p, hp, ht, hlt⟩
    · have hin' : (data ++ block).length < u.length := by
        grind [length_pos_of_ne_nil]
      have h := ih (data ++ block) hsize' hin' (by rw [append_assoc]; exact hbytes)
      rw [append_assoc data block] at h
      exact h
    · refine .inl ⟨p, blocks.flatten, ?_, ht, Nat.lt_of_lt_of_le hlt (hsize block mem_cons_self)⟩
      have hdone := headDone_head hu p
      rw [← hp] at hdone ⊢
      rw [feed.eq_def, hdone]

theorem feed_inside {missing : Bytes} (hne : missing ≠ []) (blocks : List Bytes) : ∀ data : Bytes,
    data ++ (blocks.flatten ++ missing) = u → feed headDone data blocks = .inr (data ++ blocks.flatten) := by
  induction blocks with
  | nil => grind [feed, headDone_inside]
  | cons block blocks ih =>
    intro data hdata
    have hmore : (block :: blocks).flatten ++ missing ≠ [] := fun h => hne (List.append_eq_nil_iff.mp h).2
    rw [feed, headDone_inside hu hmax hdata hmore]
    simp_all

theorem feed_end {missing p : Bytes} (hne : missing ≠ []) (hdata : data ++ missing = u) (more : List Bytes) :
    feed headDone data ((missing ++ p) :: more) = .inl (true, u ++ p, more.flatten) := by
  have hend : data ++ (missing ++ p) = u ++ p := by rw [← append_assoc, hdata]
  rw [feed, headDone_inside hu hmax hdata hne, hend, feed.eq_def, headDone_head hu]

end

/-! ## The plain connection -/

/-- `stream_read_upgrade` is the loop on the pieces the socket returns. -/
theorem streamReadUpgrade_feed (pieces : List Bytes) (buf : Bytes) (hbuf : headDone buf = none)
    (hne : ∀ p ∈ pieces, p ≠ []) :
    (WebSocket.streamReadUpgrade buf pieces).map (fun r => (r.1, r.2.flatten)) =
      match feed headDone buf pieces with
      | .inl (true, buf, rest) => .ok (buf, rest)
      | .inl (false, _, _) => .error .tooLarge
      | .inr _ => .error .closed := by
  have hfeed : ∀ {buf : Bytes}, headDone buf = none → ∀ piece pieces,
      feed headDone buf (piece :: pieces) = feed headDone (buf ++ piece) pieces := by
    intro buf hbuf piece pieces
    rw [feed, hbuf]
  fun_induction WebSocket.streamReadUpgrade buf pieces with
  | case1 buf => rw [feed, hbuf]; rfl
  | case2 buf pieces => exact absurd rfl (hne [] mem_cons_self)
  | case3 buf piece pieces _ hs =>
    have hdone : headDone (buf ++ piece) = some true := by rw [headDone, if_pos hs]
    rw [hfeed hbuf, feed.eq_def, hdone]
    rfl
  | case4 buf piece pieces _ hs hlen =>
    have hdone : headDone (buf ++ piece) = some false := (if_neg hs).trans (if_pos hlen)
    rw [hfeed hbuf, feed.eq_def, hdone]
    rfl
  | case5 buf piece pieces _ hs hlen ih =>
    rw [hfeed hbuf]
    exact ih ((if_neg hs).trans (if_neg hlen)) fun p hp => hne p (mem_cons_of_mem _ hp)

section
variable {base64 : Base64} {config : HttpUpgradeConfig} (h : AcceptedHead base64 config)

theorem acceptPlain_feed {pieces : List Bytes} (hne : ∀ p ∈ pieces, p ≠ []) {buf rest : Bytes}
    (hfeed : feed headDone [] pieces = .inl (true, buf, rest)) :
    acceptPlain base64 config pieces = upgraded base64 config buf rest := by
  have hread := streamReadUpgrade_feed pieces [] (by decide) hne
  rw [hfeed] at hread
  unfold acceptPlain
  cases hr : WebSocket.streamReadUpgrade [] pieces with
  | error e => rw [hr] at hread; cases hread
  | ok r =>
    rw [hr] at hread
    cases hread
    rfl

/-! ## The TLS connection -/

theorem await_pull {size : Nat} {data plaintext data' p : Bytes} {wire : { w : Bytes // w ≠ [] }}
    {socket : List Pull} (hfeed : feed headDone data (plaintext.toChunks size) = .inr data') :
    await.go size headDone data plaintext (.data wire p :: socket) = await.go size headDone data' p socket := by
  rw [await.go, hfeed]

/-- **The loop over the pulls.** It ends with the head and less than one buffer behind it. -/
theorem await_head {u text t : Bytes} {size : Nat} (hsize : 1 ≤ size) (hu : splitHead u = some (text, []))
    (hmax : u.length ≤ maxHeaderSize) (socket : List Pull) : ∀ data plaintext : Bytes, data.length < u.length →
      data ++ (plaintext ++ toCome socket) = u ++ t → ∃ p c,
      await.go size headDone data plaintext socket = .ok (true, u ++ p, c) ∧ p ++ c.stream = t ∧
        p.length < size := by
  -- the answer comes with the decrypted bytes, or the next pull is made inside the head
  have hstep : ∀ (socket : List Pull) (data plaintext : Bytes), data.length < u.length →
      data ++ (plaintext ++ toCome socket) = u ++ t →
      (∃ p c, await.go size headDone data plaintext socket = .ok (true, u ++ p, c) ∧ p ++ c.stream =
        t ∧ p.length < size) ∨
      (feed headDone data (plaintext.toChunks size) = .inr (data ++ plaintext) ∧
        (data ++ plaintext).length < u.length) := by
    intro socket data plaintext hin hbytes
    obtain ⟨hflat, hchunks⟩ := toChunks_spec hsize plaintext
    rcases feed_head hu hmax _ data hchunks hin (by rw [hflat]; exact hbytes) with ⟨p, rest, hfeed, ht, hp⟩ | ⟨hfeed, hlt⟩
    · refine .inl ⟨p, ⟨rest, socket⟩, ?_, ht, hp⟩
      rw [await.go.eq_def, hfeed]
    · simp_all
  induction socket with
  | nil =>
    intro data plaintext hin hbytes
    rcases hstep [] data plaintext hin hbytes with hdone | ⟨-, hlt⟩
    · exact hdone
    · -- the head cannot be missing: all bytes are here
      grind [toCome]
  | cons pull socket ih =>
    intro data plaintext hin hbytes
    rcases hstep (pull :: socket) data plaintext hin hbytes with hdone | ⟨hfeed, hlt⟩
    · exact hdone
    · cases pull with
      | data wire p =>
        rw [await_pull hfeed]
        exact ih (data ++ plaintext) p hlt (by rw [append_assoc]; exact hbytes)
      | wouldBlock =>
        rw [await.go, hfeed]
        exact ih (data ++ plaintext) [] hlt (by rw [append_assoc, nil_append]; exact hbytes)

/-! ## The answer -/

/-- What comes behind the head decides whether the parser takes the buffer. -/
theorem upgraded_append (p rest : Bytes) : upgraded base64 config (h.bytes ++ p) rest =
      if maxHeaderSize < (h.bytes ++ p).length then .error (.request .headerTooLarge)
      else .ok (h.request, h.early ++ p, rest) := by
  rw [upgraded, h.parse_append p]
  grind

/-- Both handlers end with the parser's answer to the head and less than one
buffer behind it. -/
theorem acceptPlain_spec {t : Bytes} {pieces : List Bytes}
    (hpieces : ∀ p ∈ pieces, p ≠ [] ∧ p.length ≤ 4096) (hbytes : pieces.flatten = h.bytes ++ t) :
    ∃ p rest, p ++ rest = t ∧ p.length < 4096 ∧
      acceptPlain base64 config pieces = upgraded base64 config (h.bytes ++ p) rest := by
  obtain ⟨hmax, text, hu, -⟩ := h.parsed
  rcases @feed_head h.bytes text t [] hu hmax 4096 pieces [] (fun b hb => (hpieces b hb).2) h.length_pos
      (by rw [append_nil]; exact hbytes) with ⟨p, rest, hfeed, ht, hp⟩ | ⟨-, hlt⟩
  all_goals grind [acceptPlain_feed]

theorem acceptTls_spec {t : Bytes} {c : Conn} (hbytes : c.stream = h.bytes ++ t) :
    ∃ p rest, p ++ rest = t ∧ p.length < 4096 ∧
      acceptTls base64 config c = upgraded base64 config (h.bytes ++ p) rest := by
  obtain ⟨hmax, text, hu, -⟩ := h.parsed
  obtain ⟨p, c', hgo, ht, hp⟩ := await_head (by decide : 1 ≤ 4096) hu hmax c.socket [] c.plaintext h.length_pos hbytes
  refine ⟨p, c'.stream, ht, hp, ?_⟩
  rw [acceptTls, show c.await 4096 headDone = .ok (true, h.bytes ++ p, c') from hgo]

end

end Wrongsv.L2.HttpUpgradeAccept
