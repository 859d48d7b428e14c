import Wrongsv.Core.Incremental
import Wrongsv.L1Encoding.Hysteria2Message

/-!
# Hysteria2: a request that comes with its body can be refused for its size

`read_hysteria2_tcp_request` (server/handler/hysteria2.rs:383-437) parses what it has before
every read, and checks the limit of 65536 bytes after the read: on the header together
with what of the body came in the same read.

Counterexample: a header of 65536 bytes of which the last one comes with the first byte
of the body. By `reads_all_iff` the reads do not matter if the header leaves room for the
rest of a read, or the whole stream keeps to the limit.
-/
namespace Wrongsv.Bugs.Hysteria2RequestLimit
open Wrongsv.Parser L1.VlessHeader L1.Hysteria2 List

inductive RequestError where
  /-- unexpected Hysteria2 TCP request id -/
  | unexpectedId (cmd : Nat)
  | utf8
  /-- Hysteria2 closed before TCP request header -/
  | closed
  /-- Hysteria2 TCP request too large -/
  | tooLarge
  deriving DecidableEq, Repr

/-! ## The header -/

/-- `read_quic_varint`, taken off the front instead of moving `*pos`. -/
def readVarint : Parser (Stop RequestError) Nat := fun buf =>
  match readQuicVarint buf with
  | none => .error .incomplete
  | some (value, len) => .ok (value, buf.drop len)

/-- hysteria2.rs:411-437 -/
def tryParseHysteria2TcpRequest : Parser (Stop RequestError) String := do
  let cmd ← readVarint
  if cmd ≠ 0x401 then throw (.rejected (.unexpectedId cmd))
  else
    let addrLen ← readVarint
    let address ← readExact .incomplete addrLen
    match String.fromUTF8? ⟨address.val.toArray⟩ with
    | none => throw (.rejected .utf8)
    | some address =>
      let paddingLen ← readVarint
      readExact .incomplete paddingLen >>= fun _ => pure address

/-- What a client sends: the encoded integers, and what they are in front of. -/
structure Header where
  address : String
  padding : Bytes
  cmd : Bytes
  addrLen : Bytes
  paddingLen : Bytes
  cmd_eq : encodeQuicVarint 0x401 = .ok cmd
  addrLen_eq : encodeQuicVarint (utf8 address).length = .ok addrLen
  paddingLen_eq : encodeQuicVarint padding.length = .ok paddingLen

def Header.bytes (h : Header) : Bytes :=
  h.cmd ++ (h.addrLen ++ (utf8 h.address ++ (h.paddingLen ++ h.padding)))

theorem readQuicVarint_take {b : Bytes} {v len : Nat} (h : readQuicVarint b = some (v, len))
    (t : Bytes) : len ≤ b.length ∧ readQuicVarint (b.take len ++ t) = some (v, len) := by
  cases b with
  | nil => cases h
  | cons first b =>
    simp only [readQuicVarint] at h
    split at h
    · cases h
    rename_i hlen
    obtain ⟨rfl, rfl⟩ := Prod.mk.inj (Option.some.inj h)
    have hpos : 1 ≤ 1 <<< (first >>> 6).toNat := by simp [Nat.shiftLeft_eq, Nat.one_le_two_pow]
    generalize hn : 1 <<< (first >>> 6).toNat = n at *
    obtain ⟨k, rfl⟩ : ∃ k, n = k + 1 := ⟨n - 1, by omega⟩
    rw [length_cons] at hlen
    have hk : (b.take k).length = k := length_take_of_le (by omega)
    refine ⟨by simp only [length_cons]; omega, ?_⟩
    simp only [take_succ_cons, cons_append, readQuicVarint, hn, length_cons, length_append, hk]
    rw [if_neg (by omega), take_left' hk]

theorem stable_readVarint : Stable readVarint := by
  refine ⟨fun b a r h => ?_, fun {b e} h => ?_⟩ <;> unfold readVarint at h
  · split at h
    · cases h
    rename_i v len hv
    cases h
    refine ⟨b.take len, Nat.zero_le _, (take_append_drop len b).symm, fun t => ?_⟩
    obtain ⟨hlen, htake⟩ := readQuicVarint_take hv t
    simp only [readVarint, htake]
    rw [drop_left' (length_take_of_le hlen)]
  · split at h <;> cases h

theorem stable_request : Stable tryParseHysteria2TcpRequest := by
  refine stable_bind stable_readVarint fun cmd => stable_ite (stable_throw _) ?_
  refine stable_bind stable_readVarint fun addrLen => stable_bind (stable_readExact _) fun address => ?_
  split
  · exact stable_throw _
  · exact stable_bind stable_readVarint fun _ => stable_bind (stable_readExact _) fun _ => stable_pure _

theorem reads_readVarint {v : Nat} {encoded : Bytes} (h : encodeQuicVarint v = .ok encoded) :
    Reads readVarint encoded v := by
  intro t
  simp only [readVarint, readQuicVarint_encode h, drop_left]

/-- **A header is read back.** -/
theorem reads_request (h : Header) : Reads tryParseHysteria2TcpRequest h.bytes h.address := by
  refine (reads_readVarint h.cmd_eq).bind ?_
  refine (reads_readVarint h.addrLen_eq).bind ((reads_readExact _ ⟨utf8 h.address, rfl⟩).bind ?_)
  simp only [fromUTF8_utf8]
  refine (reads_readVarint h.paddingLen_eq).bind fun t => ?_
  exact (reads_readExact _ ⟨h.padding, rfl⟩).bind_append t

/-! ## The loop -/

/-- A read of the stream into `tmp`. -/
abbrev Read := { c : Bytes // 0 < c.length ∧ c.length ≤ 4096 }

def stream (reads : List Read) : Bytes := reads.flatMap (·.val)

/-- The loop from `buf` on, with the reads that were not made; behind them the stream ends.
hysteria2.rs:383-409 -/
def readHysteria2TcpRequest (buf : Bytes) (reads : List Read) :
    Except RequestError (String × Bytes) × List Read :=
  match tryParseHysteria2TcpRequest buf with
  | .ok request => (.ok request, reads)
  | .error (.rejected e) => (.error e, reads)
  | .error .incomplete =>
    match reads with
    | [] => (.error .closed, [])
    | c :: reads =>
      if (buf ++ c.val).length > 64 * 1024 then (.error .tooLarge, reads)
      else readHysteria2TcpRequest (buf ++ c.val) reads

/-- The address is returned, and nothing of the body is lost. -/
def Returns (h : Header) (body buf : Bytes) (reads : List Read) : Prop :=
  ∃ received unread, readHysteria2TcpRequest buf reads = (.ok (h.address, received), unread) ∧
    received ++ stream unread = body

/-- No read that completes the header passes the limit. -/
def HasRoom (h : Header) (body : Bytes) : Prop :=
  h.bytes.length + 4095 ≤ 65536 ∨ h.bytes.length + body.length ≤ 65536

variable {h : Header} {body : Bytes}

/-- As long as the header is not complete, the loop reads on. -/
theorem read_cons {buf rest : Bytes} (hbuf : buf.length < h.bytes.length) (hstream : buf ++ rest = h.bytes ++ body)
    (c : Read) (reads : List Read) : readHysteria2TcpRequest buf (c :: reads) =
      if (buf ++ c.val).length > 64 * 1024 then (.error .tooLarge, reads)
      else readHysteria2TcpRequest (buf ++ c.val) reads := by
  have hcut : buf = h.bytes.take buf.length := by
    have htake := congrArg (take buf.length) hstream
    rwa [take_left, take_append_of_le_length (by omega)] at htake
  have hwaits := stable_request.waits (reads_request h) hbuf
  rw [← hcut] at hwaits
  rw [readHysteria2TcpRequest, hwaits]

theorem returns_of_hasRoom (hroom : HasRoom h body) : ∀ (reads : List Read) (buf : Bytes),
    buf ++ stream reads = h.bytes ++ body → Returns h body buf reads := by
  intro reads
  induction reads with
  | nil =>
    intro buf hstream
    obtain rfl : buf = h.bytes ++ body := (append_nil buf).symm.trans hstream
    exact ⟨body, [], by rw [readHysteria2TcpRequest.eq_def, reads_request h], append_nil body⟩
  | cons c reads ih =>
    intro buf hstream
    by_cases hbuf : buf.length < h.bytes.length
    · have hnext : (buf ++ c.val) ++ stream reads = h.bytes ++ body := (append_assoc ..).trans hstream
      have hlen := congrArg length hnext
      unfold HasRoom at hroom
      simp only [length_append] at hlen
      unfold Returns
      rw [read_cons hbuf hstream, if_neg (by rw [length_append]; omega)]
      exact ih (buf ++ c.val) hnext
    · -- the header is complete, with a part of the body
      obtain ⟨received, rfl⟩ : ∃ received, buf = h.bytes ++ received := by
        have hfront : h.bytes <+: buf :=
          prefix_of_prefix_length_le (prefix_append _ _) ⟨_, hstream⟩ (by omega)
        exact hfront.imp fun _ => Eq.symm
      rw [append_assoc] at hstream
      exact ⟨received, c :: reads, by rw [readHysteria2TcpRequest, reads_request h], append_cancel_left hstream⟩

theorem exists_reads : ∀ b : Bytes, ∃ reads, stream reads = b
  | [] => ⟨[], rfl⟩
  | x :: b => by
    obtain ⟨reads, hreads⟩ := exists_reads b
    exact ⟨⟨[x], by simp⟩ :: reads, by rw [stream, flatMap_cons, ← hreads]; rfl⟩

theorem read_append (hheader : h.bytes.length ≤ 65536) (more : List Read) {rest : Bytes} :
    ∀ (reads : List Read) (buf : Bytes), buf ++ stream reads ++ rest = h.bytes ++ body →
      (buf ++ stream reads).length < h.bytes.length → readHysteria2TcpRequest buf (reads ++ more) =
      readHysteria2TcpRequest (buf ++ stream reads) more := by
  intro reads
  induction reads with
  | nil => intro buf _ _; rw [show stream [] = [] from rfl, append_nil, nil_append]
  | cons c reads ih =>
    intro buf hstream hlen
    have hcons : buf ++ stream (c :: reads) = (buf ++ c.val) ++ stream reads := (append_assoc ..).symm
    rw [hcons] at hstream hlen ⊢
    have hlen' := hlen
    simp only [length_append] at hlen'
    rw [append_assoc, append_assoc] at hstream
    rw [cons_append, read_cons (by omega) hstream, if_neg (by rw [length_append]; omega)]
    exact ih (buf ++ c.val) (by rw [append_assoc, append_assoc, hstream]) hlen

/-- The last byte of the header comes in a read with as much of the body as fits. -/
theorem exists_tooLarge (hheader : h.bytes.length ≤ 65536) (hroom : ¬ HasRoom h body) : ∃ reads,
    stream reads = h.bytes ++ body ∧ (readHysteria2TcpRequest [] reads).1 = .error .tooLarge := by
  have hsplit := take_append_drop (h.bytes.length - 1) (h.bytes ++ body)
  have hfirst : ((h.bytes ++ body).take (h.bytes.length - 1)).length = h.bytes.length - 1 :=
    length_take_of_le (by rw [length_append]; omega)
  generalize (h.bytes ++ body).take (h.bytes.length - 1) = first at hsplit hfirst
  generalize (h.bytes ++ body).drop (h.bytes.length - 1) = rest at hsplit
  have hrest := congrArg length hsplit
  unfold HasRoom at hroom
  simp only [length_append] at hrest
  obtain ⟨reads, rfl⟩ := exists_reads first
  obtain ⟨later, hlater⟩ := exists_reads (rest.drop 4096)
  have hc : 0 < (rest.take 4096).length ∧ (rest.take 4096).length ≤ 4096 := by
    rw [length_take]
    omega
  refine ⟨reads ++ ⟨rest.take 4096, hc⟩ :: later, ?_, ?_⟩
  · have hparts : stream reads ++ (rest.take 4096 ++ stream later) = h.bytes ++ body := by
      rw [hlater, take_append_drop, hsplit]
    simpa [stream] using hparts
  · have hshort : (stream reads).length < h.bytes.length := by omega
    rw [read_append hheader _ reads [] hsplit hshort, nil_append, read_cons hshort hsplit, if_pos]
    rw [length_append, length_take]
    omega

/-! ## Result -/

/-- **When the reads do not matter.** The codec of integers is sound, a part of a header is
never taken for one, and a header of at most 65536 bytes is received whatever the reads
are, exactly if it has room. -/
theorem reads_all_iff (h : Header) (body : Bytes) :
    (∀ v t, v < 2 ^ 62 → ∃ e, encodeQuicVarint v = .ok e ∧ readQuicVarint (e ++ t) = some (v, e.length)) ∧
    (∀ k < h.bytes.length, tryParseHysteria2TcpRequest (h.bytes.take k) = .error .incomplete) ∧
    (h.bytes.length ≤ 65536 →
      ((∀ reads, stream reads = h.bytes ++ body → Returns h body [] reads) ↔ HasRoom h body)) := by
  refine ⟨fun v t hv => ?_, fun k => stable_request.waits (reads_request h),
    fun hheader => ⟨fun hall => ?_, fun hroom reads => returns_of_hasRoom hroom reads []⟩⟩
  · obtain ⟨e, he⟩ := encodeQuicVarint_ok hv
    exact ⟨e, he, readQuicVarint_encode he t⟩
  · by_contra hroom
    obtain ⟨reads, hstream, hlarge⟩ := exists_tooLarge hheader hroom
    obtain ⟨received, unread, hread, -⟩ := hall reads hstream
    rw [hread] at hlarge
    cases hlarge

def longHeader : Header where
  address := ""
  padding := replicate 65529 0
  cmd := [0x44, 1]
  addrLen := [0]
  paddingLen := [0x80, 0, 0xff, 0xf9]
  cmd_eq := rfl
  addrLen_eq := rfl
  paddingLen_eq := by rw [length_replicate]; rfl

/-- The last byte of the header comes with the one byte of the body. -/
theorem pipelined_byte_refused : longHeader.bytes.length = 65536 ∧ ∃ reads, stream reads =
    longHeader.bytes ++ [0] ∧ (readHysteria2TcpRequest [] reads).1 = .error .tooLarge := by
  have hlen : longHeader.bytes.length = 65536 := by
    simp only [Header.bytes, longHeader, length_append, length_replicate]
    rfl
  exact ⟨hlen, exists_tooLarge (Nat.le_of_eq hlen) (by simp [HasRoom, hlen])⟩

end Wrongsv.Bugs.Hysteria2RequestLimit
