import Wrongsv.L1Encoding.HttpForward

/-!
# The mixed inbound: an HTTP request and its relay

`handle_mixed_proxy_connection` of server/handler/mixed.rs for a
client that speaks HTTP. `read_http_head` reads blocks of at most 1024 bytes until
the empty line has come; the head is parsed and, unless it is a CONNECT, written
anew; the new head and what was read behind the old one go to the target, and
from then on `relay_raw` copies the client's bytes as they come.

The reads of a connection are a list of blocks with the client's end behind the
last one. The replies to the client and the negotiations of SOCKS are left out.

Results: `readHttpHead_ok`, `acceptHttpRequest_forward`.
-/
namespace Wrongsv.L2.MixedProxy
open List
open L1.HttpUpgrade (Text splitHead splitHead_eq splitHead_append splitHead_take terminator)
open L1.HttpForward
open L1.VlessHeader (Address)

/-- server/mixed_proxy.rs:22 -/
def httpHeaderLimit : Nat := 64 * 1024

def findHeaderEnd (data : Bytes) : Option Nat := (splitHead data).map fun p => p.1.length

/-- The head with its empty line, what was read behind it, and the reads to come.
server/mixed_proxy.rs:342-359 -/
def readHttpHead (data : Bytes) (reads : List Bytes) :
    Except MixedProxyError (Bytes × Bytes × List Bytes) :=
  match findHeaderEnd data with
  | some pos => .ok (data.take (pos + 4), data.drop (pos + 4), reads)
  | none =>
    if httpHeaderLimit ≤ data.length then .error .httpHeaderTooLarge
    else match reads with
      | [] => .error .unexpectedEof
      | block :: reads => if block = [] then .error .unexpectedEof else readHttpHead (data ++ block) reads

section
variable (decoders : Decoders) (credentials : Option Credentials)

/-- server/mixed_proxy.rs:294-340 -/
def acceptHttpRequest (reads : List Bytes) : Except MixedProxyError (ConnectRequest × List Bytes) :=
  match readHttpHead [] reads with
  | .error e => .error e
  | .ok (head, initialData, rest) =>
    match decode head with
    | none => .error .invalidHttpRequest
    | some text =>
      match parseRequestHead text with
      | .error e => .error e
      | .ok head =>
        match connectRequest decoders credentials head initialData with
        | .error e => .error e
        | .ok request => .ok (request, rest)

/-- The byte is looked at, not taken.
server/mixed_proxy.rs:90-101 -/
def detectProtocol (reads : List Bytes) : Except MixedProxyError MixedProtocol :=
  match reads.flatten with
  | [] => .error .unexpectedEof
  | first :: _ => .ok (if first = 0x04 then .socks4 else if first = 0x05 then .socks5 else .httpConnect)

/-- How the handling of a connection goes on. -/
inductive Outcome where
  | refused (e : MixedProxyError)
  | socks (protocol : MixedProtocol)
  /-- `connect_tcp_target` failed -/
  | badGateway (address : Address) (port : UInt16)
  /-- the target is connected; `relay_raw` has these reads before it -/
  | relaying (request : ConnectRequest) (rest : List Bytes)
  deriving DecidableEq, Repr

/-- `reachable` says which targets `connect_tcp_target` reaches.
mixed.rs:16-90 -/
def handleMixedProxyConnection (reachable : Address → UInt16 → Bool) (reads : List Bytes) :
    Outcome :=
  match detectProtocol reads with
  | .error e => .refused e
  | .ok .socks4 => .socks .socks4
  | .ok .socks5 => .socks .socks5
  | .ok _ =>
    match acceptHttpRequest decoders credentials reads with
    | .error e => .refused e
    | .ok (request, rest) =>
      if reachable request.address request.port then .relaying request rest
      else .badGateway request.address request.port

end

/-- What the target has got when the relay has done `n` reads of the client.
server/handler/relay.rs:328-351 and 389-400 -/
def written (request : ConnectRequest) (rest : List Bytes) (n : Nat) : Bytes :=
  request.initialData ++ (rest.take n).flatten

/-! ## The head -/

/-- **The loop stops at the first empty line of the stream.** -/
theorem readHttpHead_ok {reads rest : List Bytes} {head initial : Bytes} : ∀ {data : Bytes},
    readHttpHead data reads = .ok (head, initial, rest) → ∃ text, head = text ++ terminator ∧
    splitHead (data ++ reads.flatten) = some (text, initial ++ rest.flatten) := by
  -- at the end of the loop the rest of the stream is put behind what was split
  have hdone : ∀ {data : Bytes} {pos : Nat}, findHeaderEnd data = some pos → ∃ text,
      data.take (pos + 4) = text ++ terminator ∧ ∀ later,
        splitHead (data ++ later) = some (text, data.drop (pos + 4) ++ later) := by
    intro data pos hpos
    obtain ⟨⟨text, after⟩, hsplit, rfl⟩ := Option.map_eq_some_iff.mp hpos
    have hdata : data = (text ++ terminator) ++ after := by rw [splitHead_eq hsplit, append_assoc]
    have hlen : (text ++ terminator).length = text.length + 4 := length_append
    refine ⟨text, ?_, fun later => ?_⟩
    · rw [hdata]
      exact take_left' hlen
    · rw [splitHead_append hsplit later, hdata, drop_left' hlen]
  induction reads with
  | nil => grind [readHttpHead]
  | cons block reads ih => grind [readHttpHead]

/-- **The loop finds the head** unless a read ends behind the limit and in front of its end. -/
theorem readHttpHead_isOk_iff {u text later : Bytes} (hu : splitHead u = some (text, [])) (reads : List Bytes) :
    ∀ data : Bytes, data ++ reads.flatten = u ++ later → (∀ b ∈ reads, b ≠ []) →
      ((∃ r, readHttpHead data reads = .ok r) ↔ ∀ k, httpHeaderLimit ≤ (data ++
        (reads.take k).flatten).length → u.length ≤ (data ++ (reads.take k).flatten).length) := by
  induction reads with
  | nil =>
    intro data hdata _
    rw [flatten_nil, append_nil] at hdata
    have hfound : findHeaderEnd data = some text.length := by rw [findHeaderEnd, hdata, splitHead_append hu]; rfl
    refine iff_of_true ⟨_, by rw [readHttpHead, hfound]⟩ fun k _ => ?_
    rw [hdata, length_append, length_append]
    omega
  | cons block reads ih =>
    intro data hdata hblocks
    by_cases hlen : u.length ≤ data.length
    · obtain ⟨behind, rfl⟩ := List.prefix_of_prefix_length_le (hdata ▸ prefix_append u later)
        (prefix_append data _) hlen
      have hfound : findHeaderEnd (u ++ behind) = some text.length := by
        rw [findHeaderEnd, splitHead_append hu]
        rfl
      refine iff_of_true ⟨_, by rw [readHttpHead, hfound]⟩ fun k _ => ?_
      rw [length_append, length_append]
      omega
    · have hnone : findHeaderEnd data = none := by
        have htake : data = u.take data.length := by
          have := congrArg (List.take data.length) hdata
          rwa [take_left, take_append_of_le_length (by omega)] at this
        rw [findHeaderEnd, htake, splitHead_take hu (by omega)]
        rfl
      rw [readHttpHead, hnone]
      by_cases hlimit : httpHeaderLimit ≤ data.length
      · refine iff_of_false (fun ⟨r, hr⟩ => ?_) fun h => hlen (by simpa using h 0 (by simpa using hlimit))
        rw [if_pos hlimit] at hr
        cases hr
      · rw [if_neg hlimit]
        dsimp only
        rw [if_neg (hblocks block mem_cons_self),
          ih (data ++ block) (by rw [append_assoc, ← flatten_cons]; exact hdata) fun b hb => hblocks b (mem_cons_of_mem _ hb)]
        constructor
        · intro h k hk
          cases k with
          | zero => exact absurd (by simpa using hk) hlimit
          | succ k => simpa using h k (by simpa using hk)
        · intro h k hk
          simpa using h (k + 1) (by simpa using hk)

/-! ## A forwarded request -/

section
variable {decoders : Decoders} {credentials : Option Credentials} {reads rest : List Bytes}
  {request : ConnectRequest}

theorem acceptHttpRequest_ok (h : acceptHttpRequest decoders credentials reads = .ok (request, rest)) :
    ∃ headBytes initial text head, readHttpHead [] reads = .ok (headBytes, initial, rest) ∧
      decode headBytes = some text ∧ parseRequestHead text = .ok head ∧
      connectRequest decoders credentials head initial = .ok request := by
  unfold acceptHttpRequest at h
  grind

theorem connectRequest_forward {head : RequestHead} {initial : Bytes} (hmethod : head.method ≠ "CONNECT".toList) :
    connectRequest decoders credentials head initial = .ok request ↔
      authenticate decoders credentials head.headerLines = .ok () ∧ ∃ address port hostHeader origin,
        parseAbsoluteHttpUri decoders head.target = .ok (address, port, hostHeader, origin) ∧
        request = ⟨.httpForward, address, port,
          encode (buildHttpForwardHead head.method origin head.version hostHeader head.headerLines) ++ initial⟩ := by
  unfold connectRequest
  simp only [if_neg hmethod]
  cases authenticate decoders credentials head.headerLines with
  | error e => exact iff_of_false (by rintro ⟨⟩) (by rintro ⟨⟨⟩, -⟩)
  | ok u =>
    cases parseAbsoluteHttpUri decoders head.target with
    | error e => exact iff_of_false (by rintro ⟨⟩) (by rintro ⟨-, _, _, _, _, ⟨⟩, -⟩)
    | ok uri =>
      constructor
      · intro h
        exact ⟨rfl, _, _, _, _, rfl, (Except.ok.inj h).symm⟩
      · rintro ⟨-, _, _, _, _, h, rfl⟩
        cases h
        rfl

/-- What the target gets of a request, with what the client sends behind it:
`lines` in place of the request's own. -/
structure Forwarded (decoders : Decoders) (r : ForwardRequest) (later : Bytes) (request : ConnectRequest)
    (rest : List Bytes) (lines : List Bytes) (initial : Bytes) : Prop where
  data : request.initialData = endPair 13 10 lines ++ (13 :: 10 :: initial)
  unchanged : initial ++ rest.flatten = r.body ++ later
  nonempty : lines ≠ []
  isLines : ∀ l ∈ lines, l ≠ [] ∧ (13 : UInt8) ∉ l
  clean : ∀ l ∈ lines.tail, isNamedBytes "proxy-authorization".toList l = false
  names : Names decoders r.target.text request.address request.port

theorem forwarded_of_parts (r : ForwardRequest) {later initial : Bytes} {headers : List Text} {address : Address}
    {port : UInt16} {hostHeader origin : Text} (hheaders : headers.map encode = r.fields.map Field.line)
    (hbody : initial ++ rest.flatten = r.body ++ later)
    (huri : parseAbsoluteHttpUri decoders r.target.text = .ok (address, port, hostHeader, origin)) :
    ∃ lines, Forwarded decoders r later ⟨.httpForward, address, port, encode (buildHttpForwardHead
      r.method.text origin r.version.text hostHeader (headers ++ [[], []])) ++ initial⟩ rest lines initial := by
  obtain ⟨hnames, hchars⟩ := parseAbsoluteHttpUri_ok huri
  refine ⟨(forwardLines r.method.text origin r.version.text hostHeader (headers ++ [[], []])).map
    encode, ?_, hbody, cons_ne_nil _ _, ?_, forwardLines_clean _ _ _ _ _, hnames⟩
  · rw [buildHttpForwardHead, encode_append, encode_endPair, append_assoc]
    rfl
  · have hcr : ∀ c ∈ hostHeader ++ origin, c ≠ '\r' := fun c hc heq => r.target.cr_notMem (heq ▸ hchars c hc)
    refine forwardLines_lines ?_ fun l hl => ?_
    · simp only [mem_append, not_or]
      exact ⟨r.method.cr_notMem, fun hm => hcr _ (mem_append_right _ hm) rfl,
        r.version.cr_notMem, fun hm => hcr _ (mem_append_left _ hm) rfl⟩
    · rcases List.mem_append.mp hl with hfield | hempty
      · obtain ⟨f, -, hf⟩ := List.mem_map.mp (hheaders ▸ mem_map_of_mem (f := encode) hfield)
        exact hf ▸ f.line_cr
      · rcases List.mem_pair.mp hempty with rfl | rfl <;> exact not_mem_nil

/-- **Of the client's stream only the first head is replaced.** -/
theorem acceptHttpRequest_forward (r : ForwardRequest) {later : Bytes} (hreads : reads.flatten = r.bytes ++ later)
    (h : acceptHttpRequest decoders credentials reads = .ok (request, rest)) :
    ∃ lines initial, Forwarded decoders r later request rest lines initial := by
  obtain ⟨headBytes, initial, text, head, hread, hdecode, hhead, hrequest⟩ := acceptHttpRequest_ok h
  obtain ⟨before, hbefore, hsplit⟩ := readHttpHead_ok hread
  rw [nil_append, hreads, r.splitHead_bytes] at hsplit
  obtain ⟨hlines, hbody⟩ := Prod.mk.inj (Option.some.inj hsplit)
  have htext : encode text = r.head := by rw [encode_of_decode hdecode, hbefore, ← hlines, ForwardRequest.head]
  obtain ⟨headers, hheaders, hparse⟩ := r.parseRequestHead_head htext
  rw [hparse] at hhead
  split at hhead
  · cases hhead
    obtain ⟨-, address, port, hostHeader, origin, huri, rfl⟩ := (connectRequest_forward r.forward).mp hrequest
    obtain ⟨lines, hforwarded⟩ := forwarded_of_parts r hheaders hbody.symm huri
    exact ⟨lines, initial, hforwarded⟩
  · cases hhead

end

end Wrongsv.L2.MixedProxy
