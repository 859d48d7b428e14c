import Wrongsv.L2Machine.MixedProxy

/-!
# Mixed inbound: the credentials of a later request reach the first target

`accept_http_request` (server/mixed_proxy.rs:294-340) rewrites the first request of a
connection. What the client sends behind its head goes to the target of the first request
as it is (server/handler/mixed.rs:79-84). An HTTP client keeps its connection to the proxy
open, so its next request comes on it, for whatever host, with its own
`Proxy-Authorization` line.

What should hold: no target gets a header line with that name, and every request goes to
the host its request line names. A target reads what it gets message by message, and
knows where each body ends (`arrived`).

Fix: parse every request, or write `Connection: close` to both sides and stop behind the
body of the first one.
-/
namespace Wrongsv.Bugs.MixedProxyPipelined
open L1.HttpUpgrade (Text splitHead splitOnce)
open L1.HttpUpgradeHead (eqIgnoreAsciiCase)
open L1.HttpForward L2.MixedProxy List
open L1.VlessHeader (Address)

/-- A request with proxy credentials, in a header of any position and letter case. -/
structure ProxyRequest extends ForwardRequest where
  authorized : ∃ f ∈ fields, eqIgnoreAsciiCase f.name.text "proxy-authorization".toList = true

/-- The requests of a connection, and how they are cut into reads. -/
structure Connection where
  requests : List ProxyRequest
  reads : List Bytes
  blocks : ∀ b ∈ reads, b ≠ [] ∧ b.length ≤ 1024
  bytes : reads.flatten = requests.flatMap (·.bytes)

/-- The heads a target finds in what it has got, each with the request it stands for. -/
def arrived : List ProxyRequest → Bytes → List (Bytes × ProxyRequest)
  | [], _ => []
  | r :: rs, data =>
    match splitHead data with
    | none => []
    | some (head, rest) => (head, r) :: arrived rs (rest.drop r.body.length)

section
variable (decoders : Decoders) (credentials : Credentials) (reachable : Address → UInt16 → Bool)
  (c : Connection)

/-- At every moment, and for every request that has reached the target. -/
def CredentialsKept : Prop :=
  ∀ request rest, handleMixedProxyConnection decoders (some credentials) reachable c.reads = .relaying request rest →
    ∀ n, ∀ p ∈ arrived c.requests (written request rest n),
      (∀ line ∈ (crlfLines p.1).tail, isNamedBytes "proxy-authorization".toList line = false) ∧
        Names decoders p.2.target.text request.address request.port

/-- What the handler asks of the first request: the head has come when a read ends behind the
limit, it is text of HTTP/1, its first `Proxy-Authorization` has the credentials, and its
target can be reached. -/
structure Accepted (reads : List Bytes) (r : ForwardRequest) : Prop where
  limit : ∀ k, httpHeaderLimit ≤ (reads.take k).flatten.length → r.head.length ≤ (reads.take k).flatten.length
  version : "HTTP/1.".toList.isPrefixOf r.version.text = true
  authorized : ∃ headers : List Text, headers.map encode = r.fields.map Field.line ∧
    authenticateHttpBasic decoders (proxyAuthorization headers) credentials = .ok ()
  target : ∃ address port hostHeader origin,
    parseAbsoluteHttpUri decoders r.target.text = .ok (address, port, hostHeader, origin) ∧
      reachable address port = true

variable {decoders credentials reachable c} {request : ConnectRequest} {rest lines : List Bytes}
  {later initial : Bytes}

theorem relaying_iff {reads : List Bytes} {r : ForwardRequest} (hbytes : reads.flatten = r.bytes ++ later) :
    handleMixedProxyConnection decoders (some credentials) reachable reads = .relaying request rest ↔
      acceptHttpRequest decoders (some credentials) reads = .ok (request, rest) ∧
        reachable request.address request.port = true := by
  have hhttp : detectProtocol reads = .ok .httpConnect := by
    -- the first byte is of the method, which has no control characters
    obtain ⟨first, word, hword⟩ := exists_cons_of_ne_nil (encode_ne_nil r.method.ne)
    have hmem : first ∈ encode r.method.text := hword ▸ mem_cons_self
    have h4 : first ≠ 4 := fun h =>
      absurd (r.method.visible _ (mem_of_mem_encode (by decide) (a := '\x04') rfl (h ▸ hmem))).1 (by decide)
    have h5 : first ≠ 5 := fun h =>
      absurd (r.method.visible _ (mem_of_mem_encode (by decide) (a := '\x05') rfl (h ▸ hmem))).1 (by decide)
    obtain ⟨tail, htail⟩ : ∃ tail, reads.flatten = first :: tail := by
      rw [hbytes, ForwardRequest.bytes, ForwardRequest.lines, ForwardRequest.requestLine, endPair,
        flatMap_cons, encode_append, hword]
      exact ⟨_, rfl⟩
    rw [detectProtocol, htail]
    dsimp only
    rw [if_neg h4, if_neg h5]
  rw [handleMixedProxyConnection, hhttp]
  dsimp only
  cases acceptHttpRequest decoders (some credentials) reads with
  | error e => exact iff_of_false (by rintro ⟨⟩) (by rintro ⟨⟨⟩, -⟩)
  | ok a =>
    obtain ⟨request', rest'⟩ := a
    dsimp only
    split
    · rename_i hreach
      constructor
      · intro h
        cases h
        exact ⟨rfl, hreach⟩
      · rintro ⟨h, -⟩
        cases h
        rfl
    · rename_i hreach
      refine iff_of_false (by rintro ⟨⟩) ?_
      rintro ⟨h, hreach'⟩
      cases h
      exact hreach hreach'

theorem proxyAuthorization_end (headers : List Text) :
    proxyAuthorization (headers ++ [[], []]) = proxyAuthorization headers := by
  rw [proxyAuthorization, filterMap_append, show [[], []].filterMap (splitOnce ':') = [] from rfl, append_nil]
  rfl

/-- **Which first requests are accepted.** -/
theorem exists_relaying_iff {reads : List Bytes} {r : ForwardRequest}
    (hblocks : ∀ b ∈ reads, b ≠ []) (hbytes : reads.flatten = r.bytes ++ later) :
    (∃ request rest, handleMixedProxyConnection decoders (some credentials) reachable reads =
      .relaying request rest) ↔
      Accepted decoders credentials reachable reads r := by
  have hhead : splitHead r.head = some (joinPair 13 10 r.lines, []) := by
    rw [r.head_eq]
    exact splitHead_endPair r.lines_ne r.lines_lines []
  have hstream : [] ++ reads.flatten = r.head ++ (r.body ++ later) := by
    rw [nil_append, hbytes, r.bytes_eq, append_assoc]
  have hread := readHttpHead_isOk_iff hhead reads [] hstream hblocks
  simp only [nil_append] at hread
  -- the bytes in front of the empty line are the head of the request
  have hfound {headBytes initial : Bytes} {rest : List Bytes}
      (h : readHttpHead [] reads = .ok (headBytes, initial, rest)) : headBytes = r.head := by
    obtain ⟨before, hbefore, hsplit⟩ := readHttpHead_ok h
    rw [nil_append, hbytes, r.splitHead_bytes] at hsplit
    rw [hbefore, ← (Prod.mk.inj (Option.some.inj hsplit)).1, ForwardRequest.head]
  simp only [relaying_iff hbytes]
  constructor
  · rintro ⟨request, rest, hok, hreach⟩
    obtain ⟨headBytes, initial, text, head, hfirst, hdecode, hparsed, hrequest⟩ := acceptHttpRequest_ok hok
    obtain ⟨headers, hheaders, hparse⟩ := r.parseRequestHead_head ((encode_of_decode hdecode).trans (hfound hfirst))
    rw [hparse] at hparsed
    split at hparsed
    · rename_i hversion
      cases hparsed
      obtain ⟨hauth, address, port, hostHeader, origin, huri, rfl⟩ := (connectRequest_forward r.forward).mp hrequest
      rw [authenticate, proxyAuthorization_end] at hauth
      exact ⟨hread.mp ⟨_, hfirst⟩, hversion, ⟨headers, hheaders, hauth⟩, address, port, hostHeader, origin, huri, hreach⟩
    · cases hparsed
  · rintro ⟨hlimit, hversion, ⟨headers, hheaders, hauth⟩, address, port, hostHeader, origin, huri, hreach⟩
    obtain ⟨⟨headBytes, initial, rest⟩, hfirst⟩ := hread.mpr hlimit
    obtain ⟨text, htext⟩ := r.exists_text hheaders
    have hdecode : decode headBytes = some text := by rw [hfound hfirst, ← htext, decode_encode]
    obtain ⟨headers', hheaders', hparse⟩ := r.parseRequestHead_head htext
    obtain rfl : headers' = headers :=
      List.map_injective_iff.mpr (fun _ _ h => encode_inj h) (hheaders'.trans hheaders.symm)
    rw [if_pos hversion] at hparse
    rw [← proxyAuthorization_end] at hauth
    let request : ConnectRequest := ⟨.httpForward, address, port, encode (buildHttpForwardHead
      r.method.text origin r.version.text hostHeader (headers' ++ [[], []])) ++ initial⟩
    have hrequest : connectRequest decoders (some credentials)
        ⟨r.method.text, r.target.text, r.version.text, headers' ++ [[], []]⟩ initial = .ok request :=
      (connectRequest_forward r.forward).mpr ⟨hauth, address, port, hostHeader, origin, huri, rfl⟩
    refine ⟨request, rest, ?_, hreach⟩
    simp only [acceptHttpRequest, hfirst, hdecode, hparse, hrequest]

/-- The target finds the new head first, and behind it what the client sent. -/
theorem splitHead_written {r : ForwardRequest} (h : Forwarded decoders r later request rest lines initial) (n : Nat) :
    splitHead (written request rest n) = some (joinPair 13 10 lines, initial ++ (rest.take n).flatten) := by
  rw [written, h.data, append_assoc]
  exact splitHead_endPair h.nonempty h.isLines _

theorem kept_of_single {r : ProxyRequest} (h : Forwarded decoders r.toForwardRequest later request rest lines initial)
    (n : Nat) : ∀ p ∈ arrived [r] (written request rest n),
      (∀ line ∈ (crlfLines p.1).tail, isNamedBytes "proxy-authorization".toList line = false) ∧
        Names decoders p.2.target.text request.address request.port := by
  have hlines : crlfLines (joinPair 13 10 lines) = lines := splitPair_joinPair h.nonempty fun l hl => (h.isLines l hl).2
  intro p hp
  rw [arrived, splitHead_written h] at hp
  obtain rfl := List.mem_singleton.mp hp
  rw [hlines]
  exact ⟨h.clean, h.names⟩

/-- **A second request arrives as it was sent**, credentials included. -/
theorem second_arrives {r r' : ProxyRequest} {rs : List ProxyRequest}
    (h : Forwarded decoders r.toForwardRequest ((r' :: rs).flatMap (·.bytes)) request rest lines initial) :
    (joinPair 13 10 r'.lines, r') ∈ arrived (r :: r' :: rs) (written request rest rest.length) := by
  have hsecond := r'.splitHead_bytes (rs.flatMap (·.bytes))
  rw [arrived, splitHead_written h, take_length, h.unchanged]
  grind [arrived]

theorem second_leaks (r' : ProxyRequest) : ∃ line ∈ (crlfLines (joinPair 13 10 r'.lines)).tail,
    isNamedBytes "proxy-authorization".toList line = true := by
  obtain ⟨f, hf, hname⟩ := r'.authorized
  rw [r'.crlfLines_head]
  exact ⟨f.line, mem_map_of_mem hf, (f.isNamedBytes_line _).trans hname⟩

theorem length_le_one_of_kept (h : CredentialsKept decoders credentials reachable c)
    (hrelay : handleMixedProxyConnection decoders (some credentials) reachable c.reads = .relaying request rest) :
    c.requests.length ≤ 1 := by
  have hbytes := c.bytes
  have hkept := h request rest hrelay rest.length
  match hrs : c.requests with
  | [] => exact Nat.zero_le _
  | [_] => exact Nat.le_refl _
  | r :: r' :: rs =>
    rw [hrs] at hbytes hkept
    obtain ⟨lines, initial, hforwarded⟩ :=
      acceptHttpRequest_forward r.toForwardRequest hbytes ((relaying_iff hbytes).mp hrelay).1
    obtain ⟨line, hline, hnamed⟩ := second_leaks r'
    have hclean := (hkept _ (second_arrives hforwarded)).1 line hline
    exact nomatch hnamed.symm.trans hclean

end

/-- **The credentials are kept exactly for single requests.** For every connection,
however it is cut into reads, and for all credentials: targets get no credentials
and only their own requests, if and only if the first request is not accepted or no
other follows. -/
theorem credentials_kept_iff (decoders : Decoders) (credentials : Credentials)
    (reachable : Address → UInt16 → Bool) (c : Connection) :
    CredentialsKept decoders credentials reachable c ↔
      (∀ r ∈ c.requests.head?, ¬ Accepted decoders credentials reachable c.reads r.toForwardRequest) ∨
        c.requests.length ≤ 1 := by
  have hbytes := c.bytes
  have hblocks : ∀ b ∈ c.reads, b ≠ [] := fun b hb => (c.blocks b hb).1
  match hrs : c.requests with
  | [] => exact iff_of_true (fun request rest _ n p hp => by rw [hrs] at hp; cases hp) (.inr (Nat.zero_le _))
  | [r] =>
    refine iff_of_true (fun request rest hrelay n => ?_) (.inr (Nat.le_refl _))
    rw [hrs, flatMap_cons] at hbytes
    obtain ⟨lines, initial, hforwarded⟩ :=
      acceptHttpRequest_forward r.toForwardRequest hbytes ((relaying_iff hbytes).mp hrelay).1
    rw [hrs]
    exact kept_of_single hforwarded n
  | r :: r' :: rs =>
    rw [hrs, flatMap_cons] at hbytes
    have haccepted : _ ↔ Accepted decoders credentials reachable c.reads r.toForwardRequest :=
      exists_relaying_iff hblocks hbytes
    constructor
    · intro h
      refine .inl fun r₀ hr₀ hacc => ?_
      cases hr₀
      obtain ⟨request, rest, hrelay⟩ := haccepted.mpr hacc
      have hlen := length_le_one_of_kept h hrelay
      rw [hrs] at hlen
      simp at hlen
    · rintro (hrefused | hsingle) request rest hrelay
      · exact absurd (haccepted.mp ⟨request, rest, hrelay⟩) (hrefused r rfl)
      · simp at hsingle

/-! ## Two requests on one connection -/

instance decidablePrintable (s : List Char) : Decidable (∀ c ∈ s, 33 ≤ c.toNat ∧ c.toNat < 127) := List.decidableBAll _ _

/-- A request with the credentials `u:p`. -/
def getWith (target : Word) : ProxyRequest where
  method := ⟨"GET".toList, by decide, by decide⟩
  target := target
  version := ⟨"HTTP/1.1".toList, by decide, by decide⟩
  fields := [⟨⟨"Proxy-Authorization".toList, by decide, by decide⟩, encode " Basic dTpw".toList, by decide, by decide,
    by decide⟩]
  body := []
  forward := by decide
  authorized := ⟨_, mem_cons_self, by decide⟩

def hostA : ProxyRequest := getWith ⟨"http://a/".toList, by decide, by decide⟩

def hostB : ProxyRequest := getWith ⟨"http://b/".toList, by decide, by decide⟩

def pipelined : Connection where
  requests := [hostA, hostB]
  reads := [hostA.bytes ++ hostB.bytes]
  blocks := by decide +kernel
  bytes := rfl

/-- Decoders for this token and for host names. -/
def names : Decoders := ⟨fun _ => some (encode "u:p".toList), fun _ => none, fun _ => none⟩

def userP : Credentials := ⟨"u".toList, "p".toList, by decide, by decide⟩

/-- **Counterexample**: the target `a` gets the request for `b`, with the credentials. -/
theorem second_request_to_first_host :
    handleMixedProxyConnection names (some userP) (fun _ _ => true) pipelined.reads =
      .relaying ⟨.httpForward, .domain "a", 80, encode ("GET / HTTP/1.1\r\nHost: a\r\n\r\n" ++
          "GET http://b/ HTTP/1.1\r\nProxy-Authorization: Basic dTpw\r\n\r\n").toList⟩ [] ∧
      ¬ CredentialsKept names userP (fun _ _ => true) pipelined := by
  have hread : readHttpHead [] pipelined.reads =
      .ok (encode "GET http://a/ HTTP/1.1\r\nProxy-Authorization: Basic dTpw\r\n\r\n".toList, hostB.bytes, []) := by
    rfl
  have hrelay : handleMixedProxyConnection names (some userP) (fun _ _ => true) pipelined.reads =
      .relaying ⟨.httpForward, .domain "a", 80, encode
        ("GET / HTTP/1.1\r\nHost: a\r\n\r\n" ++
          "GET http://b/ HTTP/1.1\r\nProxy-Authorization: Basic dTpw\r\n\r\n").toList⟩ [] := by
    unfold handleMixedProxyConnection acceptHttpRequest
    rw [hread]
    rfl
  refine ⟨hrelay, fun h => ?_⟩
  exact absurd (length_le_one_of_kept h hrelay) (by decide)

end Wrongsv.Bugs.MixedProxyPipelined
