import Mathlib.Data.List.TakeWhile
import Wrongsv.L1Encoding.HttpUpgradeHead
import Wrongsv.L1Encoding.VlessHeader

/-!
# The request head of the HTTP proxy

The parsers of server/mixed_proxy.rs for a head that has been read:
request line, proxy credentials, authority, absolute URI, and the head written to
the target in place of the client's. Text is decoded once for the whole head, cut
at CR LF, and written back as UTF-8.

The base64 decoder and the address parsers of the standard library are
parameters (`Decoders`).

Results: `map_encode_splitCrlf`, `parseAuthorityWithDefault_ok`,
`parseAbsoluteHttpUri_ok`, `forwardLines_clean`,
`ForwardRequest.parseRequestHead_head`.
-/
namespace Wrongsv.L1.HttpForward
open L1.HttpUpgrade List
open L1.HttpUpgradeHead (eqIgnoreAsciiCase splitHead_joinPair)
open L1.VlessHeader (Address)

/-! ## Text and bytes -/

/-- `as_bytes` -/
def encode (s : Text) : Bytes := s.flatMap String.utf8EncodeChar

/-- `String::from_utf8` -/
def decode (b : Bytes) : Option Text := (String.fromUTF8? ⟨b.toArray⟩).map String.toList

def crlf : Text := ['\r', '\n']

/-- `split("\r\n")` -/
def splitCrlf (s : Text) : List Text := splitPair '\r' '\n' s

/-- The lines of a head. -/
def crlfLines (b : Bytes) : List Bytes := splitPair 13 10 b

/-- `rsplit_once` -/
def rsplitOnce (sep : Char) (s : Text) : Option (Text × Text) :=
  (splitOnce sep s.reverse).map fun p => (p.2.reverse, p.1.reverse)

/-- `parse::<u16>()`: a sign and at least one digit. -/
def parseU16 (s : Text) : Option UInt16 :=
  let digits : Text := match s with
    | '+' :: digits => digits
    | digits => digits
  let value : Nat := digits.foldl (fun n c => 10 * n + (c.toNat - '0'.toNat)) 0
  if digits = [] ∨ ¬ digits.all Char.isDigit ∨ 65536 ≤ value then none else some (UInt16.ofNat value)

/-! ## The parsers -/

/-- The errors an HTTP request can raise; a read that fails is not modelled. -/
inductive MixedProxyError where
  | unexpectedEof
  | httpHeaderTooLarge
  | invalidHttpRequest
  | httpAuthRequired
  | httpAuthFailed
  | invalidHttpTarget
  deriving DecidableEq, Repr

structure Credentials where
  username : Text
  password : Text
  username_len : username ≠ [] ∧ (encode username).length ≤ 255
  password_len : password ≠ [] ∧ (encode password).length ≤ 255

def Credentials.basicValue (c : Credentials) : Text := c.username ++ ':' :: c.password

/-- `STANDARD.decode`, and the parsers of `Ipv4Addr` and `Ipv6Addr`. -/
structure Decoders where
  base64 : Text → Option Bytes
  ipv4 : Text → Option { b : Bytes // b.length = 4 }
  ipv6 : Text → Option { b : Bytes // b.length = 16 }

inductive MixedProtocol where
  | socks4
  | socks5
  | httpConnect
  | httpForward
  deriving DecidableEq, Repr

structure ConnectRequest where
  protocol : MixedProtocol
  address : Address
  port : UInt16
  initialData : Bytes
  deriving DecidableEq, Repr

/-- What the first lines of `accept_http_request` take from the head. -/
structure RequestHead where
  method : Text
  target : Text
  version : Text
  headerLines : List Text
  deriving DecidableEq, Repr

/-- The header line has this name, in any letter case. -/
def isNamed (name line : Text) : Bool :=
  match splitOnce ':' line with
  | some (key, _) => eqIgnoreAsciiCase (trim key) name
  | none => false

def parseRequestHead (head : Text) : Except MixedProxyError RequestHead :=
  match splitCrlf head with
  | [] => .error .invalidHttpRequest
  | requestLine :: headerLines =>
    match splitWhitespace requestLine with
    | [method, target, version] =>
      if "HTTP/1.".toList.isPrefixOf version then .ok ⟨method, target, version, headerLines⟩
      else .error .invalidHttpRequest
    | _ => .error .invalidHttpRequest

/-- The value of the first header with the name. -/
def proxyAuthorization (headerLines : List Text) : Option Text :=
  ((headerLines.filterMap (splitOnce ':')).find? fun p =>
    eqIgnoreAsciiCase (trim p.1) "proxy-authorization".toList).map fun p => trim p.2

section
variable (decoders : Decoders)

/-- mixed_proxy.rs:365-384 -/
def authenticateHttpBasic (proxyAuth : Option Text) (credentials : Credentials) :
    Except MixedProxyError Unit :=
  match proxyAuth.bind (splitOnce ' ') with
  | none => .error .httpAuthRequired
  | some (scheme, token) =>
    if !eqIgnoreAsciiCase scheme "basic".toList then .error .httpAuthRequired
    else match decoders.base64 (trim token) with
      | none => .error .httpAuthRequired
      | some decoded =>
        if decoded = encode credentials.basicValue then .ok () else .error .httpAuthFailed

/-- net-types/address.rs:27-42 -/
def parseAddress (s : Text) : Address :=
  let s := trim s
  let s := if s.head? = some '[' ∧ s.getLast? = some ']' then s.tail.dropLast else s
  match decoders.ipv4 s, decoders.ipv6 s with
  | some octets, _ => .ipv4 octets
  | none, some octets => .ipv6 octets
  | none, none => .domain (String.ofList s)

/-- The end of `parse_authority_with_default`, with a port. -/
def parsePort (host port hostHeader : Text) (bracketed : Bool) :
    Except MixedProxyError (Address × UInt16 × Text) :=
  if host = [] ∨ port = [] ∨ (!bracketed ∧ ':' ∈ host) then .error .invalidHttpTarget
  else match parseU16 port with
    | none => .error .invalidHttpTarget
    | some port =>
      if port = 0 then .error .invalidHttpTarget else .ok (parseAddress decoders host, port, hostHeader)

/-- The end of `parse_authority_with_default` without one. -/
def defaultPort (host hostHeader : Text) :
    Option UInt16 → Except MixedProxyError (Address × UInt16 × Text)
  | none => .error .invalidHttpTarget
  | some port => .ok (parseAddress decoders host, port, hostHeader)

/-- mixed_proxy.rs:411-457 -/
def parseAuthorityWithDefault (authority : Text) (default : Option UInt16) :
    Except MixedProxyError (Address × UInt16 × Text) :=
  if authority = [] ∨ '@' ∈ authority then .error .invalidHttpTarget
  else match authority.dropPrefix? ['['] with
    | some rest =>
      match splitOnce ']' rest with
      | none => .error .invalidHttpTarget
      | some (host, suffix) =>
        if host = [] then .error .invalidHttpTarget
        else match suffix with
          | ':' :: port => parsePort decoders host port authority true
          | [] => defaultPort decoders host ('[' :: host ++ [']']) default
          | _ => .error .invalidHttpTarget
    | none =>
      match rsplitOnce ':' authority with
      | some (host, port) => parsePort decoders host port authority false
      | none =>
        if ':' ∈ authority then .error .invalidHttpTarget
        else defaultPort decoders authority authority default

def parseAuthority (target : Text) : Except MixedProxyError (Address × UInt16) :=
  (parseAuthorityWithDefault decoders target none).map fun r => (r.1, r.2.1)

/-- What is behind the authority, as the target of a request to the host. -/
def originForm : Text → Except MixedProxyError Text
  | [] => .ok ['/']
  | '/' :: path => .ok ('/' :: path)
  | '?' :: query => .ok ('/' :: '?' :: query)
  | _ => .error .invalidHttpTarget

/-- mixed_proxy.rs:390-409 -/
def parseAbsoluteHttpUri (target : Text) :
    Except MixedProxyError (Address × UInt16 × Text × Text) :=
  match target.dropPrefix? "http://".toList with
  | none => .error .invalidHttpTarget
  | some rest =>
    if rest = [] ∨ '#' ∈ rest then .error .invalidHttpTarget
    else
      match originForm (rest.dropWhile fun c => c ≠ '/' ∧ c ≠ '?') with
      | .error e => .error e
      | .ok origin =>
        match parseAuthorityWithDefault decoders (rest.takeWhile fun c => c ≠ '/' ∧ c ≠ '?') (some 80) with
        | .error e => .error e
        | .ok (address, port, hostHeader) => .ok (address, port, hostHeader, origin)

/-- A header line that goes to the target. -/
def isForwarded (line : Text) : Bool :=
  !(line.isEmpty || isNamed "host".toList line || isNamed "proxy-authorization".toList line ||
    isNamed "proxy-connection".toList line)

/-- The lines of the head for the target. -/
def forwardLines (method origin version hostHeader : Text) (headerLines : List Text) : List Text :=
  (method ++ ' ' :: (origin ++ ' ' :: version)) :: ("Host: ".toList ++ hostHeader) :: headerLines.filter isForwarded

/-- mixed_proxy.rs:459-485 -/
def buildHttpForwardHead (method origin version hostHeader : Text) (headerLines : List Text) :
    Text :=
  endPair '\r' '\n' (forwardLines method origin version hostHeader headerLines) ++ crlf

def authenticate (credentials : Option Credentials) (headerLines : List Text) :
    Except MixedProxyError Unit :=
  match credentials with
  | none => .ok ()
  | some credentials => authenticateHttpBasic decoders (proxyAuthorization headerLines) credentials

def connectRequest (credentials : Option Credentials) (head : RequestHead) (initialData : Bytes) :
    Except MixedProxyError ConnectRequest :=
  match authenticate decoders credentials head.headerLines with
  | .error e => .error e
  | .ok () =>
    if head.method = "CONNECT".toList then
      match parseAuthority decoders head.target with
      | .error e => .error e
      | .ok (address, port) => .ok ⟨.httpConnect, address, port, initialData⟩
    else
      match parseAbsoluteHttpUri decoders head.target with
      | .error e => .error e
      | .ok (address, port, hostHeader, origin) =>
        .ok ⟨.httpForward, address, port,
          encode (buildHttpForwardHead head.method origin head.version hostHeader head.headerLines) ++ initialData⟩

end

/-! ## UTF-8 -/

section
variable {a c : Char} {b : UInt8} {s : Text}

theorem toNat_of_mem_utf8EncodeChar (hb : b.toNat < 128) (h : b ∈ String.utf8EncodeChar c) :
    c.toNat = b.toNat := by
  have hv : c.val.toNat = c.toNat := rfl
  have hhigh : ∀ n, 128 ≤ n → n < 256 → b ≠ UInt8.ofNat n := by
    grind [UInt8.toNat_ofNat_of_lt']
  rw [String.utf8EncodeChar.eq_def] at h
  simp only [hv] at h
  split at h
  · grind [UInt8.toNat_ofNat_of_lt']
  · -- every byte of a longer encoding has its high bit set
    grind

theorem utf8EncodeChar_ne_nil (c : Char) : String.utf8EncodeChar c ≠ [] := by
  simp

theorem eq_of_mem_utf8EncodeChar (hb : b.toNat < 128) (ha : a.toNat = b.toNat)
    (h : b ∈ String.utf8EncodeChar c) : c = a :=
  Char.toNat_inj.mp ((toNat_of_mem_utf8EncodeChar hb h).trans ha.symm)

theorem mem_of_mem_encode (hb : b.toNat < 128) (ha : a.toNat = b.toNat) (h : b ∈ encode s) :
    a ∈ s := by
  obtain ⟨c, hc, hmem⟩ := List.mem_flatMap.mp h
  exact eq_of_mem_utf8EncodeChar hb ha hmem ▸ hc

theorem encode_append (s t : Text) : encode (s ++ t) = encode s ++ encode t := flatMap_append

theorem encode_ne_nil (h : s ≠ []) : encode s ≠ [] := by
  obtain ⟨c, s, rfl⟩ := exists_cons_of_ne_nil h
  exact append_ne_nil_of_left_ne_nil (utf8EncodeChar_ne_nil c) _

theorem cr_notMem_encode (h : '\r' ∉ s) : (13 : UInt8) ∉ encode s :=
  fun hmem => h (mem_of_mem_encode (by decide) rfl hmem)

theorem utf8_ofList (s : Text) : VlessHeader.utf8 (String.ofList s) = encode s := by
  rw [VlessHeader.utf8, String.toUTF8, String.toByteArray_ofList, List.utf8Encode, encode, toList_data_toByteArray]

theorem decode_encode (s : Text) : decode (encode s) = some s := by
  rw [decode, ← utf8_ofList, VlessHeader.fromUTF8_utf8, Option.map_some, String.toList_ofList]

theorem encode_of_decode {b : Bytes} (h : decode b = some s) : encode s = b := by
  obtain ⟨text, htext, hs⟩ := Option.map_eq_some_iff.mp h
  rw [String.fromUTF8?] at htext
  split at htext
  · cases htext
    rw [← hs, ← utf8_ofList, String.ofList_toList]
    rfl
  · cases htext

theorem encode_inj {s t : Text} (h : encode s = encode t) : s = t := by
  grind [decode_encode]

/-- **The lines of the text are the lines of its bytes.** -/
theorem map_encode_splitCrlf (s : Text) : (splitCrlf s).map encode = crlfLines (encode s) :=
  map_splitPair (show String.utf8EncodeChar '\r' = [13] from rfl) (show String.utf8EncodeChar '\n' = [10] from rfl)
    utf8EncodeChar_ne_nil (fun _ => eq_of_mem_utf8EncodeChar (by decide) rfl)
    (fun _ => eq_of_mem_utf8EncodeChar (by decide) rfl) s

theorem encode_endPair (ls : List Text) :
    encode (endPair '\r' '\n' ls) = endPair 13 10 (ls.map encode) := by
  induction ls with
  | nil => rfl
  | cons l ls ih =>
    have hl : endPair '\r' '\n' (l :: ls) = l ++ (crlf ++ endPair '\r' '\n' ls) := by
      rw [endPair, flatMap_cons, append_assoc]
      rfl
    rw [hl, encode_append, encode_append, ih, map_cons, endPair, endPair, flatMap_cons, append_assoc]
    rfl

end

/-! ## Names of header lines -/

/-- The header line has this name, in any letter case; as `isNamed`, on bytes
that need not be text behind the colon. -/
def isNamedBytes (name : Text) (line : Bytes) : Bool :=
  line.contains 58 && match decode (line.takeWhile (· ≠ 58)) with
    | some key => eqIgnoreAsciiCase (trim key) name
    | none => false

theorem splitOnce_some {sep : Char} {s x y : Text} (h : splitOnce sep s = some (x, y)) :
    s = x ++ sep :: y ∧ sep ∉ x := by
  unfold splitOnce upTo at h
  have hall := takeWhile_append_dropWhile (p := fun c => decide (c ≠ sep)) (l := s)
  split at h
  · cases h
  rename_i c after hdrop
  cases h
  have hc : c = sep := by
    have := List.head?_dropWhile_not (fun c => decide (c ≠ sep)) s
    rw [hdrop] at this
    simpa using this
  grind [mem_takeWhile_imp]

theorem splitOnce_none {sep : Char} {s : Text} (h : splitOnce sep s = none) : sep ∉ s := by
  grind [splitOnce, dropWhile_eq_nil_iff]

theorem takeWhile_ne_append {α : Type} [DecidableEq α] {sep : α} {x : List α} (h : sep ∉ x)
    (y : List α) : (x ++ sep :: y).takeWhile (· ≠ sep) = x := by
  have hx : ∀ c ∈ x, decide (c ≠ sep) = true := fun c hc => decide_eq_true fun heq => h (heq ▸ hc)
  rw [takeWhile_append_of_pos hx]
  simp

theorem isNamedBytes_append {key : Text} (h : ':' ∉ key) (name : Text) (value : Bytes) :
    isNamedBytes name (encode key ++ 58 :: value) = eqIgnoreAsciiCase (trim key) name := by
  have hmem : (58 : UInt8) ∉ encode key := fun hmem => h (mem_of_mem_encode (by decide) rfl hmem)
  grind [isNamedBytes, takeWhile_ne_append, decode_encode]

theorem isNamedBytes_encode (name line : Text) :
    isNamedBytes name (encode line) = isNamed name line := by
  unfold isNamed
  cases h : splitOnce ':' line with
  | none =>
    have hmem : (58 : UInt8) ∉ encode line := fun hmem =>
      splitOnce_none h (mem_of_mem_encode (by decide) rfl hmem)
    grind [isNamedBytes]
  | some p =>
    obtain ⟨hline, hkey⟩ := splitOnce_some h
    have hbytes : encode line = encode p.1 ++ 58 :: encode p.2 := by rw [hline, encode_append]; rfl
    rw [hbytes, isNamedBytes_append hkey]

/-! ## The end of a head -/

theorem splitHead_endPair {ls : List Bytes} (hne : ls ≠ []) (h : ∀ l ∈ ls, l ≠ [] ∧ (13 : UInt8) ∉ l) (rest : Bytes) :
    splitHead (endPair 13 10 ls ++ (13 :: 10 :: rest)) = some (joinPair 13 10 ls, rest) := by
  rw [endPair_eq_joinPair hne, append_assoc]
  exact splitHead_joinPair hne h rest

/-! ## The destination -/

/-- What an authority names: a host, and a port if it has one. -/
inductive Authority : Text → Text → Option UInt16 → Prop where
  | host {host : Text} : ':' ∉ host → host.head? ≠ some '[' → Authority host host none
  | hostPort {host digits : Text} {port : UInt16} : ':' ∉ host → host.head? ≠ some '[' →
      parseU16 digits = some port → Authority (host ++ ':' :: digits) host (some port)
  | bracketed {host : Text} : ']' ∉ host → Authority ('[' :: host ++ [']']) host none
  | bracketedPort {host digits : Text} {port : UInt16} : ']' ∉ host →
      parseU16 digits = some port → Authority ('[' :: host ++ ']' :: ':' :: digits) host (some port)

/-- The absolute URI is one of `http` with this authority. -/
def AbsoluteForm (target authority : Text) : Prop :=
  ∃ path, target = "http://".toList ++ (authority ++ path) ∧ '/' ∉ authority ∧ '?' ∉ authority ∧
    (path = [] ∨ path.head? = some '/' ∨ path.head? = some '?')

/-- The request target names this destination. -/
def Names (decoders : Decoders) (target : Text) (address : Address) (port : UInt16) : Prop :=
  ∃ authority host named, AbsoluteForm target authority ∧ Authority authority host named ∧
    address = parseAddress decoders host ∧ port = named.getD 80

theorem rsplitOnce_some {sep : Char} {s x y : Text} (h : rsplitOnce sep s = some (x, y)) :
    s = x ++ sep :: y := by
  obtain ⟨⟨u, v⟩, huv, heq⟩ := Option.map_eq_some_iff.mp h
  grind [splitOnce_some]

section
variable {decoders : Decoders} {address : Address} {port : UInt16} {hostHeader : Text}

theorem parsePort_ok {host digits authority : Text} {bracketed : Bool}
    (h : parsePort decoders host digits authority bracketed = .ok (address, port, hostHeader)) :
    host ≠ [] ∧ (bracketed = false → ':' ∉ host) ∧ parseU16 digits = some port ∧
      address = parseAddress decoders host ∧ hostHeader = authority := by
  unfold parsePort at h
  split at h
  · cases h
  rename_i hhost
  split at h
  · cases h
  split at h
  · cases h
  cases h
  exact ⟨fun hnil => hhost (.inl hnil), fun hplain hcolon => hhost (.inr (.inr ⟨by rw [hplain]; rfl, hcolon⟩)),
    ‹_›, rfl, rfl⟩

/-- **What is connected to is what the authority names**, and the `Host` header
is the authority itself. -/
theorem parseAuthorityWithDefault_ok {authority : Text} {default : Option UInt16}
    (h : parseAuthorityWithDefault decoders authority default = .ok (address, port, hostHeader)) :
    hostHeader = authority ∧ ∃ host named, Authority authority host named ∧ address = parseAddress decoders host ∧
        (named <|> default) = some port := by
  unfold parseAuthorityWithDefault at h
  split at h
  · cases h
  rename_i hchecks
  split at h
  · rename_i rest hrest
    obtain ⟨p, hauth, hp⟩ := List.dropPrefix?_eq_some_iff.mp hrest
    rw [beq_iff_eq] at hp
    subst hp
    split at h
    · cases h
    rename_i host suffix hsplit
    obtain ⟨hhost, hclose⟩ := splitOnce_some hsplit
    split at h
    · cases h
    split at h
    · obtain ⟨-, -, hport, haddr, hheader⟩ := parsePort_ok h
      rw [hauth, hhost]
      exact ⟨hheader.trans (by rw [hauth, hhost]), host, some port, .bracketedPort hclose hport, haddr, rfl⟩
    · cases default with
      | none => cases h
      | some p =>
        cases h
        rw [hauth, hhost]
        exact ⟨rfl, host, none, .bracketed hclose, rfl, rfl⟩
    · cases h
  · rename_i hbracket
    have hopen : ∀ host tail : Text, authority = host ++ tail → host ≠ [] → host.head? ≠ some '[' := by
      intro host tail hauth hne hhead
      obtain ⟨rest, hrest⟩ := List.head?_eq_some_iff.mp hhead
      have hsome : authority.dropPrefix? ['['] = some (rest ++ tail) :=
        List.dropPrefix?_eq_some_iff.mpr ⟨['['], by rw [hauth, hrest]; rfl, by simp⟩
      rw [hbracket] at hsome
      cases hsome
    split at h
    · rename_i host digits hsplit
      have hauth := rsplitOnce_some hsplit
      obtain ⟨hne, hcolon, hport, haddr, hheader⟩ := parsePort_ok h
      refine ⟨hheader, host, some port, ?_, haddr, rfl⟩
      rw [hauth]
      exact .hostPort (hcolon rfl) (hopen host _ hauth hne) hport
    · split at h
      · cases h
      rename_i hcolon
      cases default with
      | none => cases h
      | some p =>
        have hfirst := hopen authority [] (append_nil _).symm fun heq => hchecks (.inl heq)
        cases h
        exact ⟨rfl, _, none, .host hcolon hfirst, rfl, rfl⟩

theorem originForm_ok {path origin : Text} (h : originForm path = .ok origin) :
    (path = [] ∨ path.head? = some '/' ∨ path.head? = some '?') ∧ ∀ c ∈ origin, c = '/' ∨ c ∈ path := by
  unfold originForm at h
  grind

/-- **An absolute URI that is accepted names the destination**, and what is
written to the target is made of its characters. -/
theorem parseAbsoluteHttpUri_ok {target origin : Text}
    (h : parseAbsoluteHttpUri decoders target = .ok (address, port, hostHeader, origin)) :
    Names decoders target address port ∧ ∀ c ∈ hostHeader ++ origin, c ∈ target := by
  unfold parseAbsoluteHttpUri at h
  split at h
  · cases h
  rename_i rest hrest
  obtain ⟨p, htarget, hp⟩ := List.dropPrefix?_eq_some_iff.mp hrest
  rw [beq_iff_eq] at hp
  split at h
  · cases h
  split at h
  · cases h
  rename_i origin' horigin
  split at h
  · cases h
  rename_i address' port' header hauth
  cases h
  obtain ⟨hheader, host, named, hnames, haddr, hport⟩ := parseAuthorityWithDefault_ok hauth
  obtain ⟨hform, hchars⟩ := originForm_ok horigin
  have hall := takeWhile_append_dropWhile (p := fun c => decide (c ≠ '/' ∧ c ≠ '?')) (l := rest)
  have hnot : ∀ c ∈ hostHeader, c ≠ '/' ∧ c ≠ '?' := fun c hc => by
    rw [hheader] at hc
    simpa using mem_takeWhile_imp hc
  rw [← hheader] at hall hnames
  have hsplit := htarget
  rw [hp, ← hall] at hsplit
  have habsolute : AbsoluteForm target hostHeader :=
    ⟨_, hsplit, fun hm => (hnot _ hm).1 rfl, fun hm => (hnot _ hm).2 rfl, hform⟩
  refine ⟨⟨hostHeader, host, named, habsolute, hnames, haddr, ?_⟩, fun c hc => ?_⟩
  all_goals grind

end

/-! ## The head for the target -/

/-- **No header line for the target has the name of the credentials.** -/
theorem forwardLines_clean (method origin version hostHeader : Text) (headerLines : List Text) :
    ∀ line ∈ ((forwardLines method origin version hostHeader headerLines).map encode).tail,
      isNamedBytes "proxy-authorization".toList line = false := by
  intro line hline
  obtain ⟨text, htext, rfl⟩ := List.mem_map.mp hline
  rw [isNamedBytes_encode]
  rcases List.mem_cons.mp htext with rfl | hkept
  · rfl
  all_goals grind [isForwarded]

/-- The lines for the target are lines, if those of the client are. -/
theorem forwardLines_lines {method origin version hostHeader : Text} {headerLines : List Text}
    (hfirst : '\r' ∉ method ++ (origin ++ (version ++ hostHeader)))
    (hlines : ∀ l ∈ headerLines, (13 : UInt8) ∉ encode l) :
    ∀ l ∈ (forwardLines method origin version hostHeader headerLines).map encode, l ≠ [] ∧ (13 : UInt8) ∉ l := by
  simp only [mem_append, not_or] at hfirst
  intro line hline
  obtain ⟨text, htext, rfl⟩ := List.mem_map.mp hline
  rcases List.mem_cons.mp htext with rfl | htext
  · refine ⟨encode_ne_nil (append_ne_nil_of_right_ne_nil _ (cons_ne_nil _ _)), cr_notMem_encode ?_⟩
    simp_all
  all_goals grind [encode_ne_nil, cr_notMem_encode, isForwarded]

/-! ## Requests as a client writes them -/

/-- Visible ASCII characters: a method, a request target, a version or the name of a header. -/
structure Word where
  text : Text
  ne : text ≠ []
  visible : ∀ c ∈ text, 33 ≤ c.toNat ∧ c.toNat < 127

namespace Word

variable (w : Word)

theorem cr_notMem : '\r' ∉ w.text := fun h => absurd (w.visible _ h).1 (by decide)

theorem not_whitespace {c : Char} (h : c ∈ w.text) : isWhitespace c = false := by
  obtain ⟨hlow, hhigh⟩ := w.visible c h
  grind [isWhitespace]

theorem trim_text : trim w.text = w.text := by
  have hdrop : ∀ s : Text, (∀ c ∈ s, isWhitespace c = false) → s.dropWhile isWhitespace = s := by
    simp_all
  rw [trim, hdrop _ fun c => w.not_whitespace, hdrop _ fun c hc => w.not_whitespace
    (List.mem_reverse.mp hc), reverse_reverse]

end Word

theorem splitWhitespace_go_word {s : Text} (h : ∀ c ∈ s, isWhitespace c = false) (rest : Text) :
    ∀ acc, splitWhitespace.go acc (s ++ rest) = splitWhitespace.go (s.reverse ++ acc) rest := by
  induction s with
  | nil => exact fun acc => rfl
  | cons c s ih => grind [splitWhitespace.go]

theorem splitWhitespace_word (w : Word) : splitWhitespace w.text = [w.text] := by
  have hgo := splitWhitespace_go_word (fun c => w.not_whitespace) [] []
  rw [append_nil, append_nil] at hgo
  rw [splitWhitespace, hgo, splitWhitespace.go, if_neg (by simpa using w.ne), reverse_reverse]

theorem splitWhitespace_word_cons (w : Word) (rest : Text) :
    splitWhitespace (w.text ++ ' ' :: rest) = w.text :: splitWhitespace rest := by
  rw [splitWhitespace, splitWhitespace_go_word fun c => w.not_whitespace, append_nil,
    splitWhitespace.go, if_pos (by decide), if_neg (by simpa using w.ne), reverse_reverse]
  rfl

/-- A header line; the value can have any bytes but the line ends. -/
structure Field where
  name : Word
  value : Bytes
  colon : ':' ∉ name.text
  value_cr : (13 : UInt8) ∉ value
  value_lf : (10 : UInt8) ∉ value

namespace Field

variable (f : Field)

def line : Bytes := encode f.name.text ++ 58 :: f.value

theorem line_ne : f.line ≠ [] := append_ne_nil_of_right_ne_nil _ (cons_ne_nil _ _)

theorem line_cr : (13 : UInt8) ∉ f.line := by
  rw [line, mem_append, mem_cons]
  rintro (h | h | h)
  · exact cr_notMem_encode f.name.cr_notMem h
  · exact absurd h (by decide)
  · exact f.value_cr h

theorem isNamedBytes_line (name : Text) :
    isNamedBytes name f.line = eqIgnoreAsciiCase f.name.text name := by
  rw [line, isNamedBytes_append f.colon, f.name.trim_text]

end Field

/-- A request that is not a CONNECT, with its body. -/
structure ForwardRequest where
  method : Word
  target : Word
  version : Word
  fields : List Field
  body : Bytes
  forward : method.text ≠ "CONNECT".toList

namespace ForwardRequest

variable (r : ForwardRequest)

def requestLine : Text := r.method.text ++ ' ' :: (r.target.text ++ ' ' :: r.version.text)

def lines : List Bytes := encode r.requestLine :: r.fields.map Field.line

def bytes : Bytes := endPair 13 10 r.lines ++ (13 :: 10 :: r.body)

theorem lines_ne : r.lines ≠ [] := cons_ne_nil _ _

theorem requestLine_words :
    splitWhitespace r.requestLine = [r.method.text, r.target.text, r.version.text] := by
  rw [requestLine, splitWhitespace_word_cons, splitWhitespace_word_cons, splitWhitespace_word]

theorem lines_lines : ∀ l ∈ r.lines, l ≠ [] ∧ (13 : UInt8) ∉ l := by
  intro l hl
  rcases List.mem_cons.mp hl with rfl | hl
  · refine ⟨encode_ne_nil (append_ne_nil_of_right_ne_nil _ (cons_ne_nil _ _)), cr_notMem_encode ?_⟩
    simp only [requestLine, mem_append, mem_cons, not_or]
    exact ⟨r.method.cr_notMem, by decide, r.target.cr_notMem, by decide, r.version.cr_notMem⟩
  · obtain ⟨f, -, rfl⟩ := List.mem_map.mp hl
    exact ⟨f.line_ne, f.line_cr⟩

theorem splitHead_bytes (rest : Bytes) :
    splitHead (r.bytes ++ rest) = some (joinPair 13 10 r.lines, r.body ++ rest) := by
  rw [bytes, append_assoc]
  exact splitHead_endPair r.lines_ne r.lines_lines _

theorem crlfLines_head : crlfLines (joinPair 13 10 r.lines) = r.lines :=
  splitPair_joinPair r.lines_ne fun l hl => (r.lines_lines l hl).2

/-- The head up to its empty line. -/
def head : Bytes := joinPair 13 10 r.lines ++ terminator

theorem head_eq : r.head = endPair 13 10 r.lines ++ [13, 10] := by
  rw [head, endPair_eq_joinPair r.lines_ne, append_assoc]
  rfl

theorem bytes_eq : r.bytes = r.head ++ r.body := by
  rw [bytes, head_eq, append_assoc]
  rfl

/-- **The text of a head is read as its three words and its header lines.** -/
theorem parseRequestHead_head {text : Text} (htext : encode text = r.head) :
    ∃ headers : List Text, headers.map encode = r.fields.map Field.line ∧
      parseRequestHead text = if "HTTP/1.".toList.isPrefixOf r.version.text then
        .ok ⟨r.method.text, r.target.text, r.version.text, headers ++ [[], []]⟩ else .error .invalidHttpRequest := by
  have hlines : (splitCrlf text).map encode = r.lines ++ [[], []] := by
    rw [map_encode_splitCrlf, htext, head_eq, crlfLines, splitPair_endPair fun l hl => (r.lines_lines l hl).2]
    rfl
  obtain ⟨first, rest, hsplit, hfirst, hrest⟩ := List.map_eq_cons_iff.mp (hlines.trans (cons_append ..))
  obtain ⟨headers, ends, rfl, hheaders, hends⟩ := List.map_eq_append_iff.mp hrest
  have hends' : ends = [[], []] :=
    List.map_injective_iff.mpr (fun _ _ h => encode_inj h) (hends.trans (show _ = [[], []].map encode from rfl))
  refine ⟨headers, hheaders, ?_⟩
  rw [parseRequestHead, hsplit, encode_inj hfirst, hends']
  simp only [requestLine_words]

/-- A head of text in all its fields is text. -/
theorem exists_text {headers : List Text} (h : headers.map encode = r.fields.map Field.line) :
    ∃ text, encode text = r.head := by
  refine ⟨endPair '\r' '\n' (r.requestLine :: headers) ++ crlf, ?_⟩
  rw [encode_append, encode_endPair, map_cons, h, head_eq]
  rfl

end ForwardRequest

end Wrongsv.L1.HttpForward
