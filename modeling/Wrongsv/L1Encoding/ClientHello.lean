import Wrongsv.Core.Checked

/-!
# TLS ClientHello for REALITY

The parser and the builder of `reality/hello.rs`. The parser takes
three fields out of the first record of a connection:

  record(5) type(1) len(3) version(2) random(32) sid_len(1) session_id(32)
  suites_len(2) suites compression(2) ext_len(2) extensions

the random, the session id and the first X25519 key of the key_share extension.

Results: `safe_parseClientHello`, `parseClientHello_build`, `client_hello_parsed`.
-/
namespace Wrongsv.L1.ClientHello
open Checked List

/-- reality/lib.rs:28-39 -/
inductive RealityError where
  | io (text : String)
  | tlsParse (text : String)
  | authFailed (text : String)
  | certError (text : String)
  | tlsHandshake (text : String)
  deriving DecidableEq, Repr

/-- `[u8; 32]` -/
abbrev Bytes32 := { b : Bytes // b.length = 32 }

def tlsHandshake : UInt8 := 0x16
def tlsClientHello : UInt8 := 0x01
def extKeyShare : Nat := 0x0033
def namedGroupX25519 : Nat := 0x001d

structure ParsedClientHello where
  rawBody : Bytes
  random : Bytes32
  sessionId : Bytes32
  keyShare : Bytes32
  deriving DecidableEq, Repr

/-! ## The parser -/

def u24 (a b c : UInt8) : Nat := a.toNat * 65536 + b.toNat * 256 + c.toNat

def indexU24 (data : Bytes) (i : Nat) : Checked RealityError Nat := do
  let a ← index data i
  let b ← index data (i + 1)
  let c ← index data (i + 2)
  return u24 a b c

/-- The scan of the key share entries; `none` when it ends without a key. -/
def scanShares (extData : Bytes) (extEnd sharesEnd pos : Nat) :
    Checked RealityError (Option Bytes32) :=
  if h : pos + 4 ≤ extEnd ∧ pos + 4 ≤ sharesEnd then do
    let group ← indexU16 extData pos
    let keLen ← indexU16 extData (pos + 2)
    if group = namedGroupX25519 ∧ keLen = 32 then
      if pos + 4 + 32 > extEnd then return none
      else
        let key ← copyFrom 32 extData (pos + 4)
        return some key
    else scanShares extData extEnd sharesEnd (pos + 4 + keLen)
  else return none
termination_by extEnd - pos
decreasing_by omega

/-- The scan of the extensions from `pos` on. The end of the shares is counted
from their length field on, not from behind it.
hello.rs:213-254 -/
def parseKeyShareExt (extData : Bytes) (extEnd pos : Nat) : Checked RealityError Bytes32 :=
  if h : pos + 4 ≤ extEnd then do
    let extType ← indexU16 extData pos
    let extLen ← indexU16 extData (pos + 2)
    if extType = extKeyShare then
      if pos + 4 + 2 > extEnd then throw (.tlsParse "key_share extension (0x0033) not found")
      else
        let sharesLen ← indexU16 extData (pos + 4)
        match ← scanShares extData extEnd (pos + 4 + sharesLen) (pos + 4 + 2) with
        | some key => return key
        | none => throw (.tlsParse "X25519 key_share not found in extension")
    else parseKeyShareExt extData extEnd (pos + 4 + extLen)
  else throw (.tlsParse "key_share extension (0x0033) not found")
termination_by extEnd - pos
decreasing_by omega

/-- `{:02x}` -/
def hex02 (b : UInt8) : String :=
  String.ofList [Nat.digitChar (b.toNat / 16), Nat.digitChar (b.toNat % 16)]

/-- `buffer too short for {what}: need {need}, got {got}` -/
def tooShort (what : String) (need got : Nat) : RealityError :=
  .tlsParse ("buffer too short for " ++ what ++ ": need " ++ toString need ++ ", got " ++ toString got)

/-- hello.rs:31-127 -/
def parseClientHello (buf : Bytes) : Checked RealityError ParsedClientHello := do
  rejectIf (buf.length < 5) (.tlsParse "buffer too short for TLS record header")
  let recordType ← index buf 0
  rejectIf (recordType ≠ tlsHandshake) (.tlsParse ("expected TLS handshake (0x16), got 0x" ++ hex02 recordType))
  let recordLen ← indexU16 buf 3
  rejectIf (buf.length < 5 + recordLen) (tooShort "TLS record" (5 + recordLen) buf.length)
  let hs ← range buf 5 buf.length
  rejectIf (hs.length < 4) (.tlsParse "buffer too short for handshake header")
  let hsType ← index hs 0
  rejectIf (hsType ≠ tlsClientHello) (.tlsParse ("expected ClientHello (0x01), got 0x" ++ hex02 hsType))
  let hsLen ← indexU24 hs 1
  rejectIf (hs.length < 4 + hsLen) (tooShort "handshake body" (4 + hsLen) hs.length)
  let body ← range hs 0 (4 + hsLen)
  rejectIf (body.length < 38) (.tlsParse "ClientHello body too short")
  let random ← copyFrom 32 body 6
  rejectIf (body.length < 39) (.tlsParse "no session_id length byte")
  let sidLen ← index body 38
  rejectIf (sidLen.toNat ≠ 32) (.tlsParse ("REALITY requires 32-byte session_id, got " ++ toString sidLen.toNat))
  rejectIf (body.length < 39 + sidLen.toNat) (.tlsParse "session_id truncated")
  let sessionId ← copyFrom 32 body 39
  rejectIf (body.length < 39 + sidLen.toNat + 4) (.tlsParse "cipher_suites truncated")
  let suitesLen ← indexU16 body (39 + sidLen.toNat)
  rejectIf (39 + sidLen.toNat + 2 + suitesLen + 1 + 1 + 2 > body.length) (.tlsParse "extensions truncated")
  let extLen ← indexU16 body (39 + sidLen.toNat + 2 + suitesLen + 1 + 1)
  let extData ← range body (39 + sidLen.toNat + 2 + suitesLen + 1 + 1 + 2) body.length
  let keyShare ← parseKeyShareExt extData (min extLen extData.length) 0
  return { rawBody := body, random, sessionId, keyShare }

/-! ## The builder -/

def buildExtensions (keyShare : Bytes32) (host : Bytes) : Bytes :=
  -- supported_versions: TLS 1.3
  (be16 0x002b ++ be16 3 ++ [2] ++ [0x03, 0x04]) ++
  -- signature_algorithms: ed25519, ecdsa_secp256r1_sha256
  (be16 0x000d ++ be16 6 ++ be16 4 ++ be16 0x0807 ++ be16 0x0403) ++
  -- supported_groups: X25519
  (be16 0x000a ++ be16 4 ++ be16 2 ++ be16 0x001d) ++
  -- key_share: X25519
  (be16 0x0033 ++ be16 38 ++ be16 36 ++ be16 0x001d ++ be16 32 ++ keyShare.val) ++
  -- server_name
  (be16 0x0000 ++ be16 (5 + host.length) ++ be16 (3 + host.length) ++ [0] ++ be16 host.length ++ host)

/-- The handshake message. Its length is filled in last. -/
def buildBody (random sessionId keyShare : Bytes32) (sni : String) : Bytes :=
  let extensions := buildExtensions keyShare sni.toUTF8.data.toList
  let body := [0x01] ++ [0x00, 0x00, 0x00] ++ [0x03, 0x03] ++ random.val ++ [32] ++ sessionId.val ++
    [0x00, 0x02, 0x13, 0x01] ++ [0x01, 0x00] ++ be16 extensions.length ++ extensions
  let hsLen := body.length - 4
  ((body.set 1 (UInt8.ofNat (hsLen / 65536))).set 2 (UInt8.ofNat (hsLen / 256))).set 3 (UInt8.ofNat hsLen)

/-- hello.rs:137-210 -/
def buildRealityClientHello (random sessionId keyShare : Bytes32) (sni : String) : Bytes :=
  let body := buildBody random sessionId keyShare sni
  [0x16] ++ [0x03, 0x01] ++ be16 body.length ++ body

/-! ## No panic -/

theorem safe_indexU24 {data : Bytes} {i : Nat} (h : i + 2 < data.length) :
    Safe (indexU24 data i) (fun n => n = u24 (data.getD i 0) (data.getD (i + 1) 0) (data.getD (i + 2) 0)) := by
  refine safe_bind (safe_index (by omega)) fun a ha => ?_
  grind [safe_bind, safe_index, safe_pure]

theorem safe_scanShares {extData : Bytes} {extEnd : Nat} (hend : extEnd ≤ extData.length)
    (sharesEnd pos : Nat) : Safe (scanShares extData extEnd sharesEnd pos) (fun _ => True) := by
  induction pos using scanShares.induct extEnd sharesEnd with
  | case1 pos h ih =>
    rw [scanShares, dif_pos h]
    refine safe_bind (safe_indexU16 (by omega)) fun group _ => safe_bind (safe_indexU16 (by omega)) fun keLen _ => ?_
    split
    · split
      · exact safe_pure trivial
      · exact safe_bind (safe_copyFrom (by omega)) fun _ _ => safe_pure trivial
    · exact ih keLen
  | case2 pos h =>
    rw [scanShares, dif_neg h]
    exact safe_pure trivial

theorem safe_parseKeyShareExt {extData : Bytes} {extEnd : Nat} (hend : extEnd ≤ extData.length)
    (pos : Nat) : Safe (parseKeyShareExt extData extEnd pos) (fun _ => True) := by
  induction pos using parseKeyShareExt.induct extEnd with
  | case1 pos h ih =>
    rw [parseKeyShareExt, dif_pos h]
    refine safe_bind (safe_indexU16 (by omega)) fun extType _ => safe_bind (safe_indexU16 (by omega)) fun extLen _ => ?_
    split
    · split
      · exact safe_throw _ _
      refine safe_bind (safe_indexU16 (by omega)) fun sharesLen _ => ?_
      refine safe_bind (safe_scanShares hend _ _) fun found _ => ?_
      cases found with
      | some key => exact safe_pure trivial
      | none => exact safe_throw _ _
    · exact ih extLen
  | case2 pos h =>
    rw [parseKeyShareExt, dif_neg h]
    exact safe_throw _ _

/-- The handshake message in a record: the bytes its own length announces. -/
def handshakeMessage (record : Bytes) : Bytes :=
  (record.drop 5).take (4 + u24 (record.getD 6 0) (record.getD 7 0) (record.getD 8 0))

/-- Where the parsed fields come from. -/
structure Parsed (buf : Bytes) (p : ParsedClientHello) : Prop where
  rawBody : p.rawBody = handshakeMessage buf
  long : 75 ≤ p.rawBody.length
  random : p.random.val = (p.rawBody.drop 6).take 32
  sessionId : p.sessionId.val = (p.rawBody.drop 39).take 32

theorem getD_drop (b : Bytes) (n i : Nat) : (b.drop n).getD i 0 = b.getD (n + i) 0 := by
  simp

/-- **The parser stays in bounds**, on any bytes whatsoever. -/
theorem safe_parseClientHello (buf : Bytes) : Safe (parseClientHello buf) (Parsed buf) := by
  -- the record's header and type
  refine safe_bind (safe_rejectIf _ _) fun _ h5 => safe_bind (safe_index (by omega)) fun recordType _ => ?_
  refine safe_bind (safe_rejectIf _ _) fun _ _ => safe_bind (safe_indexU16 (by omega)) fun recordLen _ => ?_
  refine safe_bind (safe_rejectIf _ _) fun _ _ =>
    safe_bind (safe_range (Nat.le_of_not_lt h5) (Nat.le_refl _)) fun hs hhs => ?_
  have hdrop : hs = buf.drop 5 := by
    rw [hhs, take_of_length_le (Nat.le_of_eq length_drop)]
  -- the handshake message
  refine safe_bind (safe_rejectIf _ _) fun _ h4 => safe_bind (safe_index (by omega)) fun hsType _ => ?_
  refine safe_bind (safe_rejectIf _ _) fun _ _ => safe_bind (safe_indexU24 (by omega)) fun hsLen hlen => ?_
  refine safe_bind (safe_rejectIf _ _) fun _ hend =>
    safe_bind (safe_range (Nat.zero_le _) (Nat.le_of_not_lt hend)) fun body hbody => ?_
  have hmessage : body = handshakeMessage buf := by
    rw [hbody, handshakeMessage, hlen, hdrop, getD_drop, getD_drop, getD_drop]
    rfl
  -- its fields up to the session id
  refine safe_bind (safe_rejectIf _ _) fun _ h38 => safe_bind (safe_copyFrom (by omega)) fun random hrandom => ?_
  refine safe_bind (safe_rejectIf _ _) fun _ h39 => safe_bind (safe_index (by omega)) fun sidLen _ => ?_
  refine safe_bind (safe_rejectIf _ _) fun _ hsid => ?_
  refine safe_bind (safe_rejectIf _ _) fun _ h71 => safe_bind (safe_copyFrom (by omega)) fun sessionId hsession => ?_
  refine safe_bind (safe_rejectIf _ _) fun _ h75 => safe_bind (safe_indexU16 (by omega)) fun suitesLen _ => ?_
  -- the extensions
  refine safe_bind (safe_rejectIf _ _) fun _ hext => safe_bind (safe_indexU16 (by omega)) fun extLen _ => ?_
  refine safe_bind (safe_range (by omega) (Nat.le_refl _)) fun extData _ => ?_
  refine safe_bind (safe_parseKeyShareExt (Nat.min_le_right _ _) 0) fun keyShare _ => safe_pure ?_
  exact { rawBody := hmessage, long := by show 75 ≤ body.length; omega, random := hrandom, sessionId := hsession }

/-! ## Round trip -/

/-- A handshake message: type, length and fields. -/
def handshake (fields : Bytes) : Bytes :=
  0x01 :: UInt8.ofNat (fields.length / 65536) :: UInt8.ofNat (fields.length / 256) ::
    UInt8.ofNat fields.length :: fields

/-- The fields of a ClientHello with a session id of 32 bytes and the null
compression method. -/
def helloFields (version : { b : Bytes // b.length = 2 }) (random sessionId : Bytes32)
    (suites extensions : Bytes) : Bytes :=
  version.val ++ (random.val ++ (32 :: (sessionId.val ++ (be16 suites.length ++ (suites ++
    (0x01 :: 0x00 :: (be16 extensions.length ++ extensions)))))))

theorem handshake_length (fields : Bytes) : (handshake fields).length = 4 + fields.length := by
  simp only [handshake, length_cons]
  omega

theorem helloFields_length (version : { b : Bytes // b.length = 2 }) (random sessionId : Bytes32)
    (suites extensions : Bytes) : (helloFields version random sessionId suites extensions).length =
    73 + suites.length + extensions.length := by
  grind [helloFields, be16_length]

theorem indexU24_handshake (fields : Bytes) (h : fields.length < 16777216) (t : Bytes) :
    indexU24 (handshake fields ++ t) 1 = pure fields.length := by
  have hval : u24 (UInt8.ofNat (fields.length / 65536)) (UInt8.ofNat (fields.length / 256))
      (UInt8.ofNat fields.length) = fields.length := by
    unfold u24
    rw [UInt8.toNat_ofNat', UInt8.toNat_ofNat', UInt8.toNat_ofNat']
    omega
  exact congrArg (pure (f := Checked RealityError)) hval

/-- The fields of the message, each behind the bytes in front of it. -/
theorem parseFields (version : { b : Bytes // b.length = 2 }) (random sessionId : Bytes32)
    (suites extensions : Bytes) (hsuites : suites.length < 65536) (hext : extensions.length < 65536) :
    let body := handshake (helloFields version random sessionId suites extensions)
    copyFrom (ε := RealityError) 32 body 6 = pure random ∧
      index (ε := RealityError) body 38 = pure 32 ∧
      copyFrom (ε := RealityError) 32 body 39 = pure sessionId ∧
      indexU16 (ε := RealityError) body (39 + 32) = pure suites.length ∧
      indexU16 (ε := RealityError) body (39 + 32 + 2 + suites.length + 1 + 1) = pure extensions.length ∧
      range (ε := RealityError) body (39 + 32 + 2 + suites.length + 1 + 1 + 2) body.length = pure extensions := by
  intro body
  have h6 : At body 6 (random.val ++ (32 :: (sessionId.val ++ (be16 suites.length ++ (suites ++
      (0x01 :: 0x00 :: (be16 extensions.length ++ extensions))))))) :=
    ⟨0x01 :: _ :: _ :: _ :: version.val, rfl, by simp only [length_cons, version.property]⟩
  have h38 := h6.skip random.property
  have h71 := h38.next.skip sessionId.property
  have hend := (h71.skip16.skip rfl).next.next
  exact ⟨h6.copyFrom, h38.index, h38.next.copyFrom, h71.indexU16 hsuites, hend.indexU16 hext, hend.skip16.range⟩

/-- **The parser on a well-formed hello**, whatever follows it: the message and
its fields, if the scan of the extensions finds a key. -/
theorem parseClientHello_hello (recordVersion version : { b : Bytes // b.length = 2 })
    (random sessionId : Bytes32) (suites extensions t : Bytes)
    (hlen : 77 + suites.length + extensions.length < 65536) :
    let body := handshake (helloFields version random sessionId suites extensions)
    parseClientHello (0x16 :: (recordVersion.val ++ (be16 body.length ++ (body ++ t)))) =
      parseKeyShareExt extensions extensions.length 0 >>= fun keyShare =>
        pure ⟨body, random, sessionId, keyShare⟩ := by
  intro body
  have hsize : (helloFields version random sessionId suites extensions).length =
      73 + suites.length + extensions.length := helloFields_length _ _ _ _ _
  have hbody : body.length = 77 + suites.length + extensions.length := by
    rw [handshake_length, hsize]
    omega
  obtain ⟨hrandom, hsidLen, hsession, hsuites, hextLen, hext⟩ :=
    parseFields version random sessionId suites extensions (by omega) (by omega)
  obtain ⟨record, hrecord⟩ : ∃ record, record = 0x16 :: (recordVersion.val ++ (be16 body.length ++ (body ++ t))) :=
    ⟨_, rfl⟩
  have h0 : At record 0 (0x16 :: (recordVersion.val ++ (be16 body.length ++ (body ++ t)))) := hrecord ▸ At.start
  have h3 := h0.next.skip recordVersion.property
  have hlong : record.length = 5 + body.length + t.length := by
    grind [be16_length]
  have htype : index (ε := RealityError) record 0 = pure tlsHandshake := h0.index
  have hrecordLen : indexU16 (ε := RealityError) record 3 = pure body.length := h3.indexU16 (by omega)
  have hhs : range (ε := RealityError) record 5 record.length = pure (body ++ t) := h3.skip16.range
  have hhsType : index (ε := RealityError) (body ++ t) 0 = pure tlsClientHello := rfl
  have hhsLen : indexU24 (body ++ t) 1 = _ :=
    indexU24_handshake (helloFields version random sessionId suites extensions) (by omega) t
  have hmessage : range (ε := RealityError) (body ++ t) 0
      (4 + (helloFields version random sessionId suites extensions).length) = pure body :=
    range_take (handshake_length _)
  have hhslong : (body ++ t).length = body.length + t.length := length_append
  have hsid : (32 : UInt8).toNat = 32 := rfl
  -- every check passes and every read succeeds
  rw [← hrecord, parseClientHello, rejectIf_neg (by omega), pure_bind, htype, pure_bind, rejectIf_neg (not_not.mpr rfl),
    pure_bind, hrecordLen, pure_bind, rejectIf_neg (by omega), pure_bind, hhs, pure_bind,
    rejectIf_neg (by omega), pure_bind, hhsType, pure_bind, rejectIf_neg (not_not.mpr rfl), pure_bind, hhsLen,
    pure_bind, rejectIf_neg (by omega), pure_bind, hmessage, pure_bind, rejectIf_neg (by omega), pure_bind,
    hrandom, pure_bind, rejectIf_neg (by omega), pure_bind, hsidLen, pure_bind, hsid,
    rejectIf_neg (not_not.mpr rfl), pure_bind, rejectIf_neg (by omega), pure_bind, hsession, pure_bind,
    rejectIf_neg (by omega), pure_bind, hsuites, pure_bind, rejectIf_neg (by omega), pure_bind, hextLen,
    pure_bind, hext, pure_bind, Nat.min_self]

def extension (ty : Nat) (content : Bytes) : Bytes := be16 ty ++ (be16 content.length ++ content)

theorem extension_length (ty : Nat) (content : Bytes) :
    (extension ty content).length = 4 + content.length := by
  simp only [extension, length_append, be16_length]
  omega

/-- Extensions one after the other, or key shares, which look the same. -/
def entries (es : List (Nat × Bytes)) : Bytes := es.flatMap fun e => extension e.1 e.2

theorem entries_cons (e : Nat × Bytes) (es : List (Nat × Bytes)) :
    entries (e :: es) = extension e.1 e.2 ++ entries es := flatMap_cons

theorem length_le_entries {es : List (Nat × Bytes)} {e : Nat × Bytes} (h : e ∈ es) :
    4 + e.2.length ≤ (entries es).length := by
  obtain ⟨front, behind, rfl⟩ := append_of_mem h
  simp only [entries, flatMap_append, flatMap_cons, length_append, extension_length]
  omega

def isX25519 (share : Nat × Bytes) : Bool := share.1 = namedGroupX25519 ∧ share.2.length = 32

/-- The content of the key_share extension. -/
def clientShares (shares : List (Nat × Bytes)) : Bytes :=
  be16 (entries shares).length ++ entries shares

section
variable {data a content rest : Bytes} {ty extEnd : Nat}

theorem indexU16_type (hty : ty < 65536) (h : data = a ++ (extension ty content ++ rest)) :
    indexU16 (ε := RealityError) data a.length = pure ty := by
  exact At.indexU16 ⟨a, h, rfl⟩ hty

theorem indexU16_length (hlen : content.length < 65536) (h : data = a ++ (extension ty content ++ rest)) :
    indexU16 (ε := RealityError) data (a.length + 2) = pure content.length := by
  exact (At.skip16 ⟨a, h, rfl⟩).indexU16 hlen

theorem parseKeyShareExt_skip (hty : ty < 65536) (hlen : content.length < 65536) (hne : ty ≠ extKeyShare)
    (h : data = a ++ (extension ty content ++ rest)) (hend : a.length + 4 ≤ extEnd) :
    parseKeyShareExt data extEnd a.length = parseKeyShareExt data extEnd (a ++ extension ty content).length := by
  rw [parseKeyShareExt, dif_pos hend, indexU16_type hty h, pure_bind, indexU16_length hlen h,
    pure_bind, if_neg hne, length_append, extension_length, Nat.add_assoc]

theorem parseKeyShareExt_skipAll : ∀ (exts : List (Nat × Bytes)) {a : Bytes},
    (∀ e ∈ exts, e.1 < 65536 ∧ e.2.length < 65536 ∧ e.1 ≠ extKeyShare) →
    data = a ++ (entries exts ++ rest) →
    a.length + (entries exts).length ≤ extEnd →
    parseKeyShareExt data extEnd a.length =
      parseKeyShareExt data extEnd (a ++ entries exts).length
  | [], a, _, _, _ => by rw [entries, flatMap_nil, append_nil]
  | e :: exts, a, hall, h, hend => by
    obtain ⟨hty, hlen, hne⟩ := hall e mem_cons_self
    rw [entries_cons, append_assoc] at h
    rw [entries_cons, length_append, extension_length] at hend
    have hnext := parseKeyShareExt_skipAll exts (a := a ++ extension e.1 e.2)
      (fun e' he => hall e' (mem_cons_of_mem _ he)) (h.trans (append_assoc _ _ _).symm)
      (by rw [length_append, extension_length]; omega)
    rw [parseKeyShareExt_skip hty hlen hne h (by omega), hnext, entries_cons, append_assoc]

variable {key : Bytes32}

/-- The end of the shares is taken two bytes too early; an X25519 share is longer. -/
theorem scanShares_first {sharesEnd : Nat} : ∀ {shares : List (Nat × Bytes)} {pos : Nat},
    (∀ e ∈ shares, e.1 < 65536) → (entries shares).length < 65536 → shares.find? isX25519 =
    some (namedGroupX25519, key.val) → At data pos (entries shares ++ rest) →
    pos + (entries shares).length ≤ extEnd → pos + (entries shares).length ≤ sharesEnd + 2 →
    scanShares data extEnd sharesEnd pos = pure (some key)
  | [], _, _, _, hfirst, _, _, _ => nomatch hfirst
  | (group, content) :: shares, pos, hgroups, hlen, hfirst, hat, hext, hend => by
    have hlong := length_le_entries (mem_of_find?_eq_some hfirst)
    simp only [entries_cons, length_append, extension_length, key.property] at hlen hlong hext hend
    simp only [entries_cons, extension, append_assoc] at hat
    have hgroup : indexU16 (ε := RealityError) data pos = pure group := hat.indexU16 (hgroups _ mem_cons_self)
    have hkeLen : indexU16 (ε := RealityError) data (pos + 2) = pure content.length := hat.skip16.indexU16 (by omega)
    rw [scanShares, dif_pos ⟨by omega, by omega⟩, hgroup, pure_bind, hkeLen, pure_bind]
    by_cases hx : group = namedGroupX25519 ∧ content.length = 32
    · rw [find?_cons_of_pos (by simpa [isX25519] using hx)] at hfirst
      have hkey : copyFrom (ε := RealityError) 32 data (pos + 4) = pure ⟨content, hx.2⟩ :=
        hat.skip16.skip16.copyFrom
      have hval : ⟨content, hx.2⟩ = key := Subtype.ext (Prod.mk.inj (Option.some.inj hfirst)).2
      rw [if_pos hx, if_neg (by omega), hkey, pure_bind, hval]
    · rw [find?_cons_of_neg (by simpa [isX25519] using hx)] at hfirst
      rw [if_neg hx]
      exact scanShares_first (fun e he => hgroups e (mem_cons_of_mem _ he)) (by omega) hfirst
        (hat.skip16.skip16.skip rfl) (by omega) (by omega)

theorem parseKeyShareExt_shares {shares : List (Nat × Bytes)} (hgroups : ∀ e ∈ shares, e.1 < 65536)
    (hfirst : shares.find? isX25519 = some (namedGroupX25519, key.val)) (hlen : (clientShares shares).length < 65536)
    (h : data = a ++ (extension extKeyShare (clientShares shares) ++ rest))
    (hend : a.length + 4 + (clientShares shares).length ≤ extEnd) :
    parseKeyShareExt data extEnd a.length = pure key := by
  have hsize : (clientShares shares).length = 2 + (entries shares).length := by
    rw [clientShares, length_append, be16_length]
  have h4 : At data (a.length + 4) (be16 (entries shares).length ++ (entries shares ++ rest)) := by
    refine ⟨a ++ (be16 extKeyShare ++ be16 (clientShares shares).length), ?_, by
      simp only [length_append, be16_length]⟩
    rw [h, extension]
    simp only [clientShares, append_assoc]
  have hshares : indexU16 (ε := RealityError) data (a.length + 4) = pure (entries shares).length :=
    h4.indexU16 (by omega)
  have hscan : scanShares data extEnd (a.length + 4 + (entries shares).length) (a.length + 4 + 2) = pure (some key) :=
    scanShares_first hgroups (by omega) hfirst h4.skip16 (by omega) (by omega)
  rw [parseKeyShareExt, dif_pos (by omega), indexU16_type (by decide) h, pure_bind,
    indexU16_length hlen h, pure_bind, if_pos rfl, if_neg (by omega), hshares, pure_bind, hscan, pure_bind]

/-- **The scan of the extensions**: those in front of the key_share extension are
skipped, those behind it not looked at. -/
theorem parseKeyShareExt_first {before shares : List (Nat × Bytes)}
    (hbefore : ∀ e ∈ before, e.1 < 65536 ∧ e.1 ≠ extKeyShare) (hgroups : ∀ e ∈ shares, e.1 < 65536)
    (hfirst : shares.find? isX25519 = some (namedGroupX25519, key.val))
    (h : data = entries before ++ (extension extKeyShare (clientShares shares) ++ rest)) (hlen : data.length < 65536) :
    parseKeyShareExt data data.length 0 = pure key := by
  have hsize := congrArg length h
  simp only [length_append, extension_length] at hsize
  have hall : ∀ e ∈ before, e.1 < 65536 ∧ e.2.length < 65536 ∧ e.1 ≠ extKeyShare := fun e he =>
    ⟨(hbefore e he).1, by have := length_le_entries he; omega, (hbefore e he).2⟩
  have hskip : parseKeyShareExt data data.length ([] : Bytes).length = _ :=
    parseKeyShareExt_skipAll before hall h (by simp only [length_nil]; omega)
  rw [length_nil, nil_append] at hskip
  rw [hskip]
  exact parseKeyShareExt_shares hgroups hfirst (by omega) h (by omega)

end

/-! ## The built hello -/

/-- The extensions in front of the key share. -/
def builtExtensions : List (Nat × Bytes) :=
  [(0x002b, [2, 0x03, 0x04]), (0x000d, be16 4 ++ (be16 0x0807 ++ be16 0x0403)), (0x000a, be16 2 ++ be16 0x001d)]

variable (keyShare : Bytes32)

theorem buildExtensions_length (host : Bytes) :
    (buildExtensions keyShare host).length = 76 + host.length := by
  simp only [buildExtensions, length_append, length_cons, length_nil, be16_length,
    keyShare.property]
  omega

theorem clientShares_one (key : Bytes32) : clientShares [(namedGroupX25519, key.val)] =
    be16 36 ++ (be16 namedGroupX25519 ++ (be16 32 ++ key.val)) := by
  simp [clientShares, entries, extension, key.property]

theorem buildExtensions_eq (host : Bytes) : ∃ serverName : Bytes,
    buildExtensions keyShare host = entries builtExtensions ++
      (extension extKeyShare (clientShares [(namedGroupX25519, keyShare.val)]) ++ serverName) := by
  have hcontent : (be16 36 ++ (be16 namedGroupX25519 ++ (be16 32 ++ keyShare.val))).length = 38 := by
    simp only [length_append, be16_length, keyShare.property]
  refine ⟨be16 0x0000 ++ (be16 (5 + host.length) ++ (be16 (3 + host.length) ++ (0 ::
    (be16 host.length ++ host)))), ?_⟩
  simp only [buildExtensions, clientShares_one, extension, hcontent, append_assoc, cons_append, nil_append]
  rfl

theorem parseKeyShareExt_build {host : Bytes} (hhost : host.length ≤ 255) :
    parseKeyShareExt (buildExtensions keyShare host) (buildExtensions keyShare host).length 0 = pure keyShare := by
  obtain ⟨serverName, hdata⟩ := buildExtensions_eq keyShare host
  have hfirst : [(namedGroupX25519, keyShare.val)].find? isX25519 = some (namedGroupX25519, keyShare.val) :=
    find?_cons_of_pos (by simp [isX25519, keyShare.property])
  refine parseKeyShareExt_first (by decide) ?_ hfirst hdata ?_
  · simp [namedGroupX25519]
  · rw [buildExtensions_length]
    omega

theorem buildBody_eq (random sessionId keyShare : Bytes32) (sni : String) :
    buildBody random sessionId keyShare sni = handshake (helloFields ⟨[0x03, 0x03], rfl⟩ random
      sessionId [0x13, 0x01] (buildExtensions keyShare sni.toUTF8.data.toList)) := by
  simp only [buildBody, append_assoc, cons_append, nil_append]
  rfl

/-- **Round trip**: a built hello is parsed to what it was built from, and its
handshake message. -/
theorem parseClientHello_build (random sessionId keyShare : Bytes32) {sni : String}
    (hsni : sni.utf8ByteSize ≤ 255) :
    parseClientHello (buildRealityClientHello random sessionId keyShare sni) =
      pure ⟨buildBody random sessionId keyShare sni, random, sessionId, keyShare⟩ := by
  have hhost : sni.toUTF8.data.toList.length ≤ 255 := hsni
  have hlen := buildExtensions_length keyShare sni.toUTF8.data.toList
  have hparse := parseClientHello_hello ⟨[0x03, 0x01], rfl⟩ ⟨[0x03, 0x03], rfl⟩ random sessionId
    [0x13, 0x01] (buildExtensions keyShare sni.toUTF8.data.toList) []
    (by simp only [length_cons, length_nil]; omega)
  simp only [parseKeyShareExt_build keyShare hhost, pure_bind, append_nil, ← buildBody_eq] at hparse
  exact hparse

/-- A well-formed ClientHello in one record: extensions of any types, the first
key_share extension among them, and in it an X25519 key. -/
structure Hello where
  recordVersion : { b : Bytes // b.length = 2 }
  version : { b : Bytes // b.length = 2 }
  random : Bytes32
  sessionId : Bytes32
  suites : Bytes
  before : List (Nat × Bytes)
  shares : List (Nat × Bytes)
  behind : List (Nat × Bytes)
  keyShare : Bytes32
  before_types : ∀ e ∈ before, e.1 < 65536 ∧ e.1 ≠ extKeyShare
  groups : ∀ e ∈ shares, e.1 < 65536
  first : shares.find? isX25519 = some (namedGroupX25519, keyShare.val)
  fits : 77 + suites.length + (entries (before ++ (extKeyShare, clientShares shares) :: behind)).length < 65536

namespace Hello

def message (h : Hello) : Bytes :=
  handshake (helloFields h.version h.random h.sessionId h.suites
    (entries (h.before ++ (extKeyShare, clientShares h.shares) :: h.behind)))

def record (h : Hello) : Bytes :=
  0x16 :: (h.recordVersion.val ++ (be16 h.message.length ++ h.message))

end Hello

/-- **The parser is complete and stays in bounds.** From a well-formed hello it returns
the message, its fields and the first X25519 key, whatever follows the record; it
inverts the builder; and it panics on no bytes whatsoever. -/
theorem client_hello_parsed :
    (∀ (h : Hello) (t : Bytes),
      parseClientHello (h.record ++ t) = pure ⟨h.message, h.random, h.sessionId, h.keyShare⟩) ∧
    (∀ (random sessionId keyShare : Bytes32) (sni : String), sni.utf8ByteSize ≤ 255 →
      parseClientHello (buildRealityClientHello random sessionId keyShare sni) =
        pure ⟨buildBody random sessionId keyShare sni, random, sessionId, keyShare⟩) ∧
    ∀ buf, Safe (parseClientHello buf) (Parsed buf) := by
  refine ⟨fun h t => ?_, fun random sessionId keyShare sni => parseClientHello_build random
    sessionId keyShare, safe_parseClientHello⟩
  have hparse := parseClientHello_hello h.recordVersion h.version h.random h.sessionId h.suites _ t h.fits
  have hexts : entries (h.before ++ (extKeyShare, clientShares h.shares) :: h.behind) =
      entries h.before ++ (extension extKeyShare (clientShares h.shares) ++ entries h.behind) := by
    simp only [entries, flatMap_append, flatMap_cons]
  rw [parseKeyShareExt_first h.before_types h.groups h.first hexts (by have := h.fits; omega)] at hparse
  simp only [Hello.record, Hello.message, cons_append, append_assoc]
  exact hparse

/-- A hello with a server name, a share of another group in front of the X25519 one, and padding. -/
theorem client_hello_parsed_second_share : ∃ h : Hello,
    h.before = [(0, [0, 0])] ∧ h.shares.map Prod.fst = [23, namedGroupX25519] ∧
      ∀ t, parseClientHello (h.record ++ t) = pure ⟨h.message, h.random, h.sessionId, h.keyShare⟩ :=
  let hello : Hello :=
    { recordVersion := constBytes 2 3, version := constBytes 2 3, random := constBytes 32 1,
      sessionId := constBytes 32 2, suites := [0x13, 0x01], before := [(0, [0, 0])],
      shares := [(23, [4, 5]), (namedGroupX25519, (constBytes 32 9).val)], behind := [(21, [0])],
      keyShare := constBytes 32 9, before_types := by decide, groups := by decide, first := rfl,
      fits := by decide }
  ⟨hello, rfl, rfl, client_hello_parsed.1 hello⟩

end Wrongsv.L1.ClientHello
