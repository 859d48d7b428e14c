import Wrongsv.L2Machine.Shadowsocks.Stream

/-!
# Shadowsocks: what is written is read

Both sides start with the same key and nonce, and each block moves both nonces by
one, so a reader stays in step with the writer as long as it expects the blocks
the writer sends: chunks of two blocks, and in front of them the header blocks of
the 2022 methods.

Results: `writeChunks_plain`, `readToEnd_sealed`, `stream_round_trip`.
-/
namespace Wrongsv.L2.Shadowsocks
open L1.VlessHeader L1.Shadowsocks ShadowsocksWriter List
open ShadowsocksReader (readChunks readChunk readToEnd newResponse)

section
variable (p : Primitives)

/-! ## Chunks on the wire -/

/-- Chunks sealed from the state `s` on: the length, then the payload. -/
def sealChunks : CryptoState → List Bytes → Bytes
  | _, [] => []
  | s, chunk :: rest =>
    (s.seal_ p (be16 chunk.length) ++ s.next.seal_ p chunk) ++ sealChunks s.next.next rest

/-- The state behind chunks. -/
def skipChunks : CryptoState → List Bytes → CryptoState
  | s, [] => s
  | s, _ :: rest => skipChunks s.next.next rest

theorem sealChunks_append (xs ys : List Bytes) : ∀ (s : CryptoState),
    sealChunks p s (xs ++ ys) = sealChunks p s xs ++ sealChunks p (skipChunks s xs) ys := by
  induction xs with
  | nil => intro s; rfl
  | cons x xs ih => grind [sealChunks, skipChunks]

theorem skipChunks_append (xs ys : List Bytes) : ∀ (s : CryptoState),
    skipChunks s (xs ++ ys) = skipChunks (skipChunks s xs) ys := by
  induction xs with
  | nil => intro s; rfl
  | cons x xs ih => intro s; exact ih _

theorem length_le_sealChunks (chunks : List Bytes) : ∀ (s : CryptoState),
    chunks.length ≤ (sealChunks p s chunks).length := by
  induction chunks with
  | nil => intro s; exact Nat.le_refl _
  | cons chunk chunks ih =>
    intro s
    have := ih s.next.next
    simp only [sealChunks, length_cons, length_append, CryptoState.seal_length, be16_length, aeadTagLen]
    omega

/-! ## The reader -/

variable (method : Method)

theorem maxChunkLen_lt : method.maxChunkLen < 65536 := by
  cases method <;> decide

theorem maxChunkLen_pos : 1 ≤ method.maxChunkLen := by
  cases method <;> decide

theorem chunkLen_be16 {method : Method} {n : Nat} (h : n ≤ method.maxChunkLen) :
    chunkLen method (be16 n) = .ok n := by
  have hlt := maxChunkLen_lt method
  have hu16 := u16At_append [] (show n < 65536 by omega) []
  grind [chunkLen, be16_length]

/-- **A chunk is read back.** -/
theorem opens_readSizedChunk {method : Method} {chunk : Bytes}
    (h : chunk.length ≤ method.maxChunkLen) (s : CryptoState) :
    SealedReader.Opens (readSizedChunk p method) s (s.seal_ p (be16 chunk.length) ++ s.next.seal_ p chunk) chunk
      s.next.next := by
  have hsize := opens_readSealed p s (be16 chunk.length)
  refine hsize.bind ?_
  intro rest later
  have hlen := SealedReader.opens_check (chunkLen_be16 h) s.next
  exact (hlen.bind_append _ later).trans (opens_readSealed p s.next chunk rest later)

/-- Nothing is left: `read_chunk` reports it. -/
theorem readSizedChunk_nil (s : CryptoState) :
    readSizedChunk p method (⟨[], []⟩, s) = (.error (.io .unexpectedEof), (⟨[], []⟩, s)) := by
  rw [readSizedChunk, SealedReader.bind_apply, readSealed_nil]

section
variable {method : Method} {requestSalt : Option Bytes}

theorem readChunks_sealed (chunks : List Bytes) (hfit : ∀ c ∈ chunks, c.length ≤ method.maxChunkLen) :
    ∀ (n : Nat) (s : CryptoState), chunks.length < n →
      readChunks p n ⟨⟨sealChunks p s chunks, []⟩, s, method, [], requestSalt⟩ =
        (chunks, some (.io .unexpectedEof)) := by
  induction chunks with
  | nil =>
    intro n s hn
    obtain ⟨n, rfl⟩ : ∃ k, n = k + 1 := ⟨n - 1, by simp at hn; omega⟩
    simp only [readChunks, readChunk, sealChunks, readSizedChunk_nil]
  | cons chunk chunks ih =>
    intro n s hn
    obtain ⟨n, rfl⟩ : ∃ k, n = k + 1 := ⟨n - 1, by simp at hn; omega⟩
    have hread := opens_readSizedChunk p (hfit chunk mem_cons_self) s (sealChunks p s.next.next chunks) []
    grind [readChunks, readChunk, sealChunks]

theorem readChunks_pending (pending chunks : List Bytes) (hfit : ∀ c ∈ chunks, c.length ≤ method.maxChunkLen) :
    ∀ (n : Nat) (s : CryptoState), pending.length + chunks.length < n →
      readChunks p n ⟨⟨sealChunks p s chunks, []⟩, s, method, pending, requestSalt⟩ =
        (pending ++ chunks, some (.io .unexpectedEof)) := by
  induction pending with
  | nil => grind [readChunks_sealed]
  | cons first pending ih =>
    intro n s hn
    obtain ⟨n, rfl⟩ : ∃ k, n = k + 1 := ⟨n - 1, by omega⟩
    grind [readChunks, readChunk]

/-- **Reading to the end.** A reader in the state the chunks were sealed with. -/
theorem readToEnd_sealed (pending chunks : List Bytes)
    (hfit : ∀ c ∈ chunks, c.length ≤ method.maxChunkLen) (s : CryptoState) :
    readToEnd p ⟨⟨sealChunks p s chunks, []⟩, s, method, pending, requestSalt⟩ =
      (pending ++ chunks, some (.io .unexpectedEof)) := by
  have hlen := length_le_sealChunks p chunks s
  refine readChunks_pending p pending chunks hfit _ s ?_
  simp only [Schedule.bytes, flatten_nil, append_nil]
  omega

end

/-! ## The writer -/

theorem pieces_spec (payload : Bytes) : (pieces method payload).flatten = payload ∧
      ∀ c ∈ pieces method payload, c.length ≤ method.maxChunkLen := by
  unfold pieces
  split
  · exact toChunks_spec (maxChunkLen_pos method) payload
  all_goals simp_all

theorem pieces_ne_nil (payload : Bytes) : pieces method payload ≠ [] := by
  have hflat := (pieces_spec method payload).1
  grind [pieces]

/-- The pieces of several calls. -/
def allPieces (method : Method) (writes : List Write) : List Bytes :=
  writes.flatMap fun write => pieces method write.payload

def payloads (writes : List Write) : Bytes := writes.flatMap (·.payload)

theorem allPieces_spec (writes : List Write) :
    (allPieces method writes).flatten = payloads writes ∧
      ∀ c ∈ allPieces method writes, c.length ≤ method.maxChunkLen := by
  constructor
  · induction writes with
    | nil => rfl
    | cons write writes ih => grind [allPieces, payloads, pieces_spec]
  · intro c hc
    obtain ⟨write, -, hc⟩ := List.mem_flatMap.mp hc
    exact (pieces_spec method write.payload).2 c hc

/-- The writer behind chunks. -/
def ShadowsocksWriter.appended (w : ShadowsocksWriter) (chunks : List Bytes) : ShadowsocksWriter :=
  { w with inner := w.inner ++ sealChunks p w.crypto chunks, crypto := skipChunks w.crypto chunks }

theorem appended_nil (w : ShadowsocksWriter) : w.appended p [] = w := by
  simp only [appended, sealChunks, skipChunks, append_nil]

theorem appended_appended (w : ShadowsocksWriter) (xs ys : List Bytes) :
    (w.appended p xs).appended p ys = w.appended p (xs ++ ys) := by
  simp only [appended, sealChunks_append, skipChunks_append, append_assoc]

theorem writePiece_plain {w : ShadowsocksWriter} (h : w.aead2022ResponseHeader = none)
    (now : SystemTime) (piece : Bytes) : w.writePiece p now piece = .ok (w.appended p [piece]) := by
  grind [writePiece, put, appended, sealChunks, skipChunks]

theorem writePieces_plain (now : SystemTime) (pieces : List Bytes) : ∀ {w : ShadowsocksWriter},
    w.aead2022ResponseHeader = none → w.writePieces p now pieces = .ok (w.appended p pieces) := by
  induction pieces with
  | nil =>
    intro w _
    rw [appended_nil]
    rfl
  | cons piece pieces ih =>
    intro w h
    have hrest := ih (w := w.appended p [piece]) h
    grind [appended_appended, writePieces, writePiece_plain]

/-- **Whole runs of a writer** that has no header to send. -/
theorem writeChunks_plain (writes : List Write) :
    ∀ {w : ShadowsocksWriter}, w.aead2022ResponseHeader = none →
    w.writeChunks p writes = .ok (w.appended p (allPieces w.method writes)) := by
  induction writes with
  | nil =>
    intro w _
    rw [allPieces, flatMap_nil, appended_nil]
    rfl
  | cons write writes ih =>
    intro w h
    have hrest := ih (w := w.appended p (pieces w.method write.payload)) h
    rw [appended_appended] at hrest
    simp only [writeChunks, writeChunk, writePieces_plain p _ _ h]
    exact hrest

/-! ## Headers -/

theorem opens_readSealed_check {α : Type} {f : Bytes → Except ShadowsocksError α}
    {plaintext : Bytes} {a : α} (h : f plaintext = .ok a) (s : CryptoState) :
    SealedReader.Opens (readSealed p plaintext.length >>= fun block => SealedReader.check (f block)) s
      (s.seal_ p plaintext) a s.next := by
  intro rest later
  exact ((opens_readSealed p s plaintext).bind_append rest later).trans
    (SealedReader.opens_check h s.next rest later)

section
variable {now sent : SystemTime} {header : Bytes}

theorem opens_readRequestFixedHeader {len : Nat} (h : encodeAead2022RequestFixedHeader sent len = .ok header)
    (htime : Timely now sent) (s : CryptoState) :
    SealedReader.Opens (readRequestFixedHeader p now) s (s.seal_ p header) len s.next := by
  have hlen : header.length = aead2022RequestFixedHeaderLen := encodeFixedHeader_length h
  have hparse := parseFixedHeader_encode h htime []
  have hopens := opens_readSealed_check p (f := parseAead2022RequestFixedHeader now) hparse s
  rwa [hlen] at hopens

variable {method : Method} {requestSalt payload : Bytes}

/-- The header of a response, read by the client that expects this salt or another. -/
theorem readResponseHeader_encode (hlen : requestSalt.length = method.saltLen)
    (h : encodeAead2022ResponseFixedHeader sent requestSalt payload.length = .ok header)
    (htime : Timely now sent) (s : CryptoState) (expected rest : Bytes) (later : List Bytes) :
    readResponseHeader p now method expected (⟨s.seal_ p header ++ (s.next.seal_ p payload ++ rest), later⟩, s) =
      if requestSalt = expected then (.ok payload, (⟨rest, later⟩, s.next.next))
      else (.error .invalidHeader, (⟨s.next.seal_ p payload ++ rest, later⟩, s.next)) := by
  have hheader : header.length = aead2022ResponseFixedHeaderLen method := by
    rw [encodeFixedHeader_length h, hlen, aead2022ResponseFixedHeaderLen]
    omega
  have hparse := parseFixedHeader_encode h htime expected
  rw [hlen] at hparse
  have hopens := opens_readSealed p s header
  rw [hheader] at hopens
  rw [readResponseHeader, hopens.bind_append, SealedReader.bind_apply, parseAead2022ResponseFixedHeader, hparse]
  by_cases he : requestSalt = expected
  · rw [if_pos he, if_pos he]
    exact opens_readSealed p s.next payload rest later
  · rw [if_neg he, if_neg he]
    rfl

end

/-! ## Requests -/

variable {config : ServerConfig} {salt : Bytes}

theorem crypto_ok_length {crypto : CryptoState}
    (h : config.crypto p salt = .ok crypto) : salt.length = config.method.saltLen := by
  by_contra hne
  unfold ServerConfig.crypto at h
  split at h
  · cases h
  · rw [CryptoState.new, if_pos hne] at h
    cases h

section
variable {config : ServerConfig} {salt : Bytes} {w : ShadowsocksWriter}

/-- A writer that has written its salt. -/
def ShadowsocksWriter.salted (config : ServerConfig) (salt : Bytes) (crypto : CryptoState) :
    ShadowsocksWriter :=
  ⟨salt, crypto, config.method, none⟩

theorem newWithSalt_ok (h : ShadowsocksWriter.newWithSalt p config salt = .ok w) :
    ∃ crypto, config.crypto p salt = .ok crypto ∧ w = .salted config salt crypto := by
  unfold ShadowsocksWriter.newWithSalt at h
  split at h
  · cases h
  split at h
  · cases h
  split at h
  · cases h
  · rename_i crypto hcrypto
    exact ⟨crypto, hcrypto, (Except.ok.inj h).symm⟩

variable {now : SystemTime} {address : Address} {port : UInt16} {initialPayload returned : Bytes}
  {padding : UInt8}

theorem newRequest_legacy (hm : config.method.isAead2022 = false)
    (h : newRequestWithSalt p now config address port initialPayload salt padding = .ok (w, returned)) :
    ∃ crypto, config.crypto p salt = .ok crypto ∧ w = (salted config salt crypto).appended p
        (pieces config.method (writeRequestHeader address port ++ initialPayload)) := by
  unfold newRequestWithSalt at h
  rw [if_pos hm] at h
  cases hnew : ShadowsocksWriter.newWithSalt p config salt with
  | error e => rw [hnew] at h; cases h
  | ok w₀ =>
    obtain ⟨crypto, hcrypto, rfl⟩ := newWithSalt_ok p hnew
    have hwrite := writePieces_plain p now
      (pieces config.method (writeRequestHeader address port ++ initialPayload))
      (w := .salted config salt crypto) rfl
    simp only [hnew, writeChunk] at h
    grind [salted]

theorem newRequest_aead2022 (hm : config.method.isAead2022 = true)
    (h : newRequestWithSalt p now config address port initialPayload salt padding = .ok (w, returned)) :
    ∃ crypto variableHeader fixedHeader, config.crypto p salt = .ok crypto ∧
      encodeAead2022RequestVariableHeader address port initialPayload padding = .ok variableHeader ∧
      encodeAead2022RequestFixedHeader now variableHeader.length = .ok fixedHeader ∧
      w = ((salted config salt crypto).put p fixedHeader).put p variableHeader := by
  unfold newRequestWithSalt at h
  rw [if_neg (ne_false_of_eq_true hm)] at h
  split at h
  · cases h
  split at h
  · cases h
  rename_i crypto hcrypto
  split at h
  · cases h
  rename_i variableHeader hvariable
  split at h
  · cases h
  rename_i fixedHeader hfixed
  cases h
  exact ⟨crypto, variableHeader, fixedHeader, hcrypto, hvariable, hfixed, rfl⟩

end

/-- The same configuration with nothing in its cache. -/
def ServerConfig.fresh (config : ServerConfig) : ServerConfig := { config with replayCache := [] }

/-- A request that a client has sent: `new_request_with_salt` and the calls of
`write_chunk` behind it all returned `Ok`. -/
structure SentRequest where
  config : ServerConfig
  address : Address
  fits : address.Fits
  port : UInt16
  initialPayload : Bytes
  salt : Bytes
  padding : UInt8
  sent : SystemTime
  start : ShadowsocksWriter
  returned : Bytes
  made : newRequestWithSalt p sent config address port initialPayload salt padding =
    .ok (start, returned)
  writes : List Write
  writer : ShadowsocksWriter
  wrote : start.writeChunks p writes = .ok writer

/-- The destination, the initial payload and the later ones. -/
def SentRequest.content (x : SentRequest p) : Bytes :=
  writeRequestHeader x.address x.port ++ x.initialPayload ++ payloads x.writes

/-- The stream is accepted, and read to its end it is `content`. -/
def Delivers (result : Except ShadowsocksError ShadowsocksReader) (content : Bytes) : Prop :=
  ∃ r chunks, result = .ok r ∧ r.readToEnd p = (chunks, some (.io .unexpectedEof)) ∧ chunks.flatten = content

theorem delivers_legacy {crypto : CryptoState}
    (hm : config.method.isAead2022 = false) (hcrypto : config.crypto p salt = .ok crypto) (now : Clock)
    {chunks : List Bytes} (hfit : ∀ c ∈ chunks, c.length ≤ config.method.maxChunkLen) :
    Delivers p (ShadowsocksReader.newWithSalt p now ⟨sealChunks p crypto chunks, []⟩ config salt).1
      chunks.flatten := by
  have hreader : ShadowsocksReader.newWithSalt p now ⟨sealChunks p crypto chunks, []⟩ config salt =
      (.ok ⟨⟨sealChunks p crypto chunks, []⟩, crypto, config.method, [], none⟩, config) := by
    unfold ShadowsocksReader.newWithSalt
    rw [hcrypto]
    exact if_pos hm
  exact ⟨_, chunks, by rw [hreader], readToEnd_sealed p [] chunks hfit crypto, rfl⟩

theorem legacy_request (x : SentRequest p) (hm : x.config.method.isAead2022 = false) (now : Clock) :
    ∃ body, x.writer.inner = x.salt ++ body ∧ x.salt.length = x.config.method.saltLen ∧
      Delivers p (ShadowsocksReader.newWithSalt p now ⟨body, []⟩ x.config.fresh x.salt).1 (x.content p) := by
  obtain ⟨crypto, hcrypto, hstart⟩ := newRequest_legacy p hm x.made
  obtain ⟨hfirst, hfit⟩ := pieces_spec x.config.method (writeRequestHeader x.address x.port ++ x.initialPayload)
  obtain ⟨hlater, hfit'⟩ := allPieces_spec x.config.method x.writes
  generalize pieces x.config.method (writeRequestHeader x.address x.port ++ x.initialPayload) =
    first at hstart hfirst hfit
  have hwriter : x.writer = (salted x.config x.salt crypto).appended p
      (first ++ allPieces x.config.method x.writes) := by
    have hwrote := writeChunks_plain p x.writes (w := x.start) (by rw [hstart]; rfl)
    rw [x.wrote, hstart, appended_appended] at hwrote
    exact Except.ok.inj hwrote
  have hall : ∀ c ∈ first ++ allPieces x.config.method x.writes, c.length ≤ x.config.method.maxChunkLen :=
    List.forall_mem_append.mpr ⟨hfit, hfit'⟩
  have hm' : x.config.fresh.method.isAead2022 = false := hm
  have hdelivers := delivers_legacy p hm' hcrypto now hall
  rw [flatten_append, hfirst, hlater] at hdelivers
  exact ⟨_, by rw [hwriter]; rfl, crypto_ok_length p hcrypto, hdelivers⟩

theorem aead2022_request (x : SentRequest p) (hm : x.config.method.isAead2022 = true) (now : Clock)
    (htime : Timely now.wall x.sent) :
    ∃ body, x.writer.inner = x.salt ++ body ∧ x.salt.length = x.config.method.saltLen ∧
      Delivers p (ShadowsocksReader.newWithSalt p now ⟨body, []⟩ x.config.fresh x.salt).1 (x.content p) := by
  obtain ⟨crypto, variableHeader, fixedHeader, hcrypto, hvariable, hfixed, hstart⟩ := newRequest_aead2022 p hm x.made
  obtain ⟨hlater, hfit⟩ := allPieces_spec x.config.method x.writes
  have hwriter : x.writer.inner = x.salt ++ (crypto.seal_ p fixedHeader ++ (crypto.next.seal_ p
      variableHeader ++ sealChunks p crypto.next.next (allPieces x.config.method x.writes))) := by
    have hwrote := writeChunks_plain p x.writes (w := x.start) (by rw [hstart]; rfl)
    rw [x.wrote, hstart] at hwrote
    rw [Except.ok.inj hwrote]
    simp only [appended, put, salted, append_assoc]
  refine ⟨_, hwriter, crypto_ok_length p hcrypto, ?_⟩
  generalize hrest : sealChunks p crypto.next.next (allPieces x.config.method x.writes) = rest
  have hf := opens_readRequestFixedHeader p hfixed htime crypto (crypto.next.seal_ p variableHeader ++ rest) []
  have hv : readRequestVariableHeader p variableHeader.length (⟨crypto.next.seal_ p variableHeader ++ rest, []⟩, _) = _ :=
    opens_readSealed_check p (decodeVariableHeader_encode x.fits hvariable) crypto.next rest []
  have hm' : ¬ x.config.fresh.method.isAead2022 = false := ne_false_of_eq_true hm
  have hreplay : x.config.fresh.checkAndStoreReplaySalt now.instant x.salt =
      (.ok (), { x.config with replayCache := [(now.instant, x.salt)] }) := by
    rw [ServerConfig.checkAndStoreReplaySalt, if_neg hm']
    rfl
  have hreader : (ShadowsocksReader.newWithSalt p now
      ⟨crypto.seal_ p fixedHeader ++ (crypto.next.seal_ p variableHeader ++ rest), []⟩ x.config.fresh x.salt).1 =
      .ok ⟨⟨rest, []⟩, crypto.next.next, x.config.method,
        [writeRequestHeader x.address x.port ++ x.initialPayload], some x.salt⟩ := by
    simp only [ShadowsocksReader.newWithSalt, show x.config.fresh.crypto p x.salt = .ok crypto from
      hcrypto, if_neg hm', hf, hreplay, hv]
  rw [← hrest] at hreader ⊢
  refine ⟨_, _, hreader, readToEnd_sealed p _ _ hfit crypto.next.next, ?_⟩
  rw [singleton_append, flatten_cons, hlater]
  rfl

/-- `new` takes the salt off the stream. -/
theorem new_append (h : salt.length = config.method.saltLen) (now : Clock)
    (body : Bytes) (later : List Bytes) :
    ShadowsocksReader.new p now ⟨salt ++ body, later⟩ config =
      ShadowsocksReader.newWithSalt p now ⟨body, later⟩ config salt := by
  rw [ShadowsocksReader.new, ← h, Schedule.readExact_append]

/-! ## Responses -/

/-- A response that a server has sent: `new_response_with_salt` and the calls of
`write_chunk` behind it all returned `Ok`. -/
structure SentResponse where
  config : ServerConfig
  requestSalt : Option Bytes
  salt : Bytes
  start : ShadowsocksWriter
  made : newResponseWithSalt p config requestSalt salt = .ok start
  writes : List Write
  writer : ShadowsocksWriter
  wrote : start.writeChunks p writes = .ok writer

variable (x : SentResponse p)

theorem legacy_response (hm : x.config.method.isAead2022 = false) (now : Clock) :
    Delivers p (newResponse p now ⟨x.writer.inner, []⟩ x.config x.requestSalt) (payloads x.writes) := by
  have hmade := x.made
  unfold newResponseWithSalt at hmade
  rw [if_pos hm] at hmade
  obtain ⟨crypto, hcrypto, hstart⟩ := newWithSalt_ok p hmade
  obtain ⟨hlater, hfit⟩ := allPieces_spec x.config.method x.writes
  have hwriter : x.writer.inner = x.salt ++ sealChunks p crypto (allPieces x.config.method x.writes) := by
    have hwrote := writeChunks_plain p x.writes (w := x.start) (by rw [hstart]; rfl)
    rw [x.wrote, hstart] at hwrote
    rw [Except.ok.inj hwrote]
    rfl
  unfold newResponse
  grind [new_append, crypto_ok_length, delivers_legacy]

section
variable {config : ServerConfig} {salt requestSalt : Bytes} {crypto : CryptoState}
  {w : ShadowsocksWriter}

/-- A writer that has the header of its response still to send. -/
def ShadowsocksWriter.responding (config : ServerConfig) (salt requestSalt : Bytes)
    (crypto : CryptoState) : ShadowsocksWriter :=
  ⟨[], crypto, config.method, some ⟨salt, requestSalt⟩⟩

theorem newResponse_aead2022 (hm : config.method.isAead2022 = true) {echo : Option Bytes}
    (h : newResponseWithSalt p config echo salt = .ok w) :
    ∃ crypto requestSalt, config.crypto p salt = .ok crypto ∧ echo = some requestSalt ∧
      requestSalt.length = config.method.saltLen ∧ w = .responding config salt requestSalt crypto := by
  unfold newResponseWithSalt at h
  rw [if_neg (ne_false_of_eq_true hm)] at h
  cases echo with
  | none => cases h
  | some requestSalt =>
    simp only at h
    split at h
    · cases h
    rename_i hlen
    split at h
    · cases h
    split at h
    · cases h
    · rename_i crypto hcrypto
      exact ⟨crypto, requestSalt, hcrypto, rfl, not_not.mp hlen, (Except.ok.inj h).symm⟩

theorem writeChunks_responding {write : Write} {writes : List Write}
    (h : (responding config salt requestSalt crypto).writeChunks p (write :: writes) = .ok w) :
    ∃ first more fixedHeader, pieces config.method write.payload = first :: more ∧
      encodeAead2022ResponseFixedHeader write.now requestSalt first.length = .ok fixedHeader ∧
      w.inner = salt ++ (crypto.seal_ p fixedHeader ++ (crypto.next.seal_ p first ++
        sealChunks p crypto.next.next (more ++ allPieces config.method writes))) := by
  obtain ⟨first, more, hpieces⟩ := exists_cons_of_ne_nil (pieces_ne_nil config.method write.payload)
  cases hfixed : encodeAead2022ResponseFixedHeader write.now requestSalt first.length with
  | error e =>
    simp only [writeChunks, writeChunk, responding, hpieces,
      writePieces, writePiece, hfixed] at h
    cases h
  | ok fixedHeader =>
    refine ⟨first, more, fixedHeader, hpieces, hfixed, ?_⟩
    -- behind the first piece the writer has no header to send
    have hpiece : (responding config salt requestSalt crypto).writePiece p write.now first =
        .ok (((salted config salt crypto).put p fixedHeader).put p first) := by
      simp only [writePiece, responding, hfixed]
      rfl
    have hmore := writePieces_plain p write.now more
      (w := ((salted config salt crypto).put p fixedHeader).put p first) rfl
    have hwrites := writeChunks_plain p writes
      (w := (((salted config salt crypto).put p fixedHeader).put p first).appended p more) rfl
    have hchunk : (responding config salt requestSalt crypto).writeChunk p write.now write.payload =
        .ok ((((salted config salt crypto).put p fixedHeader).put p first).appended p more) := by
      show (responding config salt requestSalt crypto).writePieces p write.now
        (pieces config.method write.payload) = _
      simp only [hpieces, writePieces, hpiece, hmore]
    grind [appended_appended, writeChunks, appended, put, salted]

/-- The stream of a response, for a client that expects this salt or another. -/
theorem newResponse_encode (hm : config.method.isAead2022 = true) (hcrypto : config.crypto p salt = .ok crypto)
    (hlen : requestSalt.length = config.method.saltLen) {sent : SystemTime} {first fixedHeader : Bytes}
    (hfixed : encodeAead2022ResponseFixedHeader sent requestSalt first.length = .ok fixedHeader) (now : Clock)
    (htime : Timely now.wall sent) {expected : Bytes} (hexpected : expected.length = config.method.saltLen)
    (rest : Bytes) :
    newResponse p now
        ⟨salt ++ (crypto.seal_ p fixedHeader ++ (crypto.next.seal_ p first ++ rest)), []⟩ config (some expected) =
      if requestSalt = expected then .ok ⟨⟨rest, []⟩, crypto.next.next, config.method, [first], none⟩
      else .error .invalidHeader := by
  have hread := readResponseHeader_encode p hlen hfixed htime crypto expected rest []
  have hsalt := Schedule.readExact_append salt
    (crypto.seal_ p fixedHeader ++ (crypto.next.seal_ p first ++ rest)) []
  rw [crypto_ok_length p hcrypto] at hsalt
  grind [newResponse]

end

/-- A response of a 2022 method with something written, for a client that expects
its request's salt or another. -/
theorem aead2022_response (hm : x.config.method.isAead2022 = true) {write : Write}
    {writes : List Write} (hwrites : x.writes = write :: writes) (now : Clock) (htime : Timely now.wall write.now) :
    ∃ requestSalt first chunks s, x.requestSalt = some requestSalt ∧ requestSalt.length = x.config.method.saltLen ∧
      (first :: chunks).flatten = payloads x.writes ∧ (∀ c ∈ chunks, c.length ≤ x.config.method.maxChunkLen) ∧
      ∀ expected, expected.length = x.config.method.saltLen →
        newResponse p now ⟨x.writer.inner, []⟩ x.config (some expected) =
          if requestSalt = expected then .ok ⟨⟨sealChunks p s chunks, []⟩, s, x.config.method, [first], none⟩
          else .error .invalidHeader := by
  obtain ⟨crypto, requestSalt, hcrypto, hecho, hlen, hstart⟩ := newResponse_aead2022 p hm x.made
  have hwrote := x.wrote
  rw [hstart, hwrites] at hwrote
  obtain ⟨first, more, fixedHeader, hpieces, hfixed, hinner⟩ := writeChunks_responding p hwrote
  obtain ⟨hflat, hfit⟩ := pieces_spec x.config.method write.payload
  obtain ⟨hlater, hfit'⟩ := allPieces_spec x.config.method writes
  rw [hpieces] at hflat hfit
  refine ⟨requestSalt, first, more ++ allPieces x.config.method writes, crypto.next.next, hecho, hlen, ?_, ?_, ?_⟩
  · rw [← cons_append, flatten_append, hflat, hlater, hwrites]
    rfl
  all_goals grind [newResponse_encode]

/-- Without a `write_chunk`, not even the salt is sent. -/
theorem inner_of_no_writes (hm : x.config.method.isAead2022 = true) (hwrites : x.writes = []) :
    x.writer.inner = [] := by
  obtain ⟨crypto, requestSalt, -, -, -, hstart⟩ := newResponse_aead2022 p hm x.made
  have hwrote := x.wrote
  rw [hstart, hwrites] at hwrote
  rw [← Except.ok.inj hwrote]
  rfl

section
variable {config : ServerConfig} {now : Clock} {expected : Bytes}

theorem newResponse_nil (hm : config.method.isAead2022 = true) (hlen : expected.length = config.method.saltLen) :
    newResponse p now ⟨[], []⟩ config (some expected) = .error (.io .unexpectedEof) := by
  have hsalt : Schedule.readExact ⟨[], []⟩ config.method.saltLen = (.eof [], ⟨[], []⟩) :=
    Schedule.readExact_eof (s := ⟨[], []⟩) (by cases config.method <;> decide) rfl
  grind [newResponse]

end

/-! ## The echoed salt -/

/-- The fixed header at the front of the stream, once opened, repeats `expected`. -/
def Echoes (config : ServerConfig) (inner : Schedule) (expected : Bytes) : Prop :=
  ∃ salt block rest crypto fixedHeader, inner.bytes = salt ++ (block ++ rest) ∧
    config.crypto p salt = .ok crypto ∧ (crypto.open_ p block).1 = .ok fixedHeader ∧
    (fixedHeader.drop 9).take config.method.saltLen = expected

theorem readSealed_ok {n : Nat} {src : Schedule} {s : CryptoState} {plaintext : Bytes}
    {st : Schedule × CryptoState} (h : readSealed p n (src, s) = (.ok plaintext, st)) :
    ∃ block rest, src.bytes = block ++ rest ∧ (s.open_ p block).1 = .ok plaintext := by
  obtain ⟨block, ⟨src₁, s₁⟩, hread, hopen⟩ := SealedReader.bind_ok h
  obtain ⟨hbytes, rfl⟩ := SealedReader.readExact_ok hread
  exact ⟨block, src₁.bytes, hbytes, congrArg Prod.fst hopen⟩

/-- **Only an echo of the request's salt is accepted**, whatever the stream is. -/
theorem newResponse_echoes (hm : config.method.isAead2022 = true) {now : Clock}
    {inner : Schedule} {expected : Bytes} {r : ShadowsocksReader}
    (h : newResponse p now inner config (some expected) = .ok r) :
    Echoes p config inner expected := by
  unfold newResponse at h
  rw [if_neg (ne_false_of_eq_true hm)] at h
  simp only at h
  split at h
  · cases h
  rcases hsalt : inner.readExact config.method.saltLen with ⟨salt | _ | _, src⟩
  · simp only [hsalt] at h
    cases hcrypto : config.crypto p salt with
    | error e => simp only [hcrypto] at h; cases h
    | ok crypto =>
      simp only [hcrypto] at h
      rcases hread : readResponseHeader p now.wall config.method expected (src, crypto) with ⟨_ | payload, st⟩
      · simp only [hread] at h
        cases h
      obtain ⟨fixedHeader, st₁, hsealed, hrest⟩ := SealedReader.bind_ok hread
      obtain ⟨len, st₂, hcheck, -⟩ := SealedReader.bind_ok hrest
      obtain ⟨block, rest, hbytes, hopen⟩ := readSealed_ok p hsealed
      refine ⟨salt, block, rest, crypto, fixedHeader, ?_, hcrypto, hopen,
        (parseFixedHeader_ok (congrArg Prod.fst hcheck)).2⟩
      rw [Schedule.bytes_of_readExact_done hsalt, hbytes]
  all_goals simp_all

theorem requestSalt_of_accepted (hm : x.config.method.isAead2022 = true) {now : Clock}
    (htime : ∀ write ∈ x.writes.head?, Timely now.wall write.now) {expected : Bytes} {r : ShadowsocksReader}
    (h : newResponse p now ⟨x.writer.inner, []⟩ x.config (some expected) = .ok r) :
    x.requestSalt = some expected := by
  have hexpected : expected.length = x.config.method.saltLen := by
    grind [newResponse]
  cases hwrites : x.writes with
  | nil =>
    rw [inner_of_no_writes p x hm hwrites, newResponse_nil p hm hexpected] at h
    cases h
  | cons write writes => grind [aead2022_response]

/-! ## Result -/

/-- The chunks a client receives before the first error, that of opening the
stream included. -/
def received (result : Except ShadowsocksError ShadowsocksReader) :
    List Bytes × Option ShadowsocksError :=
  match result with
  | .error e => ([], some e)
  | .ok r => r.readToEnd p

/-- Up to the end of the stream `content` is received. -/
def ReadsAs (result : Except ShadowsocksError ShadowsocksReader) (content : Bytes) : Prop :=
  ∃ chunks, received p result = (chunks, some (.io .unexpectedEof)) ∧ chunks.flatten = content

theorem request_round_trip (x : SentRequest p) (now : Clock)
    (htime : x.config.method.isAead2022 = true → Timely now.wall x.sent) :
    ∃ body, x.writer.inner = x.salt ++ body ∧
      Delivers p (ShadowsocksReader.newWithSalt p now ⟨body, []⟩ x.config.fresh x.salt).1 (x.content p) ∧
      Delivers p (ShadowsocksReader.new p now ⟨x.writer.inner, []⟩ x.config.fresh).1 (x.content p) := by
  have hbody : ∃ body, x.writer.inner = x.salt ++ body ∧ x.salt.length = x.config.method.saltLen ∧
      Delivers p (ShadowsocksReader.newWithSalt p now ⟨body, []⟩ x.config.fresh x.salt).1 (x.content p) := by
    cases hm : x.config.method.isAead2022 with
    | false => exact legacy_request p x hm now
    | true => exact aead2022_request p x hm now (htime hm)
  obtain ⟨body, hinner, hsalt, hdelivers⟩ := hbody
  refine ⟨body, hinner, hdelivers, ?_⟩
  have hsalt' : x.salt.length = x.config.fresh.method.saltLen := hsalt
  rw [hinner, new_append p hsalt']
  exact hdelivers

theorem response_round_trip (now : Clock)
    (htime : x.config.method.isAead2022 = true → ∀ write ∈ x.writes.head?, Timely now.wall write.now) :
    ReadsAs p (newResponse p now ⟨x.writer.inner, []⟩ x.config x.requestSalt) (payloads x.writes) ∧
      (x.config.method.isAead2022 = false ∨ x.writes ≠ [] →
        ∃ r, newResponse p now ⟨x.writer.inner, []⟩ x.config x.requestSalt = .ok r) := by
  cases hm : x.config.method.isAead2022 with
  | false =>
    obtain ⟨r, chunks, hr, hread, hflat⟩ := legacy_response p x hm now
    exact ⟨⟨chunks, by rw [hr]; exact hread, hflat⟩, fun _ => ⟨r, hr⟩⟩
  | true =>
    cases hwrites : x.writes with
    | nil =>
      obtain ⟨-, requestSalt, -, hecho, hlen, -⟩ := newResponse_aead2022 p hm x.made
      rw [inner_of_no_writes p x hm hwrites, hecho, newResponse_nil p hm hlen]
      refine ⟨⟨[], rfl, rfl⟩, fun h => ?_⟩
      simp_all
    | cons write writes =>
      obtain ⟨requestSalt, first, chunks, s, hecho, hlen, hflat, hfit, hresponse⟩ :=
        aead2022_response p x hm hwrites now (htime hm write (by rw [hwrites]; rfl))
      rw [← hwrites, hecho, hresponse requestSalt hlen, if_pos rfl]
      exact ⟨⟨first :: chunks, readToEnd_sealed p [first] chunks hfit s, hflat⟩, fun _ => ⟨_, rfl⟩⟩

/-- **Streams are read back.** Whatever is sent as a request or as a response, and
in pieces however large: the other side, if it reads in time, receives the
destination and the payloads and then the end of the stream. A response of a 2022
method is accepted only as the answer to its request. -/
theorem stream_round_trip :
    (∀ (x : SentRequest p) (now : Clock), (x.config.method.isAead2022 = true → Timely now.wall
      x.sent) → ∃ body, x.writer.inner = x.salt ++ body ∧
        Delivers p (ShadowsocksReader.newWithSalt p now ⟨body, []⟩ x.config.fresh x.salt).1 (x.content p) ∧
        Delivers p (ShadowsocksReader.new p now ⟨x.writer.inner, []⟩ x.config.fresh).1 (x.content p)) ∧
    (∀ (x : SentResponse p) (now : Clock),
      (x.config.method.isAead2022 = true → ∀ write ∈ x.writes.head?, Timely now.wall write.now) →
      ReadsAs p (ShadowsocksReader.newResponse p now ⟨x.writer.inner, []⟩ x.config x.requestSalt)
        (payloads x.writes) ∧
      (x.config.method.isAead2022 = false ∨ x.writes ≠ [] →
        ∃ r, ShadowsocksReader.newResponse p now ⟨x.writer.inner, []⟩ x.config x.requestSalt = .ok
      r) ∧ (x.config.method.isAead2022 = true → ∀ expected r,
        ShadowsocksReader.newResponse p now ⟨x.writer.inner, []⟩ x.config (some expected) = .ok r →
        x.requestSalt = some expected)) ∧
    (∀ (config : ServerConfig) (now : Clock) (inner : Schedule) (expected : Bytes) (r : ShadowsocksReader),
      config.method.isAead2022 = true → ShadowsocksReader.newResponse p now inner config
      (some expected) = .ok r → Echoes p config inner expected) := by
  refine ⟨request_round_trip p, fun x now htime => ?_, ?_⟩
  · obtain ⟨hreads, haccepted⟩ := response_round_trip p x now htime
    exact ⟨hreads, haccepted, fun hm expected r => requestSalt_of_accepted p x hm (htime hm)⟩
  · intro config now inner expected r hm h
    exact newResponse_echoes p hm h

end

/-- A request for 127.0.0.1:80 with the PSK `QkJCQkJCQkJCQkJCQkJCQg==`, made at second 100. -/
def pingRequest : SentRequest .transparent where
  config := ⟨.aead2022Blake3Aes128Gcm, "QkJCQkJCQkJCQkJCQkJCQg==", []⟩
  address := .loopback
  fits := trivial
  port := 80
  initialPayload := [112, 105]
  salt := List.replicate 16 0x5a
  padding := 0
  sent := ⟨100 * nanosPerSec, by decide⟩
  start := _
  returned := _
  made := rfl
  writes := [⟨⟨101 * nanosPerSec, by decide⟩, [110, 103]⟩]
  writer := _
  wrote := rfl

/-- Its answer, 20 seconds later and in two pieces. -/
def pongResponse : SentResponse .transparent where
  config := pingRequest.config
  requestSalt := some pingRequest.salt
  salt := List.replicate 16 0x5b
  start := _
  made := rfl
  writes := [⟨⟨120 * nanosPerSec, by decide⟩, [112, 111]⟩, ⟨⟨121 * nanosPerSec, by decide⟩, [110, 103]⟩]
  writer := _
  wrote := rfl

theorem stream_round_trip_ping : Timely ⟨130 * nanosPerSec, by decide⟩ pingRequest.sent ∧
      (∃ body, pingRequest.writer.inner = pingRequest.salt ++ body ∧
        Delivers .transparent (ShadowsocksReader.newWithSalt .transparent ⟨⟨130 * nanosPerSec, by decide⟩, 0⟩
          ⟨body, []⟩ pingRequest.config.fresh pingRequest.salt).1 (pingRequest.content .transparent) ∧
        Delivers .transparent (ShadowsocksReader.new .transparent ⟨⟨130 * nanosPerSec, by decide⟩, 0⟩
          ⟨pingRequest.writer.inner, []⟩ pingRequest.config.fresh).1 (pingRequest.content .transparent)) ∧
      ReadsAs .transparent (ShadowsocksReader.newResponse .transparent ⟨⟨130 * nanosPerSec, by decide⟩, 0⟩
        ⟨pongResponse.writer.inner, []⟩ pongResponse.config pongResponse.requestSalt) [112, 111, 110, 103] := by
  have htime : Timely ⟨130 * nanosPerSec, by decide⟩ pingRequest.sent := ⟨100, rfl, rfl⟩
  refine ⟨htime, (stream_round_trip .transparent).1 pingRequest ⟨⟨130 * nanosPerSec, by decide⟩, 0⟩ fun _ => htime, ?_⟩
  refine ((stream_round_trip .transparent).2.1 pongResponse ⟨⟨130 * nanosPerSec, by decide⟩, 0⟩ fun _ write hw => ?_).1
  cases hw
  exact ⟨120, rfl, rfl⟩

end Wrongsv.L2.Shadowsocks
