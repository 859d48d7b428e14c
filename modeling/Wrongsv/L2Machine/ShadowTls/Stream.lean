import Wrongsv.L1Encoding.ShadowTlsRecord

/-!
# ShadowTLS: the record stream

`ShadowTlsWriter` cuts what is written into records, and `ShadowTlsReader` puts them
together again (server/handler/shadowtls.rs:116-206). Both keep a running
HMAC over everything that was sent. A caller of the reader asks again when a read times
out (:867-890,934-949).

`go_records`: whole records at the front of the stream reach the caller, whatever is
behind them. From that come the round trip of everything that is written, and what
happens to records that are removed, repeated, swapped or altered
(`record_stream_faithful`).
-/
namespace Wrongsv.L2.ShadowTls
open L1.ShadowTls List

def shadowtlsRecordChunk : Nat := 16384

/-! ## The writer -/

/-- What came of a write: the result, the bytes in the stream, and the HMAC. -/
structure Written where
  result : Except ShadowTlsError Nat
  bytes : Bytes
  addState : Hmac

def writeChunks (mac : Mac) (written : Nat) (out : Bytes) : List Bytes → Hmac → Written
  | [], h => ⟨.ok written, out, h⟩
  | chunk :: chunks, h =>
    match encodeShadowtlsApplicationData mac chunk h with
    | (.error e, h) => ⟨.error e, out, h⟩
    | (.ok frame, h) => writeChunks mac (written + chunk.length) (out ++ frame) chunks h

def write (mac : Mac) (buf : Bytes) (h : Hmac) : Written :=
  writeChunks mac 0 [] (buf.toChunks shadowtlsRecordChunk) h

/-- One write after the other; the results, the bytes in the stream, and the HMAC. -/
def writeAll (mac : Mac) : List Bytes → Hmac → List (Except ShadowTlsError Nat) × Bytes × Hmac
  | [], h => ([], [], h)
  | buf :: writes, h =>
    let first := write mac buf h
    let others := writeAll mac writes first.addState
    (first.result :: others.1, first.bytes ++ others.2.1, others.2.2)

/-! ## The reader -/

/-- `pending` is what is left of it, from `pending_offset` on. -/
structure ShadowTlsReader where
  stream : Schedule
  verifyState : Hmac
  pending : Bytes

def fillPending.go (mac : Mac) :
    Nat → ShadowTlsReader → Except ShadowTlsError Unit × ShadowTlsReader
  | 0, s => (.error .unexpectedEof, s)
  | fuel + 1, s =>
    match extractTlsFrame s.stream with
    | (.error e, stream) => (.error e, { s with stream })
    | (.ok frame, stream) =>
      if frame.getD 0 0 = alert then (.error .peerAlert, { s with stream })
      else
        match decodeShadowtlsApplicationData mac frame s.verifyState with
        | (.error e, verifyState) => (.error e, { s with stream, verifyState })
        | (.ok payload, verifyState) =>
          if payload ≠ [] then (.ok (), ⟨stream, verifyState, payload⟩)
          else go mac fuel { s with stream, verifyState }

/-- Every frame takes a byte.
shadowtls.rs:137-154 -/
def fillPending (mac : Mac) (s : ShadowTlsReader) : Except ShadowTlsError Unit × ShadowTlsReader :=
  fillPending.go mac (s.stream.bytes.length + 1) s

def ShadowTlsReader.serve (s : ShadowTlsReader) (len : Nat) :
    Except ShadowTlsError Bytes × ShadowTlsReader :=
  (.ok (s.pending.take len), { s with pending := s.pending.drop len })

/-- `len` is the length of the caller's buffer. -/
def ShadowTlsReader.read (mac : Mac) (s : ShadowTlsReader) (len : Nat) :
    Except ShadowTlsError Bytes × ShadowTlsReader :=
  if s.pending = [] then
    match fillPending mac s with
    | (.error e, s) => (.error e, s)
    | (.ok (), s) => s.serve len
  else s.serve len

/-! ## A caller that asks again -/

/-- The error that ends the bytes, and the HMAC of the reader then. -/
abbrev Stop := Option ShadowTlsError × Hmac

/-- Call `i` has a buffer of `lens i` bytes. -/
def retry.go (mac : Mac) (lens : Nat → Nat) : Nat → Nat → ShadowTlsReader → Collected Stop
  | 0, _, s => ⟨[], none, s.verifyState⟩
  | fuel + 1, i, s =>
    match s.read mac (lens i) with
    | (.ok bytes, s) => (go mac lens fuel (i + 1) s).prepend bytes
    | (.error .wouldBlock, s) => go mac lens fuel (i + 1) s
    | (.error e, s) => ⟨[], some e, s.verifyState⟩

/-- Every call gives a byte, or takes a byte or a timeout. -/
def retry (mac : Mac) (lens : Nat → Nat) (s : ShadowTlsReader) : Collected Stop :=
  retry.go mac lens (s.pending.length + s.stream.weight + 1) 0 s

/-! ## Chains of records -/

/-- The HMAC behind some records. -/
def afterAll (h : Hmac) (records : List Record) : Hmac := records.foldl Record.after h

/-- Every record has the right tag. -/
def Chained (mac : Mac) : Hmac → List Record → Prop
  | _, [] => True
  | h, r :: records => r.Genuine mac h ∧ Chained mac (r.after h) records

instance decidableChained (mac : Mac) : ∀ h records, Decidable (Chained mac h records)
  | _, [] => .isTrue trivial
  | h, r :: records => @instDecidableAnd _ _ _ (decidableChained mac (r.after h) records)

/-- The records of some payloads, up to one that is too large. -/
def recordsOf (mac : Mac) : Hmac → List Bytes → List Record
  | _, [] => []
  | h, payload :: payloads =>
    if small : hmacSize + payload.length ≤ 65535 then
      recordOf mac h payload small :: recordsOf mac ((recordOf mac h payload small).after h) payloads
    else []

section
variable {mac : Mac}

theorem afterAll_append (h : Hmac) (a b : List Record) :
    afterAll h (a ++ b) = afterAll (afterAll h a) b :=
  foldl_append ..

variable {h : Hmac}

theorem Chained.append {a b : List Record} (ha : Chained mac h (a ++ b)) :
    Chained mac h a ∧ Chained mac (afterAll h a) b := by
  induction a generalizing h with
  | nil => exact ⟨trivial, ha⟩
  | cons r a ih =>
    obtain ⟨hgenuine, hrest⟩ := ha
    obtain ⟨hfirst, hsecond⟩ := ih hrest
    exact ⟨⟨hgenuine, hfirst⟩, hsecond⟩

theorem small_of_chunk {chunk : Bytes} (h : chunk.length ≤ shadowtlsRecordChunk) :
    hmacSize + chunk.length ≤ 65535 := by
  unfold hmacSize
  unfold shadowtlsRecordChunk at h
  omega

theorem writeChunks_eq (mac : Mac) (chunks : List Bytes) (hsmall : ∀ c ∈ chunks, c.length ≤ shadowtlsRecordChunk) :
    ∀ (written : Nat) (out : Bytes) (h : Hmac), writeChunks mac written out chunks h =
        ⟨.ok (written + chunks.flatten.length), out ++ (recordsOf mac h chunks).flatMap
          Record.bytes, afterAll h (recordsOf mac h chunks)⟩ ∧
      Chained mac h (recordsOf mac h chunks) ∧ (recordsOf mac h chunks).map Record.payload = chunks := by
  induction chunks with
  | nil =>
    simp [writeChunks, recordsOf, afterAll, Chained]
  | cons chunk chunks ih =>
    intro written out h
    have small := small_of_chunk (hsmall chunk mem_cons_self)
    obtain ⟨heq, hchained, hpayloads⟩ := ih (fun c hc => hsmall c (mem_cons_of_mem _ hc))
      (written + chunk.length) (out ++ (recordOf mac h chunk small).bytes) ((recordOf mac h chunk small).after h)
    rw [recordsOf, dif_pos small, writeChunks, encode_record small]
    refine ⟨?_, ⟨genuine_recordOf small, hchained⟩, ?_⟩
    · simp only [heq, flatten_cons, length_append, flatMap_cons, append_assoc, Nat.add_assoc]
      rfl
    · rw [map_cons, hpayloads]
      rfl

/-! ## Reading records -/

theorem head_bytes (r : Record) : ¬ r.bytes.getD 0 0 = alert := by
  intro h
  cases h

/-- **A record at the front of the stream.** -/
theorem go_record (r : Record) (fuel : Nat) (rest : Bytes) (later : List Bytes) (h : Hmac)
    (pending : Bytes) : fillPending.go mac (fuel + 1) ⟨⟨r.bytes ++ rest, later⟩, h, pending⟩ =
      if ¬ r.Genuine mac h then (.error .verification, ⟨⟨rest, later⟩, h.update r.payload, pending⟩)
      else if r.payload ≠ [] then (.ok (), ⟨⟨rest, later⟩, r.after h, r.payload⟩)
      else fillPending.go mac fuel ⟨⟨rest, later⟩, r.after h, pending⟩ := by
  have hread := settles_extractTlsFrame r rest later
  grind [fillPending.go, head_bytes, decode_record]

/-- There is always enough fuel. -/
theorem go_fuel (fuel : Nat) : ∀ (fuel' : Nat) (s : ShadowTlsReader), s.stream.bytes.length < fuel →
    s.stream.bytes.length < fuel' → fillPending.go mac fuel s = fillPending.go mac fuel' s := by
  induction fuel with
  | zero => exact fun _ _ hlt => absurd hlt (Nat.not_lt_zero _)
  | succ fuel ih =>
    intro fuel' s hlt hlt'
    obtain ⟨fuel', rfl⟩ : ∃ k, fuel' = k + 1 := ⟨fuel' - 1, by omega⟩
    rw [fillPending.go, fillPending.go]
    rcases hread : extractTlsFrame s.stream with ⟨e | frame, stream⟩
    · rfl
    · obtain ⟨hbytes, hlen⟩ := extractTlsFrame_ok hread
      grind [tlsHeaderSize]

theorem fillPending_skip {r : Record} (hgenuine : r.Genuine mac h) (hempty : r.payload = [])
    (rest : Bytes) (later : List Bytes) (pending : Bytes) :
    fillPending mac ⟨⟨r.bytes ++ rest, later⟩, h, pending⟩ = fillPending mac ⟨⟨rest, later⟩, r.after h, pending⟩ := by
  rw [fillPending, go_record, if_neg (not_not_intro hgenuine), if_neg (not_not_intro hempty)]
  refine go_fuel _ _ _ ?_ (Nat.lt_succ_self _)
  have hlen := length_bytes r
  simp only [Schedule.bytes, length_append]
  unfold tlsHmacHeaderSize tlsHeaderSize at hlen
  omega

theorem fillPending_starved {got : Bytes} (hgot : Reader.Starves .wouldBlock .unexpectedEof extractTlsFrame got) (h : Hmac)
    (pending : Bytes) :
    (∀ next later, fillPending mac ⟨⟨got, next :: later⟩, h, pending⟩ =
      (.error .wouldBlock, ⟨⟨next, later⟩, h, pending⟩)) ∧ fillPending mac ⟨⟨got, []⟩, h, pending⟩ =
      (.error .unexpectedEof, ⟨⟨[], []⟩, h, pending⟩) := by
  constructor
  · intro next later
    rw [fillPending, fillPending.go, hgot.block]
  · rw [fillPending, fillPending.go, hgot.eof]

theorem starves_nil : Reader.Starves .wouldBlock .unexpectedEof extractTlsFrame [] :=
  ⟨fun _ _ => rfl, rfl⟩

/-! ## Runs -/

section
variable {lens : Nat → Nat}

theorem go_pending (hlens : ∀ i, 0 < lens i) (stream : Schedule) (h : Hmac) (m : Nat) (n : Nat) :
    ∀ (pending : Bytes) (fuel i : Nat), pending.length = n → n + m < fuel →
      ∃ fuel' i', m < fuel' ∧ retry.go mac lens fuel i ⟨stream, h, pending⟩ =
        (retry.go mac lens fuel' i' ⟨stream, h, []⟩).prepend pending := by
  induction n using Nat.strongRecOn with
  | _ n ih =>
    intro pending fuel i hlen hfuel
    by_cases hpending : pending = []
    · subst hpending
      exact ⟨fuel, i, by omega, rfl⟩
    · obtain ⟨fuel, rfl⟩ : ∃ k, fuel = k + 1 := ⟨fuel - 1, by omega⟩
      have hpos := length_pos_of_ne_nil hpending
      have hdrop : (pending.drop (lens i)).length < n := by
        have := hlens i
        rw [length_drop]
        omega
      obtain ⟨fuel', i', hmore, heq⟩ := ih _ hdrop (pending.drop (lens i)) fuel (i + 1) rfl (by omega)
      refine ⟨fuel', i', hmore, ?_⟩
      rw [retry.go, ShadowTlsReader.read, if_neg hpending]
      simp only [ShadowTlsReader.serve, heq, Collected.prepend_prepend, take_append_drop]

/-- **Whole records at the front of the stream** reach the caller, whatever is behind
them. -/
theorem go_records (hlens : ∀ i, 0 < lens i) (rest : Bytes) (later : List Bytes) (m : Nat)
    (records : List Record) : ∀ (h : Hmac) (pending : Bytes) (fuel i : Nat), Chained mac h records →
      pending.length + (records.flatMap Record.bytes).length + m < fuel → ∃ fuel' i', m < fuel' ∧
      retry.go mac lens fuel i ⟨⟨records.flatMap Record.bytes ++ rest, later⟩, h, pending⟩ =
        (retry.go mac lens fuel' i' ⟨⟨rest, later⟩, afterAll h records, []⟩).prepend
          (pending ++ records.flatMap Record.payload) := by
  induction records with
  | nil =>
    intro h pending fuel i _ hfuel
    obtain ⟨fuel', i', hmore, heq⟩ := go_pending hlens ⟨rest, later⟩ h m _ pending fuel i rfl (by simpa using hfuel)
    exact ⟨fuel', i', hmore, by simpa [afterAll] using heq⟩
  | cons r records ih =>
    intro h pending fuel i hchained hfuel
    obtain ⟨hgenuine, hrest⟩ := hchained
    have hlen := length_bytes r
    rw [flatMap_cons, length_append] at hfuel
    rw [flatMap_cons, append_assoc, flatMap_cons]
    obtain ⟨fuel₁, i₁, hmore₁, heq₁⟩ := go_pending hlens
      ⟨r.bytes ++ (records.flatMap Record.bytes ++ rest), later⟩ h
      (r.bytes.length + (records.flatMap Record.bytes).length + m) _ pending fuel i rfl (by omega)
    obtain ⟨fuel₁, rfl⟩ : ∃ k, fuel₁ = k + 1 := ⟨fuel₁ - 1, by omega⟩
    rw [heq₁]
    by_cases hempty : r.payload = []
    · -- the call goes on with the next record
      obtain ⟨fuel', i', hmore, heq⟩ := ih (r.after h) [] (fuel₁ + 1) i₁ hrest (by simp only [length_nil]; omega)
      refine ⟨fuel', i', hmore, ?_⟩
      have hsame : retry.go mac lens (fuel₁ + 1) i₁
          ⟨⟨r.bytes ++ (records.flatMap Record.bytes ++ rest), later⟩, h, []⟩ =
          retry.go mac lens (fuel₁ + 1) i₁ ⟨⟨records.flatMap Record.bytes ++ rest, later⟩, r.after h, []⟩ := by
        rw [retry.go, retry.go, ShadowTlsReader.read, ShadowTlsReader.read, if_pos rfl, if_pos rfl,
          fillPending_skip hgenuine hempty]
      rw [hsame, heq, Collected.prepend_prepend, hempty]
      rfl
    · -- it gives the first bytes of the payload to the caller
      have htake := take_append_drop (lens i₁) r.payload
      obtain ⟨fuel', i', hmore, heq⟩ := ih (r.after h) (r.payload.drop (lens i₁)) fuel₁ (i₁ + 1) hrest (by
        unfold tlsHmacHeaderSize tlsHeaderSize at hlen
        rw [length_drop]
        omega)
      refine ⟨fuel', i', hmore, ?_⟩
      rw [retry.go, ShadowTlsReader.read, if_pos rfl, fillPending, go_record, if_neg
        (not_not_intro hgenuine), if_pos hempty]
      simp only [ShadowTlsReader.serve, heq, Collected.prepend_prepend]
      rw [← append_assoc (r.payload.take (lens i₁)), htake]
      rfl

theorem go_end (fuel i : Nat) (h : Hmac) :
    retry.go mac lens (fuel + 1) i ⟨⟨[], []⟩, h, []⟩ = ⟨[], some .unexpectedEof, h⟩ := by
  rw [retry.go, ShadowTlsReader.read, if_pos rfl, (fillPending_starved starves_nil h []).2]

/-- **Records with the right tags** are read to the end. -/
theorem retry_chained (hlens : ∀ i, 0 < lens i) {h : Hmac} {records : List Record} (hchained : Chained mac h records) :
    retry mac lens ⟨⟨records.flatMap Record.bytes, []⟩, h, []⟩ =
      ⟨records.flatMap Record.payload, some .unexpectedEof, afterAll h records⟩ := by
  obtain ⟨fuel, i, hmore, heq⟩ := go_records hlens [] [] 0 records h []
    (0 + Schedule.weight ⟨records.flatMap Record.bytes, []⟩ + 1) 0 hchained (by
      simp only [Schedule.weight, Schedule.bytes, length_append, length_nil]
      omega)
  obtain ⟨fuel, rfl⟩ : ∃ k, fuel = k + 1 := ⟨fuel - 1, by omega⟩
  rw [go_end] at heq
  rw [retry]
  simpa [Collected.prepend] using heq

/-- **A record with a wrong tag** is the end of the stream. -/
theorem retry_rejected (hlens : ∀ i, 0 < lens i) {h : Hmac} {records : List Record} (hchained : Chained mac h records)
    {r : Record} (hforged : ¬ r.Genuine mac (afterAll h records)) (others : List Record) :
    retry mac lens ⟨⟨(records ++ r :: others).flatMap Record.bytes, []⟩, h, []⟩ =
      ⟨records.flatMap Record.payload, some .verification, (afterAll h records).update r.payload⟩ := by
  obtain ⟨fuel, i, hmore, heq⟩ := go_records hlens (r.bytes ++ others.flatMap Record.bytes) [] 0 records h []
    (0 + Schedule.weight ⟨(records ++ r :: others).flatMap Record.bytes, []⟩ + 1) 0 hchained (by
      simp only [Schedule.weight, Schedule.bytes, flatMap_append, length_append, length_nil]
      omega)
  obtain ⟨fuel, rfl⟩ : ∃ k, fuel = k + 1 := ⟨fuel - 1, by omega⟩
  have hgo : retry.go mac lens (fuel + 1) i ⟨⟨r.bytes ++ others.flatMap Record.bytes, []⟩, afterAll h records, []⟩ =
      ⟨[], some .verification, (afterAll h records).update r.payload⟩ := by
    rw [retry.go, ShadowTlsReader.read, if_pos rfl, fillPending, go_record, if_pos hforged]
  rw [hgo] at heq
  rw [retry]
  simpa [Collected.prepend] using heq

end

/-! ## What is written -/

/-- The payloads of the records of some writes. -/
def chunksOf (writes : List Bytes) : List Bytes := writes.flatMap (·.toChunks shadowtlsRecordChunk)

def sentRecords (mac : Mac) (h : Hmac) (writes : List Bytes) : List Record :=
  recordsOf mac h (chunksOf writes)

theorem toChunks_small (buf : Bytes) :
    ∀ c ∈ buf.toChunks shadowtlsRecordChunk, c.length ≤ shadowtlsRecordChunk :=
  (toChunks_spec (by decide) buf).2

theorem recordsOf_append (a b : List Bytes) (hsmall : ∀ c ∈ a, c.length ≤ shadowtlsRecordChunk) (h : Hmac) :
    recordsOf mac h (a ++ b) = recordsOf mac h a ++ recordsOf mac (afterAll h (recordsOf mac h a)) b := by
  induction a generalizing h with
  | nil => rfl
  | cons chunk a ih =>
    have small := small_of_chunk (hsmall chunk mem_cons_self)
    rw [cons_append, recordsOf, dif_pos small, recordsOf, dif_pos small,
      ih (fun c hc => hsmall c (mem_cons_of_mem _ hc)), cons_append]
    rfl

/-- **The writes, as records.** -/
theorem writeAll_eq (writes : List Bytes) : ∀ h : Hmac, writeAll mac writes h =
    (writes.map fun buf => .ok buf.length, (sentRecords mac h writes).flatMap Record.bytes,
      afterAll h (sentRecords mac h writes)) := by
  induction writes with
  | nil => intro h; rfl
  | cons buf writes ih =>
    intro h
    have hsmall := toChunks_small buf
    obtain ⟨hwrite, -, -⟩ := writeChunks_eq mac _ hsmall 0 [] h
    have hjoin : (buf.toChunks shadowtlsRecordChunk).flatten = buf := (toChunks_spec (by decide) buf).1
    have hrecords : sentRecords mac h (buf :: writes) = recordsOf mac h (buf.toChunks shadowtlsRecordChunk) ++
        sentRecords mac (afterAll h (recordsOf mac h (buf.toChunks shadowtlsRecordChunk))) writes :=
      recordsOf_append _ _ hsmall h
    rw [writeAll]
    simp only [write, hwrite, hjoin, ih, hrecords, flatMap_append, afterAll_append, Nat.zero_add,
      nil_append, map_cons]

theorem chunksOf_small {writes : List Bytes} {c : Bytes} (hc : c ∈ chunksOf writes) :
    c.length ≤ shadowtlsRecordChunk := by
  obtain ⟨buf, -, hmem⟩ := List.mem_flatMap.mp hc
  exact toChunks_small buf c hmem

theorem flatten_chunksOf (writes : List Bytes) : (chunksOf writes).flatten = writes.flatten := by
  induction writes with
  | nil => rfl
  | cons buf writes ih => grind [shadowtlsRecordChunk, toChunks_spec, chunksOf]

/-! ## What arrives -/

/-- What the tags are made of: the HMAC in front of each tag. -/
def histories : Hmac → List Record → List Hmac
  | _, [] => []
  | h, r :: records => h.update r.payload :: histories (r.after h) records

/-- Different histories of the two sides have different tags. -/
def NoCollision (mac : Mac) (h : Hmac) (sent received : List Record) : Prop :=
  ∀ u ∈ histories h sent, ∀ v ∈ histories h received, u.tag mac = v.tag mac → u = v

instance (mac : Mac) (h : Hmac) (sent received : List Record) : Decidable (NoCollision mac h sent received) :=
  inferInstanceAs (Decidable (∀ _ ∈ _, ∀ _ ∈ _, _ → _))

/-- The records in front of the first one that is not in its place. -/
def common : List Record → List Record → List Record
  | r :: sent, r' :: received => if r = r' then r :: common sent received else []
  | _, _ => []

theorem length_updates (h : Hmac) (records : List Record) :
    (afterAll h records).updates.length = h.updates.length + 2 * records.length := by
  induction records generalizing h with
  | nil => rfl
  | cons r records ih =>
    have hafter : (r.after h).updates.length = h.updates.length + 2 := by simp [Record.after, Hmac.update]
    grind [afterAll]

theorem mem_histories (h : Hmac) (before : List Record) (r : Record) (behind : List Record) :
    (afterAll h before).update r.payload ∈ histories h (before ++ r :: behind) := by
  induction before generalizing h with
  | nil => exact mem_cons_self
  | cons first before ih => exact mem_cons_of_mem _ (ih (first.after h))

/-- Equal histories are at the same place, and about the same payload. -/
theorem eq_of_histories {before before' : List Record} {r r' : Record}
    (heq : (afterAll h before).update r.payload = (afterAll h before').update r'.payload) :
    before.length = before'.length ∧ r.payload = r'.payload := by
  have hupdates := congrArg Hmac.updates heq
  obtain ⟨hbefore, hpayload⟩ := append_inj' hupdates rfl
  grind [length_updates]

theorem common_spec (sent received : List Record) :
      (∃ behind, sent = common sent received ++ behind) ∧ (received = common sent received ∨
        ∃ r others, received = common sent received ++ r :: others ∧ sent[(common sent received).length]? ≠ some r) := by
  induction sent generalizing received with
  | nil =>
    cases received with
    | nil => exact ⟨⟨[], rfl⟩, .inl rfl⟩
    | cons r received => exact ⟨⟨[], rfl⟩, .inr ⟨r, received, rfl, nofun⟩⟩
  | cons first sent ih =>
    cases received with
    | nil => exact ⟨⟨first :: sent, rfl⟩, .inl rfl⟩
    | cons r received =>
      rw [common]
      by_cases hsame : first = r
      all_goals simp_all

/-- **The first record that is not in its place has a wrong tag.** -/
theorem not_genuine_of_misplaced {sent before others : List Record} {r : Record} (hsent : Chained mac h sent)
    (htag : ∃ t ∈ sent, t.tag = r.tag) (hcollision : NoCollision mac h sent (before ++ r :: others))
    (hmisplaced : sent[before.length]? ≠ some r) : ¬ r.Genuine mac (afterAll h before) := by
  intro hgenuine
  obtain ⟨t, hmem, htag⟩ := htag
  obtain ⟨before', behind, rfl⟩ := append_of_mem hmem
  have hsame : ((afterAll h before').update t.payload).tag mac = ((afterAll h before).update r.payload).tag mac := by
    rw [← hgenuine, ← htag]
    exact hsent.append.2.1.symm
  obtain ⟨hlen, hpayload⟩ := eq_of_histories
    (hcollision _ (mem_histories h before' t behind) _ (mem_histories h before r others) hsame)
  have heq : t = r := by
    obtain ⟨payload, tag, small⟩ := t
    simp_all
  refine hmisplaced ?_
  rw [← hlen, ← heq]
  simp

theorem retry_recordsOf {lens : Nat → Nat} (hlens : ∀ i, 0 < lens i) (h : Hmac)
    (chunks : List Bytes) (hsmall : ∀ c ∈ chunks, c.length ≤ shadowtlsRecordChunk) :
    retry mac lens ⟨⟨(recordsOf mac h chunks).flatMap Record.bytes, []⟩, h, []⟩ =
      ⟨chunks.flatten, some .unexpectedEof, afterAll h (recordsOf mac h chunks)⟩ := by
  obtain ⟨-, hchained, hpayloads⟩ := writeChunks_eq mac chunks hsmall 0 [] h
  grind [retry_chained]

/-- **Records that are not the sent ones**, or not in their order. -/
theorem retry_tampered {lens : Nat → Nat} (hlens : ∀ i, 0 < lens i) {sent received : List Record}
    (hsent : Chained mac h sent) (htags : ∀ r ∈ received, ∃ t ∈ sent, t.tag = r.tag)
    (hcollision : NoCollision mac h sent received) :
    (retry mac lens ⟨⟨received.flatMap Record.bytes, []⟩, h, []⟩).bytes = (common sent received).flatMap Record.payload ∧
      (retry mac lens ⟨⟨received.flatMap Record.bytes, []⟩, h, []⟩).stop.1 =
        some (if received = common sent received then .unexpectedEof else .verification) := by
  obtain ⟨⟨behind, hbehind⟩, hreceived⟩ := common_spec sent received
  have hcommon : Chained mac h (common sent received) := by
    rw [hbehind] at hsent
    exact hsent.append.1
  rcases hreceived with hall | ⟨r, others, hothers, hmisplaced⟩
  · rw [if_pos hall]
    rw [← hall] at hcommon ⊢
    rw [retry_chained hlens hcommon]
    exact ⟨rfl, rfl⟩
  · have hmem : r ∈ received := by
      rw [hothers]
      exact mem_append_right _ mem_cons_self
    have hne : received ≠ common sent received := by
      intro heq
      have hlen := congrArg List.length (heq.symm.trans hothers)
      simp at hlen
    have hforged : ¬ r.Genuine mac (afterAll h (common sent received)) := by
      rw [hothers] at hcollision
      exact not_genuine_of_misplaced hsent (htags r hmem) hcollision hmisplaced
    have hrun := retry_rejected hlens hcommon hforged others
    rw [← hothers] at hrun
    rw [hrun, if_neg hne]
    exact ⟨rfl, rfl⟩

/-- **The record stream is faithful.** The caller of the reader gets what was written,
and the two HMACs agree behind every record. If the records that arrive have tags of
the sent ones, then the caller gets the payloads up to the first record that is not in
its place, and that record is rejected. -/
theorem record_stream_faithful (mac : Mac) (h : Hmac) (writes : List Bytes) (lens : Nat → Nat)
    (hlens : ∀ i, 0 < lens i) : (writeAll mac writes h).1 = writes.map (fun buf => .ok buf.length) ∧
    retry mac lens ⟨⟨(writeAll mac writes h).2.1, []⟩, h, []⟩ =
      ⟨writes.flatten, some .unexpectedEof, (writeAll mac writes h).2.2⟩ ∧
    (∀ k, retry mac lens ⟨⟨(writeChunks mac 0 [] ((chunksOf writes).take k) h).bytes, []⟩, h, []⟩ =
      ⟨((chunksOf writes).take k).flatten, some .unexpectedEof,
        (writeChunks mac 0 [] ((chunksOf writes).take k) h).addState⟩) ∧
    (writeAll mac writes h).2.1 = (sentRecords mac h writes).flatMap Record.bytes ∧
    ∀ received : List Record, (∀ r ∈ received, ∃ t ∈ sentRecords mac h writes, t.tag = r.tag) →
      NoCollision mac h (sentRecords mac h writes) received →
      (retry mac lens ⟨⟨received.flatMap Record.bytes, []⟩, h, []⟩).bytes =
        (common (sentRecords mac h writes) received).flatMap Record.payload ∧
      (retry mac lens ⟨⟨received.flatMap Record.bytes, []⟩, h, []⟩).stop.1 =
        some (if received = common (sentRecords mac h writes) received then .unexpectedEof else .verification) := by
  have hsmall : ∀ c ∈ chunksOf writes, c.length ≤ shadowtlsRecordChunk := fun c hc => chunksOf_small hc
  rw [writeAll_eq]
  refine ⟨rfl, ?_, fun k => ?_, rfl, fun received htags hcollision => ?_⟩
  · rw [← flatten_chunksOf]
    exact retry_recordsOf hlens h _ hsmall
  · have hfew : ∀ c ∈ (chunksOf writes).take k, c.length ≤ shadowtlsRecordChunk :=
      fun c hc => hsmall c (mem_of_mem_take hc)
    rw [(writeChunks_eq mac _ hfew 0 [] h).1]
    exact retry_recordsOf hlens h _ hfew
  · exact retry_tampered hlens (writeChunks_eq mac (chunksOf writes) hsmall 0 [] h).2.1 htags hcollision

/-- A checksum to compute with. -/
def checksum : Mac := fun key data =>
  ⟨be32 ((key ++ data).foldl (fun sum b => 31 * sum + b.toUInt32 + 1) 7), rfl⟩

/-- Three writes, and the second record does not arrive. -/
theorem removed_rejected :
    let h : Hmac := ⟨[1, 2], []⟩
    let sent := sentRecords checksum h [[5], [6, 7], [8]]
    let received := sent.eraseIdx 1
    (∀ r ∈ received, ∃ t ∈ sent, t.tag = r.tag) ∧ NoCollision checksum h sent received ∧
      (retry checksum (fun _ => 4) ⟨⟨received.flatMap Record.bytes, []⟩, h, []⟩).bytes = [5] ∧
      (retry checksum (fun _ => 4) ⟨⟨received.flatMap Record.bytes, []⟩, h, []⟩).stop.1 = some .verification := by
  have htags : ∀ r ∈ (sentRecords checksum ⟨[1, 2], []⟩ [[5], [6, 7], [8]]).eraseIdx 1,
      ∃ t ∈ sentRecords checksum ⟨[1, 2], []⟩ [[5], [6, 7], [8]], t.tag = r.tag := by decide
  have hcollision : NoCollision checksum ⟨[1, 2], []⟩ (sentRecords checksum ⟨[1, 2], []⟩ [[5], [6, 7], [8]])
      ((sentRecords checksum ⟨[1, 2], []⟩ [[5], [6, 7], [8]]).eraseIdx 1) := by decide
  obtain ⟨-, -, -, -, htampered⟩ := record_stream_faithful checksum ⟨[1, 2], []⟩ [[5], [6, 7], [8]] (fun _ => 4)
    (fun _ => by decide)
  obtain ⟨hbytes, hstop⟩ := htampered _ htags hcollision
  exact ⟨htags, hcollision, hbytes.trans (by decide), hstop.trans (by decide)⟩

end

end Wrongsv.L2.ShadowTls
