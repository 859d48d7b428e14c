import Wrongsv.L2Machine.ShadowTls.Stream

/-!
# ShadowTLS: a timeout inside a record ends the stream

`extract_tls_frame` (server/handler/shadowtls.rs:294-303) reads the header and the body of a
record with one `read_exact` each and keeps them on the stack. If one of them reports
`WouldBlock`, the relays call `read` again (:867-890,934-949), and the middle of the record
is taken for the header of the next one. The HMAC has not seen the lost record, so nothing
behind it is accepted any more. The timeouts are 5 s for the vision relay and 200 ms for
UDP (:816,926).

Fix: keep the bytes of a partial record in the reader.
-/
namespace Wrongsv.Bugs.ShadowTlsIdleReads
open L1.ShadowTls L2.ShadowTls List

/-- Every stretch of the schedule is made of whole records. -/
def Between (records : List Record) (s : Schedule) : Prop :=
  ∃ (first : List Record) (others : List (List Record)), records = first ++ others.flatten ∧
    s = ⟨first.flatMap Record.bytes, others.map (·.flatMap Record.bytes)⟩

/-- `len` bytes of the stream from the position `o` on. -/
def found (records : List Record) (o len : Nat) : Bytes :=
  ((records.flatMap Record.bytes).drop o).take len

/-- Behind the beginning of a record nothing passes for this record: no frame, wherever
in the stream it is found, has the right tag for the HMAC in front of the record. -/
def Unforged (mac : Mac) (h : Hmac) (records : List Record) : Prop :=
  ∀ k < records.length, ∀ o ≤ (records.flatMap Record.bytes).length, ∀ len ≤ (records.flatMap Record.bytes).length,
    ((records.take k).flatMap Record.bytes).length < o →
    (found records o len).length = tlsHeaderSize + u16At (found records o len) 3 →
    (decodeShadowtlsApplicationData mac (found records o len) (afterAll h (records.take k))).1.toOption = none

instance (mac : Mac) (h : Hmac) (records : List Record) : Decidable (Unforged mac h records) :=
  inferInstanceAs (Decidable (∀ _ < _, ∀ _ ≤ _, ∀ _ ≤ _, _ < _ → _ = _ → _ = none))

section
variable {mac : Mac} {lens : Nat → Nat}

/-! ## Timeouts between records -/

theorem go_blocked {got : Bytes} (hgot : Reader.Starves .wouldBlock .unexpectedEof extractTlsFrame got) (fuel i : Nat)
    (h : Hmac) (next : Bytes) (later : List Bytes) :
    retry.go mac lens (fuel + 1) i ⟨⟨got, next :: later⟩, h, []⟩ =
      retry.go mac lens fuel (i + 1) ⟨⟨next, later⟩, h, []⟩ := by
  rw [retry.go, ShadowTlsReader.read, if_pos rfl, (fillPending_starved hgot h []).1]

/-- **Timeouts between records do no harm.** -/
theorem go_between (hlens : ∀ i, 0 < lens i) (others : List (List Record)) :
    ∀ (first : List Record) (h : Hmac) (fuel i : Nat), Chained mac h (first ++ others.flatten) →
      Schedule.weight ⟨first.flatMap Record.bytes, others.map (·.flatMap Record.bytes)⟩ < fuel →
      retry.go mac lens fuel i ⟨⟨first.flatMap Record.bytes, others.map (·.flatMap Record.bytes)⟩, h, []⟩ =
        ⟨(first ++ others.flatten).flatMap Record.payload, some .unexpectedEof,
          afterAll h (first ++ others.flatten)⟩ := by
  induction others with
  | nil =>
    intro first h fuel i hchained hfuel
    rw [flatten_nil, append_nil] at hchained ⊢
    simp only [Schedule.weight, Schedule.bytes, map_nil, flatten_nil, append_nil,
      length_nil, Nat.add_zero] at hfuel
    obtain ⟨fuel', i', hmore, heq⟩ := go_records hlens [] [] 0 first h [] fuel i hchained (by simpa using hfuel)
    obtain ⟨fuel', rfl⟩ : ∃ k, fuel' = k + 1 := ⟨fuel' - 1, by omega⟩
    grind [go_end, Collected.prepend]
  | cons next others ih =>
    intro first h fuel i hchained hfuel
    obtain ⟨hfirst, hrest⟩ := hchained.append
    simp only [Schedule.weight, Schedule.bytes, map_cons, flatten_cons, length_append,
      length_cons] at hfuel
    obtain ⟨fuel', i', hmore, heq⟩ := go_records hlens [] (next.flatMap Record.bytes :: others.map (·.flatMap Record.bytes))
      (Schedule.weight ⟨next.flatMap Record.bytes, others.map (·.flatMap Record.bytes)⟩ + 1) first h [] fuel i hfirst (by
        simp only [Schedule.weight, Schedule.bytes, length_append, length_nil]
        omega)
    obtain ⟨fuel', rfl⟩ : ∃ k, fuel' = k + 1 := ⟨fuel' - 1, by omega⟩
    grind [go_blocked, starves_nil, afterAll, Collected.prepend, afterAll_append]

theorem retry_between (hlens : ∀ i, 0 < lens i) {h : Hmac} {records : List Record}
    (hchained : Chained mac h records) {s : Schedule} (hs : Between records s) :
    retry mac lens ⟨s, h, []⟩ = ⟨records.flatMap Record.payload, some .unexpectedEof, afterAll h records⟩ := by
  obtain ⟨first, others, rfl, rfl⟩ := hs
  refine go_between hlens others first h _ 0 hchained ?_
  simp

/-! ## A timeout inside a record -/

theorem split_records (records : List Record) :
    ∀ avail rest : Bytes, records.flatMap Record.bytes = avail ++ rest →
    ∃ before behind got, records = before ++ behind ∧ avail = before.flatMap Record.bytes ++ got ∧
      (got = [] ∨ ∃ r others missing, behind = r :: others ∧ r.bytes = got ++ missing ∧ got ≠ [] ∧ missing ≠ []) := by
  induction records with
  | nil => simp
  | cons r records ih =>
    intro avail rest h
    rcases List.append_eq_append_iff.mp h with ⟨avail', rfl, hrest⟩ | ⟨missing, hr, -⟩
    · obtain ⟨before, behind, got, rfl, rfl, hgot⟩ := ih avail' rest hrest
      exact ⟨r :: before, behind, got, rfl, by rw [flatMap_cons, append_assoc], hgot⟩
    · by_cases hnil : avail = []
      · exact ⟨[], r :: records, [], rfl, hnil, .inl rfl⟩
      by_cases hmissing : missing = []
      · rw [hmissing, append_nil] at hr
        exact ⟨[r], records, [], rfl, by simp [hr], .inl rfl⟩
      · exact ⟨[], r :: records, avail, rfl, rfl, .inr ⟨r, records, missing, rfl, hr, hnil, hmissing⟩⟩

theorem decode_ne_wouldBlock (mac : Mac) (frame : Bytes) (h : Hmac) :
    (decodeShadowtlsApplicationData mac frame h).1 ≠ .error .wouldBlock := by
  unfold decodeShadowtlsApplicationData
  split
  · rintro ⟨⟩
  split
  · rintro ⟨⟩
  dsimp only
  split <;> rintro ⟨⟩

/-- **Nothing more arrives.** If no frame that is left in the stream has the right tag,
the caller gets no byte. -/
theorem go_stuck (h : Hmac) (fuel : Nat) : ∀ (i : Nat) (s : Schedule),
    (∀ skipped frame left, s.bytes = skipped ++ frame ++ left → frame.length = tlsHeaderSize + u16At
      frame 3 → (decodeShadowtlsApplicationData mac frame h).1.toOption = none) →
    (retry.go mac lens fuel i ⟨s, h, []⟩).bytes = [] := by
  induction fuel with
  | zero => intro i s _; rfl
  | succ fuel ih =>
    intro i s hframes
    rw [retry.go, ShadowTlsReader.read, if_pos rfl, fillPending, fillPending.go]
    rcases hread : extractTlsFrame s with ⟨e | frame, s'⟩
    · obtain ⟨taken, htaken⟩ := advances_extractTlsFrame s
      rw [hread] at htaken
      cases e with
      | wouldBlock =>
        refine ih (i + 1) s' ?_
        intro skipped frame left hs' hlen
        exact hframes (taken ++ skipped) frame left (by simp only [htaken, hs', append_assoc]) hlen
      | _ => rfl
    · obtain ⟨hbytes, hlen⟩ := extractTlsFrame_ok hread
      have hnone := hframes [] frame s'.bytes hbytes hlen
      have hblock := decode_ne_wouldBlock mac frame h
      simp only
      by_cases halert : frame.getD 0 0 = alert
      · rw [if_pos halert]
      · rw [if_neg halert]
        rcases hdecode : decodeShadowtlsApplicationData mac frame h with ⟨e | payload, h'⟩
        · simp_all
        · rw [hdecode] at hnone
          cases hnone

theorem stuck_of_unforged {h : Hmac} {before others : List Record} {r : Record}
    (hunforged : Unforged mac h (before ++ r :: others)) {got missing : Bytes} (hr : r.bytes = got ++ missing)
    (hgot : got ≠ []) {s : Schedule} (hs : s.bytes = missing ++ others.flatMap Record.bytes) (fuel i : Nat) :
    (retry.go mac lens fuel i ⟨s, afterAll h before, []⟩).bytes = [] := by
  refine go_stuck _ fuel i s ?_
  intro skipped frame left hsplit hlen
  have hwhole : (before ++ r :: others).flatMap Record.bytes =
      (before.flatMap Record.bytes ++ got ++ skipped) ++ (frame ++ left) := by
    rw [flatMap_append, flatMap_cons, hr, append_assoc got, ← hs, hsplit]
    simp only [append_assoc]
  have hframe : found (before ++ r :: others) (before.flatMap Record.bytes ++ got ++ skipped).length frame.length = frame := by
    rw [found, hwhole, drop_left, take_left]
  have hpos := length_pos_of_ne_nil hgot
  have hresult := hunforged before.length (by simp) (before.flatMap Record.bytes ++ got ++ skipped).length
    (by rw [hwhole]; simp) frame.length (by rw [hwhole]; simp; omega)
    (by simp only [take_left, length_append]; omega)
  simp_all

/-- A timeout behind some bytes of a record: the caller gets nothing more. -/
theorem stuck_inside {h : Hmac} {before others : List Record} {r : Record}
    (hunforged : Unforged mac h (before ++ r :: others)) {got missing : Bytes} (hr : r.bytes = got ++ missing)
    (hgot : got ≠ []) (hmissing : missing ≠ []) {next : Bytes} {later : List Bytes}
    (hleft : (r :: others).flatMap Record.bytes = got ++ Schedule.bytes ⟨next, later⟩) (fuel i : Nat) :
    (retry.go mac lens (fuel + 1) i ⟨⟨got, next :: later⟩, afterAll h before, []⟩).bytes = [] := by
  have hsettles := settles_extractTlsFrame r
  rw [hr] at hsettles
  rw [go_blocked (exact_extractTlsFrame.starves hsettles hmissing)]
  grind [stuck_of_unforged, append_assoc, append_cancel_left]

/-- **The timeouts are between records, or bytes are lost.** -/
theorem between_or_lost (hlens : ∀ i, 0 < lens i) {h : Hmac} {whole : List Record} (hchained : Chained mac h whole)
    (hpayloads : ∀ r ∈ whole, r.payload ≠ []) (hunforged : Unforged mac h whole) (later : List Bytes) :
    ∀ (avail : Bytes) (sofar records : List Record) (fuel i : Nat), whole = sofar ++ records →
      records.flatMap Record.bytes = Schedule.bytes ⟨avail, later⟩ → Schedule.weight ⟨avail, later⟩ < fuel →
      Between records ⟨avail, later⟩ ∨
        (retry.go mac lens fuel i ⟨⟨avail, later⟩, afterAll h sofar, []⟩).bytes.length <
          (records.flatMap Record.payload).length := by
  induction later with
  | nil =>
    intro avail sofar records fuel i _ hbytes _
    rw [Schedule.bytes, flatten_nil, append_nil] at hbytes
    exact .inl ⟨records, [], by simp, by rw [hbytes]; rfl⟩
  | cons next later ih =>
    intro avail sofar records fuel i hwhole hbytes hfuel
    obtain ⟨before, behind, got, rfl, rfl, hgot⟩ := split_records records avail _ hbytes
    have hbehind : behind.flatMap Record.bytes = got ++ Schedule.bytes ⟨next, later⟩ := by
      rw [flatMap_append, Schedule.bytes, append_assoc] at hbytes
      exact append_cancel_left hbytes
    obtain ⟨-, hbefore⟩ := (hwhole ▸ hchained).append
    obtain ⟨fuel', i', hmore, hrun⟩ := go_records hlens got (next :: later)
      (Schedule.weight ⟨next, later⟩ + 1) before (afterAll h sofar) [] fuel i hbefore.append.1 (by
        simp only [Schedule.weight, Schedule.bytes, flatten_cons, length_append, length_cons,
          length_nil] at hfuel ⊢
        omega)
    obtain ⟨fuel', rfl⟩ : ∃ k, fuel' = k + 1 := ⟨fuel' - 1, by omega⟩
    rw [← afterAll_append] at hrun
    rcases hgot with rfl | ⟨r, others, missing, rfl, hr, hgot, hmissing⟩
    · -- nothing of the next record is there
      rw [go_blocked starves_nil] at hrun
      rw [append_nil] at hrun ⊢
      rcases ih next (sofar ++ before) behind fuel' (i' + 1) (by rw [hwhole, append_assoc]) hbehind (by omega) with
        ⟨first, stretches, rfl, hs⟩ | hlost
      · obtain ⟨rfl, rfl⟩ := Schedule.mk.inj hs
        exact .inl ⟨before, first :: stretches, rfl, rfl⟩
      all_goals grind [Collected.prepend]
    · -- some bytes of it are there: they are lost
      have hwhole' : whole = (sofar ++ before) ++ r :: others := by rw [hwhole, append_assoc]
      have hstuck : (retry.go mac lens (fuel' + 1) i' ⟨⟨got, next :: later⟩, afterAll h (sofar ++ before), []⟩).bytes = [] :=
        stuck_inside (hwhole' ▸ hunforged) hr hgot hmissing hbehind fuel' i'
      have hpos := length_pos_of_ne_nil (hpayloads r (by rw [hwhole']; simp))
      right
      rw [hrun]
      simp only [Collected.prepend, nil_append, hstuck, append_nil, flatMap_append, flatMap_cons,
        length_append]
      omega

/-! ## Result -/

/-- **Timeouts.** A caller that asks again gets the same bytes and the same end as
without timeouts, whatever its buffers are, if every timeout falls between two records;
and if nothing passes for a record that is due, it gets the same bytes only then. -/
theorem same_plaintext_iff (mac : Mac) (h : Hmac) (records : List Record) (hchained : Chained mac h records) (s : Schedule)
    (hbytes : s.bytes = records.flatMap Record.bytes) (lens lens' : Nat → Nat) (hlens : ∀ i, 0 < lens i)
    (hlens' : ∀ i, 0 < lens' i) :
    (Between records s → retry mac lens ⟨s, h, []⟩ = retry mac lens' ⟨⟨s.bytes, []⟩, h, []⟩) ∧
    ((∀ r ∈ records, r.payload ≠ []) → Unforged mac h records →
      ((retry mac lens ⟨s, h, []⟩).bytes = (retry mac lens' ⟨⟨s.bytes, []⟩, h, []⟩).bytes ↔ Between records s)) := by
  have hsame : Between records s → retry mac lens ⟨s, h, []⟩ = retry mac lens' ⟨⟨s.bytes, []⟩, h, []⟩ := by
    intro hs
    rw [retry_between hlens hchained hs, hbytes, retry_chained hlens' hchained]
  refine ⟨hsame, fun hpayloads hunforged => ⟨fun heq => ?_, fun hs => by rw [hsame hs]⟩⟩
  obtain ⟨avail, later⟩ := s
  rw [hbytes, retry_chained hlens' hchained] at heq
  rcases between_or_lost hlens hchained hpayloads hunforged later avail [] records
    (0 + Schedule.weight ⟨avail, later⟩ + 1) 0 rfl hbytes.symm (by omega) with hs | hlost
  · exact hs
  · have hlen := congrArg List.length heq
    exact absurd hlen (Nat.ne_of_lt hlost)

end

/-- Two records, and the HMAC that both sides begin with. -/
def start : Hmac := ⟨[1, 2], []⟩
def pair : List Record := sentRecords checksum start [[5], [6, 7]]

def pairBytes : Bytes := (writeAll checksum [[5], [6, 7]] start).2.1

/-- Timeouts in front of, between and behind the records. -/
theorem idle_between_records : Unforged checksum start pair ∧
      retry checksum (fun _ => 1) ⟨⟨[], [pairBytes.take 10, [], pairBytes.drop 10, []]⟩, start, []⟩ =
        retry checksum (fun _ => 8192) ⟨⟨pairBytes, []⟩, start, []⟩ ∧
      (retry checksum (fun _ => 1) ⟨⟨[], [pairBytes.take 10, [], pairBytes.drop 10, []]⟩, start, []⟩).bytes = [5, 6, 7] := by
  obtain ⟨hsame, hiff⟩ := same_plaintext_iff checksum start pair (by decide)
    ⟨[], [pairBytes.take 10, [], pairBytes.drop 10, []]⟩ (by decide) (fun _ => 1) (fun _ => 8192)
    (fun _ => Nat.one_pos) (fun _ => by decide)
  have hunforged : Unforged checksum start pair := by decide +kernel
  have hbetween : Between pair ⟨[], [pairBytes.take 10, [], pairBytes.drop 10, []]⟩ :=
    ⟨[], [pair.take 1, [], pair.drop 1, []], by decide, by decide⟩
  refine ⟨hunforged, hsame hbetween, ?_⟩
  exact ((hiff (by decide) hunforged).mpr hbetween).trans (by decide +kernel)

/-- A timeout between the header and the body of the first record: the caller gets both
records without it, and nothing with it. If another timeout lets the framing fall into
step again, the second record is rejected. -/
theorem timeout_inside_record_loses_both :
    pairBytes.take 5 ++ pairBytes.drop 5 = (writeAll checksum [[5], [6, 7]] start).2.1 ∧
      retry checksum (fun _ => 8192) ⟨⟨pairBytes, []⟩, start, []⟩ =
        ⟨[5, 6, 7], some .unexpectedEof, (writeAll checksum [[5], [6, 7]] start).2.2⟩ ∧
      (retry checksum (fun _ => 8192) ⟨⟨pairBytes.take 5, [pairBytes.drop 5]⟩, start, []⟩).bytes = [] ∧
      (retry checksum (fun _ => 8192)
          ⟨⟨pairBytes.take 5, [(pairBytes.drop 5).take 5, pairBytes.drop 10]⟩, start, []⟩).bytes = [] ∧
      (retry checksum (fun _ => 8192)
          ⟨⟨pairBytes.take 5, [(pairBytes.drop 5).take 5, pairBytes.drop 10]⟩, start, []⟩).stop.1 = some .verification := by
  decide +kernel

end Wrongsv.Bugs.ShadowTlsIdleReads
