import Wrongsv.L2Machine.ShadowTls.Stream

/-!
# ShadowTLS: the UDP relay does not notice that its client is gone

`relay_shadowtls_udp` (server/handler/shadowtls.rs:931-982) goes on after a read that reports
`WouldBlock`, `TimedOut` or `UnexpectedEof`, and stops at `Ok(0)`. But the end of the
client's stream is the `UnexpectedEof` of `extract_tls_frame` (:294-303), which every later
read reports again. So the loop polls on, until the target's socket ends it or the client
cannot be written to.

Fix: stop at `UnexpectedEof`.
-/
namespace Wrongsv.Bugs.ShadowTlsUdpEof
open L1.ShadowTls L2.ShadowTls

/-! ## The loop -/

/-- What `socket.recv` returns. -/
inductive Recv where
  | datagram (bytes : Bytes)
  | timeout
  | failed

/-- The outside in one iteration: the packets that can be sent, what is received, and
whether the client can be written to. -/
structure Turn where
  send : Bytes → Bool
  recv : Recv
  write : Bool

/-- The variables of the loop, and what it has sent to the target and to the client. -/
structure Relay where
  reader : ShadowTlsReader
  tlsBuf : Bytes
  sent : List Bytes
  written : Bytes

/-- What is left of `tls_buf`, and the packets sent; a send that fails ends the relay. -/
def forwardPackets (send : Bytes → Bool) : Bytes → List Bytes → Option (Bytes × List Bytes)
  | hi :: lo :: rest, sent =>
    if rest.length < u16 hi lo then some (hi :: lo :: rest, sent)
    else if send (rest.take (u16 hi lo)) then
      forwardPackets send (rest.drop (u16 hi lo)) (sent ++ [rest.take (u16 hi lo)])
    else none
  | tlsBuf, sent => some (tlsBuf, sent)
termination_by tlsBuf => tlsBuf.length
decreasing_by exact Nat.lt_succ_of_le (Nat.le_succ_of_le (List.drop_sublist _ _).length_le)

def exchange (t : Turn) (s : Relay) : Option Relay := do
  let (tlsBuf, sent) ← forwardPackets t.send s.tlsBuf s.sent
  match t.recv with
  | .datagram bytes =>
    if bytes = [] ∨ t.write = false then none
    else some ⟨s.reader, tlsBuf, sent, s.written ++ be16 bytes.length ++ bytes⟩
  | .timeout => some { s with tlsBuf, sent }
  | .failed => none

/-- One iteration; `none` when it leaves the loop. -/
def iterate (mac : Mac) (t : Turn) (s : Relay) : Option Relay :=
  match s.reader.read mac 8192 with
  | (.ok [], _) => none
  | (.ok bytes, reader) => exchange t { s with reader, tlsBuf := s.tlsBuf ++ bytes }
  | (.error .wouldBlock, reader) | (.error .unexpectedEof, reader) => exchange t { s with reader }
  | (.error _, _) => none

/-- After `n` iterations, if the loop is still running. -/
def after (mac : Mac) (turns : Nat → Turn) (s : Relay) : Nat → Option Relay
  | 0 => some s
  | n + 1 => (after mac turns s n).bind (iterate mac (turns n))

/-- The next read reports the end of the client's stream. -/
def Gone (mac : Mac) (s : Relay) : Prop := (s.reader.read mac 8192).1 = .error .unexpectedEof

/-- The target's socket is closed or fails, or the client cannot be written to. -/
def Turn.Ends (t : Turn) : Prop :=
  match t.recv with
  | .datagram bytes => bytes = [] ∨ t.write = false
  | .timeout => False
  | .failed => True

/-! ## The end of the stream -/

section
variable {mac : Mac}

theorem endsWith_extractTlsFrame : Reader.EndsWith .unexpectedEof extractTlsFrame := by
  have hne : ShadowTlsError.wouldBlock ≠ .unexpectedEof := nofun
  exact (Reader.endsWith_readExact hne _).bind fun _ =>
    (Reader.endsWith_readExact hne _).bind fun _ => Reader.endsWith_pure _ _

theorem decode_ne_eof {frame : Bytes} {h h' : Hmac} {e : ShadowTlsError}
    (hdecode : decodeShadowtlsApplicationData mac frame h = (.error e, h')) : e ≠ .unexpectedEof := by
  rintro rfl
  unfold decodeShadowtlsApplicationData at hdecode
  split at hdecode
  · cases hdecode
  split at hdecode
  · cases hdecode
  · dsimp only at hdecode
    split at hdecode <;> cases hdecode

theorem fillPending_go_eof (fuel : Nat) : ∀ {s s' : ShadowTlsReader}, s.stream.bytes.length < fuel →
    fillPending.go mac fuel s = (.error .unexpectedEof, s') → s'.stream = ⟨[], []⟩ ∧ s'.pending = s.pending := by
  induction fuel with
  | zero => intro s s' h; cases h
  | succ fuel ih =>
    intro s s' hfuel h
    rw [fillPending.go] at h
    rcases hread : extractTlsFrame s.stream with ⟨e | frame, stream⟩
    · have hend := endsWith_extractTlsFrame s.stream
      rw [hread] at h hend
      cases h
      exact ⟨hend rfl, rfl⟩
    · obtain ⟨hbytes, hlen⟩ := extractTlsFrame_ok hread
      have hshort : stream.bytes.length < fuel := by
        rw [hbytes, List.length_append, hlen, tlsHeaderSize] at hfuel
        omega
      simp only [hread] at h
      split at h
      · cases h
      rcases hdecode : decodeShadowtlsApplicationData mac frame s.verifyState with ⟨e | payload, verifyState⟩
      · simp only [hdecode, Prod.mk.injEq, Except.error.injEq] at h
        exact absurd h.1 (decode_ne_eof hdecode)
      simp only [hdecode] at h
      split at h
      · cases h
      · exact ih (s := { s with stream, verifyState }) hshort h

/-- The reader behind the end. -/
def closed (h : Hmac) : ShadowTlsReader := ⟨⟨[], []⟩, h, []⟩

theorem read_closed (h : Hmac) : (closed h).read mac 8192 = (.error .unexpectedEof, closed h) := by
  rw [closed, ShadowTlsReader.read, if_pos rfl, (fillPending_starved starves_nil h []).2]

theorem Gone.read {s : Relay} (hgone : Gone mac s) :
    ∃ h, s.reader.read mac 8192 = (.error .unexpectedEof, closed h) := by
  unfold Gone ShadowTlsReader.read at hgone
  unfold ShadowTlsReader.read
  by_cases hpending : s.reader.pending = []
  · rw [if_pos hpending] at hgone ⊢
    rcases hfill : fillPending mac s.reader with ⟨e | u, r⟩
    · rw [hfill] at hgone
      obtain rfl := Except.error.inj hgone
      obtain ⟨hstream, hsame⟩ := fillPending_go_eof _ (Nat.lt_succ_self _) hfill
      refine ⟨r.verifyState, ?_⟩
      rw [closed, ← hstream, ← hpending, ← hsame]
    · rw [hfill] at hgone
      cases hgone
  · rw [if_neg hpending] at hgone
    cases hgone

/-! ## Behind the end -/

/-- No packet is complete. -/
def Drained : Bytes → Prop
  | hi :: lo :: rest => rest.length < u16 hi lo
  | _ => True

theorem forwardPackets_of_drained {tlsBuf : Bytes} (h : Drained tlsBuf) (send : Bytes → Bool)
    (sent : List Bytes) : forwardPackets send tlsBuf sent = some (tlsBuf, sent) := by
  match tlsBuf, h with
  | hi :: lo :: rest, (h : rest.length < u16 hi lo) => rw [forwardPackets, if_pos h]
  | [], _ | [_], _ => rw [forwardPackets]; simp

theorem drained_of_forwardPackets {send : Bytes → Bool} {tlsBuf : Bytes} {sent : List Bytes}
    {r : Bytes × List Bytes} (h : forwardPackets send tlsBuf sent = some r) : Drained r.1 := by
  fun_induction forwardPackets send tlsBuf sent with
  | case1 hi lo rest sent hshort =>
    cases h
    exact hshort
  | case2 hi lo rest sent hlong hsend ih => exact ih h
  | case3 => cases h
  | case4 tlsBuf sent hshort =>
    cases h
    match tlsBuf with
    | hi :: lo :: rest => exact absurd rfl (hshort hi lo rest)
    | [] | [_] => trivial

theorem exchange_eq_none_iff (t : Turn) (s : Relay) :
    exchange t s = none ↔ forwardPackets t.send s.tlsBuf s.sent = none ∨ t.Ends := by
  unfold exchange Turn.Ends
  cases forwardPackets t.send s.tlsBuf s.sent with
  | none => simp
  | some r => cases t.recv <;> simp [or_iff_not_imp_left]

theorem exchange_some {t : Turn} {s s' : Relay} (h : exchange t s = some s') :
    s'.reader = s.reader ∧ Drained s'.tlsBuf := by
  obtain ⟨⟨tlsBuf, sent⟩, hforward, hrecv⟩ := Option.bind_eq_some_iff.mp h
  have hdrained := drained_of_forwardPackets hforward
  cases hr : t.recv with
  | datagram bytes =>
    simp only [hr, Option.ite_none_left_eq_some, Option.some.injEq] at hrecv
    rw [← hrecv.2]
    exact ⟨rfl, hdrained⟩
  | timeout =>
    simp only [hr, Option.some.injEq] at hrecv
    rw [← hrecv]
    exact ⟨rfl, hdrained⟩
  | failed =>
    simp only [hr] at hrecv
    cases hrecv

theorem Gone.step {s : Relay} (hgone : Gone mac s) (t : Turn) :
    (iterate mac t s = none ↔ forwardPackets t.send s.tlsBuf s.sent = none ∨ t.Ends) ∧
    ∀ s', iterate mac t s = some s' → Gone mac s' ∧ Drained s'.tlsBuf := by
  obtain ⟨h, hread⟩ := hgone.read
  have hiterate : iterate mac t s = exchange t { s with reader := closed h } := by rw [iterate, hread]
  rw [hiterate]
  refine ⟨exchange_eq_none_iff t _, fun s' hs' => ?_⟩
  obtain ⟨hreader, hdrained⟩ := exchange_some hs'
  refine ⟨?_, hdrained⟩
  rw [Gone, hreader, read_closed]

/-- **How long the loop goes on** behind the end of the client's stream. -/
theorem after_eq_none_iff {s : Relay} (hgone : Gone mac s) (turns : Nat → Turn) (n : Nat) :
    (after mac turns s (n + 1) = none ↔
      forwardPackets (turns 0).send s.tlsBuf s.sent = none ∨ ∃ i ≤ n, (turns i).Ends) ∧
    ∀ s', after mac turns s (n + 1) = some s' → Gone mac s' ∧ Drained s'.tlsBuf := by
  induction n with
  | zero => simpa [after] using hgone.step (turns 0)
  | succ n ih =>
    rw [after]
    cases hbefore : after mac turns s (n + 1) with
    | none =>
      refine ⟨iff_of_true rfl ?_, fun s' h => (nomatch h)⟩
      rcases ih.1.mp hbefore with hfail | ⟨i, hi, hends⟩
      · exact .inl hfail
      · exact .inr ⟨i, Nat.le_succ_of_le hi, hends⟩
    | some s' =>
      obtain ⟨hgone', hdrained⟩ := ih.2 s' hbefore
      obtain ⟨hnone, hsome⟩ := hgone'.step (turns (n + 1))
      rw [forwardPackets_of_drained hdrained] at hnone
      have hquiet := (not_congr ih.1).mp (by simp [hbefore])
      refine ⟨hnone.trans ⟨fun h => .inr ⟨n + 1, Nat.le_refl _, by simpa using h⟩, fun h => ?_⟩, hsome⟩
      rcases h with hfail | ⟨i, hi, hends⟩
      · exact absurd (.inl hfail) hquiet
      rcases Nat.le_succ_iff.mp hi with hi | rfl
      · exact absurd (.inr ⟨i, hi, hends⟩) hquiet
      · exact .inr hends

end

/-! ## Result -/

/-- **When the relay stops.** If a read returns `Ok(0)`, at once. If it reports
`UnexpectedEof`, the loop is over after that iteration and `n` more exactly if a packet
that was left could not be sent, or the target's socket or the client's end has failed in
one of them; at most one further iteration is the case `n = 1`. -/
theorem stops_iff (mac : Mac) (s : Relay) (turns : Nat → Turn) (n : Nat) :
    ((s.reader.read mac 8192).1 = .ok [] → after mac turns s 1 = none) ∧
    (Gone mac s → (after mac turns s (n + 1) = none ↔
      forwardPackets (turns 0).send s.tlsBuf s.sent = none ∨ ∃ i ≤ n, (turns i).Ends)) := by
  refine ⟨fun h => ?_, fun hgone => (after_eq_none_iff hgone turns n).1⟩
  rcases hread : s.reader.read mac 8192 with ⟨result, reader⟩
  rw [hread] at h
  cases h
  simp [after, iterate, hread]

/-- A client that has closed its connection. -/
def gone : Relay := ⟨closed ⟨[1, 2], []⟩, [], [], []⟩

def silent : Turn := ⟨fun _ => true, .timeout, true⟩

/-- With a target that is silent the loop never ends. -/
theorem polls_forever : Gone checksum gone ∧ ∀ n, after checksum (fun _ => silent) gone n ≠ none := by
  have hgone : Gone checksum gone := rfl
  refine ⟨hgone, fun n => ?_⟩
  cases n with
  | zero => exact nofun
  | succ n =>
    rw [Ne, (after_eq_none_iff hgone _ n).1, forwardPackets_of_drained (show Drained gone.tlsBuf from trivial)]
    rintro (h | ⟨i, -, h⟩)
    · cases h
    · exact h

end Wrongsv.Bugs.ShadowTlsUdpEof
