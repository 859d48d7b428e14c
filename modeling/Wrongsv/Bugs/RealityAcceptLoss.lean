import Wrongsv.L2Machine.Reality.Accept

/-!
# REALITY accept drops bytes of the client

`accept_reality` (reality/tls.rs:215-288) reads up to 4096 bytes to find the record header
and then runs `buf.truncate(total)`: bytes of the next record that came in the same
segment are cut off. And when `read_exact` for the rest of the record fails, at the end of
the stream or after ten seconds, only the bytes of the first loop are returned
(`buf[..n]`).

Spec clause: the destination of the fallback sees what the client sent, from byte 0, so
that the server looks like it to a probe; and rustls sees the whole stream.

Fix: keep `buf[..n]` whole and parse `buf[..total]`, and return with the error what
`read_exact` had read.
-/
namespace Wrongsv.Bugs.RealityAcceptLoss
open L2.Reality L1.ClientHello List

/-- The reads for the header brought more than the first record. -/
def OverRead (stream : Socket String) : Prop :=
  ∃ buf stream', readHeader [] stream = .ok (buf, stream') ∧ u16At buf 3 ≤ 65531 ∧ 5 + u16At buf 3 < buf.length

/-- The record is never complete, and a part of it came behind the reads for
the header. -/
def CutShort (stream : Socket String) : Prop :=
  ∃ buf stream' e taken stream'', readHeader [] stream = .ok (buf, stream') ∧ u16At buf 3 ≤ 65531 ∧
    stream'.readExact (5 + u16At buf 3 - buf.length) = (.error (e, taken), stream'') ∧ taken ≠ []

theorem dropped_eq_nil_iff (stream : Socket String) :
    dropped stream = [] ↔ ¬OverRead stream ∧ ¬CutShort stream := by
  unfold dropped OverRead CutShort
  cases hh : readHeader [] stream with
  | error e =>
    refine iff_of_true rfl ⟨?_, ?_⟩
    · rintro ⟨buf, stream', h, -⟩; cases h
    · rintro ⟨buf, stream', f, taken, stream'', h, -⟩; cases h
  | ok q =>
    obtain ⟨buf, stream'⟩ := q
    simp only
    by_cases hlarge : u16At buf 3 > 65531
    · rw [if_pos hlarge]
      refine iff_of_true rfl ⟨?_, ?_⟩
      · rintro ⟨_, _, h, hle, -⟩; cases h; omega
      · rintro ⟨_, _, _, _, _, h, hle, -⟩; cases h; omega
    · rw [if_neg hlarge]
      cases hbody : stream'.readExact (5 + u16At buf 3 - buf.length) with
      | mk r stream'' =>
        cases r with
        | error f =>
          -- the record is longer than what the header's reads brought
          have hshort : ¬5 + u16At buf 3 < buf.length := by
            intro hlt
            rw [Nat.sub_eq_zero_of_le (Nat.le_of_lt hlt)] at hbody
            unfold Socket.readExact at hbody
            cases hbody
          constructor
          · intro hnil
            refine ⟨?_, ?_⟩
            · rintro ⟨_, _, h, -, hlt⟩; cases h; exact hshort hlt
            · rintro ⟨_, _, _, _, _, h, -, hfail, hne⟩
              cases h
              rw [hbody] at hfail
              cases hfail
              exact hne hnil
          · rintro ⟨-, hcut⟩
            by_contra hne
            exact hcut ⟨buf, stream', f.1, f.2, stream'', rfl, Nat.le_of_not_lt hlarge, hbody, hne⟩
        | ok body =>
          have hlen := (Socket.readExact_ok hbody).1
          rw [List.drop_eq_nil_iff, List.length_append, hlen]
          constructor
          · intro hle
            refine ⟨?_, ?_⟩
            · rintro ⟨_, _, h, -, hlt⟩; cases h; omega
            · rintro ⟨_, _, _, _, _, h, -, hfail, -⟩
              cases h
              rw [hbody] at hfail
              cases hfail
          · rintro ⟨hover, -⟩
            by_contra hgt
            exact hover ⟨buf, stream', rfl, Nat.le_of_not_lt hlarge, by omega⟩

/-- **What holds**: for every outcome, what is handed on and what is still in
the socket is the client's stream, if and only if the first reads brought no
more than the first record and a record that is never complete ended with them.
On failure the destination receives the stream if and only if moreover no read
of the relay fails with more to come. On success rustls reads it. -/
theorem client_stream_kept_iff (p : Primitives) (config : RealityConfig) (now : Nat)
    (setup : Bytes32 → Except RealityError Unit) (stream : Socket String) :
    ∃ r, acceptReality p config now setup stream = some r ∧
      ((handedOn r).1 ++ (handedOn r).2.pending = stream.pending ↔ ¬OverRead stream ∧ ¬CutShort stream) ∧
      (∀ e, r = .error e → (forwarded e = stream.pending ↔
        (¬OverRead stream ∧ ¬CutShort stream) ∧ ¬Interrupted (unread stream))) ∧
      (∀ s, r = .ok s → (s.contents = stream.pending ↔ ¬OverRead stream ∧ ¬CutShort stream) ∧
        ∀ size bytes s', s.read size = (.ok bytes, s') → bytes ++ s'.contents = s.contents) := by
  obtain ⟨r, hr, hunread, hall⟩ := acceptReality_stream p config now setup stream
  have hkept : (handedOn r).1 ++ (handedOn r).2.pending = stream.pending ↔ ¬OverRead stream ∧ ¬CutShort stream := by
    rw [← dropped_eq_nil_iff, ← hall, hunread, append_cancel_left_eq]
    exact ⟨fun h => self_eq_append_left.mp h, fun h => by rw [h, nil_append]⟩
  refine ⟨r, hr, hkept, ?_, ?_⟩
  · rintro e rfl
    rw [← dropped_eq_nil_iff, ← relayed_eq_iff, ← hall, ← hunread]
    show e.bufferedData ++ relayed e.stream = e.bufferedData ++ (dropped stream ++ e.stream.pending) ↔ _
    rw [append_cancel_left_eq]
    refine ⟨fun h => ?_, fun ⟨hnone, h⟩ => by rw [hnone, nil_append]; exact h⟩
    -- the relay never sends more than there is
    have hlen := congrArg List.length h
    have hle := relayed_length e.stream
    rw [length_append] at hlen
    have hnone : dropped stream = [] := length_eq_zero_iff.mp (by omega)
    rw [hnone, nil_append] at h
    exact ⟨hnone, h⟩
  · rintro s rfl
    exact ⟨hkept, fun size bytes s' h => BufferedStream.read_contents h⟩

/-- What the destination of a server without credentials receives. -/
def destination (stream : Socket String) : Option Bytes :=
  match acceptReality ⟨id, fun _ _ => zeros, fun _ _ _ => zeros, fun _ _ _ m => m, fun _ _ _ _ => none⟩
    ⟨zeros, [], 0, some "example.org:443"⟩ 0 (fun _ => .ok ()) stream with
  | some (.error e) => some (forwarded e)
  | _ => none

/-- **Counterexample**: the byte behind the first record, and the byte of a
record that was cut short, never reach the destination. -/
theorem fallback_bytes_lost :
    destination [.segment ⟨[0x17, 0x03, 0x03, 0x00, 0x00, 0x09], by decide⟩] =
      some [0x17, 0x03, 0x03, 0x00, 0x00] ∧
    destination [.segment ⟨[0x16, 0x03, 0x01, 0x00, 0x02], by decide⟩, .segment ⟨[0x07], by decide⟩] =
      some [0x16, 0x03, 0x01, 0x00, 0x02] := by
  decide +kernel

end Wrongsv.Bugs.RealityAcceptLoss
