import Wrongsv.L2Machine.Vision.Reader
import Wrongsv.L2Machine.Vision.Writer

/-!
# XTLS Vision: relays that unpad chunk by chunk

The relays of WebSocket, TLS, AnyTLS and ShadowTLS have no `VisionReader`. They
call `xtls_unpadding` on every chunk they read from the client, for the whole
session, and write what it returns to the target. The counters of a direction
whose frames are over look like those of a new one, so the raw bytes behind an
END or DIRECT frame are searched for the UUID again.

Results: `unpadChunks_eq_payload_iff`, `unpadChunks_foreign`, `writeAll_rebuilt`.
-/
namespace Wrongsv.L2.Vision
open L1.VisionFrame List

/-- `xtls_unpadding` on one chunk after the other, and what is written to the
target. -/
def unpadChunks (s : TrafficState) : List InnerRead → Bytes
  | [] => []
  | x :: xs => (xtlsUnpadding x.bytes s true).1 ++ unpadChunks (xtlsUnpadding x.bytes s true).2 xs

/-! ## Nothing is made up -/

/-- What a direction holds back and what it is given bound what comes out. -/
theorem unpadChunks_length_le (xs : List InnerRead) : ∀ (s : TrafficState), (s.dir true).Sound →
    (unpadChunks s xs).length ≤ (s.dir true).initialBuffer.length + (delivered xs).length := by
  induction xs with
  | nil => intro s _; simp [unpadChunks]
  | cons x xs ih =>
    intro s hs
    obtain ⟨out, d, hx, hd, hle⟩ := xtlsUnpadding_length x.bytes s true hs
    grind [setDir_dir, unpadChunks, delivered_cons]

/-! ## Behind the frames -/

/-- The chunks under which a waiting direction loses nothing: each is released,
with what is held back, by not continuing the UUID, and nothing is held back at
the end. -/
def Quiet (u : Uuid) : Bytes → List InnerRead → Prop
  | held, [] => held = []
  | held, x :: xs =>
    if mismatch u (held ++ x.bytes) then Quiet u [] xs
    else if (held ++ x.bytes).length < 21 then Quiet u (held ++ x.bytes) xs
    else False

/-- **Waiting for a UUID.** The chunks come through unchanged exactly if they
are quiet. -/
theorem unpadChunks_tail (xs : List InnerRead) : ∀ (s : TrafficState), (s.dir true).Initial →
    (unpadChunks s xs = (s.dir true).initialBuffer ++ delivered xs ↔
      Quiet s.userUuid (s.dir true).initialBuffer xs) := by
  induction xs with
  | nil => simp [unpadChunks, Quiet, delivered_nil]
  | cons x xs ih =>
    intro s hi
    simp only [unpadChunks, Quiet, delivered_cons]
    rw [xtlsUnpadding_initial x.bytes s true hi, ← append_assoc]
    generalize (s.dir true).initialBuffer ++ x.bytes = pending
    by_cases hm : mismatch s.userUuid pending = true
    · -- not the UUID: everything comes out
      have hrest := ih (s.setDir true ((s.dir true).hold [])) (by rw [setDir_dir]; exact hi)
      simp_all
    · by_cases hshort : pending.length < 21
      · have hrest := ih (s.setDir true ((s.dir true).hold pending)) (by rw [setDir_dir]; exact hi)
        simp_all
      · -- taken for a first frame: its UUID is missing from the output
        rw [if_neg hm, if_neg hm, if_neg hshort, if_neg hshort, iff_false]
        intro heq
        generalize hd : ((s.dir true).hold []).setCounters _ = d at heq
        have hsound : d.Sound := by
          rw [← hd]
          exact feed_sound _ _ (startHeader_not_complete _)
        have hbuf : d.initialBuffer = [] := by rw [← hd]; rfl
        have hle := unpadChunks_length_le xs (s.setDir true d) (by rw [setDir_dir]; exact hsound)
        have hfeed := feed_length_le (pending.drop 16) (s.dir true).startHeader
        have hlen := congrArg List.length heq
        grind [setDir_dir]

/-! ## The frames -/

/-- `Quiet` behind the first `n` bytes: from the chunk on that follows the one
which reaches them. -/
def QuietBehind (u : Uuid) : Nat → List InnerRead → Prop
  | _, [] => True
  | n, x :: xs => if x.bytes.length < n then QuietBehind u (n - x.bytes.length) xs else Quiet u [] xs

variable (v : VisionStream)

/-- Induction over the chunks, from any point of the framed part. -/
theorem unpadChunks_synced (xs : List InnerRead) : ∀ (s : TrafficState) (ms : List Mark),
    s.userUuid = v.uuid → Synced v (s.dir true) ms → ms ≠ [] → delivered xs = bytesOf ms ++ v.raw →
    (unpadChunks s xs = payloadOf ms ++ v.raw ↔ QuietBehind v.uuid ms.length xs) := by
  induction xs with
  | nil =>
    intro s ms _ _ hms hx
    have hlen := congrArg List.length hx
    simp only [delivered_nil, length_nil, length_append, bytesOf_length] at hlen
    exact absurd (eq_nil_of_length_eq_zero (by omega)) hms
  | cons x xs ih =>
    intro s ms hu hs hms hx
    rw [delivered_cons] at hx
    simp only [unpadChunks, QuietBehind]
    by_cases hlt : x.bytes.length < ms.length
    · obtain ⟨hb, hrest⟩ := split_cut hx hlt
      have hpos : 0 < x.bytes.length := List.length_pos_iff.mpr x.nonempty
      have htake : ms.take x.bytes.length ≠ [] := by
        rw [ne_eq, take_eq_nil_iff, not_or]
        exact ⟨by omega, hms⟩
      have hdrop : ms.drop x.bytes.length ≠ [] := by
        rw [ne_eq, drop_eq_nil_iff]
        omega
      obtain ⟨d, hout, hd, -⟩ := xtlsUnpadding_cut v s true hu htake hdrop
        (by rw [take_append_drop]; exact hs)
      rw [← hb] at hout
      have hpay : payloadOf ms = payloadOf (ms.take x.bytes.length) ++ payloadOf (ms.drop x.bytes.length) := by
        rw [← payloadOf_append, take_append_drop]
      have hgo := ih (s.setDir true d) (ms.drop x.bytes.length) (by rw [setDir_userUuid]; exact hu)
        (by rw [setDir_dir]; exact hd) hdrop hrest
      rw [hout, if_pos hlt, hpay, append_assoc, append_cancel_left_eq, hgo, length_drop]
    · obtain ⟨hb, hraw⟩ := split_cross hx (by omega)
      obtain ⟨d, hout, hc, hbuf⟩ := xtlsUnpadding_cross v s true hu hms (x.bytes.drop ms.length)
        (delivered xs) hraw hs
      rw [← hb] at hout
      have htail := unpadChunks_tail xs (s.setDir true d)
        (by rw [setDir_dir]; exact hc ▸ ⟨rfl, rfl, rfl⟩)
      rw [setDir_dir, setDir_userUuid, hu, hbuf, nil_append] at htail
      rw [hout, if_neg hlt, hraw, append_assoc, append_cancel_left_eq,
        append_cancel_left_eq]
      exact htail

/-- **A well-formed stream, chunk by chunk.** With the UUID of the stream its
payload comes out, unless something behind the closing frame is taken for the
UUID. -/
theorem unpadChunks_eq_payload_iff {xs : List InnerRead} (hx : delivered xs = v.encode) :
    unpadChunks (.new v.uuid) xs = v.payload ↔ QuietBehind v.uuid (marks v).length xs := by
  have hms : marks v ≠ [] := by
    grind [marks_length]
  rw [payload_eq_marks]
  exact unpadChunks_synced v xs _ (marks v) rfl (synced_new v) hms (hx.trans (encode_eq_marks v))

theorem unpadChunks_one (x : InnerRead) (hx : x.bytes = v.encode) :
    unpadChunks (.new v.uuid) [x] = v.payload := by
  rw [unpadChunks_eq_payload_iff v (by rw [delivered_cons, hx, delivered_nil, append_nil])]
  unfold QuietBehind
  split
  · trivial
  · rfl

/-- **With another UUID nothing is decoded**: the frames go to the target as
they are. -/
theorem unpadChunks_foreign {u : Uuid} (hu : u ≠ v.uuid) (x : InnerRead)
    (hx : x.bytes = v.encode) : unpadChunks (.new u) [x] = v.encode := by
  obtain ⟨-, hlen⟩ := encode_fits v
  have hm : mismatch u v.encode = true := by
    rw [← Bool.not_eq_false, mismatch_eq_false_iff]
    intro heq
    have hv : v.encode.take 16 = v.uuid.bytes := by
      unfold VisionStream.encode
      rw [append_assoc, take_left' v.uuid.length_eq]
    rw [hv, take_of_length_le (by rw [u.length_eq]; omega)] at heq
    apply hu
    cases u
    cases hvu : v.uuid
    simp_all
  have hi : ((TrafficState.new u).dir true).Initial := ⟨rfl, rfl, rfl⟩
  simp only [unpadChunks, append_nil, hx]
  rw [xtlsUnpadding_initial _ _ _ hi]
  show (if mismatch u ([] ++ v.encode) = true then _ else _ : Bytes × TrafficState).1 = _
  rw [nil_append, if_pos hm]
  rfl

theorem encode_ne_payload : v.encode ≠ v.payload := by
  intro heq
  have hlen := congrArg List.length heq
  have h21 := preamble_length v
  have hle := payloadOf_length_le (afterPreamble v)
  have hp : payloadOf (marks v) = payloadOf (afterPreamble v) := by
    rw [marks_eq_preamble, payloadOf_append, payloadOf_of_quiet (preamble_quiet v), nil_append]
  grind [encode_eq_marks, payload_eq_marks, marks_eq_preamble, bytesOf_length]

/-! ## Kept and rebuilt writers -/

/-- A block to write, to a kept writer or to one that is rebuilt for it. -/
def Write.by (rebuilt : Bool) (x : Write) : Write := { x with rebuilt }

theorem written_by (rebuilt : Bool) (xs : List Write) :
    written (xs.map (Write.by rebuilt)) = written xs := by
  induction xs with
  | nil => rfl
  | cons x xs ih => exact congrArg (x.bytes ++ ·) ih

/-- A writer copies blindly only behind a closing frame. -/
def VisionWriter.Settled (w : VisionWriter) : Prop := w.direct = true → w.Closed

theorem rebuild_of_not_direct {w : VisionWriter} (h : w.direct = false) : w.rebuild = w := by
  cases w
  subst h
  rfl

theorem write_settled {w : VisionWriter} (h : w.Settled) {buf : Bytes} {draw : Draw} {out : Bytes}
    {w' : VisionWriter} (hw : w.write buf draw = some (out, w')) : w'.Settled := by
  unfold VisionWriter.write at hw
  by_cases hd : w.direct = true
  · rw [if_pos hd] at hw
    cases hw
    exact h
  · rw [if_neg hd] at hw
    simp only at hw
    have hn : ∀ {P : Prop}, w.direct = true → P := fun hc => absurd hc hd
    split at hw
    · split at hw
      · obtain ⟨frame, -, hf⟩ := Option.map_eq_some_iff.mp hw
        cases hf
        exact fun hc => hn hc
      · split at hw
        · obtain ⟨frame, -, hf⟩ := Option.map_eq_some_iff.mp hw
          cases hf
          intro _
          simp only [VisionWriter.Closed, VisionWriter.direction, TrafficState.stopPadding, setDir_dir]
        · obtain ⟨frame, -, hf⟩ := Option.map_eq_some_iff.mp hw
          cases hf
          exact fun hc => hn hc
    · cases hw
      exact fun hc => hn hc

/-- **Kept or rebuilt.** The output of a sequence of writes does not depend on
which writers are rebuilt. -/
theorem writeAll_rebuilt (rebuilt : Bool) (xs : List Write) : ∀ (w : VisionWriter), w.Settled →
    writeAll w (xs.map (Write.by rebuilt)) = writeAll w (xs.map (Write.by false)) := by
  induction xs with
  | nil => intro w _; rfl
  | cons x xs ih =>
    intro w hs
    by_cases hd : w.direct = true
    · rw [writeAll_closed _ w (hs hd), writeAll_closed _ w (hs hd), written_by, written_by]
    · have hserve : w.serve (x.by rebuilt) = w := by
        grind [VisionWriter.serve, rebuild_of_not_direct]
      have hby : ∀ r, (x.by r).bytes = x.bytes ∧ (x.by r).draw = x.draw := fun _ => ⟨rfl, rfl⟩
      simp only [map_cons, writeAll, hserve, hby]
      have hkept : w.serve (x.by false) = w := rfl
      grind [write_settled]

end Wrongsv.L2.Vision
