import Wrongsv.L2Machine.Vision.Reader

/-!
# Vision reader: leaving padding mode inside a frame header

`VisionReader::read` (vless/vision.rs:427-441) decides after every inner read whether the
direction is still padded, from `remaining_content`, `remaining_padding` and
`current_command`, but not `remaining_command`. Behind the command byte of an END or DIRECT
frame the two lengths are still those of the finished frame before, zero, so a read that
ends there looks like the end of the frame: the rest of the header and the padding go to
the target as data. `unpadding_loop` tests `remaining_command` there (:248).

A second loss sits behind a complete END frame: while the detector still counts packets,
the raw bytes are searched for the UUID again (:414-417 with 185-212), and a read that agrees
with it so far is held back, and lost if the stream ends or the counting stops.
-/
namespace Wrongsv.Bugs.VisionReaderCuts
open L1.VisionFrame L2.Vision List

/-- The inner reads that deliver a byte string. -/
structure Cutting (stream : Bytes) where
  reads : List InnerRead
  covers : delivered reads = stream

/-- The schedules under which the stream is decoded: no read ends at a
misleading place, unless the closing command is END and the detector keeps
the reader in padding mode, and behind an END frame nothing is held back for
good. `s` is the detector, `ms` the rest of the framed part. -/
def CutsOk (closing : Closing) : TrafficState → List Mark → List InnerRead → Prop
  | _, _, [] => True
  | s, ms, x :: xs =>
    if x.bytes.length < ms.length then
      let b := ms.take x.bytes.length
      let s' := filterPacket (payloadOf b) s
      (cutLeaves b = true → closing = .padEnd ∧ 0 < s'.numberOfPacketToFilter) ∧
        CutsOk closing s' (ms.drop x.bytes.length) xs
    else
      closing = .padEnd →
        Clean false (filterPacket (payloadOf ms ++ x.bytes.drop ms.length) s) [] xs

/-! ## One read -/

variable {v : VisionStream} {d d' : DirectionState} {ms : List Mark} {rest : Bytes}

theorem synced_congr (h : Synced v d ms) (hc : d'.toCounters = d.toCounters)
    (hb : d'.initialBuffer = d.initialBuffer) : Synced v d' ms := by
  cases h with
  | held a split short counters buffer => exact .held a split short (hc.trans counters) (hb.trans buffer)
  | inside runs buffer => exact .inside (by rw [hc]; exact runs) (hb.trans buffer)

/-- Misleading counters know the closing command, and a header byte follows. -/
theorem leaves_synced (h : Synced v d ms) (hms : ms ≠ []) (hl : d.Leaves) :
    d.currentCommand = v.closing.command.toNat ∧ (payloadOf ms).length < ms.length := by
  obtain ⟨h1, h2, h3⟩ := hl
  cases h with
  | held a split short counters buffer => rw [counters] at h3; exact absurd rfl h3
  | inside runs buffer =>
    refine ⟨runs.known.resolve_left h3, ?_⟩
    cases ms with
    | nil => exact absurd rfl hms
    | cons m ms =>
      obtain ⟨⟨hnc, -⟩, hout, -, -⟩ := runs
      have hcmd : 0 < d.remainingCommand := by
        unfold Counters.Complete at hnc
        omega
      rw [feedByte_header hcmd] at hout
      have hle := payloadOf_length_le ms
      rw [payloadOf_cons, ← hout, nil_append, length_cons]
      omega

section
variable (v) (up : Bool)

variable (s : TrafficState)

/-- **One read inside the framed part**: the payload in it comes out, and the
reader goes on decoding unless the read ends at a misleading place. -/
theorem onRead_cut (d : DirectionState) (x : InnerRead)
    (hu : s.userUuid = v.uuid) (hs : Synced v d ms) (ha : (readerAt s up d).Active)
    (hx : x.bytes ++ rest = bytesOf ms ++ v.raw) (hlt : x.bytes.length < ms.length) :
    let b := ms.take x.bytes.length
    ∃ d', (readerAt s up d).onRead x = (payloadOf b, (readerAt s up d).next (payloadOf b) d') ∧
      Synced v d' (ms.drop x.bytes.length) ∧ (d'.Leaves ↔ cutLeaves b = true) := by
  intro b
  obtain ⟨hxb, -⟩ := split_cut hx hlt
  have hpos : 0 < x.bytes.length := List.length_pos_iff.mpr x.nonempty
  have hb : b ≠ [] := by
    intro h0
    have := congrArg List.length h0
    simp only [b, length_take, length_nil] at this
    omega
  have hms : ms.drop x.bytes.length ≠ [] := by
    intro h0
    have := congrArg List.length h0
    simp only [length_drop, length_nil] at this
    omega
  obtain ⟨d', h1, h2, h3⟩ := xtlsUnpadding_cut v (readerAt s up d).state up
    (by simp only [readerAt, setDir_userUuid]; exact hu) hb hms
    (by simp only [readerAt, setDir_dir, b, take_append_drop]; exact hs)
  refine ⟨d', ?_, h2, h3⟩
  rw [show bytesOf b = x.bytes from hxb.symm] at h1
  rw [onRead_active rfl ha x h1, take_of_length_le]
  have hp := payloadOf_length_le b
  have hf := x.fits
  simp only [b, length_take] at hp ⊢
  omega

/-- **The read that ends the framed part.** -/
theorem onRead_cross (d : DirectionState) (x : InnerRead)
    (hu : s.userUuid = v.uuid) (hs : Synced v d ms) (hms : ms ≠ [])
    (ha : (readerAt s up d).Active) (hx : x.bytes ++ rest = bytesOf ms ++ v.raw)
    (hle : ms.length ≤ x.bytes.length) :
    let out := payloadOf ms ++ x.bytes.drop ms.length
    ∃ d', (readerAt s up d).onRead x = (out, (readerAt s up d).next out d') ∧
      d'.toCounters = closed v.closing.command ∧ d'.initialBuffer = [] := by
  obtain ⟨hxb, hraw⟩ := split_cross hx hle
  obtain ⟨d', h1, h2, h3⟩ := xtlsUnpadding_cross v (readerAt s up d).state up
    (by simp only [readerAt, setDir_userUuid]; exact hu) hms (x.bytes.drop ms.length) rest hraw
    (by simp only [readerAt, setDir_dir]; exact hs)
  refine ⟨d', ?_, h2, h3⟩
  rw [← hxb] at h1
  rw [onRead_active rfl ha x h1, take_of_length_le]
  have hp := payloadOf_length_le ms
  have hf := x.fits
  simp only [length_append, length_drop]
  omega

/-! ## Whole runs -/

/-- A reader that copies from inside a frame hands out header bytes. -/
theorem copies_header (hs : Synced v d ms) (hms : ms ≠ []) (hl : d.Leaves)
    (hrest : rest = bytesOf ms ++ v.raw) : rest ≠ payloadOf ms ++ v.raw := by
  grind [leaves_synced, bytesOf_length, List.length, length_append]

/-- Behind the framed part: DIRECT copies, END waits for a UUID again. -/
theorem run_closed (out : Bytes) (d d' : DirectionState) (xs : List InnerRead)
    (hc : d'.toCounters = closed v.closing.command) (hb : d'.initialBuffer = []) :
    run ((readerAt s up d).next out d') xs = delivered xs ↔
      (v.closing = .padEnd → Clean false (filterPacket out s) [] xs) := by
  have hl : d'.Leaves := by
    rw [hc]
    cases v.closing <;> decide
  cases hcl : v.closing with
  | padDirect =>
    rw [hcl] at hc
    have hd : ((readerAt s up d).next out d').direct = true := leavePadding_direct hl (by rw [hc]; rfl)
    simp only [run_raw (.inl hd), reduceCtorEq, false_implies]
  | padEnd =>
    rw [hcl] at hc
    have h1 : d'.currentCommand = 1 := by rw [hc]; rfl
    have hw : Waiting (d'.setWithin false) := ⟨by rw [setWithin_toCounters, hc]; exact ⟨rfl, rfl, rfl⟩, .inr ⟨h1, rfl⟩⟩
    grind [run_tail, filterPacket, setWithin_initialBuffer, next_end, setWithin_within]

/-- Induction over the reads, from any point of the framed part. -/
theorem run_synced (xs : List InnerRead) : ∀ (s : TrafficState) (d : DirectionState)
    (ms : List Mark), s.userUuid = v.uuid → Synced v d ms → ms ≠ [] → (readerAt s up d).Active →
    delivered xs = bytesOf ms ++ v.raw →
    (run (readerAt s up d) xs = payloadOf ms ++ v.raw ↔ CutsOk v.closing s ms xs) := by
  induction xs with
  | nil =>
    intro s d ms _ _ hms _ hx
    have := congrArg List.length hx
    simp only [delivered_nil, length_nil, length_append, bytesOf_length] at this
    exact absurd (eq_nil_of_length_eq_zero (by omega)) hms
  | cons x xs ih =>
    intro s d ms hu hs hms ha hx
    rw [delivered_cons] at hx
    unfold CutsOk
    by_cases hlt : x.bytes.length < ms.length
    · obtain ⟨d', ho, hs', hl⟩ := onRead_cut v up s d x hu hs ha hx hlt
      obtain ⟨-, hrest⟩ := split_cut hx hlt
      have hms' : ms.drop x.bytes.length ≠ [] := by
        rw [ne_eq, drop_eq_nil_iff]
        omega
      have hpay : payloadOf ms = payloadOf (ms.take x.bytes.length) ++ payloadOf (ms.drop x.bytes.length) := by
        rw [← payloadOf_append, take_append_drop]
      simp only [run, ho, if_pos hlt]
      rw [hpay, append_assoc, append_cancel_left_eq, ← hl]
      generalize payloadOf (ms.take x.bytes.length) = out at *
      generalize ms.drop x.bytes.length = ms' at *
      have hu' := (filterPacket_userUuid out s).trans hu
      -- a reader that stays in padding mode is again in front of the rest
      have hgo : ∀ within, (readerAt (filterPacket out s) up (d'.setWithin within)).Active →
          (run (readerAt (filterPacket out s) up (d'.setWithin within)) xs = payloadOf ms' ++
            v.raw ↔ CutsOk v.closing (filterPacket out s) ms' xs) :=
        fun within h => ih _ _ _ hu' (synced_congr hs' rfl rfl) hms' h hrest
      by_cases hleave : d'.Leaves
      · have hcopy := copies_header v hs' hms' hleave hrest
        have hcmd := (leaves_synced hs' hms' hleave).1
        cases hcl : v.closing with
        | padDirect =>
          rw [hcl] at hcmd
          have hd : ((readerAt s up d).next out d').direct = true := leavePadding_direct hleave hcmd
          grind [run_raw]
        | padEnd =>
          rw [hcl] at hcmd hgo
          rw [next_end s up d out hleave hcmd]
          by_cases hf : 0 < (filterPacket out s).numberOfPacketToFilter
          · grind [readerAt_active]
          · have hn : ¬ (readerAt (filterPacket out s) up (d'.setWithin false)).Active := by
              rw [readerAt_active]
              simp [hf]
            grind [run_raw]
      · rw [next_stay s up d out hleave, hgo true ((readerAt_active ..).mpr (.inl rfl))]
        simp only [hleave, false_implies, true_and]
    · obtain ⟨d', ho, hc, hb⟩ := onRead_cross v up s d x hu hs hms ha hx (by omega)
      obtain ⟨-, hraw⟩ := split_cross hx (by omega)
      simp only [run, ho, if_neg hlt]
      rw [← run_closed v up s (payloadOf ms ++ x.bytes.drop ms.length) d d' xs hc hb]
      rw [append_assoc, append_cancel_left_eq, hraw, append_cancel_left_eq]

end

/-- **Exactly the schedules in `CutsOk` are decoded correctly**: for every
well-formed stream, every value of the packet countdown and every way to cut
the stream, reading until EOF returns the payload if and only if no read ends
at a misleading place and nothing is held back for good. -/
theorem readToEnd_eq_payload_iff (v : VisionStream) (up : Bool) (packets : Int)
    (c : Cutting v.encode) : readToEnd (.new (.counting v.uuid packets) up) c.reads = v.payload ↔
      CutsOk v.closing (.counting v.uuid packets) (marks v) c.reads := by
  have hms : marks v ≠ [] := by
    intro h0
    have hlen := marks_length v
    rw [h0, length_nil] at hlen
    omega
  rw [readToEnd_eq_run, new_eq_readerAt, payload_eq_marks]
  exact run_synced v up c.reads _ .new (marks v) rfl (synced_new v) hms
    ((readerAt_active ..).mpr (.inl rfl)) (c.covers.trans (encode_eq_marks v))

/-! ## Counterexample -/

def someUuid : Uuid := .ofByte 0xAA

/-- Two frames without padding that carry one byte each, the second DIRECT. -/
def someStream : VisionStream :=
  { uuid := someUuid, frames := [.byte 0x68],
    last := .byte 0x69, closing := .padDirect, raw := [] }

/-- The first read ends behind the command byte of the second frame. -/
def someReads : List InnerRead :=
  [⟨someUuid.bytes ++ [0x00, 0x00, 0x01, 0x00, 0x00, 0x68, 0x02], 32, by decide, by decide⟩,
   ⟨[0x00, 0x01, 0x00, 0x00, 0x69], 32, by decide, by decide⟩]

def someCutting : Cutting someStream.encode where
  reads := someReads
  covers := by decide

/-- The lengths in the second header reach the target as data. -/
theorem header_bytes_reach_target :
    delivered someCutting.reads = someStream.encode ∧ someStream.payload = [0x68, 0x69] ∧
      readToEnd (.new (.new someUuid) true) someCutting.reads = [0x68, 0x00, 0x01, 0x00, 0x00, 0x69] := by
  decide

end Wrongsv.Bugs.VisionReaderCuts
