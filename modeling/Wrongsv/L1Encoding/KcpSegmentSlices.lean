import Wrongsv.Core.Checked
import Wrongsv.L1Encoding.KcpSegment

/-!
# mKCP segments: the slices of the reader

`read_segment` and its three parsers (handler/kcp/xray_session.rs:528-621) as they index
into the packet, where a slice that is out of range is a panic. A `None` of the source is
an error here.

Results: `readSegmentChecked_eq`, `segment_codec`.
-/
namespace Wrongsv.L1.KcpSegment
open Checked

/-- `u32::from_be_bytes(buf[i..i + 4].try_into().ok()?)` -/
def u32From (buf : Bytes) (i : Nat) : Checked Unit UInt32 := do
  match getU32 (← range buf i (i + 4)) with
  | some (n, _) => return n
  | none => throw ()

def parseDataChecked (option : UInt8) (buf : Bytes) : Checked Unit (Segment × Bytes) := do
  rejectIf (buf.length < 14) ()
  let timestamp ← u32From buf 0
  let number ← u32From buf 4
  let _ ← u32From buf 8
  let dataLen ← indexU16 buf 12
  rejectIf (buf.length < 14 + dataLen) ()
  let payload ← range buf 14 (14 + dataLen)
  let rest ← range buf (14 + dataLen) buf.length
  return (.data { option, timestamp, number, payload }, rest)

/-- The loop over the numbers, and where it ends. -/
def numbersFrom (buf : Bytes) : Nat → Nat → Checked Unit (List UInt32 × Nat)
  | 0, offset => return ([], offset)
  | count + 1, offset => do
    let number ← u32From buf offset
    let (numbers, offset) ← numbersFrom buf count (offset + 4)
    return (number :: numbers, offset)

def parseAckChecked (option : UInt8) (buf : Bytes) : Checked Unit (Segment × Bytes) := do
  rejectIf (buf.length < 13) ()
  let receivingWindow ← u32From buf 0
  let receivingNext ← u32From buf 4
  let timestamp ← u32From buf 8
  let count ← index buf 12
  rejectIf (buf.length < 13 + count.toNat * 4) ()
  let (numbers, offset) ← numbersFrom buf count.toNat 13
  let rest ← range buf offset buf.length
  return (.ack { option, receivingWindow, receivingNext, timestamp, numbers }, rest)

def parseCmdChecked (cmd option : UInt8) (buf : Bytes) : Checked Unit (Segment × Bytes) := do
  rejectIf (buf.length < 12) ()
  let receivingNext ← u32From buf 4
  let peerRto ← u32From buf 8
  let rest ← range buf 12 buf.length
  return (.cmd { cmd, option, receivingNext, peerRto }, rest)

def readSegmentChecked (buf : Bytes) : Checked Unit (Segment × Bytes) := do
  rejectIf (buf.length < 2) ()
  let _ ← indexU16 buf 0
  rejectIf (buf.length < 4) ()
  let cmd ← index buf 2
  let option ← index buf 3
  let rest ← range buf 4 buf.length
  if cmd = 1 then parseDataChecked option rest
  else if cmd = 0 then parseAckChecked option rest
  else parseCmdChecked cmd option rest

/-- No panic, and `None` as an error. -/
def returned {α : Type} : Option α → Checked Unit α
  | some a => pure a
  | none => throw ()

section
variable {buf : Bytes} {i : Nat}

theorem range_to_end (h : i ≤ buf.length) :
    range (ε := Unit) buf i buf.length = pure (buf.drop i) := by
  rw [range_eq h (Nat.le_refl _), List.take_of_length_le (by simp)]

theorem u32From_eq (buf : Bytes) (i : Nat) (h : i + 4 ≤ buf.length) :
    ∃ n, u32From buf i = pure n ∧ getU32 (buf.drop i) = some (n, buf.drop (i + 4)) := by
  obtain ⟨a, b, c, d, rest, hdrop⟩ : ∃ a b c d rest, buf.drop i = a :: b :: c :: d :: rest := by
    have hlen : 4 ≤ (buf.drop i).length := by rw [List.length_drop]; omega
    match buf.drop i, hlen with
    | a :: b :: c :: d :: rest, _ => exact ⟨a, b, c, d, rest, rfl⟩
  refine ⟨u32 a b c d, ?_, ?_⟩
  · rw [u32From, range_eq (by omega) h, hdrop, Nat.add_sub_cancel_left]
    rfl
  · rw [← List.drop_drop, hdrop]
    rfl

theorem index_eq (buf : Bytes) (i : Nat) (h : i < buf.length) :
    ∃ a, index (ε := Unit) buf i = pure a ∧ buf.drop i = a :: buf.drop (i + 1) :=
  ⟨buf[i], by rw [index, List.getElem?_eq_getElem h], List.drop_eq_getElem_cons h⟩

theorem numbersFrom_eq (buf : Bytes) (count : Nat) : ∀ i, i + 4 * count ≤ buf.length → ∃ numbers,
    numbersFrom buf count i = pure (numbers, i + 4 * count) ∧
      getU32s count (buf.drop i) = some (numbers, buf.drop (i + 4 * count)) := by
  induction count with
  | zero => intro i _; exact ⟨[], rfl, rfl⟩
  | succ count ih =>
    intro i h
    obtain ⟨n, hn, hget⟩ := u32From_eq buf i (by omega)
    obtain ⟨numbers, hnumbers, hgets⟩ := ih (i + 4) (by omega)
    have hi : i + 4 + 4 * count = i + 4 * (count + 1) := by omega
    rw [hi] at hnumbers hgets
    exact ⟨n :: numbers, by simp [numbersFrom, hn, hnumbers], by simp [getU32s, hget, hgets]⟩

/-- A test for `k` bytes, in front of a parser that needs them anyway. -/
theorem rejected_eq {α : Type} {p : Option α} {body : Checked Unit α} {k : Nat}
    (hneeds : ∀ r, p = some r → k ≤ buf.length) (hbody : k ≤ buf.length → body = returned p) :
    (rejectIf (buf.length < k) () >>= fun _ => body) = returned p := by
  by_cases hshort : buf.length < k
  · have hnone : p = none := Option.eq_none_iff_forall_ne_some.mpr fun r hr => absurd (hneeds r hr) (by omega)
    rw [rejectIf, if_pos hshort, hnone]
    rfl
  · rw [rejectIf_neg hshort, pure_bind]
    exact hbody (Nat.not_lt.mp hshort)

/-- The three words that each kind of segment begins with. -/
theorem words_eq (buf : Bytes) (h : 12 ≤ buf.length) : ∃ a b c,
    (u32From buf 0 = pure a ∧ u32From buf 4 = pure b ∧ u32From buf 8 = pure c) ∧
    getU32 buf = some (a, buf.drop 4) ∧ getU32 (buf.drop 4) = some (b, buf.drop 8) ∧
      getU32 (buf.drop 8) = some (c, buf.drop 12) := by
  obtain ⟨a, ha, ha'⟩ := u32From_eq buf 0 (by omega)
  obtain ⟨b, hb, hb'⟩ := u32From_eq buf 4 (by omega)
  obtain ⟨c, hc, hc'⟩ := u32From_eq buf 8 (by omega)
  exact ⟨a, b, c, ⟨ha, hb, hc⟩, ha', hb', hc'⟩

theorem parseDataChecked_eq (option : UInt8) (buf : Bytes) :
    parseDataChecked option buf = returned (parseData option buf) := by
  refine rejected_eq (fun r hr => by have := parseData_length hr; omega) fun hlen => ?_
  obtain ⟨timestamp, number, next, ⟨hc1, hc2, hc3⟩, h1, h2, h3⟩ := words_eq buf (by omega)
  obtain ⟨hi, hc4, h4⟩ := index_eq buf 12 (by omega)
  obtain ⟨lo, hc5, h5⟩ := index_eq buf 13 (by omega)
  have hu16 : getU16 (buf.drop 12) = some (u16 hi lo, buf.drop 14) := by rw [h4, h5]; rfl
  have hparse : parseData option buf = (getBytes (u16 hi lo) (buf.drop 14)).map fun p =>
      (.data { option, timestamp, number, payload := p.1 }, p.2) := by
    simp only [parseData, h1, h2, h3, hu16, Option.bind_eq_bind, Option.bind_some]
    cases getBytes (u16 hi lo) (buf.drop 14) <;> rfl
  simp only [hc1, hc2, hc3, indexU16, hc4, hc5, pure_bind, hparse]
  refine rejected_eq (fun r hr => ?_) fun hlong => ?_
  · obtain ⟨⟨payload, rest⟩, hget, -⟩ := Option.map_eq_some_iff.mp hr
    have := getBytes_length hget
    rw [List.length_drop] at this
    omega
  · have hget : getBytes (u16 hi lo) (buf.drop 14) =
        some ((buf.drop 14).take (u16 hi lo), buf.drop (14 + u16 hi lo)) := by
      rw [getBytes, if_neg (by rw [List.length_drop]; omega), List.drop_drop]
    rw [range_eq (by omega) hlong, range_to_end hlong, hget, Nat.add_sub_cancel_left]
    rfl

theorem parseAckChecked_eq (option : UInt8) (buf : Bytes) :
    parseAckChecked option buf = returned (parseAck option buf) := by
  refine rejected_eq (fun r hr => by have := parseAck_length hr; omega) fun hlen => ?_
  obtain ⟨window, next, timestamp, ⟨hc1, hc2, hc3⟩, h1, h2, h3⟩ := words_eq buf (by omega)
  obtain ⟨count, hc4, h4⟩ := index_eq buf 12 (by omega)
  have hu8 : getU8 (buf.drop 12) = some (count, buf.drop 13) := by rw [h4]; rfl
  have hparse : parseAck option buf = (getU32s count.toNat (buf.drop 13)).map fun p =>
      (.ack { option, receivingWindow := window, receivingNext := next, timestamp, numbers := p.1 }, p.2) := by
    simp only [parseAck, h1, h2, h3, hu8, Option.bind_eq_bind, Option.bind_some]
    cases getU32s count.toNat (buf.drop 13) <;> rfl
  simp only [hc1, hc2, hc3, hc4, pure_bind, hparse]
  refine rejected_eq (fun r hr => ?_) fun hlong => ?_
  · obtain ⟨⟨numbers, rest⟩, hget, -⟩ := Option.map_eq_some_iff.mp hr
    have := getU32s_length _ hget
    rw [List.length_drop] at this
    omega
  · obtain ⟨numbers, hnumbers, hget⟩ := numbersFrom_eq buf count.toNat 13 (by omega)
    rw [hnumbers, hget, pure_bind, range_to_end (by omega)]
    rfl

theorem parseCmdChecked_eq (cmd option : UInt8) (buf : Bytes) :
    parseCmdChecked cmd option buf = returned (parseCmd cmd option buf) := by
  refine rejected_eq (fun r hr => by have := parseCmd_length hr; omega) fun hlen => ?_
  obtain ⟨sending, next, rto, ⟨-, hc2, hc3⟩, h1, h2, h3⟩ := words_eq buf hlen
  simp only [hc2, hc3, pure_bind, range_to_end hlen, parseCmd, h1, h2, h3, Option.bind_eq_bind, Option.bind_some]
  rfl

/-- **The slices are in range**, for every packet. -/
theorem readSegmentChecked_eq (buf : Bytes) :
    readSegmentChecked buf = returned (readSegment buf) := by
  match buf with
  | [] | [_] | [_, _] | [_, _, _] => rfl
  | a :: b :: cmd :: option :: rest =>
    have hlen : (a :: b :: cmd :: option :: rest).length = rest.length + 4 := rfl
    have hrest : range (ε := Unit) (a :: b :: cmd :: option :: rest) 4 (a :: b :: cmd :: option :: rest).length =
        pure rest := range_to_end (Nat.le_add_left 4 rest.length)
    have hfound : readSegmentChecked (a :: b :: cmd :: option :: rest) =
        if cmd = 1 then parseDataChecked option rest
        else if cmd = 0 then parseAckChecked option rest
        else parseCmdChecked cmd option rest := by
      rw [readSegmentChecked, rejectIf_neg (by omega), rejectIf_neg (by omega), hrest]
      rfl
    rw [hfound, parseDataChecked_eq, parseAckChecked_eq, parseCmdChecked_eq, ← apply_ite returned, ← apply_ite returned]
    rfl

end

/-! ## Packets of several segments -/

/-- A segment as it is serialized, with the fields that the reader drops. A command is a
segment that is neither data nor an acknowledgement. -/
inductive Sent where
  | data (conv : Nat) (seg : DataSegment) (sendingNext : UInt32) (fits : seg.payload.length ≤ 65535)
  | ack (conv : Nat) (seg : AckSegment) (fits : seg.numbers.length ≤ 255)
  | cmd (conv : Nat) (seg : CmdSegment) (sendingNext : UInt32) (command : seg.cmd ≠ 0 ∧ seg.cmd ≠ 1)

/-- `read_segment`, applied several times. -/
def readTimes : Nat → Bytes → Checked Unit (List Segment × Bytes)
  | 0, buf => return ([], buf)
  | n + 1, buf => do
    let (segment, buf) ← readSegmentChecked buf
    let (segments, buf) ← readTimes n buf
    return (segment :: segments, buf)

namespace Sent

def segment : Sent → Segment
  | .data _ seg _ _ => .data seg
  | .ack _ seg _ => .ack seg
  | .cmd _ seg _ _ => .cmd seg

def bytes : Sent → Bytes
  | .data conv seg sendingNext _ => serializeData conv seg.option seg.timestamp seg.number sendingNext seg.payload
  | .ack conv seg _ =>
    serializeAck conv seg.option seg.receivingWindow seg.receivingNext seg.timestamp seg.numbers
  | .cmd conv seg sendingNext _ => serializeCmd conv seg.cmd seg.option sendingNext seg.receivingNext seg.peerRto

theorem readSegment_bytes (s : Sent) (rest : Bytes) :
    readSegment (s.bytes ++ rest) = some (s.segment, rest) := by
  cases s with
  | data conv seg next fits => exact readSegment_serializeData conv _ _ _ next _ (by omega) rest
  | ack conv seg fits => exact readSegment_serializeAck conv _ _ _ _ _ (by omega) rest
  | cmd conv seg next command => exact readSegment_serializeCmd conv _ _ command.1 command.2 next _ _ rest

end Sent

/-- **The codec.** From a packet of serialized segments each call takes the next one,
until nothing is left. Of any bytes `read_segment` returns a segment with fewer bytes
behind it, or `None`; it never panics. -/
theorem segment_codec :
    (∀ segments : List Sent,
      readTimes segments.length (segments.flatMap Sent.bytes) = pure (segments.map Sent.segment,
      []) ∧ readSegments (segments.flatMap Sent.bytes) = segments.map Sent.segment) ∧
    ∀ buf, readSegmentChecked buf = throw () ∨
      ∃ seg rest, readSegmentChecked buf = pure (seg, rest) ∧ rest.length < buf.length := by
  refine ⟨fun segments => ?_, fun buf => ?_⟩
  · induction segments with
    | nil => exact ⟨rfl, rfl⟩
    | cons s segments ih =>
      have hread := s.readSegment_bytes (segments.flatMap Sent.bytes)
      have hchecked := readSegmentChecked_eq (s.bytes ++ segments.flatMap Sent.bytes)
      rw [hread, returned] at hchecked
      rw [List.flatMap_cons, List.length_cons, readTimes, hchecked, readSegments_eq, hread]
      simp [ih]
  · rw [readSegmentChecked_eq]
    cases h : readSegment buf with
    | none => exact .inl rfl
    | some r => exact .inr ⟨r.1, r.2, rfl, readSegment_length h⟩

end Wrongsv.L1.KcpSegment
