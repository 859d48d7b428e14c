import Wrongsv.Core

/-!
# mKCP segments

The three segment kinds of `handler/kcp/xray_session.rs` and their byte
format: conv(2) command(1) option(1), then

* data (command 1): timestamp(4) number(4) sending_next(4) length(2) payload,
* ACK (command 0): receiving_window(4) receiving_next(4) timestamp(4)
  count(1) numbers(4 each),
* anything else: sending_next(4) receiving_next(4) peer_rto(4).

The reader keeps neither `conv` nor `sending_next`. `readSegments` is the
`while let` loop over a packet. By `readSegments_single` a packet made of one
serialized segment is read as that segment and nothing else.
-/
namespace Wrongsv.L1.KcpSegment
open List

structure DataSegment where
  option : UInt8
  timestamp : UInt32
  number : UInt32
  payload : Bytes
  deriving DecidableEq, Repr

structure AckSegment where
  option : UInt8
  receivingWindow : UInt32
  receivingNext : UInt32
  timestamp : UInt32
  numbers : List UInt32
  deriving DecidableEq, Repr

structure CmdSegment where
  cmd : UInt8
  option : UInt8
  receivingNext : UInt32
  peerRto : UInt32
  deriving DecidableEq, Repr

inductive Segment where
  | data (seg : DataSegment)
  | ack (seg : AckSegment)
  | cmd (seg : CmdSegment)
  deriving DecidableEq, Repr

/-- The option byte of any segment; bit 0 announces that the peer will not
write any more. -/
def Segment.option : Segment → UInt8
  | .data seg => seg.option
  | .ack seg => seg.option
  | .cmd seg => seg.option

/-! ## Reading -/

def peekConv (packet : Bytes) : Option Nat := (getU16 packet).map (·.1)

/-- xray_session.rs:554-575 -/
def parseData (option : UInt8) (buf : Bytes) : Option (Segment × Bytes) := do
  let (timestamp, buf) ← getU32 buf
  let (number, buf) ← getU32 buf
  let (_, buf) ← getU32 buf
  let (dataLen, buf) ← getU16 buf
  let (payload, rest) ← getBytes dataLen buf
  some (.data { option, timestamp, number, payload }, rest)

/-- The numbers of an ACK. -/
def getU32s : Nat → Bytes → Option (List UInt32 × Bytes)
  | 0, buf => some ([], buf)
  | count + 1, buf => do
    let (number, buf) ← getU32 buf
    let (numbers, rest) ← getU32s count buf
    some (number :: numbers, rest)

/-- xray_session.rs:577-606 -/
def parseAck (option : UInt8) (buf : Bytes) : Option (Segment × Bytes) := do
  let (receivingWindow, buf) ← getU32 buf
  let (receivingNext, buf) ← getU32 buf
  let (timestamp, buf) ← getU32 buf
  let (count, buf) ← getU8 buf
  let (numbers, rest) ← getU32s count.toNat buf
  some (.ack { option, receivingWindow, receivingNext, timestamp, numbers }, rest)

/-- xray_session.rs:608-621 -/
def parseCmd (cmd option : UInt8) (buf : Bytes) : Option (Segment × Bytes) := do
  let (_, buf) ← getU32 buf
  let (receivingNext, buf) ← getU32 buf
  let (peerRto, rest) ← getU32 buf
  some (.cmd { cmd, option, receivingNext, peerRto }, rest)

/-- xray_session.rs:536-552 -/
def readSegment (buf : Bytes) : Option (Segment × Bytes) := do
  let (_, buf) ← getU16 buf
  let (cmd, buf) ← getU8 buf
  let (option, rest) ← getU8 buf
  if cmd = 1 then parseData option rest
  else if cmd = 0 then parseAck option rest
  else parseCmd cmd option rest

/-- `while let Some((segment, next)) = read_segment(rest)`; every pass takes
a byte at least. -/
def readSegments.go : Nat → Bytes → List Segment
  | 0, _ => []
  | fuel + 1, buf =>
    match readSegment buf with
    | none => []
    | some (seg, rest) => seg :: go fuel rest

def readSegments (packet : Bytes) : List Segment := readSegments.go (packet.length + 1) packet

theorem getU32s_length (count : Nat) : ∀ {buf rest : Bytes} {numbers : List UInt32},
    getU32s count buf = some (numbers, rest) → buf.length = rest.length + 4 * count := by
  induction count with
  | zero => intro buf rest numbers h; cases h; rfl
  | succ count ih =>
    intro buf rest numbers h
    simp only [getU32s, Option.bind_eq_bind, Option.bind_eq_some_iff, Prod.exists] at h
    obtain ⟨n, b1, h1, ns, b2, h2, h3⟩ := h
    cases h3
    rw [getU32_length h1, ih h2]
    omega

section
variable {option : UInt8} {buf rest : Bytes} {seg : Segment}

theorem parseData_length (h : parseData option buf = some (seg, rest)) :
    rest.length + 14 ≤ buf.length := by
  simp only [parseData, Option.bind_eq_bind, Option.bind_eq_some_iff, Prod.exists] at h
  obtain ⟨_, b1, h1, _, b2, h2, _, b3, h3, _, b4, h4, _, b5, h5, h6⟩ := h
  cases h6
  rw [getU32_length h1, getU32_length h2, getU32_length h3, getU16_length h4, getBytes_length h5]
  omega

theorem parseAck_length (h : parseAck option buf = some (seg, rest)) :
    rest.length + 13 ≤ buf.length := by
  simp only [parseAck, Option.bind_eq_bind, Option.bind_eq_some_iff, Prod.exists] at h
  obtain ⟨_, b1, h1, _, b2, h2, _, b3, h3, _, b4, h4, _, b5, h5, h6⟩ := h
  cases h6
  rw [getU32_length h1, getU32_length h2, getU32_length h3, getU8_length h4, getU32s_length _ h5]
  omega

theorem parseCmd_length {cmd : UInt8} (h : parseCmd cmd option buf = some (seg, rest)) :
    rest.length + 12 ≤ buf.length := by
  simp only [parseCmd, Option.bind_eq_bind, Option.bind_eq_some_iff, Prod.exists] at h
  obtain ⟨_, b1, h1, _, b2, h2, _, b3, h3, h4⟩ := h
  cases h4
  have := getU32_length h1
  have := getU32_length h2
  have := getU32_length h3
  omega

theorem readSegment_length (h : readSegment buf = some (seg, rest)) : rest.length < buf.length := by
  simp only [readSegment, Option.bind_eq_bind, Option.bind_eq_some_iff, Prod.exists] at h
  obtain ⟨_, b1, h1, cmd, b2, h2, option, b3, h3, h4⟩ := h
  rw [getU16_length h1, getU8_length h2, getU8_length h3]
  split at h4
  · have := parseData_length h4
    omega
  split at h4
  · have := parseAck_length h4
    omega
  · have := parseCmd_length h4
    omega

end

theorem readSegments_go_fuel (fuel : Nat) : ∀ (fuel' : Nat) (buf : Bytes), buf.length < fuel →
    buf.length < fuel' → readSegments.go fuel buf = readSegments.go fuel' buf := by
  induction fuel with
  | zero => intro _ _ h; omega
  | succ fuel ih =>
    intro fuel' buf h h'
    cases fuel' with
    | zero => omega
    | succ fuel' => grind [readSegments.go, readSegment, readSegment_length]

/-- The fuel never runs out: the loop stops only where `read_segment` fails. -/
theorem readSegments_eq (packet : Bytes) :
    readSegments packet =
      match readSegment packet with
      | none => []
      | some (seg, rest) => seg :: readSegments rest := by
  unfold readSegments
  rw [readSegments.go]
  cases h : readSegment packet with
  | none => rfl
  | some p => grind [readSegment_length, readSegments_go_fuel]

/-! ## Writing -/

/-- xray_session.rs:623-641 -/
def serializeData (conv : Nat) (option : UInt8) (timestamp number sendingNext : UInt32) (payload : Bytes) : Bytes :=
  be16 conv ++ 1 :: option :: (be32 timestamp ++ be32 number ++ be32 sendingNext ++
    be16 payload.length ++ payload)

/-- xray_session.rs:643-663 -/
def serializeAck (conv : Nat) (option : UInt8) (receivingWindow receivingNext timestamp : UInt32)
    (numbers : List UInt32) : Bytes :=
  be16 conv ++ 0 :: option :: (be32 receivingWindow ++ be32 receivingNext ++ be32 timestamp ++
    UInt8.ofNat numbers.length :: numbers.flatMap be32)

def serializeCmd (conv : Nat) (cmd option : UInt8) (sendingNext receivingNext peerRto : UInt32) :
    Bytes :=
  be16 conv ++ cmd :: option :: (be32 sendingNext ++ be32 receivingNext ++ be32 peerRto)

/-! ## Round trips -/

section
variable (conv : Nat) (option : UInt8)

theorem getU16_conv (buf : Bytes) : getU16 (be16 conv ++ buf) =
    some (u16 (UInt8.ofNat (conv / 256)) (UInt8.ofNat conv), buf) := rfl

theorem getU32s_flatMap (rest : Bytes) (numbers : List UInt32) :
    getU32s numbers.length (numbers.flatMap be32 ++ rest) = some (numbers, rest) := by
  induction numbers with
  | nil => rfl
  | cons n numbers ih =>
    simp only [length_cons, flatMap_cons, append_assoc, getU32s, getU32_be32, ih,
      Option.bind_eq_bind, Option.bind_some]

theorem readSegment_serializeData (timestamp number sendingNext : UInt32) (payload : Bytes)
    (h : payload.length < 65536) (rest : Bytes) :
    readSegment (serializeData conv option timestamp number sendingNext payload ++ rest) =
      some (.data { option, timestamp, number, payload }, rest) := by
  simp only [readSegment, serializeData, parseData, append_assoc, cons_append, getU16_conv,
    getU8_cons, getU32_be32, getU16_be16 _ _ h, getBytes_append, if_true, Option.bind_eq_bind,
    Option.bind_some]

theorem readSegment_serializeAck (receivingWindow receivingNext timestamp : UInt32)
    (numbers : List UInt32) (h : numbers.length < 256) (rest : Bytes) :
    readSegment (serializeAck conv option receivingWindow receivingNext timestamp numbers ++ rest) =
      some (.ack { option, receivingWindow, receivingNext, timestamp, numbers }, rest) := by
  have hc : (UInt8.ofNat numbers.length).toNat = numbers.length := by
    rw [UInt8.toNat_ofNat']; omega
  have h01 : ¬ (0 : UInt8) = 1 := by decide
  simp only [readSegment, serializeAck, parseAck, append_assoc, cons_append, getU16_conv,
    getU8_cons, getU32_be32, hc, getU32s_flatMap, if_true, if_neg h01, Option.bind_eq_bind,
    Option.bind_some]

theorem readSegment_serializeCmd (cmd : UInt8) (h0 : cmd ≠ 0) (h1 : cmd ≠ 1)
    (sendingNext receivingNext peerRto : UInt32) (rest : Bytes) :
    readSegment (serializeCmd conv cmd option sendingNext receivingNext peerRto ++ rest) =
      some (.cmd { cmd, option, receivingNext, peerRto }, rest) := by
  simp only [readSegment, serializeCmd, parseCmd, append_assoc, cons_append, getU16_conv,
    getU8_cons, getU32_be32, if_neg h0, if_neg h1, Option.bind_eq_bind, Option.bind_some]

end

theorem readSegments_single {packet : Bytes} {seg : Segment}
    (h : ∀ rest, readSegment (packet ++ rest) = some (seg, rest)) : readSegments packet = [seg] := by
  have hread := h []
  rw [append_nil] at hread
  rw [readSegments_eq, hread]
  rfl

end Wrongsv.L1.KcpSegment
