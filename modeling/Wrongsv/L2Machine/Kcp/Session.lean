import Wrongsv.L1Encoding.KcpSegment

/-!
# The mKCP session

`XrayKcpSession` of `handler/kcp/xray_session.rs`: the reliable stream over
UDP packets. `u32` counters and clocks are `UInt32` and wrap as in the
source; sizes in `usize` are naturals. `recv_packets`, a hash map, is an
association list. `flush` returns the packets it sends and the session.

`max_ack` of `process_ack_segment` is computed but never read, so it is left
out.
-/
namespace Wrongsv.L2.Kcp
open L1.KcpSegment List

def dataSegmentOverhead : Nat := 18
def ackNumberLimit : Nat := 128
def startupRemoteWindow : UInt32 := 32
def maxRto : UInt32 := 10000

inductive SessionState where
  | active
  | readyToClose
  | peerClosed
  | terminating
  | peerTerminating
  | terminated
  deriving DecidableEq, Repr

structure SessionConfig where
  conv : Nat
  mtu : Nat
  tti : UInt32
  uplinkCapacity : Nat
  downlinkCapacity : Nat
  writeBufferSize : Nat
  packetOverhead : Nat
  deriving DecidableEq, Repr

/-- The default configuration, for the conversation 1. -/
def SessionConfig.default : SessionConfig :=
  { conv := 1, mtu := 1350, tti := 50, uplinkCapacity := 5, downlinkCapacity := 20,
    writeBufferSize := 2097152, packetOverhead := 6 }

/-! ## Round-trip times -/

theorem toNat_max (a b : UInt32) : (max a b).toNat = max a.toNat b.toNat := by
  show (if a ≤ b then b else a).toNat = _
  split
  · exact (Nat.max_eq_right (UInt32.le_iff_toNat_le.mp ‹_›)).symm
  · exact (Nat.max_eq_left (Nat.le_of_lt (UInt32.not_le.mp ‹_›))).symm

structure RoundTripInfo where
  variation : UInt32
  srtt : UInt32
  rto : UInt32
  minRtt : UInt32
  updatedTimestamp : UInt32
  deriving DecidableEq, Repr

def RoundTripInfo.new (minRtt : UInt32) : RoundTripInfo :=
  { variation := 0, srtt := 0, rto := 100, minRtt, updatedTimestamp := 0 }

/-- xray_session.rs:49-55 -/
def RoundTripInfo.updatePeerRto (r : RoundTripInfo) (rto current : UInt32) : RoundTripInfo :=
  if current - r.updatedTimestamp < 3000 then r
  else { r with updatedTimestamp := current, rto := max rto r.minRtt }

/-- `a.abs_diff(b)` -/
def absDiff (a b : UInt32) : UInt32 := if a ≤ b then b - a else a - b

/-- The smoothed time and its variation. -/
def RoundTripInfo.smooth (r : RoundTripInfo) (rtt : UInt32) : RoundTripInfo :=
  if r.srtt = 0 then { r with srtt := rtt, variation := rtt / 2 }
  else
    let srtt := (7 * r.srtt + rtt) / 8
    { r with variation := (3 * r.variation + absDiff rtt r.srtt) / 4,
             srtt := if srtt < r.minRtt then r.minRtt else srtt }

/-- xray_session.rs:57-84 -/
def RoundTripInfo.update (r : RoundTripInfo) (rtt current : UInt32) : RoundTripInfo :=
  if 0x7fffffff < rtt then r
  else
    let r := r.smooth rtt
    let rto := if r.minRtt < 4 * r.variation then r.srtt + 4 * r.variation else r.srtt + r.variation
    let rto := if maxRto < rto then maxRto else rto
    { r with rto := max (rto * 5 / 4) r.minRtt, updatedTimestamp := current }

def RoundTripInfo.timeout (r : RoundTripInfo) : UInt32 := max r.rto r.minRtt

/-! ## The session -/

structure PendingAck where
  number : UInt32
  timestamp : UInt32
  deriving DecidableEq, Repr

structure SendingSegment where
  number : UInt32
  payload : Bytes
  timeout : UInt32
  transmit : UInt32
  deriving DecidableEq, Repr

structure XrayKcpSession where
  conv : Nat
  state : SessionState
  stateBegin : UInt32
  lastIncoming : UInt32
  lastPing : UInt32
  roundTrip : RoundTripInfo
  recvNextNumber : UInt32
  recvWindowSize : UInt32
  recvPackets : List (UInt32 × Bytes)
  recvReady : List Bytes
  pendingAcks : List PendingAck
  pendingSendChunks : List Bytes
  sendWindow : List SendingSegment
  nextSendNumber : UInt32
  firstUnacked : UInt32
  remoteNextNumber : UInt32
  sendInflightSize : UInt32
  sendBufferSize : Nat
  controlWindow : UInt32
  appWriteClosed : Bool
  mss : Nat
  deriving DecidableEq, Repr

def inflightSize (capacityMib : Nat) (mtu tti : UInt32) : UInt32 :=
  let interval := max (1000 / max tti 1) 1
  let size := UInt32.ofNat capacityMib * 1024 * 1024 / max mtu 1 / interval
  max size 8

def seqLt (a b : UInt32) : Bool := a != b && decide (0x7fffffff < a - b)

def XrayKcpSession.new (config : SessionConfig) : XrayKcpSession :=
  let tti := max config.tti 1
  let mtu := max config.mtu (dataSegmentOverhead + 1)
  let sendInflightSize := max (inflightSize (max config.uplinkCapacity 1) (UInt32.ofNat mtu) tti) 8
  { conv := config.conv, state := .active, stateBegin := 0, lastIncoming := 0, lastPing := 0,
    roundTrip := .new tti, recvNextNumber := 0,
    recvWindowSize := max (inflightSize (max config.downlinkCapacity 1) (UInt32.ofNat mtu) tti) 8,
    recvPackets := [], recvReady := [], pendingAcks := [], pendingSendChunks := [], sendWindow :=
    [], nextSendNumber := 0, firstUnacked := 0, remoteNextNumber := startupRemoteWindow,
    sendInflightSize, sendBufferSize := max (config.writeBufferSize / mtu) 1,
    controlWindow := sendInflightSize, appWriteClosed := false,
    mss := max (mtu - (config.packetOverhead + dataSegmentOverhead)) 1 }

namespace XrayKcpSession

variable (s : XrayKcpSession)

def setState (state : SessionState) (current : UInt32) : XrayKcpSession :=
  { s with state, stateBegin := current }

/-! ### Application side -/

/-- xray_session.rs:210-215 -/
def canAcceptApplicationData : Bool := s.state = .active ∨ s.state = .readyToClose

/-- xray_session.rs:200-208 -/
def enqueueApplicationData (data : Bytes) : XrayKcpSession :=
  if s.canAcceptApplicationData = false ∨ data = [] then s
  else { s with pendingSendChunks := s.pendingSendChunks ++ data.toChunks s.mss }

/-- xray_session.rs:217-225 -/
def markApplicationWriteClosed (current : UInt32) : XrayKcpSession :=
  let s := { s with appWriteClosed := true }
  match s.state with
  | .active => s.setState .readyToClose current
  | .peerClosed => s.setState .terminating current
  | .peerTerminating => s.setState .terminated current
  | _ => s

def takeReceived : Option Bytes × XrayKcpSession :=
  match s.recvReady with
  | [] => (none, s)
  | payload :: rest => (some payload, { s with recvReady := rest })

/-! ### Incoming segments -/

/-- xray_session.rs:363-371 -/
def handleOption (option : UInt8) (current : UInt32) : XrayKcpSession :=
  if option &&& 1 ≠ 0 then
    match s.state with
    | .readyToClose => s.setState .terminating current
    | .active => s.setState .peerClosed current
    | _ => s
  else s

/-- `recv_packets.entry(number).or_insert(payload)` -/
def orInsert (m : List (UInt32 × Bytes)) (number : UInt32) (payload : Bytes) :
    List (UInt32 × Bytes) :=
  match m.lookup number with
  | some _ => m
  | none => (number, payload) :: m

/-- `recv_packets.remove(&number)`, without the value. -/
def erase (m : List (UInt32 × Bytes)) (number : UInt32) : List (UInt32 × Bytes) :=
  m.filter (fun p => p.1 != number)

/-- The payload of the next number moves to `recv_ready`. -/
def promoteOne (payload : Bytes) : XrayKcpSession :=
  { s with recvPackets := erase s.recvPackets s.recvNextNumber,
           recvReady := s.recvReady ++ [payload], recvNextNumber := s.recvNextNumber + 1 }

/-- Every pass of the loop takes an entry out of `recv_packets`. -/
def promoteReceived.go : Nat → XrayKcpSession → XrayKcpSession
  | 0, s => s
  | fuel + 1, s =>
    match s.recvPackets.lookup s.recvNextNumber with
    | none => s
    | some payload => go fuel (s.promoteOne payload)

/-- xray_session.rs:378-383 -/
def promoteReceived : XrayKcpSession := promoteReceived.go s.recvPackets.length s

/-- A payload inside the window is acknowledged and stored. -/
def storeData (seg : DataSegment) : XrayKcpSession :=
  { s with pendingAcks := s.pendingAcks ++ [⟨seg.number, seg.timestamp⟩],
           recvPackets := orInsert s.recvPackets seg.number seg.payload }

/-- xray_session.rs:302-317 -/
def processDataSegment (seg : DataSegment) (current : UInt32) : XrayKcpSession :=
  let s := s.handleOption seg.option current
  if s.recvWindowSize ≤ seg.number - s.recvNextNumber then s
  else (s.storeData seg).promoteReceived

/-- xray_session.rs:493-499 -/
def updateFirstUnacked : XrayKcpSession :=
  { s with firstUnacked := (s.sendWindow.head?.map (·.number)).getD s.nextSendNumber }

/-- xray_session.rs:474-482 -/
def removeSentBefore (next : UInt32) : XrayKcpSession :=
  updateFirstUnacked { s with sendWindow := s.sendWindow.dropWhile (fun seg => seqLt seg.number next) }

/-- xray_session.rs:484-491 -/
def removeSentNumber (number : UInt32) : Bool × XrayKcpSession :=
  if s.sendWindow.any (fun seg => seg.number == number) then
    (true, updateFirstUnacked { s with sendWindow := s.sendWindow.eraseP (fun seg => seg.number == number) })
  else (false, s)

/-- The loop over the numbers of an ACK; whether one was removed. -/
def removeSentNumbers : List UInt32 → Bool → XrayKcpSession → Bool × XrayKcpSession
  | [], removed, s => (removed, s)
  | number :: numbers, removed, s =>
    let r := s.removeSentNumber number
    removeSentNumbers numbers (removed || r.1) r.2

/-- xray_session.rs:319-343 -/
def processAckSegment (seg : AckSegment) (current : UInt32) : XrayKcpSession :=
  let s := s.handleOption seg.option current
  let s := if s.remoteNextNumber < seg.receivingWindow then
    { s with remoteNextNumber := seg.receivingWindow } else s
  let s := s.removeSentBefore seg.receivingNext
  let r := removeSentNumbers seg.numbers false s
  let s := if r.1 ∧ current - seg.timestamp < maxRto then
    { r.2 with roundTrip := r.2.roundTrip.update (current - seg.timestamp) current } else r.2
  s.updateFirstUnacked

/-- What a terminate command does to the state. -/
def handleCommand (cmd : UInt8) (current : UInt32) : XrayKcpSession :=
  if cmd = 2 then
    match s.state with
    | .active | .peerClosed => s.setState .peerTerminating current
    | .readyToClose => s.setState .terminating current
    | .terminating => s.setState .terminated current
    | _ => s
  else s

/-- xray_session.rs:345-361 -/
def processCmdSegment (seg : CmdSegment) (current : UInt32) : XrayKcpSession :=
  let s := s.handleOption seg.option current
  let s := s.handleCommand seg.cmd current
  let s := s.removeSentBefore seg.receivingNext
  { s with roundTrip := s.roundTrip.updatePeerRto seg.peerRto current }

def processSegment (seg : Segment) (current : UInt32) : XrayKcpSession :=
  match seg with
  | .data seg => s.processDataSegment seg current
  | .ack seg => s.processAckSegment seg current
  | .cmd seg => s.processCmdSegment seg current

/-- xray_session.rs:232-245 -/
def input (packet : Bytes) (current : UInt32) : XrayKcpSession :=
  (readSegments packet).foldl (fun s seg => s.processSegment seg current) { s with lastIncoming := current }

/-! ### Flushing -/

/-- The moves of `flush` between states, before anything is sent. -/
def flushState (current : UInt32) : XrayKcpSession :=
  let s := if s.state = .active ∧ 30000 ≤ current - s.lastIncoming then
    s.markApplicationWriteClosed current else s
  let s := if s.appWriteClosed = true ∧ s.pendingSendChunks = [] ∧ s.sendWindow = [] ∧
    s.state = .readyToClose then s.setState .terminating current else s
  let s := if s.state = .peerTerminating ∧ 4000 < current - s.stateBegin then
    s.setState .terminating current else s
  if s.state = .readyToClose ∧ 15000 < current - s.stateBegin then
    s.setState .terminating current else s

/-- A pending chunk gets its number. -/
def numberChunk (payload : Bytes) (rest : List Bytes) : XrayKcpSession :=
  { s with pendingSendChunks := rest, nextSendNumber := s.nextSendNumber + 1,
           sendWindow := s.sendWindow ++ [⟨s.nextSendNumber, payload, 0, 0⟩] }

/-- The loop of `fill_send_window`; every pass takes a pending chunk. -/
def fillSendWindow.go : Nat → XrayKcpSession → XrayKcpSession
  | 0, s => s
  | fuel + 1, s =>
    if s.sendWindow.length < s.sendBufferSize then
      match s.pendingSendChunks with
      | [] => s
      | payload :: rest => go fuel (s.numberChunk payload rest)
    else s

/-- xray_session.rs:385-400 -/
def fillSendWindow : XrayKcpSession :=
  updateFirstUnacked (fillSendWindow.go s.pendingSendChunks.length s)

/-- The option byte of everything sent: the write side is closed. -/
def optionByte : UInt8 := if s.state = .readyToClose then 1 else 0

/-- One ACK packet for up to 128 pending acknowledgements. -/
def ackPacket (acks : List PendingAck) : Bytes :=
  serializeAck s.conv s.optionByte (s.recvNextNumber + s.recvWindowSize) s.recvNextNumber
    (acks.foldl (fun t ack => if t < ack.timestamp then ack.timestamp else t) 0) (acks.map (·.number))

def flushPendingAcks.go (s : XrayKcpSession) : Nat → List PendingAck → List Bytes
  | 0, _ => []
  | fuel + 1, acks =>
    if acks = [] then []
    else s.ackPacket (acks.take ackNumberLimit) :: go s fuel (acks.drop ackNumberLimit)

/-- xray_session.rs:402-430 -/
def flushPendingAcks : List Bytes × XrayKcpSession :=
  (flushPendingAcks.go s s.pendingAcks.length s.pendingAcks, { s with pendingAcks := [] })

/-- The segments `flush_send_window` may send in one go, 0 for none. -/
def sendLimit : UInt32 :=
  let cwnd := s.sendInflightSize
  let remoteRoom := s.remoteNextNumber - s.firstUnacked
  let cwnd := if remoteRoom < cwnd then remoteRoom else cwnd
  let cwnd := if s.controlWindow < cwnd then s.controlWindow else cwnd
  -- `saturating_mul(20)`
  if 2 ^ 32 ≤ cwnd.toNat * 20 then 0xffffffff else cwnd * 20

/-- The packet of a segment of the window. -/
def dataPacket (current : UInt32) (seg : SendingSegment) : Bytes :=
  serializeData s.conv s.optionByte current seg.number s.firstUnacked seg.payload

/-- The loop over the window; `in_flight` and `transmit` saturate. -/
def flushSendWindow.go (s : XrayKcpSession) (current cwnd : UInt32) :
    UInt32 → List SendingSegment → List Bytes × List SendingSegment
  | _, [] => ([], [])
  | inFlight, seg :: rest =>
    if cwnd ≤ inFlight then ([], seg :: rest)
    else if 0 < seg.transmit ∧ current - seg.timeout < 0x7fffffff then
      let r := go s current cwnd inFlight rest
      (r.1, seg :: r.2)
    else
      let r := go s current cwnd (if inFlight = 0xffffffff then inFlight else inFlight + 1) rest
      let transmit := if seg.transmit = 0xffffffff then seg.transmit else seg.transmit + 1
      (s.dataPacket current seg :: r.1,
        { seg with timeout := current + s.roundTrip.timeout, transmit } :: r.2)

/-- xray_session.rs:432-472 -/
def flushSendWindow (current : UInt32) : List Bytes × XrayKcpSession :=
  let r := flushSendWindow.go s current s.sendLimit 0 s.sendWindow
  (r.1, { s with sendWindow := r.2 })

def cmdPacket (cmd : UInt8) : Bytes :=
  serializeCmd s.conv cmd s.optionByte s.firstUnacked s.recvNextNumber s.roundTrip.timeout

/-- The packets of a session that is not terminating, with a ping every
three seconds. -/
def flushOutput (current : UInt32) : List Bytes × XrayKcpSession :=
  let a := s.flushPendingAcks
  let w := a.2.flushSendWindow current
  if 3000 ≤ current - w.2.lastPing then
    (a.1 ++ w.1 ++ [w.2.cmdPacket 3], { w.2 with lastPing := current })
  else (a.1 ++ w.1, w.2)

/-- The session of a `flush` behind its moves between states and the numbering
of pending chunks. -/
def filled (current : UInt32) : XrayKcpSession := (s.flushState current).fillSendWindow

/-- xray_session.rs:247-296 -/
def flush (current : UInt32) : List Bytes × XrayKcpSession :=
  if s.state = .terminated then ([], s)
  else
    let s := s.filled current
    if s.state = .terminating then
      let s' := { s with lastPing := current }
      ([s.cmdPacket 2],
        if 8000 < current - s'.stateBegin then s'.setState .terminated current else s')
    else s.flushOutput current

/-! ## What the operations leave alone

A session sends in one direction and receives in the other, and the two
halves hardly touch each other. -/

/-- The sending half is the same. -/
structure SameSender (s s' : XrayKcpSession) : Prop where
  pending : s'.pendingSendChunks = s.pendingSendChunks
  window : s'.sendWindow = s.sendWindow
  next : s'.nextSendNumber = s.nextSendNumber
  mss : s'.mss = s.mss

/-- `update_first_unacked` is not about what is sent. -/
theorem updateFirstUnacked_same : SameSender s s.updateFirstUnacked := ⟨rfl, rfl, rfl, rfl⟩

/-- The receiving half is the same. -/
structure SameReceiver (s s' : XrayKcpSession) : Prop where
  next : s'.recvNextNumber = s.recvNextNumber
  size : s'.recvWindowSize = s.recvWindowSize
  packets : s'.recvPackets = s.recvPackets
  ready : s'.recvReady = s.recvReady
  acks : s'.pendingAcks = s.pendingAcks

theorem SameSender.refl : SameSender s s := ⟨rfl, rfl, rfl, rfl⟩

theorem SameReceiver.refl : SameReceiver s s := ⟨rfl, rfl, rfl, rfl, rfl⟩

variable {s' s'' : XrayKcpSession}

theorem SameSender.trans {s : XrayKcpSession} (h : SameSender s s') (h' : SameSender s' s'') :
    SameSender s s'' :=
  ⟨h'.pending.trans h.pending, h'.window.trans h.window, h'.next.trans h.next, h'.mss.trans h.mss⟩

theorem SameReceiver.trans {s : XrayKcpSession} (h : SameReceiver s s')
    (h' : SameReceiver s' s'') : SameReceiver s s'' :=
  ⟨h'.next.trans h.next, h'.size.trans h.size, h'.packets.trans h.packets, h'.ready.trans h.ready,
    h'.acks.trans h.acks⟩

section
variable (s : XrayKcpSession) (current : UInt32)

theorem setState_same (state : SessionState) :
    SameSender s (s.setState state current) ∧ SameReceiver s (s.setState state current) :=
  ⟨⟨rfl, rfl, rfl, rfl⟩, ⟨rfl, rfl, rfl, rfl, rfl⟩⟩

theorem handleOption_same (option : UInt8) : SameSender s (s.handleOption option current) ∧
    SameReceiver s (s.handleOption option current) := by
  unfold handleOption
  split
  · split
    · exact setState_same s current _
    · exact setState_same s current _
    · exact ⟨.refl s, .refl s⟩
  · exact ⟨.refl s, .refl s⟩

theorem handleCommand_same (cmd : UInt8) :
    SameSender s (s.handleCommand cmd current) ∧ SameReceiver s (s.handleCommand cmd current) := by
  unfold handleCommand
  split
  · split
    · exact setState_same s current _
    · exact setState_same s current _
    · exact setState_same s current _
    · exact setState_same s current _
    · exact ⟨.refl s, .refl s⟩
  · exact ⟨.refl s, .refl s⟩

theorem markApplicationWriteClosed_same : SameSender s (s.markApplicationWriteClosed current) ∧
      SameReceiver s (s.markApplicationWriteClosed current) := by
  unfold markApplicationWriteClosed
  simp only
  split <;> exact ⟨⟨rfl, rfl, rfl, rfl⟩, ⟨rfl, rfl, rfl, rfl, rfl⟩⟩

theorem enqueueApplicationData_same (data : Bytes) : (s.enqueueApplicationData data).sendWindow =
      s.sendWindow ∧ SameReceiver s (s.enqueueApplicationData data) := by
  unfold enqueueApplicationData
  split
  · exact ⟨rfl, .refl s⟩
  · exact ⟨rfl, ⟨rfl, rfl, rfl, rfl, rfl⟩⟩

theorem takeReceived_same : SameSender s s.takeReceived.2 ∧ s.takeReceived.2.recvNextNumber =
      s.recvNextNumber ∧ s.takeReceived.2.recvPackets = s.recvPackets := by
  unfold takeReceived
  split
  · exact ⟨.refl s, rfl, rfl⟩
  · exact ⟨⟨rfl, rfl, rfl, rfl⟩, rfl, rfl⟩

theorem ite_same {c : Prop} [Decidable c] {s s' : XrayKcpSession} (h : SameSender s s' ∧ SameReceiver s s') :
    SameSender s (if c then s' else s) ∧ SameReceiver s (if c then s' else s) := by
  split
  · exact h
  · exact ⟨.refl s, .refl s⟩

theorem flushState_same :
    SameSender s (s.flushState current) ∧ SameReceiver s (s.flushState current) := by
  unfold flushState
  simp only
  generalize h1 : (if s.state = .active ∧ 30000 ≤ current - s.lastIncoming then
    s.markApplicationWriteClosed current else s) = s1
  have e1 : SameSender s s1 ∧ SameReceiver s s1 := by
    rw [← h1]; exact ite_same (markApplicationWriteClosed_same s current)
  generalize h2 : (if s1.appWriteClosed = true ∧ s1.pendingSendChunks = [] ∧ s1.sendWindow = [] ∧
    s1.state = .readyToClose then s1.setState .terminating current else s1) = s2
  have e2 : SameSender s1 s2 ∧ SameReceiver s1 s2 := by
    rw [← h2]; exact ite_same (setState_same s1 current _)
  generalize h3 : (if s2.state = .peerTerminating ∧ 4000 < current - s2.stateBegin then
    s2.setState .terminating current else s2) = s3
  have e3 : SameSender s2 s3 ∧ SameReceiver s2 s3 := by
    rw [← h3]; exact ite_same (setState_same s2 current _)
  have e4 := ite_same (c := s3.state = .readyToClose ∧ 15000 < current - s3.stateBegin)
    (setState_same s3 current .terminating)
  exact ⟨((e1.1.trans e2.1).trans e3.1).trans e4.1, ((e1.2.trans e2.2).trans e3.2).trans e4.2⟩

end

/-! ### Receiving -/

theorem promoteReceived_go_sender (fuel : Nat) : ∀ (s : XrayKcpSession),
    SameSender s (promoteReceived.go fuel s) := by
  induction fuel with
  | zero => intro s; exact .refl s
  | succ fuel ih =>
    intro s
    simp only [promoteReceived.go]
    split
    · exact .refl s
    rename_i payload _
    have h : SameSender s (s.promoteOne payload) := ⟨rfl, rfl, rfl, rfl⟩
    exact h.trans (ih _)

theorem processDataSegment_sender (seg : DataSegment) (current : UInt32) :
    SameSender s (s.processDataSegment seg current) := by
  have h := (handleOption_same s current seg.option).1
  unfold processDataSegment
  simp only
  generalize s.handleOption seg.option current = s' at h ⊢
  split
  · exact h
  · have h' : SameSender s' (s'.storeData seg) := ⟨rfl, rfl, rfl, rfl⟩
    exact (h.trans h').trans (promoteReceived_go_sender _ _)

theorem lookup_erase (m : List (UInt32 × Bytes)) (k j : UInt32) :
    (erase m k).lookup j = if j = k then none else m.lookup j := by
  unfold erase
  induction m with
  | nil => simp
  | cons p m ih => grind

theorem lookup_orInsert (m : List (UInt32 × Bytes)) (k j : UInt32) (v : Bytes) :
    (orInsert m k v).lookup j = if j = k then some ((m.lookup k).getD v) else m.lookup j := by
  grind [orInsert]

/-! ### Acknowledgements -/

/-- The sending half after acknowledgements: only segments whose number is
`gone` have left the window. -/
structure Releases (gone : UInt32 → Prop) (s s' : XrayKcpSession) : Prop where
  pending : s'.pendingSendChunks = s.pendingSendChunks
  next : s'.nextSendNumber = s.nextSendNumber
  mss : s'.mss = s.mss
  sub : ∀ seg ∈ s'.sendWindow, seg ∈ s.sendWindow
  kept : ∀ seg ∈ s.sendWindow, seg ∈ s'.sendWindow ∨ gone seg.number

variable {gone : UInt32 → Prop}

theorem Releases.trans {s : XrayKcpSession} (h : Releases gone s s')
    (h' : Releases gone s' s'') : Releases gone s s'' := by
  refine ⟨h'.pending.trans h.pending, h'.next.trans h.next, h'.mss.trans h.mss,
    fun seg hs => h.sub seg (h'.sub seg hs), fun seg hs => ?_⟩
  rcases h.kept seg hs with hk | hg
  · exact h'.kept seg hk
  · exact .inr hg

theorem Releases.mono {gone' : UInt32 → Prop} {s : XrayKcpSession} (h : Releases gone s s')
    (hi : ∀ n, gone n → gone' n) : Releases gone' s s' :=
  ⟨h.pending, h.next, h.mss, h.sub, fun seg hs => (h.kept seg hs).imp_right (hi _)⟩

theorem SameSender.releases {s : XrayKcpSession} (h : SameSender s s') :
    Releases gone s s' :=
  ⟨h.pending, h.next, h.mss, fun seg hs => by rw [← h.window]; exact hs,
    fun seg hs => .inl (by rw [h.window]; exact hs)⟩

theorem mem_dropWhile_or {α : Type} (p : α → Bool) {l : List α} {x : α} (h : x ∈ l) :
    x ∈ l.dropWhile p ∨ p x = true := by
  rw [← takeWhile_append_dropWhile (p := p) (l := l), mem_append] at h
  grind [all_takeWhile]

theorem removeSentBefore_releases (next : UInt32) :
    Releases (fun n => seqLt n next = true) s (s.removeSentBefore next) :=
  ⟨rfl, rfl, rfl, fun _ hs => dropWhile_subset _ hs, fun _ hs => mem_dropWhile_or _ hs⟩

theorem removeSentNumber_releases (number : UInt32) :
    Releases (fun n => n = number) s (s.removeSentNumber number).2 := by
  unfold removeSentNumber
  split
  · refine ⟨rfl, rfl, rfl, fun _ hs => eraseP_subset hs, fun seg hs => ?_⟩
    by_cases hn : seg.number = number
    · exact .inr hn
    · exact .inl ((mem_eraseP_of_neg (by simpa using hn)).mpr hs)
  · exact (SameSender.refl s).releases

theorem removeSentNumbers_releases (numbers : List UInt32) :
    ∀ (removed : Bool) (s : XrayKcpSession),
    Releases (fun n => n ∈ numbers) s (removeSentNumbers numbers removed s).2 := by
  induction numbers with
  | nil => intro removed s; exact (SameSender.refl s).releases
  | cons number numbers ih =>
    intro removed s
    have h1 := (removeSentNumber_releases s number).mono
      (fun n (hn : n = number) => (List.mem_cons.mpr (.inl hn) : n ∈ number :: numbers))
    have h2 := (ih (removed || (s.removeSentNumber number).1) (s.removeSentNumber number).2).mono
      (fun n hn => (mem_cons_of_mem number hn : n ∈ number :: numbers))
    exact h1.trans h2

variable (seg : AckSegment)

/-- What an ACK does besides the removals. -/
theorem processAckSegment_eq (current : UInt32) : ∃ next rtt, s.processAckSegment seg current =
    ({ (removeSentNumbers seg.numbers false (removeSentBefore
        { s.handleOption seg.option current with remoteNextNumber := next }
      seg.receivingNext)).2 with roundTrip := rtt } : XrayKcpSession).updateFirstUnacked := by
  unfold processAckSegment
  by_cases hnext : (s.handleOption seg.option current).remoteNextNumber < seg.receivingWindow
  all_goals
    simp only [hnext, if_true, if_false]
    split
    all_goals exact ⟨_, _, rfl⟩

/-- **What an ACK removes**: the numbers it lists and those before its
`receiving_next`. -/
theorem processAckSegment_releases (current : UInt32) :
    Releases (fun n => seqLt n seg.receivingNext = true ∨ n ∈ seg.numbers) s (s.processAckSegment seg current) := by
  have h0 := (handleOption_same s current seg.option).1
  obtain ⟨next, rtt, heq⟩ := processAckSegment_eq s seg current
  rw [heq]
  generalize s.handleOption seg.option current = s0 at h0 ⊢
  have h1 : SameSender s0 { s0 with remoteNextNumber := next } := ⟨rfl, rfl, rfl, rfl⟩
  have h2 := removeSentBefore_releases { s0 with remoteNextNumber := next } seg.receivingNext
  have h3 := removeSentNumbers_releases seg.numbers false
    (removeSentBefore { s0 with remoteNextNumber := next } seg.receivingNext)
  exact (((h0.trans h1).releases.trans (h2.mono fun _ => .inl)).trans (h3.mono fun _ => .inr)).trans
    (SameSender.releases ⟨rfl, rfl, rfl, rfl⟩)

theorem processCmdSegment_releases (seg : CmdSegment) (current : UInt32) :
    Releases (fun n => seqLt n seg.receivingNext = true) s (s.processCmdSegment seg current) := by
  have h0 := (handleOption_same s current seg.option).1
  have h1 := (handleCommand_same (s.handleOption seg.option current) current seg.cmd).1
  have h2 := removeSentBefore_releases ((s.handleOption seg.option current).handleCommand seg.cmd current)
    seg.receivingNext
  exact ((h0.trans h1).releases.trans h2).trans (SameSender.releases ⟨rfl, rfl, rfl, rfl⟩)

theorem removeSentNumbers_receiver (numbers : List UInt32) : ∀ (removed : Bool)
    (s : XrayKcpSession), SameReceiver s (removeSentNumbers numbers removed s).2 := by
  induction numbers with
  | nil => intro removed s; exact .refl s
  | cons number numbers ih =>
    intro removed s
    have h : SameReceiver s (s.removeSentNumber number).2 := by
      unfold removeSentNumber
      split
      · exact ⟨rfl, rfl, rfl, rfl, rfl⟩
      · exact .refl s
    exact h.trans (ih _ _)

theorem processAckSegment_receiver (current : UInt32) :
    SameReceiver s (s.processAckSegment seg current) := by
  have h0 := (handleOption_same s current seg.option).2
  obtain ⟨next, rtt, heq⟩ := processAckSegment_eq s seg current
  rw [heq]
  generalize s.handleOption seg.option current = s0 at h0 ⊢
  have h1 : SameReceiver s0 (removeSentBefore { s0 with remoteNextNumber := next } seg.receivingNext) :=
    ⟨rfl, rfl, rfl, rfl, rfl⟩
  exact ((h0.trans h1).trans (removeSentNumbers_receiver seg.numbers false _)).trans ⟨rfl, rfl, rfl, rfl, rfl⟩

theorem processCmdSegment_receiver (seg : CmdSegment) (current : UInt32) :
    SameReceiver s (s.processCmdSegment seg current) := by
  have h0 := (handleOption_same s current seg.option).2
  have h1 := (handleCommand_same (s.handleOption seg.option current) current seg.cmd).2
  exact (h0.trans h1).trans ⟨rfl, rfl, rfl, rfl, rfl⟩

/-! ### Flushing -/

theorem fillSendWindow_go_receiver (fuel : Nat) : ∀ (s : XrayKcpSession),
    SameReceiver s (fillSendWindow.go fuel s) := by
  induction fuel with
  | zero => intro s; exact .refl s
  | succ fuel ih =>
    intro s
    simp only [fillSendWindow.go]
    split
    · split
      · exact .refl s
      rename_i payload rest _
      have h : SameReceiver s (s.numberChunk payload rest) := ⟨rfl, rfl, rfl, rfl, rfl⟩
      exact h.trans (ih _)
    · exact .refl s

theorem fillSendWindow_receiver : SameReceiver s s.fillSendWindow := by
  have h : SameReceiver (fillSendWindow.go s.pendingSendChunks.length s) s.fillSendWindow :=
    ⟨rfl, rfl, rfl, rfl, rfl⟩
  exact (fillSendWindow_go_receiver _ s).trans h

/-- Sending only touches the timers of the window, and sends nothing else. -/
theorem flushSendWindow_go (s : XrayKcpSession) (current cwnd : UInt32)
    (window : List SendingSegment) : ∀ (inFlight : UInt32),
      (flushSendWindow.go s current cwnd inFlight window).2.map (fun seg => (seg.number, seg.payload)) =
          window.map (fun seg => (seg.number, seg.payload)) ∧
        ∀ p ∈ (flushSendWindow.go s current cwnd inFlight window).1,
          ∃ seg ∈ window, p = s.dataPacket current seg := by
  induction window with
  | nil => intro inFlight; exact ⟨rfl, by simp [flushSendWindow.go]⟩
  | cons seg window ih => grind [flushSendWindow.go]

theorem flushPendingAcks_go (s : XrayKcpSession) (fuel : Nat) : ∀ (acks : List PendingAck),
    ∀ p ∈ flushPendingAcks.go s fuel acks,
      ∃ part, (∀ ack ∈ part, ack ∈ acks) ∧ part.length ≤ ackNumberLimit ∧ p = s.ackPacket part := by
  induction fuel with
  | zero => intro acks p hp; cases hp
  | succ fuel ih => grind [flushPendingAcks.go]

/-- What a `flush` may send: ACKs for pending numbers, segments of the window,
commands. -/
inductive Sends (f : XrayKcpSession) (current : UInt32) : Bytes → Prop where
  | acks (part : List PendingAck) (pending : ∀ ack ∈ part, ack ∈ f.pendingAcks)
      (short : part.length ≤ ackNumberLimit) : Sends f current (f.ackPacket part)
  | data (seg : SendingSegment) (kept : seg ∈ f.sendWindow) : Sends f current (f.dataPacket current seg)
  | cmd (cmd : UInt8) (known : cmd = 2 ∨ cmd = 3) : Sends f current (f.cmdPacket cmd)

/-- The session behind a `flush`: timers and states apart it is `f`, and its
ACKs may have been sent. -/
structure Flushed (f s' : XrayKcpSession) : Prop where
  window : s'.sendWindow.map (fun seg => (seg.number, seg.payload)) =
    f.sendWindow.map (fun seg => (seg.number, seg.payload))
  pending : s'.pendingSendChunks = f.pendingSendChunks
  next : s'.nextSendNumber = f.nextSendNumber
  mss : s'.mss = f.mss
  receiver : SameReceiver f s' ∨ SameReceiver { f with pendingAcks := [] } s'

theorem flushOutput_spec (f : XrayKcpSession) (current : UInt32) :
    Flushed f (f.flushOutput current).2 ∧ ∀ p ∈ (f.flushOutput current).1, Sends f current p := by
  have ha : ∀ p ∈ f.flushPendingAcks.1, Sends f current p := by
    intro p hp
    obtain ⟨part, h1, h2, rfl⟩ := flushPendingAcks_go f _ _ p hp
    exact .acks part h1 h2
  obtain ⟨hw, hd⟩ := flushSendWindow_go { f with pendingAcks := [] } current
    ({ f with pendingAcks := [] } : XrayKcpSession).sendLimit f.sendWindow 0
  have hdata : ∀ p ∈ (f.flushPendingAcks.2.flushSendWindow current).1, Sends f current p := by
    intro p hp
    obtain ⟨seg, hs, rfl⟩ := hd p hp
    exact .data seg hs
  unfold flushOutput
  simp only
  split
  · refine ⟨⟨hw, rfl, rfl, rfl, .inr ⟨rfl, rfl, rfl, rfl, rfl⟩⟩, fun p hp => ?_⟩
    rcases List.mem_append.mp hp with hp | hp
    · grind
    · rw [List.mem_singleton.mp hp]
      exact .cmd 3 (.inr rfl)
  · refine ⟨⟨hw, rfl, rfl, rfl, .inr ⟨rfl, rfl, rfl, rfl, rfl⟩⟩, fun p hp => ?_⟩
    grind

/-- **What a `flush` does**, unless the session is terminated. -/
theorem flush_spec (current : UInt32) (h : s.state ≠ .terminated) : Flushed (s.filled current)
      (s.flush current).2 ∧ ∀ p ∈ (s.flush current).1, Sends (s.filled current) current p := by
  simp only [flush, if_neg h]
  generalize s.filled current = f
  split
  · refine ⟨?_, fun p hp => ?_⟩
    · simp only
      split <;> exact ⟨rfl, rfl, rfl, rfl, .inl ⟨rfl, rfl, rfl, rfl, rfl⟩⟩
    · rw [List.mem_singleton.mp hp]
      exact .cmd 2 (.inl rfl)
  · exact flushOutput_spec f current

end XrayKcpSession

end Wrongsv.L2.Kcp
