import Wrongsv.L1Encoding.LengthPacket
import Wrongsv.L2Machine.Vision.Reader

/-!
# UDP over a byte stream

VLESS carries datagrams as length-prefixed packets. `relay_udp`
(server/handler/relay.rs:434-455) reads them off the stream with
one `LengthPacketReader`, across reads. The relays for mKCP, gRPC, XHTTP and
request sessions alternate between a read of the client and a receive from
the target, and parse every read on its own. They are one function up to what
an empty datagram of the target does.

Results, beside `chunks_length`, `chunks_whole`:
* `go_forwarded`: the other relays forward the packets of the single reads, if
  no send fails and no read comes behind the end of the relay.
* `go_short`: otherwise they forward less than the client sent.
-/
namespace Wrongsv.L2.Vless
open L1.LengthPacket L2.Vision List

/-! ## The relays -/

/-- The packets `relay_udp` sends: `remaining` chained in front of the reads.
relay.rs:402-491 -/
def relayUdp (remaining : Bytes) (reads : List InnerRead) : List Bytes :=
  readPackets (remaining ++ delivered reads)

/-- A read of the client that is not EOF. -/
inductive ClientRead where
  | data (x : InnerRead)
  | wouldBlock
  | failed (e : String)
  deriving DecidableEq, Repr

/-- A receive from the target. -/
inductive TargetRecv where
  | datagram (payload : Bytes)
  | timedOut
  | failed (e : String)
  deriving DecidableEq, Repr

/-- Which `send` of a list of packets fails, if one does. -/
abbrev SendFault := Option (Nat × String)

/-- One pass of a relay's loop: the read, the sends of its packets, the receive,
and `write_all` of what was received. Behind the last pass the client is at EOF. -/
structure Turn where
  read : ClientRead
  fault : SendFault
  recv : TargetRecv
  reply : Except String Unit
  deriving DecidableEq, Repr

/-- The packets sent to the target, the bytes of the packets written to the
client, and the result. -/
structure RelayedUdp where
  forwarded : List Bytes
  toClient : Bytes
  result : Except String Unit

def ClientRead.reads : ClientRead → List InnerRead
  | .data x => [x]
  | .wouldBlock => []
  | .failed _ => []

/-- The packets of one read; a part of a packet at its end is dropped. -/
def Turn.packets (turn : Turn) : List Bytes := turn.read.reads.flatMap fun x => readPackets x.bytes

/-- `socket.send(&pkt)?` for every packet: those that are sent, and the error. -/
def sendPackets (fault : SendFault) (ps : List Bytes) : List Bytes × Except String Unit :=
  match fault with
  | none => (ps, .ok ())
  | some (k, e) => if k < ps.length then (ps.take k, .error e) else (ps, .ok ())

/-- The loop of the relays; with `emptyEnds` an empty datagram is taken for
the end. -/
def relayStreamUdp.go (emptyEnds : Bool) : List Turn → RelayedUdp
  | [] => ⟨[], [], .ok ()⟩
  | turn :: turns =>
    match turn.read with
    | .failed e => ⟨[], [], .error e⟩
    | _ =>
      match sendPackets turn.fault turn.packets with
      | (sent, .error e) => ⟨sent, [], .error e⟩
      | (sent, .ok ()) =>
        let more := go emptyEnds turns
        match turn.recv with
        | .datagram payload =>
          if emptyEnds = true ∧ payload = [] then ⟨sent, [], .ok ()⟩
          else
            match turn.reply with
            | .error e => ⟨sent, [], .error e⟩
            | .ok () =>
              { more with forwarded := sent ++ more.forwarded, toClient := writePacket payload ++ more.toClient }
        | .timedOut => { more with forwarded := sent ++ more.forwarded }
        | .failed e => ⟨sent, [], .error e⟩

/-- `opened`: the socket is bound to 0.0.0.0 and connected to the target. -/
def relayStreamUdp (emptyEnds : Bool) (opened : Except String Unit) (remaining : Bytes)
    (fault : SendFault) (turns : List Turn) : RelayedUdp :=
  match opened with
  | .error e => ⟨[], [], .error e⟩
  | .ok () =>
    match sendPackets fault (readPackets remaining) with
    | (sent, .error e) => ⟨sent, [], .error e⟩
    | (sent, .ok ()) =>
      let relayed := relayStreamUdp.go emptyEnds turns
      { relayed with forwarded := sent ++ relayed.forwarded }

/-- server/handler/kcp.rs:877-946 -/
def relayKcpUdp : Except String Unit → Bytes → SendFault → List Turn → RelayedUdp :=
  relayStreamUdp true

/-- server/handler/grpc.rs:662-740 -/
def relayGrpcUdp : Except String Unit → Bytes → SendFault → List Turn → RelayedUdp :=
  relayStreamUdp true

/-- server/handler/xhttp.rs:1269-1342 -/
def relayXhttpUdp : Except String Unit → Bytes → SendFault → List Turn → RelayedUdp :=
  relayStreamUdp true

/-- An empty datagram is sent on as an empty packet.
server/handler/request_transport.rs:611-687 -/
def relayRequestStreamUdp : Except String Unit → Bytes → SendFault → List Turn → RelayedUdp :=
  relayStreamUdp false

inductive Carrier where
  | kcp
  | grpc
  | xhttp
  | requestSession
  deriving DecidableEq, Repr

def Carrier.relay : Carrier → Except String Unit → Bytes → SendFault → List Turn → RelayedUdp
  | .kcp => relayKcpUdp
  | .grpc => relayGrpcUdp
  | .xhttp => relayXhttpUdp
  | .requestSession => relayRequestStreamUdp

def Carrier.emptyEnds : Carrier → Bool
  | .requestSession => false
  | _ => true

theorem Carrier.relay_eq (carrier : Carrier) :
    carrier.relay = relayStreamUdp carrier.emptyEnds := by
  cases carrier <;> rfl

/-! ## What is forwarded -/

/-- A send of these packets fails. -/
def SendFault.Hits (fault : SendFault) (ps : List Bytes) : Prop :=
  ∃ k e, fault = some (k, e) ∧ k < ps.length

theorem sendPackets_of_not_hits {fault : SendFault} {ps : List Bytes} (h : ¬ fault.Hits ps) :
    sendPackets fault ps = (ps, .ok ()) := by
  unfold sendPackets
  split
  · rfl
  · rename_i k e
    exact if_neg fun hk => h ⟨k, e, rfl, hk⟩

/-- A failed send is short of a packet. -/
theorem sendPackets_of_hits {fault : SendFault} {ps : List Bytes} (h : fault.Hits ps) :
    ∃ sent e p lost, sendPackets fault ps = (sent, .error e) ∧ sent ++ p :: lost = ps := by
  obtain ⟨k, e, rfl, hk⟩ := h
  refine ⟨ps.take k, e, ps[k], ps.drop (k + 1), if_pos hk, ?_⟩
  rw [getElem_cons_drop, take_append_drop]

/-- The pass ends the relay, by its read, its receive or its reply. -/
def Turn.Ends (emptyEnds : Bool) (turn : Turn) : Prop :=
  (∃ e, turn.read = .failed e) ∨
    match turn.recv with
    | .datagram payload => (emptyEnds = true ∧ payload = []) ∨ turn.reply ≠ .ok ()
    | .timedOut => False
    | .failed _ => True

/-- The reads with data. -/
def dataReads (turns : List Turn) : List InnerRead := turns.flatMap (·.read.reads)

/-- No send of a pass fails, and no data is read behind the pass that ends the
relay. -/
def Heard (emptyEnds : Bool) : List Turn → Prop
  | [] => True
  | turn :: turns =>
    ¬ turn.fault.Hits turn.packets ∧ (turn.Ends emptyEnds → dataReads turns = []) ∧ Heard emptyEnds turns

/-! ## Whole packets -/

/-- Bytes that are a number of whole packets. -/
def Whole (b : Bytes) : Prop :=
  ∃ ps : List Bytes, (∀ p ∈ ps, p.length ≤ maxPacketSize) ∧ b = writePackets ps

theorem whole_iff (b : Bytes) : Whole b ↔ writePackets (readPackets b) = b := by
  constructor
  · rintro ⟨ps, hps, rfl⟩
    have h := readPackets_writePackets hps []
    rw [append_nil, readPackets_nil, append_nil] at h
    rw [h]
  · intro h
    exact ⟨readPackets b, (readPackets_rest b).1, h.symm⟩

theorem writePackets_append (ps qs : List Bytes) :
    writePackets (ps ++ qs) = writePackets ps ++ writePackets qs := by
  unfold writePackets
  rw [flatMap_append]

/-- Parsing chunk by chunk accounts for all bytes only if the chunks are whole. -/
theorem chunks_length (chunks : List Bytes) :
    (writePackets (chunks.flatMap readPackets)).length ≤ chunks.flatten.length ∧
      (chunks.flatten.length ≤ (writePackets (chunks.flatMap readPackets)).length → ∀ c ∈ chunks, Whole c) := by
  induction chunks with
  | nil => exact ⟨Nat.le_refl _, fun _ c hc => nomatch hc⟩
  | cons c chunks ih =>
    obtain ⟨hle, hall⟩ := ih
    obtain ⟨-, rest, hrest⟩ := readPackets_rest c
    have hc := congrArg List.length hrest
    rw [length_append] at hc
    rw [flatMap_cons, writePackets_append, length_append, flatten_cons, length_append]
    refine ⟨by omega, fun h c' hc' => ?_⟩
    rcases List.mem_cons.mp hc' with rfl | hmem
    · have hnil : rest = [] := eq_nil_of_length_eq_zero (by omega)
      rw [hnil, append_nil] at hrest
      exact (whole_iff _).mpr hrest.symm
    · exact hall (by omega) c' hmem

theorem chunks_whole (chunks : List Bytes) (h : ∀ c ∈ chunks, Whole c) :
    writePackets (chunks.flatMap readPackets) = chunks.flatten := by
  induction chunks with
  | nil => rfl
  | cons c chunks ih =>
    rw [flatMap_cons, writePackets_append, flatten_cons,
      (whole_iff c).mp (h c mem_cons_self), ih (fun c' hc => h c' (mem_cons_of_mem _ hc))]

/-! ## The loop -/

section
variable {emptyEnds : Bool} {turn : Turn} {turns : List Turn}

theorem go_of_hits (h : turn.fault.Hits turn.packets) : ∃ p lost,
    (relayStreamUdp.go emptyEnds (turn :: turns)).forwarded ++ p :: lost = turn.packets := by
  obtain ⟨sent, e, p, lost, hsend, heq⟩ := sendPackets_of_hits h
  refine ⟨p, lost, ?_⟩
  rw [relayStreamUdp.go, hsend]
  cases hr : turn.read with
  | failed e =>
    simp only [Turn.packets, hr, ClientRead.reads, flatMap_nil, append_eq_nil_iff, reduceCtorEq, and_false] at heq
  | data x => exact heq
  | wouldBlock => exact heq

theorem go_of_ends (h : ¬ turn.fault.Hits turn.packets) (hends : turn.Ends emptyEnds) :
    (relayStreamUdp.go emptyEnds (turn :: turns)).forwarded = turn.packets := by
  rw [relayStreamUdp.go, sendPackets_of_not_hits h]
  cases hr : turn.read with
  | failed e => simp only [Turn.packets, hr, ClientRead.reads, flatMap_nil]
  | _ =>
    simp only [Turn.Ends, hr, reduceCtorEq, exists_false, false_or] at hends
    cases hrecv : turn.recv with
    | timedOut => simp only [hrecv] at hends
    | failed e => rfl
    | datagram payload =>
      simp only [hrecv] at hends
      by_cases he : emptyEnds = true ∧ payload = []
      · simp only [if_pos he]
      · have hreply := hends.resolve_left he
        cases hw : turn.reply with
        | ok u => exact absurd hw hreply
        | error e => simp only [if_neg he]

theorem go_of_not_ends (h : ¬ turn.fault.Hits turn.packets) (hends : ¬ turn.Ends emptyEnds) :
    (relayStreamUdp.go emptyEnds (turn :: turns)).forwarded =
      turn.packets ++ (relayStreamUdp.go emptyEnds turns).forwarded := by
  rw [relayStreamUdp.go, sendPackets_of_not_hits h]
  obtain ⟨hread, hrest⟩ := not_or.mp hends
  cases hr : turn.read with
  | failed e => exact absurd ⟨e, hr⟩ hread
  | _ =>
    cases hrecv : turn.recv with
    | timedOut => rfl
    | failed e => simp only [hrecv, not_true_eq_false] at hrest
    | datagram payload =>
      simp only [hrecv, not_or, Decidable.not_not] at hrest
      simp only [if_neg hrest.1, hrest.2]

/-- Whatever the sockets do, a relay that hears everything sends the packets of
the single reads. -/
theorem go_forwarded (h : Heard emptyEnds turns) : (relayStreamUdp.go emptyEnds turns).forwarded =
    ((dataReads turns).map (·.bytes)).flatMap readPackets := by
  induction turns with
  | nil => rfl
  | cons turn turns ih =>
    obtain ⟨hsent, hlast, hheard⟩ := h
    have hcons : ((dataReads (turn :: turns)).map (·.bytes)).flatMap readPackets =
        turn.packets ++ ((dataReads turns).map (·.bytes)).flatMap readPackets := by
      simp only [dataReads, Turn.packets, flatMap_cons, map_append, flatMap_append, flatMap_map]
    rw [hcons]
    by_cases hends : turn.Ends emptyEnds
    · rw [go_of_ends hsent hends, hlast hends]
      exact (append_nil _).symm
    · rw [go_of_not_ends hsent hends, ih hheard]

theorem heard_of_no_data (h : dataReads turns = []) : Heard emptyEnds turns := by
  induction turns with
  | nil => trivial
  | cons turn turns ih =>
    obtain ⟨hread, hrest⟩ := append_eq_nil_iff.mp h
    refine ⟨?_, fun _ => hrest, ih hrest⟩
    rintro ⟨k, e, -, hk⟩
    rw [Turn.packets, show turn.read.reads = [] from hread] at hk
    exact absurd hk (Nat.not_lt_zero k)

theorem Turn.packets_length (turn : Turn) :
    (writePackets turn.packets).length ≤ (delivered turn.read.reads).length := by
  have h := (chunks_length (turn.read.reads.map (·.bytes))).1
  rwa [flatMap_map] at h

/-- A relay that misses something sends less than the client did. -/
theorem go_short (h : ¬ Heard emptyEnds turns) :
    (writePackets (relayStreamUdp.go emptyEnds turns).forwarded).length < (delivered (dataReads turns)).length := by
  induction turns with
  | nil => exact absurd trivial h
  | cons turn turns ih =>
    have hcons : (delivered (dataReads (turn :: turns))).length =
        (delivered turn.read.reads).length + (delivered (dataReads turns)).length := by
      simp only [dataReads, delivered, flatMap_cons, flatMap_append, length_append]
    have hle := turn.packets_length
    rw [hcons]
    by_cases hsent : turn.fault.Hits turn.packets
    · obtain ⟨p, lost, hlost⟩ :
          ∃ p lost, (relayStreamUdp.go emptyEnds (turn :: turns)).forwarded ++ p :: lost = turn.packets := go_of_hits hsent
      rw [← hlost, writePackets_append, length_append] at hle
      have hp : 0 < (writePackets (p :: lost)).length := Nat.succ_pos _
      omega
    by_cases hends : turn.Ends emptyEnds
    · rw [go_of_ends hsent hends]
      have hdata : dataReads turns ≠ [] := fun hnil => h ⟨hsent, fun _ => hnil, heard_of_no_data hnil⟩
      obtain ⟨x, xs, hx⟩ := exists_cons_of_ne_nil hdata
      have hpos := length_pos_of_ne_nil x.nonempty
      rw [hx, delivered_cons, length_append]
      omega
    · rw [go_of_not_ends hsent hends, writePackets_append, length_append]
      have := ih fun hheard => h ⟨hsent, fun he => absurd he hends, hheard⟩
      omega

end

end Wrongsv.L2.Vless
