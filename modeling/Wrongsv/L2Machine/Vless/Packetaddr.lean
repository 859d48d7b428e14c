import Wrongsv.L1Encoding.Packetaddr

/-!
# The downlink of a packet-address association

`flush_packetaddr_responses` (server/handler/relay.rs:146-189)
receives datagrams until there are none and writes each as one packet to the
client. `relay_packetaddr_udp_stream` calls it over and over, for the IPv4 and
for the IPv6 socket. The results of all `recv_from` calls, over both sockets,
are one list of events; behind its end there is nothing more to receive.

`relayResponses_eq`: whatever the calls, the client is written the packets of
the datagrams that are not empty, in the order in which they were received.
-/
namespace Wrongsv.L2.Vless
open L1.LengthPacket L1.Packetaddr

/-- What a receive buffer of 65535 bytes can hold. -/
structure Datagram where
  source : SocketAddr
  payload : Bytes
  fits : payload.length ≤ 65535
  deriving DecidableEq, Repr

/-- A result of `recv_from`. -/
inductive Recv where
  | datagram (d : Datagram)
  | timedOut
  | failed (e : String)
  deriving DecidableEq, Repr

/-- A call of `flush_packetaddr_responses`: the bytes written, its result, and
the events it leaves. -/
structure Flushed where
  written : Bytes
  result : Except String Bool
  rest : List Recv

/-- relay.rs:155-189, `wrote` being the flag
so far -/
def flushPacketaddrResponses.go (wrote : Bool) : List Recv → Flushed
  | [] => ⟨[], .ok wrote, []⟩
  | .timedOut :: rest => ⟨[], .ok wrote, rest⟩
  | .failed e :: rest => ⟨[], .error e, rest⟩
  | .datagram d :: rest =>
    -- an empty datagram ends the call
    if d.payload = [] then ⟨[], .ok wrote, rest⟩
    else match encodePacketaddrPayload d.source.destination.1 d.source.destination.2 d.payload with
      | .error e => ⟨[], .error e, rest⟩
      | .ok packet =>
        let more := go true rest
        { more with written := writePacket packet ++ more.written }

/-- relay.rs:146-189 -/
def flushPacketaddrResponses (events : List Recv) : Flushed :=
  flushPacketaddrResponses.go false events

/-- The calls of a relay, one after the other, up to an error. -/
def relayResponses.go : Nat → List Recv → Bytes
  | 0, _ => []
  | fuel + 1, events =>
    let flushed := flushPacketaddrResponses events
    match flushed.result with
    | .error _ => flushed.written
    | .ok _ => flushed.written ++ go fuel flushed.rest

/-- Every call takes an event. -/
def relayResponses (events : List Recv) : Bytes := relayResponses.go events.length events

/-- The datagrams a relay receives before it ends. -/
def received : List Recv → List Datagram
  | [] => []
  | .timedOut :: rest => received rest
  | .failed _ :: _ => []
  | .datagram d :: rest => d :: received rest

def Datagram.packet (d : Datagram) : Bytes := d.source.packet d.payload

/-- The packets written for a list of datagrams. -/
def sentPackets (ds : List Datagram) : List Bytes :=
  (ds.filter (fun d => d.payload ≠ [])).map (·.packet)

theorem sentPackets_cons_empty {d : Datagram} (h : d.payload = []) (ds : List Datagram) :
    sentPackets (d :: ds) = sentPackets ds := by
  simp [sentPackets, h]

theorem sentPackets_cons {d : Datagram} (h : d.payload ≠ []) (ds : List Datagram) :
    sentPackets (d :: ds) = d.packet :: sentPackets ds := by
  simp [sentPackets, h]

/-- **One call**: it writes packets of the datagrams it takes, and without an
error the other datagrams are still to be received. -/
theorem flush_go_spec (events : List Recv) (wrote : Bool) :
    let f := flushPacketaddrResponses.go wrote events
    (∀ e, f.result = .error e → f.written = writePackets (sentPackets (received events))) ∧
      (∀ w, f.result = .ok w →
        f.written ++ writePackets (sentPackets (received f.rest)) =
          writePackets (sentPackets (received events))) ∧
      (events ≠ [] → f.rest.length < events.length) := by
  fun_induction flushPacketaddrResponses.go wrote events with
  | case1 => exact ⟨(fun e h => nomatch h), (fun _ _ => rfl), (fun h => absurd rfl h)⟩
  | case2 => exact ⟨(fun e h => nomatch h), (fun _ _ => rfl), fun _ => Nat.lt_succ_self _⟩
  | case3 => exact ⟨(fun _ _ => rfl), (fun w h => nomatch h), fun _ => Nat.lt_succ_self _⟩
  | case4 wrote d rest hempty =>
    rw [received, sentPackets_cons_empty hempty]
    exact ⟨(fun e h => nomatch h), (fun _ _ => rfl), fun _ => Nat.lt_succ_self _⟩
  | case5 wrote d rest hempty e he =>
    rw [encode_eq_packet] at he
    cases he
  | case6 wrote d rest hempty packet hp more ih =>
    rw [encode_eq_packet] at hp
    cases hp
    obtain ⟨h1, h2, h3⟩ := ih
    have hpacket : ∀ ps, writePackets (d.packet :: ps) = writePacket d.packet ++ writePackets ps := fun ps => rfl
    rw [received, sentPackets_cons hempty, hpacket]
    refine ⟨fun e h => ?_, fun w h => ?_, fun _ => ?_⟩
    · rw [h1 e h]
      rfl
    · rw [List.append_assoc, h2 w h]
      rfl
    · cases rest with
      | nil => exact Nat.zero_lt_one
      | cons event rest => exact Nat.lt_succ_of_lt (h3 (by simp))

/-- **A whole relay.** -/
theorem relayResponses_eq (events : List Recv) :
    relayResponses events = writePackets (sentPackets (received events)) := by
  suffices h : ∀ fuel events, events.length ≤ fuel →
      relayResponses.go fuel events = writePackets (sentPackets (received events)) from
    h _ events (Nat.le_refl _)
  intro fuel
  induction fuel with
  | zero =>
    intro events h
    obtain rfl := List.eq_nil_of_length_eq_zero (Nat.le_zero.mp h)
    rfl
  | succ fuel ih =>
    intro events h
    obtain ⟨h1, h2, h3⟩ := flush_go_spec events false
    simp only [relayResponses.go, flushPacketaddrResponses]
    cases hr : (flushPacketaddrResponses.go false events).result with
    | error e => exact h1 e hr
    | ok w =>
      have hlen : (flushPacketaddrResponses.go false events).rest.length ≤ fuel := by
        cases events with
        | nil => exact Nat.zero_le _
        | cons event rest =>
          have := h3 (by simp)
          omega
      simp only [ih _ hlen]
      exact h2 w hr

end Wrongsv.L2.Vless
