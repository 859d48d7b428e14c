import Wrongsv.Core.Slots
import Wrongsv.Core.Table
import Wrongsv.L1Encoding.TuicCommand
import Wrongsv.L2Machine.UdpSockets

/-!
# TUIC: UDP associations of a connection

A connection keeps a session with its own sockets for each association, and an
assembly for each packet of which some fragments have arrived
(server/handler/tuic.rs:585-724,878-919). Both tables are shared by the
datagrams and the unidirectional streams of the connection.

A packet is handled as one step; the tasks of a connection only meet at the locks of
the two tables.

`assemble_cases`: a fragment does not fit into the assembly of its packet, or fills
a slot of it, or completes it.
-/
namespace Wrongsv.L2.Tuic
open L1.Tuic L2.UdpSockets

inductive TuicPacketRelayMode where
  | datagram
  | stream
  deriving DecidableEq, Repr

inductive UdpError where
  | parse (e : TuicError)
  | socket (e : SocketError)
  /-- TUIC invalid fragment count -/
  | fragmentCount
  /-- TUIC first packet fragment requires an address -/
  | addressRequired
  /-- invalid TUIC fragment index -/
  | fragmentIndex
  /-- TUIC fragmented packet missing initial address -/
  | missingAddress
  deriving DecidableEq, Repr

/-- The fields that packets from the client use. -/
structure TuicUdpSession where
  mode : Option TuicPacketRelayMode
  ipv6 : Bool

structure TuicPacketAssembly where
  fragments : Slots UInt8
  address : Option TuicAddress

abbrev PacketKey := UInt16 × UInt16

structure TuicUdp where
  sessions : Table UInt16 TuicUdpSession
  assemblies : Table PacketKey TuicPacketAssembly

/-- A payload that was sent to a target for an association. -/
structure Forward where
  assocId : UInt16
  address : TuicAddress
  payload : Bytes
  deriving DecidableEq, Repr

/-! ## Assemblies -/

namespace TuicPacketAssembly

def new (fragmentTotal : UInt8) : TuicPacketAssembly := ⟨Slots.new fragmentTotal.toNat, none⟩

/-- tuic.rs:891-906 -/
def insert (a : TuicPacketAssembly) (fragmentIndex : UInt8) (address : Option TuicAddress)
    (payload : Bytes) : Except UdpError TuicPacketAssembly :=
  if a.fragments.length ≤ fragmentIndex.toNat then .error .fragmentIndex
  else .ok ⟨a.fragments.set fragmentIndex.toNat (some payload), a.address.or address⟩

def isComplete (a : TuicPacketAssembly) : Bool := a.fragments.full

/-- Called when all fragments are there.
tuic.rs:912-918 -/
def takePayload (a : TuicPacketAssembly) : Option TuicAddress × Bytes :=
  (a.address, a.fragments.join)

end TuicPacketAssembly

/-- The assemblies after a fragment, and the packet if it is complete. -/
def assemble (packet : TuicPacket) (assemblies : Table PacketKey TuicPacketAssembly) :
    Except UdpError (Option (Option TuicAddress × Bytes)) × Table PacketKey TuicPacketAssembly :=
  let key := (packet.assocId, packet.packetId)
  let assembly := (assemblies key).getD (.new packet.fragTotal)
  match assembly.insert packet.fragmentIndex packet.address packet.payload with
  | .error e => (.error e, assemblies.insert key assembly)
  | .ok assembly =>
    if assembly.isComplete = false then (.ok none, assemblies.insert key assembly)
    else (.ok (some assembly.takePayload), assemblies.remove key)

/-! ## Packets -/

/-- tuic.rs:88-93 -/
def TuicUdpSession.setMode (session : TuicUdpSession) (mode : TuicPacketRelayMode) :
    TuicUdpSession :=
  { session with mode := session.mode.or (some mode) }

/-- The mode of the session has been set before.
tuic.rs:109-125 -/
def TuicUdpSession.sendPayloadToTarget (env : Outside TuicAddress) (session : TuicUdpSession) (assocId : UInt16)
    (address : TuicAddress) (payload : Bytes) : Except UdpError (Option Forward) :=
  match sendPayload env session.ipv6 address with
  | .error e => .error (.socket e)
  | .ok () => .ok (some ⟨assocId, address, payload⟩)

/-- The session of an association, or a new one. -/
def TuicUdp.session (s : TuicUdp) (env : Outside TuicAddress) (assocId : UInt16) :
    Option TuicUdpSession :=
  match s.sessions assocId with
  | some session => some session
  | none => env.bind.map fun ipv6 => ⟨none, ipv6⟩

/-- What is done with a packet once there is a session. -/
def relayTuicPacket (env : Outside TuicAddress) (packet : TuicPacket) (session : TuicUdpSession)
    (assemblies : Table PacketKey TuicPacketAssembly) :
    Except UdpError (Option Forward) × Table PacketKey TuicPacketAssembly :=
  if packet.fragTotal = 0 then (.error .fragmentCount, assemblies)
  else if packet.fragTotal = 1 then
    match packet.address with
    | none => (.error .addressRequired, assemblies)
    | some address => (session.sendPayloadToTarget env packet.assocId address packet.payload, assemblies)
  else
    match assemble packet assemblies with
    | (.error e, assemblies) => (.error e, assemblies)
    | (.ok none, assemblies) => (.ok none, assemblies)
    | (.ok (some (none, _)), assemblies) => (.error .missingAddress, assemblies)
    | (.ok (some (some address, payload)), assemblies) =>
      (session.sendPayloadToTarget env packet.assocId address payload, assemblies)

/-- tuic.rs:656-724 -/
def handleTuicPacket (env : Outside TuicAddress) (mode : TuicPacketRelayMode) (packet : TuicPacket)
    (s : TuicUdp) : Except UdpError (Option Forward) × TuicUdp :=
  match s.session env packet.assocId with
  | none => (.error (.socket .bind), s)
  | some session =>
    let session := session.setMode mode
    let relayed := relayTuicPacket env packet session s.assemblies
    (relayed.1, ⟨s.sessions.insert packet.assocId session, relayed.2⟩)

def TuicUdp.dissociate (s : TuicUdp) (assocId : UInt16) : TuicUdp :=
  { s with sessions := s.sessions.remove assocId }

/-! ## What a fragment does -/

/-- **One fragment.** Its index is not one of the assembly; or it fills a slot; or it
fills the last one. -/
theorem assemble_cases (packet : TuicPacket) (assemblies : Table PacketKey TuicPacketAssembly) {a : TuicPacketAssembly}
    (ha : (assemblies (packet.assocId, packet.packetId)).getD (.new packet.fragTotal) = a) :
    (a.fragments.length ≤ packet.fragmentIndex.toNat ∧ assemble packet assemblies =
        (.error .fragmentIndex, assemblies.insert (packet.assocId, packet.packetId) a)) ∨
    ∃ filled : TuicPacketAssembly, packet.fragmentIndex.toNat < a.fragments.length ∧
      filled = ⟨a.fragments.set packet.fragmentIndex.toNat (some packet.payload), a.address.or packet.address⟩ ∧
      ((filled.fragments.full = false ∧
          assemble packet assemblies = (.ok none, assemblies.insert (packet.assocId,
        packet.packetId) filled)) ∨ (filled.fragments.full = true ∧ assemble packet assemblies =
            (.ok (some (filled.address, filled.fragments.join)),
              assemblies.remove (packet.assocId, packet.packetId)))) := by
  by_cases hindex : a.fragments.length ≤ packet.fragmentIndex.toNat
  · left
    refine ⟨hindex, ?_⟩
    simp only [assemble, ha, TuicPacketAssembly.insert, if_pos hindex]
  · right
    refine ⟨_, Nat.not_le.mp hindex, rfl, ?_⟩
    cases hfull : Slots.full (a.fragments.set packet.fragmentIndex.toNat (some packet.payload)) with
    | false =>
      left
      refine ⟨rfl, ?_⟩
      simp only [assemble, ha, TuicPacketAssembly.insert, if_neg hindex, TuicPacketAssembly.isComplete, hfull, if_true]
    | true =>
      right
      refine ⟨rfl, ?_⟩
      simp only [assemble, ha, TuicPacketAssembly.insert, if_neg hindex, TuicPacketAssembly.isComplete, hfull,
        Bool.true_eq_false, if_false, TuicPacketAssembly.takePayload]

theorem sendPayloadToTarget_ok {env : Outside TuicAddress} {session : TuicUdpSession}
    {assocId : UInt16} {address : TuicAddress} {payload : Bytes} {f : Forward}
    (h : session.sendPayloadToTarget env assocId address payload = .ok (some f)) : f = ⟨assocId, address, payload⟩ := by
  unfold TuicUdpSession.sendPayloadToTarget at h
  split at h
  · cases h
  · cases h
    rfl

end Wrongsv.L2.Tuic
