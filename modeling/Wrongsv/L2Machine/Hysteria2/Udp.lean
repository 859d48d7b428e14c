import Wrongsv.Core.Loop
import Wrongsv.Core.Slots
import Wrongsv.Core.Table
import Wrongsv.L1Encoding.Hysteria2Message
import Wrongsv.L2Machine.UdpSockets

/-!
# Hysteria2: UDP sessions of a connection

The datagrams of a connection are handled by one loop
(server/handler/hysteria2.rs:439-479). It keeps an assembly for each
packet that came in several fragments, and a session with its own sockets for each
session id. An assembly is emptied when its packet is complete, and stays in the
table with its slots. An error of any kind ends the loop.

`assemble_cases`: a fragment does not fit into the assembly of its packet, or fills
a slot of it, or completes it.
-/
namespace Wrongsv.L2.Hysteria2
open L1.Hysteria2 L2.UdpSockets

inductive UdpError where
  | message (e : MessageError)
  | socket (e : SocketError)
  /-- invalid Hysteria2 fragment id -/
  | fragmentId
  deriving DecidableEq, Repr

/-- Whether there is an IPv6 socket. -/
structure Hysteria2UdpSession where
  ipv6 : Bool

structure Hysteria2UdpAssembly where
  fragments : Slots UInt8

abbrev PacketKey := UInt32 × UInt16

structure Hysteria2Udp where
  sessions : Table UInt32 Hysteria2UdpSession
  assemblies : Table PacketKey Hysteria2UdpAssembly

/-- A payload that was sent to a target for a session. -/
structure Forward where
  sessionId : UInt32
  address : String
  payload : Bytes
  deriving DecidableEq, Repr

namespace Hysteria2UdpAssembly

def new (fragmentCount : UInt8) : Hysteria2UdpAssembly := ⟨Slots.new fragmentCount.toNat⟩

/-- hysteria2.rs:581-588 -/
def insert (a : Hysteria2UdpAssembly) (fragmentId : UInt8) (payload : Bytes) :
    Except UdpError Hysteria2UdpAssembly :=
  if a.fragments.length ≤ fragmentId.toNat then .error .fragmentId
  else .ok ⟨a.fragments.set fragmentId.toNat (some payload)⟩

def isComplete (a : Hysteria2UdpAssembly) : Bool := a.fragments.full

/-- Called when all fragments are there; the slots stay.
hysteria2.rs:594-605 -/
def takePayload (a : Hysteria2UdpAssembly) : Bytes × Hysteria2UdpAssembly :=
  (a.fragments.join, ⟨a.fragments.map fun _ => none⟩)

end Hysteria2UdpAssembly

/-- The assemblies after a fragment, and the payload if it is complete. -/
def assemble (m : H2UdpMessage) (assemblies : Table PacketKey Hysteria2UdpAssembly) :
    Except UdpError (Option Bytes) × Table PacketKey Hysteria2UdpAssembly :=
  let key := (m.sessionId, m.packetId)
  let assembly := (assemblies key).getD (.new m.fragmentCount)
  match assembly.insert m.fragmentId m.payload with
  | .error e => (.error e, assemblies.insert key assembly)
  | .ok assembly =>
    if assembly.isComplete = false then (.ok none, assemblies.insert key assembly)
    else (.ok (some assembly.takePayload.1), assemblies.insert key assembly.takePayload.2)

/-- The payload of a message goes out through the session. -/
def forward (env : Outside String) (m : H2UdpMessage) (payload : Bytes) (sessions : Table UInt32 Hysteria2UdpSession) :
    Except UdpError (Option Forward) × Table UInt32 Hysteria2UdpSession :=
  match (sessions m.sessionId).or (env.bind.map Hysteria2UdpSession.mk) with
  | none => (.error (.socket .bind), sessions)
  | some session =>
    (match sendPayload env session.ipv6 m.address with
      | .error e => .error (.socket e)
      | .ok () => .ok (some ⟨m.sessionId, m.address, payload⟩),
      sessions.insert m.sessionId session)

/-- One message of the loop. -/
def Hysteria2Udp.message (env : Outside String) (m : H2UdpMessage) (s : Hysteria2Udp) :
    Except UdpError (Option Forward) × Hysteria2Udp :=
  if m.fragmentCount ≤ 1 then
    let forwarded := forward env m m.payload s.sessions
    (forwarded.1, { s with sessions := forwarded.2 })
  else
    match assemble m s.assemblies with
    | (.error e, assemblies) => (.error e, { s with assemblies })
    | (.ok none, assemblies) => (.ok none, { s with assemblies })
    | (.ok (some payload), assemblies) =>
      let forwarded := forward env m payload s.sessions
      (forwarded.1, ⟨forwarded.2, assemblies⟩)

/-- One datagram of the loop; an error ends it. -/
def Hysteria2Udp.datagram (input : Outside String × Bytes) (s : Hysteria2Udp) :
    Except UdpError (Option Forward) × Hysteria2Udp :=
  match parseHysteria2UdpMessage input.2 with
  | .error e => (.error (.message e), s)
  | .ok m => s.message input.1 m

/-! ## What a fragment does -/

/-- **One fragment.** Its index is not one of the assembly; or it fills a slot; or it
fills the last one, and all slots are empty again. -/
theorem assemble_cases (m : H2UdpMessage) (assemblies : Table PacketKey Hysteria2UdpAssembly)
    {a : Hysteria2UdpAssembly} (ha : (assemblies (m.sessionId, m.packetId)).getD (.new m.fragmentCount) = a) :
    (a.fragments.length ≤ m.fragmentId.toNat ∧
      assemble m assemblies = (.error .fragmentId, assemblies.insert (m.sessionId, m.packetId) a)) ∨
    (m.fragmentId.toNat < a.fragments.length ∧
      Slots.full (a.fragments.set m.fragmentId.toNat (some m.payload)) = false ∧
      assemble m assemblies = (.ok none,
        assemblies.insert (m.sessionId, m.packetId) ⟨a.fragments.set m.fragmentId.toNat (some m.payload)⟩)) ∨
    (m.fragmentId.toNat < a.fragments.length ∧
      Slots.full (a.fragments.set m.fragmentId.toNat (some m.payload)) = true ∧
      assemble m assemblies = (.ok (some (Slots.join (a.fragments.set m.fragmentId.toNat (some m.payload)))),
        assemblies.insert (m.sessionId, m.packetId) ⟨Slots.new a.fragments.length⟩)) := by
  by_cases hindex : a.fragments.length ≤ m.fragmentId.toNat
  · left
    refine ⟨hindex, ?_⟩
    simp only [assemble, ha, Hysteria2UdpAssembly.insert, if_pos hindex]
  · right
    cases hfull : Slots.full (a.fragments.set m.fragmentId.toNat (some m.payload)) with
    | false =>
      refine .inl ⟨Nat.not_le.mp hindex, rfl, ?_⟩
      simp only [assemble, ha, Hysteria2UdpAssembly.insert, if_neg hindex,
        Hysteria2UdpAssembly.isComplete, hfull, if_true]
    | true =>
      refine .inr ⟨Nat.not_le.mp hindex, rfl, ?_⟩
      simp only [assemble, ha, Hysteria2UdpAssembly.insert, if_neg hindex, Hysteria2UdpAssembly.isComplete, hfull,
        Bool.true_eq_false, if_false, Hysteria2UdpAssembly.takePayload, List.map_const', List.length_set, Slots.new]

theorem assemble_local (m : H2UdpMessage) : Table.Local (assemble m) (m.sessionId, m.packetId) where
  sees {t t'} h := by
    unfold assemble
    simp only [h]
    split
    · simp
    · split <;> simp
  frame t j hj := by
    rcases assemble_cases m t rfl with ⟨-, heq⟩ | ⟨-, -, heq⟩ | ⟨-, -, heq⟩ <;> rw [heq] <;>
      exact Table.insert_of_ne _ hj _

end Wrongsv.L2.Hysteria2
