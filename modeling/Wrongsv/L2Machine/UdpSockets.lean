/-!
# The sockets of a UDP session

The UDP sessions of TUIC and Hysteria2 send what they are given through an IPv4
socket, and an IPv6 socket if there is one. What the operating system answers comes
from outside, for each packet that is handled.
-/
namespace Wrongsv.L2.UdpSockets

/-- `bind`: no IPv4 socket can be had, or whether there is an IPv6 one as well;
`resolve`: no answer, or whether the target has an IPv4 address; `send`: whether the
payload can be sent. -/
structure Outside (α : Type) where
  bind : Option Bool
  resolve : α → Option Bool
  send : Bool

inductive SocketError where
  | bind
  | resolve
  /-- IPv6 UDP socket unavailable -/
  | ipv6Unavailable
  | send
  deriving DecidableEq, Repr

variable {α : Type}

/-- server/handler/tuic.rs:115-124 and
server/handler/hysteria2.rs:526-539 -/
def sendPayload (env : Outside α) (ipv6 : Bool) (address : α) : Except SocketError Unit :=
  match env.resolve address with
  | none => .error .resolve
  | some ipv4 =>
    if ipv4 = false ∧ ipv6 = false then .error .ipv6Unavailable
    else if env.send = false then .error .send
    else .ok ()

/-- Nothing goes wrong outside. -/
structure Outside.Willing (env : Outside α) : Prop where
  bind : env.bind = some true
  resolve : ∀ address, (env.resolve address).isSome = true
  send : env.send = true

theorem sendPayload_willing {env : Outside α} (h : env.Willing) (address : α) :
    sendPayload env true address = .ok () := by
  obtain ⟨ipv4, hresolve⟩ := Option.isSome_iff_exists.mp (h.resolve address)
  simp [sendPayload, hresolve, h.send]

end Wrongsv.L2.UdpSockets
