import Wrongsv.L2Machine.Kcp.Session

/-!
# mKCP configuration

`parse_kcp_config` of `handler/kcp.rs` checks the MTU and the transmission
interval and picks the packet mask; the session of a connection is built from
its result. The digest behind the AES key is a parameter.

Capacities are in MiB and become `u32` byte counts, so they have to stay below
4096 (`AcceptedConfig`).
-/
namespace Wrongsv.L2.Kcp

/-- The fields of `[kcp]` that `parse_kcp_config` reads.
server/config.rs:683-708 -/
structure KcpServerConfig where
  seed : Option String
  mtu : Option Nat
  tti : Option UInt32
  uplinkCapacity : Option Nat
  downlinkCapacity : Option Nat
  readBufferSize : Option Nat
  writeBufferSize : Option Nat
  deriving DecidableEq, Repr

inductive KcpPacketMask where
  | original
  | aes128Gcm (key : Bytes)
  deriving DecidableEq, Repr

def mkcpOriginalOverhead : Nat := 6

/-- kcp.rs:108-113 -/
def KcpPacketMask.overhead : KcpPacketMask → Nat
  | .original => mkcpOriginalOverhead
  | .aes128Gcm _ => 16

structure KcpConfig where
  mtu : Nat
  tti : UInt32
  uplinkCapacity : Nat
  downlinkCapacity : Nat
  readBufferSize : Nat
  writeBufferSize : Nat
  packetMask : KcpPacketMask
  deriving DecidableEq, Repr

variable (sha256 : Bytes → Bytes)

def packetMaskOf (seed : Option String) : KcpPacketMask :=
  match seed with
  | some seed => if seed = "" then .original else .aes128Gcm ((sha256 seed.toUTF8.toList).take 16)
  | none => .original

/-- kcp.rs:48-75 -/
def parseKcpConfig (kc : KcpServerConfig) : Except String KcpConfig :=
  let mtu := kc.mtu.getD 1350
  if ¬ (576 ≤ mtu ∧ mtu ≤ 1460) then .error s!"kcp mtu must be in 576..=1460, got {mtu}"
  else
    let tti := kc.tti.getD 50
    if ¬ (10 ≤ tti ∧ tti ≤ 100) then .error s!"kcp tti must be in 10..=100, got {tti}"
    else .ok
      { mtu, tti, uplinkCapacity := kc.uplinkCapacity.getD 5,
        downlinkCapacity := kc.downlinkCapacity.getD 20,
        readBufferSize := kc.readBufferSize.getD (2 * 1024 * 1024),
        writeBufferSize := kc.writeBufferSize.getD (2 * 1024 * 1024),
        packetMask := packetMaskOf sha256 kc.seed }

/-- The session of a connection. -/
def KcpConfig.session (config : KcpConfig) (conv : Nat) : SessionConfig :=
  { conv, mtu := config.mtu, tti := config.tti, uplinkCapacity := config.uplinkCapacity,
    downlinkCapacity := config.downlinkCapacity, writeBufferSize := config.writeBufferSize,
    packetOverhead := config.packetMask.overhead }

/-- A configuration that was accepted, with capacities below 4096 MiB. -/
structure AcceptedConfig where
  source : KcpServerConfig
  config : KcpConfig
  accepted : parseKcpConfig sha256 source = .ok config
  uplink_lt : config.uplinkCapacity < 4096
  downlink_lt : config.downlinkCapacity < 4096

theorem parseKcpConfig_ok {kc : KcpServerConfig} {config : KcpConfig} (h : parseKcpConfig sha256 kc = .ok config) :
    (576 ≤ config.mtu ∧ config.mtu ≤ 1460) ∧ (10 ≤ config.tti ∧ config.tti ≤ 100) := by
  unfold parseKcpConfig at h
  simp only at h
  split at h
  · cases h
  rename_i hm
  split at h
  · cases h
  rename_i ht
  cases h
  exact ⟨Decidable.not_not.mp hm, Decidable.not_not.mp ht⟩

/-- **What an accepted configuration guarantees**: the payload of a segment
is not empty and fits its 16-bit length. -/
theorem session_mss (c : AcceptedConfig sha256) (conv : Nat) :
    let s := XrayKcpSession.new (c.config.session conv)
    1 ≤ s.mss ∧ s.mss < 65536 := by
  obtain ⟨⟨hm1, hm2⟩, -⟩ := parseKcpConfig_ok sha256 c.accepted
  simp only [XrayKcpSession.new, KcpConfig.session, dataSegmentOverhead]
  omega

end Wrongsv.L2.Kcp
