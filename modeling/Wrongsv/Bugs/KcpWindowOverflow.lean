import Wrongsv.L2Machine.Kcp.Config

/-!
# mKCP: window sizes of large capacities wrap

`inflight_size` (server/handler/kcp/xray_session.rs:518-522) turns a capacity in MiB into a
number of segments: `capacity_mib as u32 * 1024 * 1024 / mtu / interval`. From 4096 MiB on
the product overflows: a build with overflow checks panics in `XrayKcpSession::new`, another
one wraps. `parse_kcp_config` (kcp.rs:48-75) takes any capacity.

What should hold: the window is the exact quotient, but at least 8, and more capacity
never means a smaller window.

Fix: compute in `u64`, or refuse such capacities.
-/
namespace Wrongsv.Bugs.KcpWindowOverflow
open L2.Kcp

/-! ## The size over the naturals -/

/-- What `inflight_size` is meant to compute. -/
def exactSize (capacityMib mtu tti : Nat) : Nat := max (capacityMib * 2 ^ 20 / mtu / (1000 / tti)) 8

/-- A product of `capacity_mib as u32 * 1024 * 1024` leaves `u32`; if the first does,
so does the second. -/
def Overflows (capacityMib : Nat) : Prop := 2 ^ 32 ≤ capacityMib % 2 ^ 32 * 1024 * 1024

instance (capacityMib : Nat) : Decidable (Overflows capacityMib) := by unfold Overflows; infer_instance

/-- The values of `mtu` and `tti` that `parse_kcp_config` lets through. -/
structure InRange (mtu : Nat) (tti : UInt32) : Prop where
  mtu_ge : 576 ≤ mtu
  mtu_le : mtu ≤ 1460
  tti_ge : 10 ≤ tti.toNat
  tti_le : tti.toNat ≤ 100

variable {config : KcpConfig}

theorem InRange.of_parse {sha256 : Bytes → Bytes} {kc : KcpServerConfig}
    (h : parseKcpConfig sha256 kc = .ok config) : InRange config.mtu config.tti := by
  obtain ⟨⟨hm1, hm2⟩, ht1, ht2⟩ := parseKcpConfig_ok sha256 h
  exact ⟨hm1, hm2, UInt32.le_iff_toNat_le.mp ht1, UInt32.le_iff_toNat_le.mp ht2⟩

section
variable {mtu : Nat} {tti : UInt32} (r : InRange mtu tti)
include r

theorem InRange.interval : 10 ≤ 1000 / tti.toNat ∧ 1000 / tti.toNat ≤ 100 := by
  have := r.tti_ge
  have := r.tti_le
  constructor
  · rw [Nat.le_div_iff_mul_le] <;> omega
  · rw [Nat.div_le_iff_le_mul_add_pred] <;> omega

/-- **The window is the quotient for the capacity modulo 4096.** -/
theorem inflightSize_toNat (capacityMib : Nat) :
    (inflightSize capacityMib (UInt32.ofNat mtu) tti).toNat = exactSize (capacityMib % 4096) mtu tti.toNat := by
  have hm1 := r.mtu_ge
  have hm2 := r.mtu_le
  have ht1 := r.tti_ge
  obtain ⟨hi1, hi2⟩ := r.interval
  grind [toNat_max, inflightSize, exactSize, UInt32.ofNat, UInt32.toNat_ofNat', UInt32.toNat_div, UInt32.toNat_mul]

theorem InRange.divisor :
    ∃ d, 0 < d ∧ d ≤ 146000 ∧ ∀ c, exactSize c mtu tti.toNat = max (c * 2 ^ 20 / d) 8 := by
  obtain ⟨hi1, hi2⟩ := r.interval
  refine ⟨mtu * (1000 / tti.toNat), ?_, ?_, fun c => ?_⟩
  · exact Nat.mul_pos (by have := r.mtu_ge; omega) (by omega)
  · exact Nat.mul_le_mul r.mtu_le hi2
  · rw [exactSize, Nat.div_div_eq_div_mul]

end

/-- A wrapped size is too small: what is cut off is worth at least 4096 MiB. -/
theorem inflightSize_exact_iff {mtu : Nat} {tti : UInt32} (r : InRange mtu tti) (capacityMib : Nat) :
    (inflightSize capacityMib (UInt32.ofNat mtu) tti).toNat = exactSize capacityMib mtu tti.toNat ↔
      capacityMib < 4096 := by
  rw [inflightSize_toNat r]
  constructor
  · intro h
    by_contra hge
    obtain ⟨d, hd, hsmall, heq⟩ := r.divisor
    rw [heq, heq] at h
    have hcut : capacityMib % 4096 * 2 ^ 20 + d ≤ capacityMib * 2 ^ 20 := by omega
    have hquot : capacityMib % 4096 * 2 ^ 20 / d + 1 ≤ capacityMib * 2 ^ 20 / d := by
      rw [← Nat.add_div_right _ hd]
      exact Nat.div_le_div_right hcut
    have hlarge : 9 ≤ capacityMib * 2 ^ 20 / d := by
      rw [Nat.le_div_iff_mul_le hd]
      omega
    omega
  · intro h
    rw [Nat.mod_eq_of_lt h]

theorem exactSize_mono {c c' mtu tti : Nat} (h : c ≤ c') :
    exactSize c mtu tti ≤ exactSize c' mtu tti := by
  have hbytes : c * 2 ^ 20 ≤ c' * 2 ^ 20 := Nat.mul_le_mul_right _ h
  have hquot : c * 2 ^ 20 / mtu / (1000 / tti) ≤ c' * 2 ^ 20 / mtu / (1000 / tti) :=
    Nat.div_le_div_right (Nat.div_le_div_right hbytes)
  unfold exactSize
  omega

/-! ## The windows of a session -/

/-- The window a session makes of a capacity, as in `new`. -/
def windowOf (config : KcpConfig) (capacityMib : Nat) : UInt32 :=
  inflightSize (max capacityMib 1) (UInt32.ofNat config.mtu) config.tti

/-- The bounds of `new` on the MTU and the interval do nothing after those of the
parser, and neither does the second bound of 8. -/
theorem new_windows (r : InRange config.mtu config.tti) (conv : Nat) :
    (XrayKcpSession.new (config.session conv)).sendInflightSize = windowOf config config.uplinkCapacity ∧
      (XrayKcpSession.new (config.session conv)).recvWindowSize = windowOf config config.downlinkCapacity := by
  have hmtu : max config.mtu (dataSegmentOverhead + 1) = config.mtu := by
    have := r.mtu_ge
    rw [dataSegmentOverhead]
    omega
  grind [inflightSize, toNat_max, XrayKcpSession.new, KcpConfig.session, windowOf, UInt32.toNat_inj]

/-- The sizes are exact and nothing overflows on the way. -/
structure WindowsExact (conv : Nat) (config : KcpConfig) : Prop where
  send_fits : ¬ Overflows (max config.uplinkCapacity 1)
  recv_fits : ¬ Overflows (max config.downlinkCapacity 1)
  send_eq : (XrayKcpSession.new (config.session conv)).sendInflightSize.toNat =
    exactSize (max config.uplinkCapacity 1) config.mtu config.tti.toNat
  recv_eq : (XrayKcpSession.new (config.session conv)).recvWindowSize.toNat =
    exactSize (max config.downlinkCapacity 1) config.mtu config.tti.toNat

/-- No smaller capacities give larger windows. -/
def WindowsGrow (conv : Nat) (config : KcpConfig) : Prop :=
  ∀ up ≤ config.uplinkCapacity, ∀ down ≤ config.downlinkCapacity,
    let less := XrayKcpSession.new
      ({ config with uplinkCapacity := up, downlinkCapacity := down : KcpConfig }.session conv)
    less.sendInflightSize ≤ (XrayKcpSession.new (config.session conv)).sendInflightSize ∧
      less.recvWindowSize ≤ (XrayKcpSession.new (config.session conv)).recvWindowSize

/-- A configuration that was accepted, with any capacities. -/
structure ParsedConfig (sha256 : Bytes → Bytes) where
  source : KcpServerConfig
  config : KcpConfig
  accepted : parseKcpConfig sha256 source = .ok config

theorem windowOf_le (r : InRange config.mtu config.tti) {c c' : Nat} (h : c ≤ c')
    (hlt : c' < 4096) : windowOf config c ≤ windowOf config c' := by
  grind [windowOf, inflightSize_toNat, exactSize_mono, UInt32.le_iff_toNat_le]

/-- **Where the windows are sound**: the sizes of an accepted configuration are exact
and grow with the capacities if and only if both capacities are below 4096 MiB. -/
theorem windows_sound_iff {sha256 : Bytes → Bytes} (c : ParsedConfig sha256) (conv : Nat) :
    WindowsExact conv c.config ∧ WindowsGrow conv c.config ↔
      c.config.uplinkCapacity < 4096 ∧ c.config.downlinkCapacity < 4096 := by
  have r := InRange.of_parse c.accepted
  obtain ⟨hsend, hrecv⟩ := new_windows r conv
  constructor
  · rintro ⟨⟨-, -, hs, hr⟩, -⟩
    rw [hsend, windowOf, inflightSize_exact_iff r] at hs
    rw [hrecv, windowOf, inflightSize_exact_iff r] at hr
    omega
  · rintro ⟨hup, hdown⟩
    refine ⟨⟨?_, ?_, ?_, ?_⟩, fun up hle down hle' => ?_⟩
    · unfold Overflows
      omega
    · unfold Overflows
      omega
    · rw [hsend, windowOf, inflightSize_exact_iff r]
      omega
    · rw [hrecv, windowOf, inflightSize_exact_iff r]
      omega
    · obtain ⟨hless, hless'⟩ :=
        @new_windows { c.config with uplinkCapacity := up, downlinkCapacity := down } r conv
      simp only
      rw [hsend, hrecv, hless, hless']
      exact ⟨windowOf_le r hle hup, windowOf_le r hle' hdown⟩

/-- The defaults, with an uplink capacity. -/
def withUplink (capacityMib : Nat) : ParsedConfig fun _ => [] where
  source :=
    { seed := none, mtu := none, tti := none, uplinkCapacity := some capacityMib,
      downlinkCapacity := none, readBufferSize := none, writeBufferSize := none }
  config := _
  accepted := rfl

/-- **Counterexample**: one MiB more, and the send window falls from 159034 segments to 8. -/
theorem capacity_4096 :
    (XrayKcpSession.new ((withUplink 4095).config.session 0)).sendInflightSize = 159034 ∧
      (XrayKcpSession.new ((withUplink 4096).config.session 0)).sendInflightSize = 8 ∧
      Overflows 4096 ∧ exactSize 4096 1350 50 = 159072 := by
  decide +kernel

end Wrongsv.Bugs.KcpWindowOverflow
