import Wrongsv.L2Machine.Kcp.Session

/-!
# mKCP: the range of the round-trip times

`update` computes with `u32` and checks a sample only against 2^31
(server/handler/kcp/xray_session.rs:62-84); that nothing overflows is due to `process_ack_segment`
(:319-343), which drops samples of 10 s and more.

Results: `RttBounds.update`, `roundTrip_bounded`.
-/
namespace Wrongsv.L2.Kcp
open Wrongsv.L1.KcpSegment

/-- The times of a session, whatever the rest of it is when a segment comes. -/
inductive RttRun (tti : UInt32) : RoundTripInfo → Prop where
  | new : RttRun tti (.new tti)
  | ack (s : XrayKcpSession) (seg : AckSegment) (current : UInt32) :
      RttRun tti s.roundTrip → RttRun tti (s.processAckSegment seg current).roundTrip
  | cmd (s : XrayKcpSession) (seg : CmdSegment) (current : UInt32) :
      RttRun tti s.roundTrip → RttRun tti (s.processCmdSegment seg current).roundTrip

/-- The sums and products that `update` computes, with nothing cut off. -/
def RoundTripInfo.values (r : RoundTripInfo) (rtt : UInt32) : List Nat :=
  let delta := (absDiff rtt r.srtt).toNat
  let r' := r.smooth rtt
  let rto := if r'.minRtt.toNat < 4 * r'.variation.toNat then r'.srtt.toNat + 4 * r'.variation.toNat
    else r'.srtt.toNat + r'.variation.toNat
  (if r.srtt = 0 then [] else
    [3 * r.variation.toNat, 3 * r.variation.toNat + delta, 7 * r.srtt.toNat, 7 * r.srtt.toNat + rtt.toNat]) ++
  [4 * r'.variation.toNat, rto, min rto maxRto.toNat * 5]

structure RttBounds (tti : UInt32) (r : RoundTripInfo) : Prop where
  minRtt : r.minRtt = tti
  srtt : r.srtt.toNat < 10000 + tti.toNat
  variation : r.variation.toNat < 10000 + tti.toNat

variable {tti : UInt32} {r : RoundTripInfo} {rtt : UInt32}

theorem absDiff_lt {a b : UInt32} {n : Nat} (ha : a.toNat < n) (hb : b.toNat < n) :
    (absDiff a b).toNat < n := by
  unfold absDiff
  split
  · rename_i h
    rw [UInt32.toNat_sub_of_le _ _ h]
    omega
  · rename_i h
    rw [UInt32.toNat_sub_of_le _ _ (UInt32.le_of_lt (UInt32.not_le.mp h))]
    omega

section
variable (htti : tti.toNat ≤ 100) (hrtt : rtt.toNat < 10000) (h : RttBounds tti r)
include htti hrtt h

theorem RttBounds.smooth : RttBounds tti (r.smooth rtt) := by
  have hs := h.srtt
  have hv := h.variation
  have hd := absDiff_lt (show rtt.toNat < 10000 + tti.toNat by omega) hs
  unfold RoundTripInfo.smooth
  split
  · refine ⟨h.minRtt, by simp only; omega, ?_⟩
    simp [UInt32.toNat_div]
    omega
  · refine ⟨h.minRtt, ?_, ?_⟩
    · simp only
      split
      · rw [h.minRtt]; omega
      · simp (disch := omega) [UInt32.toNat_div, UInt32.toNat_add, UInt32.toNat_mul, Nat.mod_eq_of_lt]
        omega
    · simp (disch := omega) [UInt32.toNat_div, UInt32.toNat_add, UInt32.toNat_mul, Nat.mod_eq_of_lt]
      omega

theorem values_lt : ∀ n ∈ r.values rtt, n < 2 ^ 32 := by
  have hs := h.srtt
  have hv := h.variation
  have hd := absDiff_lt (show rtt.toNat < 10000 + tti.toNat by omega) hs
  have h' := h.smooth htti hrtt
  have hs' := h'.srtt
  have hv' := h'.variation
  have hmax : maxRto.toNat = 10000 := rfl
  intro n hn
  unfold RoundTripInfo.values at hn
  rcases List.mem_append.mp hn with hn | hn
  · split at hn
    · cases hn
    · simp only [List.mem_cons, List.not_mem_nil, or_false] at hn
      omega
  · simp only [List.mem_cons, List.not_mem_nil, or_false] at hn
    split at hn <;> omega

/-- **After an update** the timeout is bounded. -/
theorem RttBounds.update (current : UInt32) :
    RttBounds tti (r.update rtt current) ∧ (r.update rtt current).timeout.toNat ≤ 12500 := by
  have h' := h.smooth htti hrtt
  have hcap (rto : UInt32) : ((if maxRto < rto then maxRto else rto) * 5 / 4).toNat ≤ 12500 := by
    have hle : (if maxRto < rto then maxRto else rto).toNat ≤ 10000 := by
      split
      · decide
      · exact UInt32.not_lt.mp ‹_›
    generalize (if maxRto < rto then maxRto else rto) = capped at hle ⊢
    have hfive : (5 : UInt32).toNat = 5 := rfl
    have hfour : (4 : UInt32).toNat = 4 := rfl
    rw [UInt32.toNat_div, UInt32.toNat_mul, hfive, hfour, Nat.mod_eq_of_lt (by omega)]
    omega
  unfold RoundTripInfo.update RoundTripInfo.timeout
  rw [if_neg (by simp [UInt32.lt_iff_toNat_lt]; omega)]
  refine ⟨⟨h'.minRtt, h'.srtt, h'.variation⟩, ?_⟩
  have hmin : (r.smooth rtt).minRtt.toNat ≤ 12500 := by
    rw [h'.minRtt]
    omega
  simp only [toNat_max]
  exact Nat.max_le.mpr ⟨Nat.max_le.mpr ⟨hcap _, hmin⟩, hmin⟩

end

/-! ## Segments -/

namespace XrayKcpSession

variable (s : XrayKcpSession) (current : UInt32)

theorem handleOption_roundTrip (option : UInt8) :
    (s.handleOption option current).roundTrip = s.roundTrip := by
  unfold handleOption
  split
  · split <;> rfl
  · rfl

theorem handleCommand_roundTrip (cmd : UInt8) :
    (s.handleCommand cmd current).roundTrip = s.roundTrip := by
  unfold handleCommand
  split
  · split <;> rfl
  · rfl

theorem removeSentNumbers_roundTrip (numbers : List UInt32) : ∀ (removed : Bool)
    (s : XrayKcpSession), (removeSentNumbers numbers removed s).2.roundTrip = s.roundTrip := by
  induction numbers with
  | nil => intro removed s; rfl
  | cons number numbers ih =>
    intro removed s
    simp only [removeSentNumbers, ih, removeSentNumber]
    split <;> rfl

/-- An ACK changes the times by a sample below 10 s, or not at all. -/
theorem processAckSegment_roundTrip (seg : AckSegment) :
    (s.processAckSegment seg current).roundTrip = s.roundTrip ∨ ((current - seg.timestamp).toNat < 10000 ∧
      (s.processAckSegment seg current).roundTrip = s.roundTrip.update (current - seg.timestamp) current) := by
  have hoption := handleOption_roundTrip s current seg.option
  unfold processAckSegment
  simp only
  generalize hs₀ : (if _ < seg.receivingWindow then _ else _ : XrayKcpSession) = s₀
  have hkept : (removeSentNumbers seg.numbers false (s₀.removeSentBefore seg.receivingNext)).2.roundTrip =
      s.roundTrip := by
    rw [removeSentNumbers_roundTrip]
    subst hs₀
    show (ite _ _ _ : XrayKcpSession).roundTrip = _
    split <;> exact hoption
  split
  · rename_i hsample
    exact .inr ⟨hsample.2, congrArg (fun r => r.update (current - seg.timestamp) current) hkept⟩
  · exact .inl hkept

end XrayKcpSession

/-! ## Result -/

theorem RttRun.bounds (htti : tti.toNat ≤ 100) (h : RttRun tti r) : RttBounds tti r := by
  induction h with
  | new =>
    have hpos : 0 < 10000 + tti.toNat := by omega
    exact ⟨rfl, hpos, hpos⟩
  | ack s seg current _ ih =>
    rcases s.processAckSegment_roundTrip current seg with heq | ⟨hrtt, heq⟩ <;> rw [heq]
    · exact ih
    · exact (ih.update htti hrtt current).1
  | cmd s seg current _ ih =>
    have hkept := ((s.handleOption seg.option current).handleCommand_roundTrip current seg.cmd).trans
      (s.handleOption_roundTrip current seg.option)
    show RttBounds tti (((s.handleOption seg.option current).handleCommand seg.cmd current).roundTrip.updatePeerRto _ _)
    rw [hkept]
    unfold RoundTripInfo.updatePeerRto
    split
    · exact ih
    · exact ⟨ih.minRtt, ih.srtt, ih.variation⟩

/-- **The times stay in range.** In every run, whatever the peer and the clock say. -/
theorem roundTrip_bounded (tti : UInt32) (htti : 10 ≤ tti ∧ tti ≤ 100) {r : RoundTripInfo} (h : RttRun tti r) :
    r.srtt.toNat < 10000 + tti.toNat ∧ r.variation.toNat < 10000 + tti.toNat ∧ tti.toNat ≤ r.timeout.toNat ∧
    ∀ (s : XrayKcpSession) (seg : AckSegment) (current : UInt32), s.roundTrip = r →
      (s.processAckSegment seg current).roundTrip = r ∨
        ((s.processAckSegment seg current).roundTrip = r.update (current - seg.timestamp) current ∧
          (∀ n ∈ r.values (current - seg.timestamp), n < 2 ^ 32) ∧
          (s.processAckSegment seg current).roundTrip.timeout.toNat ≤ 12500) := by
  have hle : tti.toNat ≤ 100 := UInt32.le_iff_toNat_le.mp htti.2
  have hin := h.bounds hle
  refine ⟨hin.srtt, hin.variation, ?_, fun s seg current hs => ?_⟩
  · rw [RoundTripInfo.timeout, toNat_max, hin.minRtt]
    exact Nat.le_max_right ..
  · subst hs
    rcases s.processAckSegment_roundTrip current seg with heq | ⟨hrtt, heq⟩
    · exact .inl heq
    · exact .inr ⟨heq, values_lt hle hrtt hin, heq ▸ (hin.update hle hrtt current).2⟩

/-- A byte is acknowledged after 60 ms, and then the peer asks for a timeout of 40 s. -/
theorem roundTrip_bounded_after_ack : ∃ r : RoundTripInfo, RttRun 50 r ∧ r.srtt = 60 ∧ r.timeout =
    40000 ∧ r.srtt.toNat < 10000 + 50 ∧ r.variation.toNat < 10000 + 50 ∧ 50 ≤ r.timeout.toNat := by
  let sent := (XrayKcpSession.new .default).enqueueApplicationData [7]
  let acked := (sent.flush 0).2.processAckSegment ⟨0, 32, 0, 0, [0]⟩ 60
  have hsent : (sent.flush 0).2.roundTrip = .new 50 := by decide
  have hrun : RttRun 50 (acked.processCmdSegment ⟨3, 0, 1, 40000⟩ 9000).roundTrip :=
    .cmd acked _ _ (.ack _ _ _ (hsent ▸ .new))
  obtain ⟨hsrtt, hvariation, htimeout, -⟩ := roundTrip_bounded 50 (by decide) hrun
  exact ⟨_, hrun, by decide, by decide, hsrtt, hvariation, htimeout⟩

end Wrongsv.L2.Kcp
