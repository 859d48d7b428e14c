import Wrongsv.L2Machine.Kcp.Run

/-!
# mKCP: the retransmission timer is read the wrong way round

`flush_send_window` (server/handler/kcp/xray_session.rs:432-472) skips a segment of the
window that was sent before if

  current.wrapping_sub(seg.timeout) < 0x7fff_ffff

which says that its deadline *has* been reached. So a segment whose timer is running is
sent again by every flush, and one whose timer has expired not for the next 2^31
milliseconds. It should be sent again if and only if its deadline has been reached.

The loop is described by its passes: the segments it reaches before the limit, and
whether it sent them (`go_eq_passes`).

Fix: `>= 0x7fff_ffff` in the condition.
-/
namespace Wrongsv.Bugs.KcpTimerPolarity
open L2.Kcp

/-! ## The passes of the loop -/

/-- A segment as the loop finds it, and whether it is sent. -/
structure Pass where
  seg : SendingSegment
  sent : Bool
  deriving DecidableEq, Repr

/-- `saturating_add(1)` -/
def bump (n : UInt32) : UInt32 := if n = 0xffffffff then n else n + 1

/-- The segments the loop reaches while fewer than `cwnd` have been sent. -/
def passes (current cwnd : UInt32) : UInt32 → List SendingSegment → List Pass
  | _, [] => []
  | inFlight, seg :: rest =>
    if cwnd ≤ inFlight then []
    else if 0 < seg.transmit ∧ current - seg.timeout < 0x7fffffff then
      ⟨seg, false⟩ :: passes current cwnd inFlight rest
    else ⟨seg, true⟩ :: passes current cwnd (bump inFlight) rest

/-- What a pass leaves in the window; `rto` is the timeout of the moment. -/
def Pass.after (current rto : UInt32) (pass : Pass) : SendingSegment :=
  if pass.sent then { pass.seg with timeout := current + rto, transmit := bump pass.seg.transmit } else pass.seg

/-- **The loop is its passes**: it sends the segments that they send, and changes
the timers of these. -/
theorem go_eq_passes (s : XrayKcpSession) (current cwnd : UInt32) (window : List SendingSegment) :
    ∀ inFlight, XrayKcpSession.flushSendWindow.go s current cwnd inFlight window =
      (((passes current cwnd inFlight window).filter (·.sent)).map (fun pass => s.dataPacket current pass.seg),
        (passes current cwnd inFlight window).map (Pass.after current s.roundTrip.timeout) ++
          window.drop (passes current cwnd inFlight window).length) := by
  induction window with
  | nil => intro inFlight; rfl
  | cons seg window ih =>
    intro inFlight
    rw [XrayKcpSession.flushSendWindow.go, passes]
    split
    · rfl
    split
    · simp only [ih inFlight]
      rfl
    · have hnext := ih (bump inFlight)
      rw [bump] at hnext
      simp only [hnext]
      rfl

/-- The passes of `flush`; a session that ends sends no segments. -/
def flushPasses (s : XrayKcpSession) (current : UInt32) : List Pass :=
  if s.state = .terminated ∨ (s.filled current).state = .terminating then []
  else passes current (s.filled current).sendLimit 0 (s.filled current).sendWindow

/-- The packets of `flush` in terms of its passes: behind the acknowledgements, and
in front of a ping. -/
theorem flush_packets (s : XrayKcpSession) (current : UInt32) (hopen : s.state ≠ .terminated)
    (hrun : (s.filled current).state ≠ .terminating) :
    ∃ acks pings, (s.flush current).1 = acks ++
      ((flushPasses s current).filter (·.sent)).map (fun pass => (s.filled current).dataPacket current pass.seg) ++
        pings := by
  have hloop := go_eq_passes (s.filled current).flushPendingAcks.2 current (s.filled current).sendLimit
    (s.filled current).sendWindow 0
  unfold flushPasses XrayKcpSession.flush
  rw [if_neg hopen, if_neg (not_or.mpr ⟨hopen, hrun⟩)]
  simp only [hrun, if_false]
  refine ⟨(s.filled current).flushPendingAcks.1,
    if 3000 ≤ current - (((s.filled current).flushPendingAcks.2).flushSendWindow current).2.lastPing then
      [(((s.filled current).flushPendingAcks.2).flushSendWindow current).2.cmdPacket 3] else [], ?_⟩
  have hdata : (((s.filled current).flushPendingAcks.2).flushSendWindow current).1 =
      ((passes current (s.filled current).sendLimit 0 (s.filled current).sendWindow).filter (·.sent)).map
        (fun pass => (s.filled current).dataPacket current pass.seg) := congrArg Prod.fst hloop
  rw [← hdata]
  unfold XrayKcpSession.flushOutput
  simp only
  split
  · rfl
  · rw [List.append_nil]

/-! ## Timers -/

/-- The deadline of a segment has been reached, in wrap-around order. -/
def Expired (current : UInt32) (seg : SendingSegment) : Prop := current - seg.timeout < 0x7fffffff

instance (current : UInt32) (seg : SendingSegment) : Decidable (Expired current seg) := by
  unfold Expired; infer_instance

/-- What the timers should do in one flush. -/
structure TimersKept (current : UInt32) (reached : List Pass) : Prop where
  again : ∀ pass ∈ reached, 0 < pass.seg.transmit → (pass.sent = true ↔ Expired current pass.seg)
  first : ∀ pass ∈ reached, pass.seg.transmit = 0 → pass.sent = true

/-- **What they do**: a segment is sent if it is new, or if its deadline has *not*
been reached. -/
theorem sent_iff {current cwnd : UInt32} (window : List SendingSegment) : ∀ {inFlight : UInt32}
    {pass : Pass}, pass ∈ passes current cwnd inFlight window →
      (pass.sent = true ↔ pass.seg.transmit = 0 ∨ ¬ Expired current pass.seg) := by
  induction window with
  | nil => intro inFlight pass h; cases h
  | cons seg window ih =>
    intro inFlight pass h
    rw [passes] at h
    split at h
    · cases h
    split at h
    · rename_i hskip
      rcases List.mem_cons.mp h with rfl | h
      · have hne : seg.transmit ≠ 0 := fun h0 => by simp [h0] at hskip
        simp [hne, Expired, hskip.2]
      · exact ih h
    · rename_i hsend
      rcases List.mem_cons.mp h with rfl | h
      · simp only [true_iff]
        by_cases h0 : seg.transmit = 0
        · exact .inl h0
        · exact .inr fun hexp => hsend ⟨UInt32.pos_iff_ne_zero.mpr h0, hexp⟩
      · exact ih h

theorem mem_flushPasses {s : XrayKcpSession} {current : UInt32} {pass : Pass} (h : pass ∈ flushPasses s current) :
    pass.sent = true ↔ pass.seg.transmit = 0 ∨ ¬ Expired current pass.seg := by
  unfold flushPasses at h
  split at h
  · cases h
  · exact sent_iff _ h

/-- **The timers are kept exactly where they are not consulted.** For every session
that can be reached and every time of a flush: it sends again exactly the segments
whose deadline has been reached, and all new ones, if and only if it reaches no
segment that was sent before. -/
theorem timers_kept_iff (config : SessionConfig) (acts : List Act) (current : UInt32) :
    let reached := flushPasses ((XrayKcpSession.new config).run acts) current
    TimersKept current reached ↔ ∀ pass ∈ reached, pass.seg.transmit = 0 := by
  constructor
  · rintro ⟨hagain, -⟩ pass hpass
    by_contra h0
    have hkept := hagain pass hpass (UInt32.pos_iff_ne_zero.mpr h0)
    have hdoes := mem_flushPasses hpass
    by_cases hexp : Expired current pass.seg
    · have := hdoes.mp (hkept.mpr hexp)
      exact this.elim h0 (absurd hexp)
    · exact hexp (hkept.mp (hdoes.mpr (.inr hexp)))
  · intro hnew
    refine ⟨fun pass hpass hpos => ?_, fun pass hpass h0 => (mem_flushPasses hpass).mpr (.inl h0)⟩
    exact absurd (hnew pass hpass) (UInt32.pos_iff_ne_zero.mp hpos)

/-- The numbers of the segments that a flush sends behind the acts. -/
def numbersSent (acts : List Act) (current : UInt32) : List UInt32 :=
  ((flushPasses ((XrayKcpSession.new .default).run acts) current).filter (·.sent)).map (·.seg.number)

/-- **Counterexample**: segment 0 is sent at 0 with a timeout of 100 and lost. It is
sent again at 10 and at 50, before its deadlines; after the deadline of 150 no flush
sends it any more. -/
theorem resent_early_lost_late : numbersSent [.enqueue [7]] 0 = [0] ∧
      numbersSent [.enqueue [7], .flush 0] 10 = [0] ∧
      numbersSent [.enqueue [7], .flush 0, .flush 10] 50 = [0] ∧
      numbersSent [.enqueue [7], .flush 0, .flush 10, .flush 50] 150 = [] ∧
      numbersSent [.enqueue [7], .flush 0, .flush 10, .flush 50, .flush 150] 5000 = [] := by
  decide +kernel

end Wrongsv.Bugs.KcpTimerPolarity
