import Wrongsv.L2Machine.Kcp.Run

/-!
# mKCP: a close drops accepted data

`flush` ends a session that was closed locally only when `pending_send_chunks` and
`send_window` are empty (xray_session.rs:258-264), or at a time limit. Two other places
end it without a look at the queues:

* `mark_application_write_closed` (:217-225) behind a peer that has closed its side;
* `handle_option` (:363-371) when the peer's close bit arrives in ReadyToClose.

From then on `flush` sends only terminate commands, and the data still queued is lost: a
server loses the end of its answer when the client has half-closed.

Fix: in both places move to a closing state that keeps sending.
-/
namespace Wrongsv.Bugs.KcpCloseDropsData
open L1.KcpSegment L2.Kcp

/-- **Graceful close.** In every run of a session, whatever ends it with data
to send is a time limit or a terminate command, if and only if the queues are
empty whenever the local side closes behind the peer and whenever a close bit
arrives behind the local close. -/
theorem closes_gracefully_iff (config : SessionConfig) (acts : List Act) :
    (∀ m ∈ (XrayKcpSession.new config).moments acts, m.Ends → m.before.HasQueued → m.Forced) ↔
      ∀ m ∈ (XrayKcpSession.new config).moments acts, m.Races → ¬ m.before.HasQueued := by
  constructor
  · intro h m hm hraces hq
    obtain ⟨hends, hnot⟩ := (m.ends_iff hq).mpr hraces
    exact hnot (h m hm hends hq)
  · intro h m hm hends hq
    by_cases hforced : m.Forced
    · exact hforced
    · exact absurd hq (h m hm ((m.ends_iff hq).mp ⟨hends, hforced⟩))

/-! ## Counterexamples -/

/-- A ping with the close bit. -/
def peerCloses : Bytes := serializeCmd 1 3 1 0 0 100

/-- The peer half-closes, then the local side closes with a byte unsent. -/
def closeBehindPeer : List Act := [.enqueue [7], .receive peerCloses 10, .close 20]

/-- The local side closes with a byte unsent, then the peer half-closes. -/
def peerBehindClose : List Act := [.enqueue [7], .close 10, .receive peerCloses 20]

/-- Both runs end the session with the byte in its queue, and no later flush
sends it: all that leaves is terminate commands. -/
theorem queued_byte_dropped :
    (∀ acts ∈ [closeBehindPeer, peerBehindClose],
      let s := (XrayKcpSession.new .default).run acts
      s.state = .terminating ∧ s.pendingSendChunks = [[7]] ∧
        s.output [.flush 40, .flush 9000, .flush 9100] = [s.cmdPacket 2, s.cmdPacket 2]) ∧
      ∃ m ∈ (XrayKcpSession.new .default).moments closeBehindPeer, m.Ends ∧ m.before.HasQueued ∧ ¬ m.Forced := by
  decide +kernel

end Wrongsv.Bugs.KcpCloseDropsData
