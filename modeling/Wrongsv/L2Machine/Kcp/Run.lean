import Wrongsv.L2Machine.Kcp.Session

/-!
# mKCP: runs of one session

`run_kcp_update_loop` and the relay threads drive a session through six
functions, in any order and at any wrapping `u32` time. A `Moment` is a call
that may move the session between its states; an incoming packet is one
moment for every segment in it.

`Moment.ends_iff` is the whole story about a session that ends (Terminating
or Terminated) while it still has data to send.
-/
namespace Wrongsv.L2.Kcp
open L1.KcpSegment

/-- What the application and the network do to a session. -/
inductive Act where
  | enqueue (data : Bytes)
  | close (current : UInt32)
  | flush (current : UInt32)
  | take
  | receive (packet : Bytes) (current : UInt32)
  deriving DecidableEq, Repr

namespace XrayKcpSession

def perform (s : XrayKcpSession) : Act → XrayKcpSession
  | .enqueue data => s.enqueueApplicationData data
  | .close current => s.markApplicationWriteClosed current
  | .flush current => (s.flush current).2
  | .take => s.takeReceived.2
  | .receive packet current => s.input packet current

def run (s : XrayKcpSession) (acts : List Act) : XrayKcpSession := acts.foldl perform s

/-- The packets of all flushes of a run. -/
def output (s : XrayKcpSession) : List Act → List Bytes
  | [] => []
  | act :: acts =>
    (match act with
      | .flush current => (s.flush current).1
      | _ => []) ++ (s.perform act).output acts

/-- The session has ended: it sends terminate commands and then nothing. -/
def Ended (s : XrayKcpSession) : Prop := s.state = .terminating ∨ s.state = .terminated

/-- Accepted data that has not been acknowledged. -/
def HasQueued (s : XrayKcpSession) : Prop := s.pendingSendChunks ≠ [] ∨ s.sendWindow ≠ []

instance (s : XrayKcpSession) : Decidable s.Ended := by unfold Ended; infer_instance

instance (s : XrayKcpSession) : Decidable s.HasQueued := by unfold HasQueued; infer_instance

end XrayKcpSession

/-! ## Moments -/

inductive Cause where
  | closed
  | segment (seg : Segment)
  | flush
  deriving DecidableEq, Repr

structure Moment where
  cause : Cause
  current : UInt32
  before : XrayKcpSession
  deriving DecidableEq, Repr

def Moment.after (m : Moment) : XrayKcpSession :=
  match m.cause with
  | .closed => m.before.markApplicationWriteClosed m.current
  | .segment seg => m.before.processSegment seg m.current
  | .flush => (m.before.flush m.current).2

namespace XrayKcpSession

def segmentMoments (current : UInt32) : XrayKcpSession → List Segment → List Moment
  | _, [] => []
  | s, seg :: segs => ⟨.segment seg, current, s⟩ :: segmentMoments current (s.processSegment seg current) segs

def momentsOf (s : XrayKcpSession) : Act → List Moment
  | .enqueue _ | .take => []
  | .close current => [⟨.closed, current, s⟩]
  | .flush current => [⟨.flush, current, s⟩]
  | .receive packet current => segmentMoments current { s with lastIncoming := current } (readSegments packet)

/-- Every call of a run that may move the session between states. -/
def moments (s : XrayKcpSession) : List Act → List Moment
  | [] => []
  | act :: acts => s.momentsOf act ++ (s.perform act).moments acts

end XrayKcpSession

/-- The session moves to Terminating or to Terminated. -/
def Moment.Ends (m : Moment) : Prop := m.after.state ≠ m.before.state ∧ m.after.Ended

/-- One of the time limits of `flush` has passed. -/
def TimedOut (s : XrayKcpSession) (current : UInt32) : Prop :=
  (s.state = .peerTerminating ∧ 4000 < current - s.stateBegin) ∨
    (s.state = .readyToClose ∧ 15000 < current - s.stateBegin) ∨
    (s.state = .terminating ∧ 8000 < current - s.stateBegin)

/-- A terminate command. -/
def IsTerminate : Segment → Prop
  | .cmd seg => seg.cmd = 2
  | _ => False

/-- Ending a session although it has data to send is meant to happen on a
time limit or because the peer terminates. -/
def Moment.Forced (m : Moment) : Prop :=
  match m.cause with
  | .closed => False
  | .segment seg => IsTerminate seg
  | .flush => TimedOut m.before m.current

instance (m : Moment) : Decidable m.Ends := by unfold Moment.Ends; infer_instance

instance (s : XrayKcpSession) (current : UInt32) : Decidable (TimedOut s current) := by
  unfold TimedOut; infer_instance

instance (seg : Segment) : Decidable (IsTerminate seg) := by unfold IsTerminate; split <;> infer_instance

instance (m : Moment) : Decidable m.Forced := by unfold Moment.Forced; split <;> infer_instance

/-- The two calls that end a session without a look at its queues: the local
side closes behind the peer, or the peer's close bit arrives behind the
local close. -/
def Moment.Races (m : Moment) : Prop :=
  match m.cause with
  | .closed => m.before.state = .peerClosed ∨ m.before.state = .peerTerminating
  | .segment seg => m.before.state = .readyToClose ∧ seg.option &&& 1 ≠ 0 ∧ ¬ IsTerminate seg
  | .flush => False

namespace XrayKcpSession

/-! ## States -/

section
variable (s : XrayKcpSession) (current : UInt32)

theorem promoteReceived_go_state (fuel : Nat) : ∀ (s : XrayKcpSession),
    (promoteReceived.go fuel s).state = s.state := by
  induction fuel with
  | zero => intro s; rfl
  | succ fuel ih =>
    intro s
    simp only [promoteReceived.go]
    split
    · rfl
    · rw [ih]
      rfl

theorem processDataSegment_state (seg : DataSegment) :
    (s.processDataSegment seg current).state = (s.handleOption seg.option current).state := by
  unfold processDataSegment
  simp only
  split
  · rfl
  · exact promoteReceived_go_state _ _

theorem removeSentNumbers_state (numbers : List UInt32) : ∀ (removed : Bool) (s : XrayKcpSession),
    (removeSentNumbers numbers removed s).2.state = s.state := by
  induction numbers with
  | nil => intro removed s; rfl
  | cons number numbers ih =>
    intro removed s
    simp only [removeSentNumbers, ih]
    unfold removeSentNumber
    split <;> rfl

theorem processAckSegment_state (seg : AckSegment) :
    (s.processAckSegment seg current).state = (s.handleOption seg.option current).state := by
  obtain ⟨next, rtt, heq⟩ := processAckSegment_eq s seg current
  rw [heq]
  exact removeSentNumbers_state seg.numbers false _

theorem processSegment_state (seg : Segment) :
    (s.processSegment seg current).state =
      (match seg with
        | .cmd c => (s.handleOption c.option current).handleCommand c.cmd current
        | seg => s.handleOption seg.option current).state := by
  cases seg with
  | data seg => exact processDataSegment_state s current seg
  | ack seg => exact processAckSegment_state s current seg
  | cmd seg => rfl

/-- A close bit only ends a session whose own side has been closed. -/
theorem handleOption_ends (option : UInt8) :
    ((s.handleOption option current).state ≠ s.state ∧ (s.handleOption option current).Ended) ↔
      s.state = .readyToClose ∧ option &&& 1 ≠ 0 := by
  unfold handleOption
  by_cases hbit : option &&& 1 ≠ 0
  all_goals grind [setState, Ended]

theorem markApplicationWriteClosed_ends :
    ((s.markApplicationWriteClosed current).state ≠ s.state ∧ (s.markApplicationWriteClosed current).Ended) ↔
      s.state = .peerClosed ∨ s.state = .peerTerminating := by
  unfold markApplicationWriteClosed
  cases hs : s.state <;> simp [setState, Ended]

/-- With data to send, the state moves of `flush` are its time limits and the
idle close. -/
theorem flushState_queued (hq : s.HasQueued) : s.flushState current =
      if s.state = .active ∧ 30000 ≤ current - s.lastIncoming then s.markApplicationWriteClosed current
      else if (s.state = .peerTerminating ∧ 4000 < current - s.stateBegin) ∨
        (s.state = .readyToClose ∧ 15000 < current - s.stateBegin) then s.setState .terminating current
      else s := by
  have hnot : ¬ (s.pendingSendChunks = [] ∧ s.sendWindow = []) := fun ⟨hp, hw⟩ => by
    rcases hq with hq | hq
    · exact hq hp
    · exact hq hw
  unfold flushState
  by_cases hidle : s.state = .active ∧ 30000 ≤ current - s.lastIncoming
  · -- the idle close starts the clock of its state anew
    grind [markApplicationWriteClosed, setState]
  all_goals grind [setState]

theorem fillSendWindow_state :
    s.fillSendWindow.state = s.state ∧ s.fillSendWindow.stateBegin = s.stateBegin := by
  have h : ∀ (fuel : Nat) (s : XrayKcpSession), (fillSendWindow.go fuel s).state = s.state ∧
      (fillSendWindow.go fuel s).stateBegin = s.stateBegin := by
    intro fuel
    induction fuel with
    | zero => intro s; exact ⟨rfl, rfl⟩
    | succ fuel ih =>
      intro s
      simp only [fillSendWindow.go]
      split
      · split
        · exact ⟨rfl, rfl⟩
        · exact ih _
      · exact ⟨rfl, rfl⟩
  exact h _ s

theorem flushOutput_state : (s.flushOutput current).2.state = s.state := by
  unfold flushOutput
  simp only
  split <;> rfl

/-- Behind the moves of `flushState`, only a session that has been terminating
for eight seconds changes its state. -/
theorem flush_state (h : s.state ≠ .terminated) : (s.flush current).2.state =
      if (s.flushState current).state = .terminating ∧ 8000 < current - (s.flushState current).stateBegin
      then .terminated else (s.flushState current).state := by
  obtain ⟨h1, h2⟩ := fillSendWindow_state (s.flushState current)
  unfold flush filled
  rw [if_neg h]
  simp only [h1]
  by_cases ht : (s.flushState current).state = .terminating
  · rw [if_pos ht]
    simp only [ht, true_and, h2]
    split <;> rfl
  · grind [flushOutput_state]

theorem flush_ends (hq : s.HasQueued)
    (h : (s.flush current).2.state ≠ s.state ∧ (s.flush current).2.Ended) : TimedOut s current := by
  obtain ⟨hne, hend⟩ := h
  by_cases hterm : s.state = .terminated
  · exact absurd (by unfold flush; rw [if_pos hterm]) hne
  unfold Ended at hend
  rw [flush_state s current hterm] at hne hend
  have hf := flushState_queued s current hq
  by_cases hidle : s.state = .active ∧ 30000 ≤ current - s.lastIncoming
  · have hs : (s.flushState current).state = .readyToClose := by
      rw [hf, if_pos hidle, markApplicationWriteClosed]
      simp only [hidle.1]
      rfl
    simp [hs] at hend
  · rw [if_neg hidle] at hf
    by_cases hlimit : (s.state = .peerTerminating ∧ 4000 < current - s.stateBegin) ∨
        (s.state = .readyToClose ∧ 15000 < current - s.stateBegin)
    · rcases hlimit with hl | hl
      · exact .inl hl
      · exact .inr (.inl hl)
    · rw [if_neg hlimit] at hf
      rw [hf] at hne
      by_cases hlast : s.state = .terminating ∧ 8000 < current - s.stateBegin
      · exact .inr (.inr hlast)
      · rw [if_neg hlast] at hne
        exact absurd rfl hne

end

end XrayKcpSession

/-- A segment other than a terminate command moves the state by its option
byte alone. -/
theorem processSegment_state_option (s : XrayKcpSession) (current : UInt32) (seg : Segment)
    (h : ¬ IsTerminate seg) :
    (s.processSegment seg current).state = (s.handleOption seg.option current).state := by
  rw [XrayKcpSession.processSegment_state]
  cases seg with
  | data | ack => rfl
  | cmd seg =>
    have hc : seg.cmd ≠ 2 := h
    simp only [XrayKcpSession.handleCommand, if_neg hc]
    rfl

/-- **Ending with data to send**, when it is not forced, is one of the two
calls that do not look at the queues. -/
theorem Moment.ends_iff (m : Moment) (hq : m.before.HasQueued) : m.Ends ∧ ¬ m.Forced ↔ m.Races := by
  obtain ⟨cause, current, s⟩ := m
  cases cause with
  | closed =>
    have h := XrayKcpSession.markApplicationWriteClosed_ends s current
    exact ⟨fun hm => h.mp hm.1, fun hr => ⟨h.mpr hr, id⟩⟩
  | flush => exact ⟨fun hm => hm.2 (XrayKcpSession.flush_ends s current hq hm.1), False.elim⟩
  | segment seg =>
    have h := XrayKcpSession.handleOption_ends s current seg.option
    constructor
    · rintro ⟨hends, hn⟩
      unfold Ends XrayKcpSession.Ended after at hends
      simp only [processSegment_state_option s current seg hn] at hends
      exact ⟨(h.mp hends).1, (h.mp hends).2, hn⟩
    · rintro ⟨hs, hbit, hn⟩
      refine ⟨?_, hn⟩
      unfold Ends XrayKcpSession.Ended after
      simp only [processSegment_state_option s current seg hn]
      exact h.mpr ⟨hs, hbit⟩

/-! ## After the end -/

namespace XrayKcpSession

section
variable {s : XrayKcpSession} (h : s.Ended)
include h

theorem processSegment_ended (seg : Segment) (current : UInt32) :
    (s.processSegment seg current).Ended := by
  have ho : ∀ option, s.handleOption option current = s := by
    unfold handleOption
    rcases h with h | h <;> simp [h]
  have hstate := processSegment_state s current seg
  unfold Ended
  rw [hstate]
  cases seg with
  | data seg => simp only [ho]; exact h
  | ack seg => simp only [ho]; exact h
  | cmd seg =>
    simp only [ho, handleCommand]
    rcases h with h | h
    · split <;> simp [h, setState]
    · split <;> simp [h]

theorem flush_ended (current : UInt32) : (s.flush current).2.Ended ∧
    ∀ p ∈ (s.flush current).1, ∀ seg ∈ readSegments p, ∃ c, seg = .cmd c := by
  by_cases hterm : s.state = .terminated
  · have he : s.flush current = ([], s) := by
      unfold flush
      rw [if_pos hterm]
    rw [he]
    exact ⟨h, by simp⟩
  · have hs : s.state = .terminating := h.resolve_right hterm
    have hsame : s.flushState current = s := by simp [flushState, hs]
    have hf : (s.filled current).state = .terminating := by
      unfold filled
      rw [hsame, (fillSendWindow_state s).1, hs]
    refine ⟨?_, ?_⟩
    · unfold Ended
      rw [flush_state s current hterm, hsame]
      split
      · exact .inr rfl
      · exact .inl hs
    · unfold flush
      rw [if_neg hterm]
      simp only [hf, if_true]
      intro p hp seg hseg
      rw [List.mem_singleton.mp hp, cmdPacket,
        readSegments_single (readSegment_serializeCmd _ _ _ (by decide) (by decide) _ _ _)] at hseg
      exact ⟨_, List.mem_singleton.mp hseg⟩

theorem perform_ended (act : Act) : (s.perform act).Ended := by
  cases act with
  | enqueue data =>
    simp only [perform, enqueueApplicationData]
    split <;> exact h
  | close current =>
    simp only [perform, markApplicationWriteClosed]
    rcases h with h | h <;> simp [h, Ended]
  | flush current => exact (flush_ended h current).1
  | take =>
    simp only [perform, takeReceived]
    split <;> exact h
  | receive packet current =>
    have hgo : ∀ (segs : List Segment) (s : XrayKcpSession), s.Ended →
        (segs.foldl (fun s seg => s.processSegment seg current) s).Ended := by
      intro segs
      induction segs with
      | nil => intro s h; exact h
      | cons seg segs ih => intro s h; exact ih _ (processSegment_ended h seg current)
    exact hgo _ _ h

end

/-- **Nothing queued leaves a session that has ended**, whatever happens
afterwards: all it ever sends is commands. -/
theorem output_ended (acts : List Act) : ∀ {s : XrayKcpSession}, s.Ended →
    ∀ p ∈ s.output acts, ∀ seg ∈ readSegments p, ∃ c, seg = .cmd c := by
  induction acts with
  | nil => intro s _ p hp; cases hp
  | cons act acts ih =>
    intro s h p hp
    rcases List.mem_append.mp hp with hp | hp
    · cases act with
      | flush current => exact (flush_ended h current).2 p hp
      | enqueue | close | take | receive => cases hp
    · exact ih (perform_ended h act) p hp

/-- Both sides close a session that has a byte unacknowledged, one queued and one to acknowledge;
it is then given more to send. -/
theorem output_ended_flush : ∃ s : XrayKcpSession, s.Ended ∧
    s.sendWindow ≠ [] ∧ s.pendingSendChunks ≠ [] ∧ s.pendingAcks ≠ [] ∧
    ∀ p ∈ s.output [.enqueue [9], .flush 40, .receive (serializeData 1 0 0 1 0 [6]) 50,
        .enqueue [9], .flush 9000],
      ∀ seg ∈ readSegments p, ∃ c, seg = .cmd c :=
  let closed := (new .default).run [.enqueue [7], .flush 0, .enqueue [8],
    .receive (serializeData 1 0 0 0 0 [5]) 10, .receive (serializeCmd 1 3 1 0 0 100) 20, .close 30]
  have hended : closed.Ended := by decide
  ⟨closed, hended, by decide, by decide, by decide, output_ended _ hended⟩

end XrayKcpSession

end Wrongsv.L2.Kcp
