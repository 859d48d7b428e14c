import Wrongsv.Core.LTS
import Wrongsv.L2Machine.Kcp.Config
import Wrongsv.L2Machine.Kcp.Run
import Wrongsv.L3Protocol.Kcp.Link

/-!
# mKCP: two sessions and a network

Two endpoints run `XrayKcpSession` against each other. Each side may hand in
application data, close, flush at any time, and take what has been received;
the network may deliver to a side any packet the other side has ever flushed,
as often and as late as it likes, but nothing else (`Possible`). Losing a
packet is never delivering it.

An endpoint carries its history next to the session: the bytes it accepted,
the payloads it numbered, the bytes taken from it and the packets it flushed.

**Safety** (`reachable_deliversTo`): whatever the run, the bytes taken on one
side are a prefix of those accepted on the other, and a segment only leaves a
send window when the peer has it.
-/
namespace Wrongsv.L3.Kcp
open L1.KcpSegment L2.Kcp SlidingWindow List

structure Endpoint where
  session : XrayKcpSession
  accepted : Bytes
  numbered : List Bytes
  taken : Bytes
  sent : List Bytes
  deriving DecidableEq, Repr

def Endpoint.start (session : XrayKcpSession) : Endpoint := ⟨session, [], [], [], []⟩

/-- An act of the session (`XrayKcpSession.perform`) and what it adds to the history. -/
def Endpoint.perform (e : Endpoint) : Act → Endpoint
  | .enqueue data =>
    { e with session := e.session.enqueueApplicationData data,
             accepted := e.accepted ++ acceptedBy e.session data }
  | .close current => { e with session := e.session.markApplicationWriteClosed current }
  | .flush current =>
    let r := e.session.flush current
    { e with session := r.2, numbered := e.numbered ++ numberedBy e.session r.2, sent := e.sent ++ r.1 }
  | .take =>
    let r := e.session.takeReceived
    { e with session := r.2, taken := e.taken ++ r.1.getD [] }
  | .receive packet current => { e with session := e.session.input packet current }

/-- The network repeats, delays, reorders and loses packets of the peer, and
forges none. -/
def Possible (peer : Endpoint) : Act → Prop
  | .receive packet _ => packet ∈ peer.sent
  | _ => True

instance (peer : Endpoint) (act : Act) : Decidable (Possible peer act) := by
  unfold Possible
  split <;> infer_instance

structure Net where
  left : Endpoint
  right : Endpoint
  deriving DecidableEq, Repr

inductive Side where
  | left
  | right
  deriving DecidableEq, Repr

inductive Net.Step : Net → Side × Act → Net → Prop where
  | left (n : Net) (act : Act) (possible : Possible n.right act) :
      Step n (.left, act) { n with left := n.left.perform act }
  | right (n : Net) (act : Act) (possible : Possible n.left act) :
      Step n (.right, act) { n with right := n.right.perform act }

/-- Two new sessions of one conversation under accepted configurations. -/
def network (sha256 : Bytes → Bytes) (conv : Nat) (cl cr : AcceptedConfig sha256) : LTS Net (Side × Act) where
  init n := n = ⟨.start (.new (cl.config.session conv)), .start (.new (cr.config.session conv))⟩
  step := Net.Step

/-! ## The invariant -/

/-- Both directions are linked, and whatever was flushed is still true. -/
structure Paired (x y : Endpoint) : Prop where
  out : Linked x.session y.session x.numbered x.accepted y.taken
  back : Linked y.session x.session y.numbered y.accepted x.taken
  sent : ∀ p ∈ x.sent, PacketOk (link x.session y.session x.numbered) (link y.session x.session y.numbered) p
  peer_sent : ∀ p ∈ y.sent,
    PacketOk (link y.session x.session y.numbered) (link x.session y.session x.numbered) p

theorem Paired.symm {x y : Endpoint} (h : Paired x y) : Paired y x := ⟨h.back, h.out, h.peer_sent, h.sent⟩

theorem PacketOk.mono {out back out' back' : Link Bytes} {p : Bytes} (h : PacketOk out back p)
    (ho : Steps out out') (hb : Steps back back') : PacketOk out' back' p :=
  fun seg hs => (h seg hs).mono ho hb

/-- An act of `x` that is a run of both links keeps the pair; packets it adds
have to be true. -/
theorem Paired.act {x x' y : Endpoint} (h : Paired x y)
    (out : Linked x'.session y.session x'.numbered x'.accepted y.taken)
    (back : Linked y.session x'.session y.numbered y.accepted x'.taken)
    (ho : Steps (link x.session y.session x.numbered) (link x'.session y.session x'.numbered))
    (hb : Steps (link y.session x.session y.numbered) (link y.session x'.session y.numbered))
    (hs : ∀ p ∈ x'.sent, p ∈ x.sent ∨
      PacketOk (link x'.session y.session x'.numbered) (link y.session x'.session y.numbered) p) :
    Paired x' y := by
  refine ⟨out, back, fun p hp => ?_, fun p hp => (h.peer_sent p hp).mono hb ho⟩
  rcases hs p hp with hp | hp
  · exact (h.sent p hp).mono ho hb
  · exact hp

theorem linked_start (a b : XrayKcpSession) (hw : a.sendWindow = []) (hp : a.pendingSendChunks = [])
    (hn : a.nextSendNumber = 0) (hm : 1 ≤ a.mss ∧ a.mss < 65536) (hr : b.recvNextNumber = 0)
    (hm' : b.recvPackets = []) (hq : b.recvReady = []) (ha : b.pendingAcks = []) :
    Linked a b [] [] [] := by
  have hl : link a b [] = .idle := by
    simp only [link, hw, hr, hm', Link.idle, map_nil]
    congr 1
    funext n
    simp [earlyOf]
  refine ⟨hl ▸ safe_idle, by decide, by rw [hn]; rfl, by simp [hw], by simp [ha], by simp [hp],
    by simp [hq], by simp [hp], hm⟩

variable {sha256 : Bytes → Bytes} {conv : Nat} {cl cr : AcceptedConfig sha256} {n : Net} {x y : Endpoint}

theorem paired_init (h : (network sha256 conv cl cr).init n) : Paired n.left n.right := by
  obtain rfl : n = _ := h
  refine ⟨?_, ?_, by simp [Endpoint.start], by simp [Endpoint.start]⟩
  · exact linked_start _ _ rfl rfl rfl (session_mss sha256 cl conv) rfl rfl rfl rfl
  · exact linked_start _ _ rfl rfl rfl (session_mss sha256 cr conv) rfl rfl rfl rfl

/-- **One act of one side keeps the pair.** -/
theorem Paired.perform (h : Paired x y) (act : Act) (hp : Possible y act)
    (hlt : (x.perform act).numbered.length < 2 ^ 31) : Paired (x.perform act) y := by
  cases act with
  | enqueue data =>
    obtain ⟨hw, hr⟩ := XrayKcpSession.enqueueApplicationData_same x.session data
    exact h.act (h.out.enqueue data) (h.back.same_receiver hr) (.of_eq (link_sender (congrArg _ hw)))
      (.of_eq (link_receiver hr.next hr.packets)) (fun p hp => .inl hp)
  | close current =>
    obtain ⟨hs, hr⟩ := XrayKcpSession.markApplicationWriteClosed_same x.session current
    exact h.act (h.out.same_sender (congrArg _ hs.window) hs.pending hs.next hs.mss)
      (h.back.same_receiver hr) (.of_eq (link_sender (congrArg _ hs.window)))
      (.of_eq (link_receiver hr.next hr.packets)) (fun p hp => .inl hp)
  | flush current =>
    obtain ⟨h1, h2, h3, h4, h5⟩ := flush_linked h.out h.back current hlt
    refine h.act h1 h2 h3 (.of_eq h4) (fun p hp => ?_)
    rcases List.mem_append.mp hp with hp | hp
    · exact .inl hp
    · exact .inr (h5 p hp)
  | take =>
    obtain ⟨hs, hn, hm⟩ := XrayKcpSession.takeReceived_same x.session
    exact h.act (h.out.same_sender (congrArg _ hs.window) hs.pending hs.next hs.mss) h.back.take
      (.of_eq (link_sender (congrArg _ hs.window))) (.of_eq (link_receiver hn hm)) (fun p hp => .inl hp)
  | receive packet current =>
    obtain ⟨h1, h2, h3, h4⟩ := input_linked h.out h.back current (h.peer_sent packet hp)
    exact h.act h1 h2 h3 h4 (fun p hp => .inl hp)

theorem numbered_le_perform (e : Endpoint) (act : Act) : e.numbered.length ≤ (e.perform act).numbered.length := by
  cases act with
  | flush current =>
    show e.numbered.length ≤ (e.numbered ++ _).length
    simp
  | enqueue | close | take | receive => exact Nat.le_refl _

/-- Fewer numbers than the sequence comparisons can tell apart. -/
def Net.Small (n : Net) : Prop := n.left.numbered.length < 2 ^ 31 ∧ n.right.numbered.length < 2 ^ 31

theorem reachable_paired (h : (network sha256 conv cl cr).Reachable n) (hn : n.Small) : Paired n.left n.right := by
  refine h.invariant_within (fun n l n' hstep hs => ?_) (fun n hi => paired_init hi)
    (fun n l n' hstep hs hp => ?_) hn
  · cases hstep with
    | left act => exact ⟨Nat.lt_of_le_of_lt (numbered_le_perform _ act) hs.1, hs.2⟩
    | right act => exact ⟨hs.1, Nat.lt_of_le_of_lt (numbered_le_perform _ act) hs.2⟩
  · cases hstep with
    | left act possible => exact hp.perform act possible hs.1
    | right act possible => exact (hp.symm.perform act possible hs.2).symm

/-! ## Safety -/

/-- The session has the payload of a number: promoted, or stored early. -/
def HasReceived (s : XrayKcpSession) (number : UInt32) : Prop :=
  number < s.recvNextNumber ∨ (s.recvPackets.lookup number).isSome = true

instance (s : XrayKcpSession) (number : UInt32) : Decidable (HasReceived s number) := by
  unfold HasReceived
  infer_instance

/-- What the transport promises for one direction. -/
structure DeliversTo (x y : Endpoint) : Prop where
  /-- in order, nothing lost, nothing twice -/
  in_order : y.taken <+: x.accepted
  /-- a numbered payload is still in the window, under its number, or the peer has it -/
  kept : ∀ (i : Nat) (payload : Bytes), x.numbered[i]? = some payload →
    (∃ seg ∈ x.session.sendWindow, seg.number.toNat = i ∧ seg.payload = payload) ∨
      HasReceived y.session (UInt32.ofNat i)

theorem Linked.deliversTo (h : Linked x.session y.session x.numbered x.accepted y.taken) : DeliversTo x y := by
  refine ⟨?_, fun i payload hi => ?_⟩
  · -- taken, then ready, then the numbers still missing, then what is pending
    have ht : y.taken <+: x.numbered.flatten := by
      refine ⟨y.session.recvReady.flatten ++ (x.numbered.drop y.session.recvNextNumber.toNat).flatten, ?_⟩
      rw [← append_assoc, h.taken_eq, ← flatten_append, take_append_drop]
    rw [h.accepted_eq]
    exact ht.trans (prefix_append _ _)
  · obtain ⟨hlt, -⟩ := List.getElem?_eq_some_iff.mp hi
    have hsmall := h.count_lt
    have hmod : (UInt32.ofNat i).toNat = i := by
      rw [UInt32.toNat_ofNat']
      omega
    rcases h.safe.kept i hlt with hk | hr
    · obtain ⟨seg, hs, rfl⟩ := List.mem_map.mp hk
      have hw : x.numbered[seg.number.toNat]? = some seg.payload := h.window seg hs
      grind
    · right
      rcases hr with hlt' | hs
      · exact .inl (UInt32.lt_iff_toNat_lt.mpr (by rw [hmod]; exact hlt'))
      · right
        have he : earlyOf y.session.recvPackets (UInt32.ofNat i).toNat =
            y.session.recvPackets.lookup (UInt32.ofNat i) := earlyOf_toNat _ _
        rw [hmod] at he
        rw [← he]
        exact hs

/-- **mKCP delivers in order, without loss or duplication**, in both
directions and in every run that numbers fewer than 2^31 segments a side. -/
theorem reachable_deliversTo {sha256 : Bytes → Bytes} {conv : Nat} {cl cr : AcceptedConfig sha256}
    {n : Net} (h : (network sha256 conv cl cr).Reachable n)
    (hn : n.left.numbered.length < 2 ^ 31 ∧ n.right.numbered.length < 2 ^ 31) :
    DeliversTo n.left n.right ∧ DeliversTo n.right n.left := by
  have hp := reachable_paired h hn
  exact ⟨hp.out.deliversTo, hp.back.deliversTo⟩

/-- The configuration of an empty `[kcp]` table. -/
def defaultConfig : AcceptedConfig (fun _ => []) where
  source := ⟨none, none, none, none, none, none, none⟩
  config := ⟨1350, 50, 5, 20, 2 * 1024 * 1024, 2 * 1024 * 1024, .original⟩
  accepted := rfl
  uplink_lt := by decide
  downlink_lt := by decide

/-- Two bytes cross the network, the packet that carries them twice. -/
theorem two_bytes_delivered : ∃ n : Net, (network (fun _ => []) 1 defaultConfig defaultConfig).Reachable n ∧
    n.right.taken = [7, 9] ∧ DeliversTo n.left n.right ∧ DeliversTo n.right n.left := by
  have start : (network (fun _ => []) 1 defaultConfig defaultConfig).Reachable _ := .init rfl
  have sent := (start.step (.left _ (.enqueue [7, 9]) trivial)).step (.left _ (.flush 20) trivial)
  have once := sent.step (.right _ (.receive (serializeData 1 0 20 0 0 [7, 9]) 40) (by decide +kernel))
  have twice := once.step (.right _ (.receive (serializeData 1 0 20 0 0 [7, 9]) 60) (by decide +kernel))
  have taken := twice.step (.right _ .take trivial)
  exact ⟨_, taken, by decide +kernel, reachable_deliversTo taken (by decide +kernel)⟩

end Wrongsv.L3.Kcp
