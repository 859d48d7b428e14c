import Wrongsv.Bugs.ShadowsocksReplayWindow
import Wrongsv.L2Machine.Shadowsocks.UdpServer

/-!
# Shadowsocks 2022: a UDP session forgets too early

A packet is valid while its timestamp differs from the server's clock by at most 30 whole
seconds, almost 61 seconds if it is stamped 30 seconds ahead. The numbers that were accepted
are kept with the entry of the client's session, which is dropped when it was idle for more
than 60 seconds (shadowsocks/lib.rs:203-207). A copy of the session's last packet then opens
a new entry and is accepted.

Fix: keep entries for 61 seconds or more.
-/
namespace Wrongsv.Bugs.ShadowsocksUdpReplay
open L1.VlessHeader L1.Shadowsocks L2.Shadowsocks
open Bugs.ShadowsocksReplayWindow (At validateTimestamp_ok within_replayWindow)

/-- The datagrams are in the order of their moments. -/
structure Timeline (offset : Int) (datagrams : List Datagram) : Prop where
  together : ∀ d ∈ datagrams, At offset d.clock
  ordered : datagrams.Pairwise (fun a b => a.clock.instant ≤ b.clock.instant)

section
variable (p : UdpPrimitives) (config : ServerConfig)

/-- `f` has the ids of `e` and comes while the timestamp of `e` is valid. -/
def Replays (e f : AcceptedPacket) : Prop :=
  e.SameIds f ∧ ∃ timestamp, packetTimestamp p config e.datagram.packet = some timestamp ∧
    validateTimestamp f.datagram.clock.wall timestamp = .ok ()

/-- The ids of `a` are not accepted again while its timestamp is valid. -/
def NotReplayed (a : Datagram) (s : UdpServer) : Prop :=
  s.accepted.Pairwise fun e f => e.datagram = a → ¬ Replays p config e f

/-- There is a moment at which `a` is valid and its entry may have been dropped. -/
def Outlives (offset : Int) (a : Datagram) : Prop :=
  ∃ timestamp clock, packetTimestamp p config a.packet = some timestamp ∧ At offset clock ∧
    a.clock.instant + replayWindow < clock.instant ∧ validateTimestamp clock.wall timestamp = .ok ()

end

section
variable {p : UdpPrimitives} {config : ServerConfig} {offset : Int} {a : Datagram}

/-- Only a packet that is stamped 30 seconds ahead outlives its entry. -/
theorem ahead_of_outlives (hat : At offset a.clock) {timestamp secs : Nat}
    (htimestamp : packetTimestamp p config a.packet = some timestamp) (hsecs : unixTimeSecs a.clock.wall = .ok secs)
    (hvalid : validateTimestamp a.clock.wall timestamp = .ok ()) (h : Outlives p config offset a) :
    timestamp = secs + maxTimeDiffSecs := by
  obtain ⟨timestamp', clock, htimestamp', hclock, hlate, hlater⟩ := h
  cases htimestamp.symm.trans htimestamp'
  obtain ⟨secs', hsecs', -, hle⟩ := validateTimestamp_ok hvalid
  cases hsecs.symm.trans hsecs'
  by_contra hne
  have hwindow := within_replayWindow hat hclock hsecs (by omega) hlater
  omega

theorem notReplayed_of_remembers {datagrams : List Datagram} (htimeline : Timeline offset datagrams) {s : UdpServer}
    {now : Nat} (h : Remembers now s) (hmem : ∀ e ∈ s.accepted, e.datagram ∈ datagrams)
    (hlives : ¬ Outlives p config offset a) : NotReplayed p config a s := by
  refine List.Pairwise.imp_of_mem (fun {e f} _ hf hapart he hreplay => hlives ?_) h.apart
  obtain ⟨hids, timestamp, htimestamp, hvalid⟩ := hreplay
  have hlate := hapart hids
  rw [AcceptedPacket.instant, AcceptedPacket.instant, he] at hlate
  rw [he] at htimestamp
  exact ⟨timestamp, f.datagram.clock, htimestamp, htimeline.together _ (hmem f hf), by omega, hvalid⟩

end

/-! ## Result -/

/-- A server that has just been started. -/
def start (config : ServerConfig) : UdpServer := ⟨config, .empty, [], []⟩

theorem start_remembers (config : ServerConfig) : Remembers 0 (start config) :=
  ⟨fun _ he => absurd he List.not_mem_nil, .nil⟩

theorem start_counted (config : ServerConfig) : Counted (start config) :=
  ⟨.nil, fun _ hr => absurd hr List.not_mem_nil, fun _ _ h => (nomatch h), fun _ _ _ _ h => (nomatch h)⟩

section
variable (p : UdpPrimitives) {config : ServerConfig} {offset : Int} {a : Datagram}

/-- The first copy finds no entry, and the second finds one that is too old. -/
theorem replayed_of_outlives {request : Aead2022UdpRequest} (hat : At offset a.clock)
    (hrequest : decryptAead2022UdpRequest p a.clock.wall config a.packet = .ok request)
    (h : Outlives p config offset a) : ∃ datagrams, Timeline offset datagrams ∧
    ¬ NotReplayed p config a ((start config).run p datagrams) := by
  obtain ⟨timestamp, clock, htimestamp, hclock, hlate, hvalid⟩ := h
  obtain ⟨timestamp', htimestamp', -, hread⟩ := decryptRequest_at hrequest
  cases htimestamp.symm.trans htimestamp'
  have hfirst := handle_fresh (s := start config) hrequest rfl
  have hidle : ((start config).handle p a).sessions.live clock.instant request.clientSessionId = none := by
    simp only [hfirst, UdpSessionCache.live, UdpServer.afterAccept, Table.retain_apply, Table.insert_self]
    grind
  have hconfig := handle_config p (start config) a
  have hsecond := handle_fresh (s := (start config).handle p a) (d := ⟨clock, a.drawn, a.packet⟩)
    (by rw [hconfig]; exact hread clock.wall hvalid) hidle
  refine ⟨[a, ⟨clock, a.drawn, a.packet⟩], ⟨?_, List.pairwise_pair.mpr (by simp only; omega)⟩, fun hnot => ?_⟩
  · simp_all
  · have hrun : (start config).run p [a, ⟨clock, a.drawn, a.packet⟩] =
        ((start config).handle p a).handle p ⟨clock, a.drawn, a.packet⟩ := rfl
    rw [NotReplayed, hrun, hsecond, hfirst] at hnot
    exact List.pairwise_pair.mp hnot rfl ⟨⟨rfl, rfl⟩, timestamp, htimestamp, hvalid⟩

/-- **Replays and responses.** The ids of a request that the server can read are
not accepted again while its timestamp is valid, in every run, if and only if it
does not outlive its entry. In every run the responses are distinct, if the drawn
ids are distinct and no session has more than 2^64 responses. -/
theorem not_replayed_iff (config : ServerConfig) (offset : Int) :
    (∀ a request, At offset a.clock → decryptAead2022UdpRequest p a.clock.wall config a.packet = .ok
      request → ((∀ datagrams, Timeline offset datagrams → NotReplayed p config a
        ((start config).run p datagrams)) ↔ ¬ Outlives p config offset a)) ∧
    ∀ datagrams, Unrepeated ((start config).run p datagrams) → ((start config).run p datagrams).responses.Nodup := by
  refine ⟨fun a request hat hrequest =>
    ⟨fun hall hlives => ?_, fun hlives datagrams htimeline => ?_⟩, fun datagrams hfree => ?_⟩
  · obtain ⟨datagrams, htimeline, hreplayed⟩ := replayed_of_outlives p hat hrequest hlives
    exact hreplayed (hall datagrams htimeline)
  · obtain ⟨now, hrun⟩ := (start_remembers config).run (p := p) datagrams htimeline.ordered (fun _ _ => Nat.zero_le _)
    exact notReplayed_of_remembers htimeline hrun (accepted_run (fun _ hd => hd) (fun _ he => nomatch he)) hlives
  · exact (Counted.run datagrams (fun _ => start_counted config) hfree).nodup

end

/-! ## A packet of second 100 -/

/-- Packet 7 of a session, for 127.0.0.1:80. -/
def pingPacket : Bytes :=
  match encryptAead2022UdpRequest .transparent pingRequest.sent pingRequest.config ⟨List.replicate 8 0x33, rfl⟩ 7
      pingRequest.address 80 [112, 105] with
  | .ok packet => packet
  | .error _ => []

/-- The packet reaches the server when its monotonic clock, which started at
second 70, shows `instant` nanoseconds. -/
def pingAt (instant : Nat) (h : (instant + 70 * nanosPerSec : Int) < 2 ^ 63 * nanosPerSec) (drawn : UInt8) : Datagram where
  clock := ⟨⟨instant + 70 * nanosPerSec, h⟩, instant⟩
  drawn := ⟨List.replicate 8 drawn, rfl⟩
  packet := pingPacket

theorem pingAt_timeline {t t' : Nat} (ht : t ≤ t') {h : (t + 70 * nanosPerSec : Int) < 2 ^ 63 * nanosPerSec}
    {h' : (t' + 70 * nanosPerSec : Int) < 2 ^ 63 * nanosPerSec} {drawn drawn' : UInt8} :
    Timeline (70 * nanosPerSec) [pingAt t h drawn, pingAt t' h' drawn'] := by
  refine ⟨fun d hd => ?_, List.pairwise_pair.mpr ht⟩
  rcases List.mem_pair.mp hd with rfl | rfl <;> rfl

/-- At second 101 the packet cannot outlive an entry, and two copies in a row get
one response. -/
theorem not_replayed_next_second :
    NotReplayed .transparent pingRequest.config (pingAt 31000000000 (by decide) 1)
        ((start pingRequest.config).run .transparent [pingAt 31000000000 (by decide) 1, pingAt 32000000000 (by decide) 2]) ∧
      ((start pingRequest.config).run .transparent
        [pingAt 31000000000 (by decide) 1, pingAt 32000000000 (by decide) 2]).responses.Nodup := by
  have hrequest : ∃ request, decryptAead2022UdpRequest .transparent (pingAt 31000000000 (by decide) 1).clock.wall
      pingRequest.config (pingAt 31000000000 (by decide) 1).packet = .ok request := ⟨_, rfl⟩
  obtain ⟨request, hrequest⟩ := hrequest
  have hat : At (70 * nanosPerSec) (pingAt 31000000000 (by decide) 1).clock := rfl
  obtain ⟨hiff, hnodup⟩ := not_replayed_iff .transparent pingRequest.config (70 * nanosPerSec)
  constructor
  · refine (hiff _ request hat hrequest).mpr (fun hlives => ?_) _ (pingAt_timeline (by decide))
    have hahead : 100 = 101 + maxTimeDiffSecs := ahead_of_outlives hat rfl rfl rfl hlives
    exact absurd hahead (by decide)
  · refine hnodup _ ⟨by decide, fun id => Nat.le_trans List.countP_le_length ?_⟩
    decide

/-- At second 70 exactly the packet of second 100 is valid. Half a second into
second 130 it still is, and its session has been dropped: it is accepted twice. -/
theorem copy_accepted_by_new_session :
    Timeline (70 * nanosPerSec) [pingAt 0 (by decide) 1, pingAt 60500000000 (by decide) 2] ∧
      ¬ NotReplayed .transparent pingRequest.config (pingAt 0 (by decide) 1)
        ((start pingRequest.config).run .transparent [pingAt 0 (by decide) 1, pingAt 60500000000 (by decide) 2]) := by
  refine ⟨pingAt_timeline (by decide), fun hnot => ?_⟩
  obtain ⟨e, f, haccepted, he, hf, hids⟩ : ∃ e f, ((start pingRequest.config).run .transparent
      [pingAt 0 (by decide) 1, pingAt 60500000000 (by decide) 2]).accepted = [e, f] ∧
      e.datagram = pingAt 0 (by decide) 1 ∧ f.datagram = pingAt 60500000000 (by decide) 2 ∧ e.SameIds f := by
    refine ⟨_, _, rfl, rfl, rfl, rfl, rfl⟩
  rw [NotReplayed, haccepted, List.pairwise_pair] at hnot
  exact hnot he ⟨hids, 100, by rw [he]; rfl, by rw [hf]; rfl⟩

end Wrongsv.Bugs.ShadowsocksUdpReplay
