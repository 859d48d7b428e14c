import Wrongsv.L2Machine.Shadowsocks.Udp

/-!
# Shadowsocks 2022: UDP packets on one configuration

All packets of a server go through the session cache of its configuration. A run
is a list of datagrams, each with the clocks at its moment and the random bytes
that are used if it opens a session. A `UdpServer` also lists the packets it has
accepted and the session ids it has drawn.

`handle_cases`: a packet is accepted if it can be opened, its timestamp is valid
and its number is new to the entry of its session.

Results: `Remembers.run`, `Counted.run`.
-/
namespace Wrongsv.L2.Shadowsocks
open L1.VlessHeader L1.Shadowsocks List

structure Datagram where
  clock : Clock
  drawn : SessionId
  packet : Bytes

structure AcceptedPacket where
  datagram : Datagram
  clientSessionId : SessionId
  packetId : UInt64
  response : Aead2022UdpResponseContext

namespace AcceptedPacket

def instant (e : AcceptedPacket) : Nat := e.datagram.clock.instant

def SameIds (e f : AcceptedPacket) : Prop :=
  e.clientSessionId = f.clientSessionId ∧ e.packetId = f.packetId

end AcceptedPacket

structure UdpServer where
  config : ServerConfig
  sessions : UdpSessionCache
  accepted : List AcceptedPacket
  generated : List SessionId

namespace UdpServer

def responses (s : UdpServer) : List Aead2022UdpResponseContext := s.accepted.map (·.response)

/-- How many responses a session of the server has. -/
def responsesOf (s : UdpServer) (id : SessionId) : Nat :=
  s.responses.countP (·.serverSessionId = id)

section
variable (p : UdpPrimitives)

/-- server/handler/shadowsocks.rs:101-109 -/
def handle (s : UdpServer) (d : Datagram) : UdpServer :=
  match decryptAead2022UdpRequest p d.clock.wall s.config d.packet with
  | .error _ => s
  | .ok request =>
    let generated :=
      match s.sessions.live d.clock.instant request.clientSessionId with
      | some _ => s.generated
      | none => s.generated ++ [d.drawn]
    match acceptAead2022UdpPacket s.config.method d.clock.instant d.drawn request.clientSessionId request.packetId
        s.sessions with
    | (.error _, sessions) => ⟨s.config, sessions, s.accepted, generated⟩
    | (.ok response, sessions) =>
      ⟨s.config, sessions, s.accepted ++ [⟨d, request.clientSessionId, request.packetId, response⟩], generated⟩

def run (s : UdpServer) (datagrams : List Datagram) : UdpServer := datagrams.foldl (handle p) s

end

end UdpServer

/-! ## When a request is read -/

variable {p : UdpPrimitives} {s : UdpServer} {d : Datagram} {request : Aead2022UdpRequest}

section
variable {config : ServerConfig} {packet : Bytes} {now : SystemTime}

/-- The timestamp of a packet that can be opened. -/
def packetTimestamp (p : UdpPrimitives) (config : ServerConfig) (packet : Bytes) : Option Nat :=
  (decryptAead2022UdpPacket p config packet).toOption.map fun opened => bodyTimestamp opened.2

theorem parseUdpRequestBody_at {body : Bytes} {parsed : Address × Nat × Bytes}
    (h : parseUdpRequestBody now body = .ok parsed) :
    validateTimestamp now (bodyTimestamp body) = .ok () ∧
      ∀ later, validateTimestamp later (bodyTimestamp body) = .ok () →
        parseUdpRequestBody later body = .ok parsed := by
  grind [parseUdpRequestBody]

/-- **The clock decides only whether the timestamp is valid.** A request that is
read at one moment is read in the same way at every moment at which its timestamp
is valid. -/
theorem decryptRequest_at (h : decryptAead2022UdpRequest p now config packet = .ok request) :
    ∃ timestamp, packetTimestamp p config packet = some timestamp ∧ validateTimestamp now timestamp = .ok () ∧
      ∀ later, validateTimestamp later timestamp = .ok () →
        decryptAead2022UdpRequest p later config packet = .ok request := by
  unfold decryptAead2022UdpRequest packetTimestamp at *
  cases hpacket : decryptAead2022UdpPacket p config packet with
  | error e => simp [hpacket, bind, Except.bind] at h
  | ok opened =>
    obtain ⟨header, body⟩ := opened
    cases hparsed : parseUdpRequestBody now body with
    | error e => simp [hpacket, hparsed, bind, Except.bind, Except.mapError] at h
    | ok parsed =>
      obtain ⟨hvalid, hlater⟩ := parseUdpRequestBody_at hparsed
      refine ⟨bodyTimestamp body, rfl, hvalid, fun later hl => ?_⟩
      rw [← h]
      simp only [hpacket, hparsed, hlater later hl, bind, Except.bind]

theorem decryptRequest_method (h : decryptAead2022UdpRequest p now config packet = .ok request) :
    config.method.isAead2022 = true := by
  by_contra hm
  rw [Bool.not_eq_true] at hm
  unfold decryptAead2022UdpRequest decryptAead2022UdpPacket at h
  rw [if_pos hm] at h
  cases h

end

/-! ## What a datagram does -/

/-- The entry that a request finds, or that is made for it. -/
def Entry (s : UdpServer) (d : Datagram) (clientSessionId : SessionId)
    (session : Aead2022UdpSession) (generated : List SessionId) : Prop :=
  (s.sessions.live d.clock.instant clientSessionId = some session ∧ generated = s.generated) ∨
  (s.sessions.live d.clock.instant clientSessionId = none ∧ session =
    ⟨d.clock.instant, d.drawn, 0, .new⟩ ∧ generated = s.generated ++ [d.drawn])

/-- The server after it has accepted a request at an entry. -/
def UdpServer.afterAccept (s : UdpServer) (d : Datagram) (request : Aead2022UdpRequest) (session : Aead2022UdpSession)
    (window : ReplayWindow 128) (generated : List SessionId) : UdpServer where
  config := s.config
  sessions := (s.sessions.live d.clock.instant).insert request.clientSessionId
    ⟨d.clock.instant, session.serverSessionId, session.nextServerPacketId + 1, window⟩
  accepted := s.accepted ++
    [⟨d, request.clientSessionId, request.packetId, ⟨session.serverSessionId, session.nextServerPacketId⟩⟩]
  generated := generated

theorem handle_fresh (hrequest : decryptAead2022UdpRequest p d.clock.wall s.config d.packet = .ok request)
    (hlive : s.sessions.live d.clock.instant request.clientSessionId = none) :
    s.handle p d = s.afterAccept d request ⟨d.clock.instant, d.drawn, 0, .new⟩ ⟨request.packetId.toNat, 1#128, true⟩
      (s.generated ++ [d.drawn]) := by
  have hm : ¬ s.config.method.isAead2022 = false := ne_false_of_eq_true (decryptRequest_method hrequest)
  simp only [UdpServer.handle, hrequest, hlive, acceptAead2022UdpPacket, if_neg hm, UdpSessionCache.entry,
    Option.getD_none, ReplayWindow.check, ReplayWindow.new, if_true, UdpServer.afterAccept]

/-- **One datagram.** It is not a request and changes nothing; or its number is
refused by an entry, and only idle entries go; or it is accepted. -/
theorem handle_cases (p : UdpPrimitives) (s : UdpServer) (d : Datagram) :
    s.handle p d = s ∨
    ∃ request, decryptAead2022UdpRequest p d.clock.wall s.config d.packet = .ok request ∧
      ((∃ session, s.sessions.live d.clock.instant request.clientSessionId = some session ∧
          session.replayWindow.Refuses request.packetId.toNat ∧
          s.handle p d = { s with sessions := s.sessions.live d.clock.instant }) ∨
        ∃ session window generated, Entry s d request.clientSessionId session generated ∧
          session.replayWindow.check request.packetId.toNat = some window ∧
          s.handle p d = s.afterAccept d request session window generated) := by
  cases hrequest : decryptAead2022UdpRequest p d.clock.wall s.config d.packet with
  | error e =>
    left
    simp only [UdpServer.handle, hrequest]
  | ok request =>
    right
    refine ⟨request, rfl, ?_⟩
    have hm : ¬ s.config.method.isAead2022 = false := ne_false_of_eq_true (decryptRequest_method hrequest)
    cases hlive : s.sessions.live d.clock.instant request.clientSessionId with
    | none =>
      right
      exact ⟨_, _, _, .inr ⟨hlive, rfl, rfl⟩, rfl, handle_fresh hrequest hlive⟩
    | some session =>
      cases hcheck : session.replayWindow.check request.packetId.toNat with
      | none =>
        left
        refine ⟨session, rfl, (ReplayWindow.check_eq_none_iff _ _).mp hcheck, ?_⟩
        have hsame : (s.sessions.live d.clock.instant).insert request.clientSessionId session =
            s.sessions.live d.clock.instant := by
          rw [Table.insert, ← hlive]
          exact Function.update_eq_self ..
        simp only [UdpServer.handle, hrequest, hlive, acceptAead2022UdpPacket, if_neg hm,
          UdpSessionCache.entry, Option.getD_some, hcheck, hsame]
      | some window =>
        right
        refine ⟨session, window, _, .inl ⟨hlive, rfl⟩, hcheck, ?_⟩
        simp only [UdpServer.handle, hrequest, hlive, acceptAead2022UdpPacket, if_neg hm,
          UdpSessionCache.entry, Option.getD_some, hcheck, UdpServer.afterAccept]

theorem handle_config (p : UdpPrimitives) (s : UdpServer) (d : Datagram) :
    (s.handle p d).config = s.config := by
  rcases handle_cases p s d with h | ⟨request, -, ⟨session, -, -, h⟩ | ⟨session, window, generated, -, -, h⟩⟩ <;>
    simp [h, UdpServer.afterAccept]

theorem live_some {cache : UdpSessionCache} {now : Nat} {id : SessionId} {session : Aead2022UdpSession}
    (h : cache.live now id = some session) : cache id = some session :=
  (Option.filter_eq_some_iff.mp h).1

/-! ## Replays -/

/-- What is known of an accepted packet when the clock has reached `now`. -/
def Known (now : Nat) (sessions : UdpSessionCache) (e : AcceptedPacket) : Prop :=
  e.instant ≤ now ∧ (now - e.instant ≤ replayWindow →
    ∃ session, sessions e.clientSessionId = some session ∧ e.instant ≤ session.lastSeen ∧
      session.replayWindow.Refuses e.packetId.toNat)

/-- Two packets that are not accepted within one window. -/
def Apart (e f : AcceptedPacket) : Prop := e.SameIds f → replayWindow < f.instant - e.instant

structure Remembers (now : Nat) (s : UdpServer) : Prop where
  known : ∀ e ∈ s.accepted, Known now s.sessions e
  apart : s.accepted.Pairwise Apart

section
variable {now : Nat}

theorem Known.live {later : Nat} {sessions : UdpSessionCache} {e : AcceptedPacket}
    (h : Known now sessions e) (hle : now ≤ later) : Known later (sessions.live later) e := by
  refine ⟨Nat.le_trans h.1 hle, fun hwindow => ?_⟩
  obtain ⟨session, hsession, hseen, hrefuses⟩ := h.2 (by omega)
  refine ⟨session, ?_, hseen, hrefuses⟩
  rw [UdpSessionCache.live, Table.retain_apply, hsession]
  grind

/-- An entry that accepts a number keeps refusing those of its session. -/
theorem Known.insert {sessions : UdpSessionCache} {e : AcceptedPacket} {id : SessionId}
    {old : Aead2022UdpSession} {window : ReplayWindow 128} {number : Nat} (h : Known now sessions e)
    (hold : ∀ session, sessions id = some session → session = old) (hcheck : old.replayWindow.check number = some window) :
    Known now (sessions.insert id ⟨now, old.serverSessionId, old.nextServerPacketId + 1, window⟩) e := by
  refine ⟨h.1, fun hwindow => ?_⟩
  obtain ⟨session, hsession, hseen, hrefuses⟩ := h.2 hwindow
  by_cases hid : e.clientSessionId = id
  · rw [hid] at hsession ⊢
    rw [hold session hsession] at hrefuses
    exact ⟨_, Table.insert_self .., h.1, hrefuses.check hcheck⟩
  · exact ⟨session, by rw [Table.insert_of_ne _ hid, hsession], hseen, hrefuses⟩

theorem Remembers.mono (h : Remembers now s) {later : Nat} (hle : now ≤ later) :
    Remembers later s := by
  refine ⟨fun e he => ?_, h.apart⟩
  obtain ⟨hpast, hknown⟩ := h.known e he
  exact ⟨Nat.le_trans hpast hle, fun hwindow => hknown (by omega)⟩

/-- **The step.** -/
theorem Remembers.handle (h : Remembers now s) (hle : now ≤ d.clock.instant) :
    Remembers d.clock.instant (s.handle p d) := by
  have hlive : ∀ e ∈ s.accepted, Known d.clock.instant (s.sessions.live d.clock.instant) e :=
    fun e he => (h.known e he).live hle
  rcases handle_cases p s d with hsame | ⟨request, -, ⟨_, -, -, hrefused⟩ | ⟨old, window, generated, hentry, hcheck, hacc⟩⟩
  · rw [hsame]
    exact h.mono hle
  · rw [hrefused]
    exact ⟨hlive, h.apart⟩
  · rw [hacc]
    have hold : ∀ session, s.sessions.live d.clock.instant request.clientSessionId = some session → session = old := by
      rcases hentry with ⟨hfound, -⟩ | ⟨hnone, -⟩
      all_goals simp_all
    constructor
    · intro e he
      rcases List.mem_append.mp he with he | he
      · exact (hlive e he).insert hold hcheck
      · rw [List.mem_singleton.mp he]
        exact ⟨Nat.le_refl _, fun _ => ⟨_, Table.insert_self .., Nat.le_refl _,
          ReplayWindow.refuses_of_check (by decide) hcheck⟩⟩
    · refine List.pairwise_append.mpr ⟨h.apart, pairwise_singleton _ _, fun e he f hf hids => ?_⟩
      rw [List.mem_singleton.mp hf] at hids ⊢
      -- within the window the entry would have refused the number
      by_contra hwindow
      obtain ⟨session, hsession, -, hrefuses⟩ := (hlive e he).2 (Nat.not_lt.mp hwindow)
      rw [hids.1] at hsession
      rw [hids.2, hold session hsession, ← ReplayWindow.check_eq_none_iff, hcheck] at hrefuses
      cases hrefuses

/-- **Whole runs.** -/
theorem Remembers.run (datagrams : List Datagram) : ∀ {now : Nat} {s : UdpServer}, Remembers now s →
      datagrams.Pairwise (fun a b => a.clock.instant ≤ b.clock.instant) →
      (∀ d ∈ datagrams, now ≤ d.clock.instant) → ∃ later, Remembers later (s.run p datagrams) := by
  induction datagrams with
  | nil =>
    intro now s h _ _
    exact ⟨now, h⟩
  | cons d datagrams ih =>
    intro now s h hordered hnow
    obtain ⟨hfirst, hrest⟩ := List.pairwise_cons.mp hordered
    exact ih (h.handle (hnow d mem_cons_self)) hrest hfirst

theorem accepted_run {datagrams all : List Datagram} {s : UdpServer} (hsub : ∀ d ∈ datagrams, d ∈ all)
    (h : ∀ e ∈ s.accepted, e.datagram ∈ all) : ∀ e ∈ (s.run p datagrams).accepted, e.datagram ∈ all := by
  induction datagrams generalizing s with
  | nil => exact h
  | cons d datagrams ih =>
    refine ih (fun d' hd' => hsub d' (mem_cons_of_mem _ hd')) (fun e he => ?_)
    rcases handle_cases p s d with hs | ⟨request, -, ⟨_, -, -, hs⟩ | ⟨old, window, generated, -, -, hs⟩⟩ <;>
      rw [hs] at he
    · exact h e he
    · exact h e he
    · rcases List.mem_append.mp he with he | he
      all_goals simp_all

end

/-! ## Responses -/

/-- The invariant of the response numbers. Nothing is claimed once an id was drawn
twice or a counter has gone round. -/
structure Counted (s : UdpServer) : Prop where
  nodup : s.responses.Nodup
  below : ∀ r ∈ s.responses, r.serverSessionId ∈ s.generated ∧ r.packetId.toNat < s.responsesOf r.serverSessionId
  next : ∀ id session, s.sessions id = some session → session.serverSessionId ∈ s.generated ∧
    session.nextServerPacketId = UInt64.ofNat (s.responsesOf session.serverSessionId)
  own : ∀ id id' session session', s.sessions id = some session → s.sessions id' = some session' →
    session.serverSessionId = session'.serverSessionId → id = id'

/-- The ids drawn so far are distinct, and no counter has gone round. -/
structure Unrepeated (s : UdpServer) : Prop where
  generated : s.generated.Nodup
  counts : ∀ id, s.responsesOf id ≤ 2 ^ 64

variable {session : Aead2022UdpSession} {window : ReplayWindow 128} {generated : List SessionId}

theorem responses_afterAccept : (s.afterAccept d request session window generated).responses =
    s.responses ++ [⟨session.serverSessionId, session.nextServerPacketId⟩] := by
  simp [UdpServer.responses, UdpServer.afterAccept]

theorem responsesOf_afterAccept (id : SessionId) :
    (s.afterAccept d request session window generated).responsesOf id =
    s.responsesOf id + if session.serverSessionId = id then 1 else 0 := by
  simp [UdpServer.responsesOf, responses_afterAccept, countP_append, countP_singleton]

theorem Unrepeated.of_handle (h : Unrepeated (s.handle p d)) : Unrepeated s := by
  rcases handle_cases p s d with hs | ⟨request, -, ⟨_, -, -, hs⟩ | ⟨old, window, generated, hentry, -, hs⟩⟩ <;>
    rw [hs] at h
  · exact h
  · exact ⟨h.generated, h.counts⟩
  · constructor
    · have hnodup : generated.Nodup := h.generated
      rcases hentry with ⟨-, rfl⟩ | ⟨-, -, rfl⟩
      all_goals grind
    · intro id
      have hcount := h.counts id
      rw [responsesOf_afterAccept] at hcount
      omega

theorem Counted.live (h : Counted s) (now : Nat) :
    Counted { s with sessions := s.sessions.live now } :=
  ⟨h.nodup, h.below, fun id session hs => h.next id session (live_some hs),
    fun id id' session session' hs hs' => h.own id id' session session' (live_some hs) (live_some hs')⟩

/-- What the invariant says of the entry at which a request is accepted. -/
theorem Counted.entry (h : Counted s) {clientSessionId : SessionId}
    (hentry : Entry s d clientSessionId session generated) (hnodup : generated.Nodup) :
    session.serverSessionId ∈ generated ∧
      session.nextServerPacketId = UInt64.ofNat (s.responsesOf session.serverSessionId) ∧
      (∀ id ∈ s.generated, id ∈ generated) ∧
      ∀ id other, s.sessions.live d.clock.instant id = some other →
        other.serverSessionId = session.serverSessionId → id = clientSessionId := by
  rcases hentry with ⟨hfound, rfl⟩ | ⟨-, rfl, rfl⟩
  · obtain ⟨hgenerated, hnext⟩ := h.next _ _ (live_some hfound)
    exact ⟨hgenerated, hnext, fun _ hid => hid,
      fun id other hother hsame => h.own _ _ _ _ (live_some hother) (live_some hfound) hsame⟩
  · -- a fresh id has no responses and no other entry
    have hfresh : d.drawn ∉ s.generated := by
      grind
    have hzero : s.responsesOf d.drawn = 0 := by
      refine List.countP_eq_zero.mpr fun r hr hid => hfresh ?_
      rw [← of_decide_eq_true hid]
      exact (h.below r hr).1
    refine ⟨mem_append_right _ (mem_singleton_self _), by rw [hzero]; rfl,
      fun _ hid => mem_append_left _ hid, fun id other hother hsame => ?_⟩
    refine absurd ?_ hfresh
    have hsame' : other.serverSessionId = d.drawn := hsame
    rw [← hsame']
    exact (h.next _ _ (live_some hother)).1

theorem Counted.afterAccept (h : Counted s) (hentry : Entry s d request.clientSessionId session generated)
    (hfree : Unrepeated (s.afterAccept d request session window generated)) :
    Counted (s.afterAccept d request session window generated) := by
  obtain ⟨hgenerated, hnext, hsub, hown⟩ := h.entry hentry hfree.generated
  have hcount : s.responsesOf session.serverSessionId + 1 ≤ 2 ^ 64 := by
    have := hfree.counts session.serverSessionId
    rwa [responsesOf_afterAccept, if_pos rfl] at this
  have hnumber : session.nextServerPacketId.toNat = s.responsesOf session.serverSessionId := by
    rw [hnext, UInt64.toNat_ofNat_of_lt' (Nat.lt_of_succ_le hcount)]
  have hsessions : (s.afterAccept d request session window generated).sessions =
      (s.sessions.live d.clock.instant).insert request.clientSessionId
        ⟨d.clock.instant, session.serverSessionId, session.nextServerPacketId + 1, window⟩ := rfl
  constructor
  · rw [responses_afterAccept]
    refine List.nodup_append.mpr ⟨h.nodup, pairwise_singleton _ _, fun r hr r' hr' heq => ?_⟩
    rw [heq, List.mem_singleton.mp hr'] at hr
    have hlt := (h.below _ hr).2
    simp only [hnumber] at hlt
    omega
  · intro r hr
    rw [responses_afterAccept] at hr
    rw [responsesOf_afterAccept]
    rcases List.mem_append.mp hr with hr | hr
    · obtain ⟨hmem, hlt⟩ := h.below r hr
      exact ⟨hsub _ hmem, by omega⟩
    · rw [List.mem_singleton.mp hr]
      refine ⟨hgenerated, ?_⟩
      simp only [hnumber, if_true]
      omega
  · intro id other hother
    rw [hsessions] at hother
    rw [responsesOf_afterAccept]
    by_cases hid : id = request.clientSessionId
    · rw [hid, Table.insert_self, Option.some.injEq] at hother
      rw [← hother]
      refine ⟨hgenerated, ?_⟩
      rw [if_pos rfl, hnext, UInt64.ofNat_add]
      rfl
    · rw [Table.insert_of_ne _ hid] at hother
      obtain ⟨hmem, hn⟩ := h.next id other (live_some hother)
      rw [if_neg fun hsame => hid (hown id other hother hsame.symm)]
      exact ⟨hsub _ hmem, hn⟩
  · intro id id' other other' hother hother' hsame
    rw [hsessions] at hother hother'
    by_cases hid : id = request.clientSessionId <;> by_cases hid' : id' = request.clientSessionId
    · rw [hid, hid']
    · rw [hid, Table.insert_self, Option.some.injEq] at hother
      rw [Table.insert_of_ne _ hid'] at hother'
      rw [← hother] at hsame
      exact absurd (hown id' other' hother' hsame.symm) hid'
    · rw [hid', Table.insert_self, Option.some.injEq] at hother'
      rw [Table.insert_of_ne _ hid] at hother
      rw [← hother'] at hsame
      exact absurd (hown id other hother hsame) hid
    · rw [Table.insert_of_ne _ hid] at hother
      rw [Table.insert_of_ne _ hid'] at hother'
      exact h.own id id' other other' (live_some hother) (live_some hother') hsame

/-- **The step.** -/
theorem Counted.handle (h : Unrepeated s → Counted s) (hfree : Unrepeated (s.handle p d)) :
    Counted (s.handle p d) := by
  have h := h hfree.of_handle
  rcases handle_cases p s d with hs | ⟨request, -, ⟨_, -, -, hs⟩ | ⟨old, window, generated, hentry, -, hs⟩⟩
  · rw [hs]
    exact h
  · rw [hs]
    exact h.live d.clock.instant
  · rw [hs] at hfree ⊢
    exact h.afterAccept hentry hfree

/-- **Whole runs.** -/
theorem Counted.run (datagrams : List Datagram) : ∀ {s : UdpServer}, (Unrepeated s → Counted s) →
    Unrepeated (s.run p datagrams) → Counted (s.run p datagrams) := by
  induction datagrams with
  | nil =>
    intro s h
    exact h
  | cons d datagrams ih =>
    intro s h
    exact ih (Counted.handle h)

end Wrongsv.L2.Shadowsocks
