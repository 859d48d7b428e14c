import Wrongsv.L2Machine.RelayLoops

/-!
# Relays: a client that stops sending loses the rest of the download

`relay_reality`, `relay_sing_raw`, `relay_quic_raw` and the loop of `tls_relay` leave their
loop at the client's end of stream (server/handler/reality.rs:202-205, anytls.rs:428-432,
quic.rs:366-367, tls_relay.rs:66-67). `relay_quic_vision` goes on, but its adapter has set
`eof`, and from then on `write` is a `BrokenPipe` (quic.rs:203-206,212-218). `relay_raw` has
a thread for each direction; its download ends when the target is silent for 300 seconds.

Spec clause: after the client has stopped sending, every byte that the target still sends
is written towards the client before the relay ends.

Fix: close the writing side of the target and go on reading it, and let the adapters
write after the end of their input.
-/
namespace Wrongsv.Bugs.RelayHalfClose
open L2.RelayLoops List

/-- The relays in one thread. -/
inductive Single where
  | reality
  | singRaw
  | quicRaw
  | quicVision
  | tls
  deriving DecidableEq, Repr

def Single.shape : Single → Shape
  | .reality => relayReality
  | .singRaw => relaySingRaw
  | .quicRaw => relayQuicRaw
  | .quicVision => relayQuicVision
  | .tls => tlsRelay

/-- A state in which the client has stopped sending. -/
structure HalfClosed {R M : Type} (relay : Relay R M) extends Running relay where
  clientClosed : (relay.run relay.init events).wires.clientClosed = true

/-- `d` stands behind everything the target had sent before. -/
def Written {R M : Type} (relay : Relay R M) (before final : State R) (d : Bytes) : Prop :=
  ∀ i < d.length, (relay.forwarded final.relay)[before.wires.sent.length + i]? = d[i]?

/-- Whatever the interleaving, once the relay has ended `d` is written. -/
def Keeps {R M : Type} (relay : Relay R M) (s : State R) (d : Bytes) : Prop :=
  ∀ later, Downloads later d → relay.ended (relay.run s later).relay = true →
    Written relay s (relay.run s later) d

section
variable {R M : Type} {relay : Relay R M} {s : State R} {d : Bytes}

theorem written_of_all {later : List (Event M)} (hopen : s.wires.targetClosed = false) (h : Downloads later d)
    (hall : relay.forwarded (relay.run s later).relay = (relay.run s later).wires.sent) :
    Written relay s (relay.run s later) d := by
  obtain ⟨blocks, rfl, hevents⟩ := h
  intro i hi
  grind [run_downloads]

theorem not_written {final : State R} (hd : d ≠ [])
    (hshort : (relay.forwarded final.relay).length ≤ s.wires.sent.length) : ¬ Written relay s final d := by
  intro hwritten
  have hpos : 0 < d.length := List.length_pos_iff.mpr hd
  have hfirst := hwritten 0 hpos
  simp_all

/-- The target sends `d` in one block, after the relay has done what it can. -/
def sendsLate (m : M) (n : Nat) (d : Block) : List (Event M) :=
  List.replicate n (.move m) ++ [.outside (.targetSends d), .outside .targetCloses, .move m]

theorem sendsLate_downloads (m : M) (n : Nat) (d : Block) : Downloads (sendsLate m n d) d.val := by
  refine ⟨[d], by simp [unread], ?_⟩
  have hmoves : (List.replicate n (Event.move m)).filterMap Event.outside? = [] := by
    rw [filterMap_eq_nil_iff]
    intro e he
    rw [eq_of_mem_replicate he]
    rfl
  rw [sendsLate, filterMap_append, hmoves]
  rfl

end

/-- The loop is over, or the next block of the target ends it. -/
def GivenUp (shape : Shape) (s : State Loop) : Prop :=
  s.relay.ended = true ∨ (s.relay.pc = .target ∧ (shape.brokenAfterEof && s.relay.eof) = true)

/-- **Left alone after the client's end of stream, each of the five gives up.** -/
theorem gives_up {r : Single} {s : State Loop} (hinv : Inv r.shape s.relay s.wires)
    (hlive : s.relay.ended = false) (hopen : s.wires.targetClosed = false) (hclosed : s.wires.clientClosed = true) :
    ∃ n, GivenUp r.shape (r.shape.relay.alone () s n) := by
  obtain ⟨n, hend | ⟨hlive', hpc, hclient⟩⟩ := reaches_rest r.shape hlive hopen
  · exact ⟨n, .inl hend⟩
  · have hsame := alone_same r.shape n s
    have hinv' : Inv r.shape (r.shape.relay.alone () s n).relay (r.shape.relay.alone () s n).wires := run_inv hinv _
    generalize hs' : r.shape.relay.alone () s n = s' at hsame hlive' hpc hclient hinv'
    have hrunning : s'.relay.downDone = false := by
      by_contra hdone
      have := (hinv'.downDone (by simpa using hdone)).1
      rw [hsame.targetClosed, hopen] at this
      cases this
    have hnext : r.shape.relay.alone () s (n + 1) = r.shape.relay.step s' (.move ()) := by
      rw [← hs', Relay.alone, replicate_succ', r.shape.relay.run_append]
      rfl
    have heof : r.shape.move s'.relay s'.wires = (r.shape.clientEof { s'.relay with eof := true }, s'.wires) := by
      simp [Shape.move, hpc, hclient, hsame.clientClosed, hclosed]
    refine ⟨n + 1, ?_⟩
    rw [hnext, r.shape.relay.step_move (show r.shape.relay.ended s'.relay = false from hlive')]
    show GivenUp r.shape ⟨(r.shape.move s'.relay s'.wires).1, (r.shape.move s'.relay s'.wires).2⟩
    rw [heof]
    cases r with
    | quicVision =>
      refine .inr ?_
      simp [Single.shape, relayQuicVision, Shape.clientEof, hrunning]
    | reality => exact .inl rfl
    | singRaw => exact .inl rfl
    | quicRaw => exact .inl rfl
    | tls => exact .inl rfl

theorem late_lost {shape : Shape} {s : State Loop} (h : GivenUp shape s)
    (hopen : s.wires.targetClosed = false) (d : Block) :
    (shape.relay.run s [.outside (.targetSends d), .outside .targetCloses, .move ()]).relay.ended = true ∧
      (shape.relay.run s [.outside (.targetSends d), .outside .targetCloses, .move ()]).relay.forwarded =
        s.relay.forwarded := by
  rcases h with hend | ⟨hpc, hbroken⟩
  · rw [shape.relay.run_ended (show shape.relay.ended s.relay = true from hend)]
    exact ⟨hend, rfl⟩
  · have hlive : s.relay.ended = false := by simp [Loop.ended, hpc]
    obtain ⟨block, rest, htarget⟩ : ∃ block rest, s.wires.target ++ [d] = block :: rest := by
      cases s.wires.target with
      | nil => exact ⟨d, [], rfl⟩
      | cons block rest => exact ⟨block, rest ++ [d], rfl⟩
    have houtside : shape.relay.run s [.outside (.targetSends d), .outside .targetCloses] =
        { s with wires := { s.wires with target := s.wires.target ++ [d], sent := s.wires.sent ++
                                         d.val, targetClosed := true } } := by
      simp [Relay.run, Relay.step, Relay.admitsEvent, Wires.outside, hopen]
    have hrun : shape.relay.run s [.outside (.targetSends d), .outside .targetCloses, .move ()] =
        shape.relay.step (shape.relay.run s [.outside (.targetSends d), .outside .targetCloses]) (.move ()) := rfl
    rw [hrun, houtside, shape.relay.step_move (by exact hlive)]
    simp [Shape.relay, Shape.move, hpc, htarget, hbroken, Loop.ended]

/-- **A thread for each direction** writes all of `d`, unless the target was silent for
300 seconds; if that was before `d`, nothing of `d` is written. -/
theorem raw_written (raw : HalfClosed relayRaw) {later : List (Event Thread)} {d : Bytes} (hlater : Downloads later d)
    (hend : relayRaw.ended (relayRaw.run raw.state later).relay = true) :
    ((∀ e ∈ raw.events ++ later, e ≠ .move .expire) → Written relayRaw raw.state (relayRaw.run raw.state later) d) ∧
      (raw.state.relay.downEnded = true →
        (Written relayRaw raw.state (relayRaw.run raw.state later) d ↔ d = [])) := by
  have hbefore := raw_run_inv raw_init_inv raw.events
  have hraw := raw_run_inv hbefore later
  refine ⟨fun hquiet => written_of_all raw.targetOpen hlater ?_, fun hdown => ⟨fun hwritten => ?_, ?_⟩⟩
  · have htimely : (relayRaw.run raw.state later).relay.timedOut = false :=
      (raw_run_timedOut later (fun e he => hquiet e (mem_append_right _ he)) _).trans
        (raw_run_timedOut raw.events (fun e he => hquiet e (mem_append_left _ he)) _)
    have hkept := hraw.kept
    rcases hraw.downEnded (Bool.and_eq_true_iff.mp hend).2 with htimeout | ⟨_, hempty⟩
    · exact absurd (htimeout.symm.trans htimely) Bool.noConfusion
    · rw [hempty] at hkept
      exact (append_nil _).symm.trans hkept
  · by_contra hd
    refine not_written hd ?_ hwritten
    show (Threads.forwarded _).length ≤ _
    rw [raw_run_forwarded hdown, ← show _ = raw.state.wires.sent from hbefore.kept, length_append]
    exact Nat.le_add_right _ _
  · rintro rfl
    exact fun i hi => absurd hi (Nat.not_lt_zero i)

/-- **Only an empty rest is safe**, except with a thread for each direction and a target
that is not silent for 300 seconds. -/
theorem keeps_iff (r : Single) (s : HalfClosed r.shape.relay) (raw : HalfClosed relayRaw)
    (d : Bytes) : (Keeps r.shape.relay s.state d ↔ d = []) ∧
      (∀ later, Downloads later d → (r.shape.relay.run s.state later).relay.pc = .ended .targetEof ∨
          (r.shape.relay.run s.state later).relay.pc = .ended .bothEof →
        Written r.shape.relay s.state (r.shape.relay.run s.state later) d) ∧
      ∀ later, Downloads later d → relayRaw.ended (relayRaw.run raw.state later).relay = true →
        ((∀ e ∈ raw.events ++ later, e ≠ .move .expire) →
          Written relayRaw raw.state (relayRaw.run raw.state later) d) ∧
        (raw.state.relay.downEnded = true →
          (Written relayRaw raw.state (relayRaw.run raw.state later) d ↔ d = [])) := by
  have hinv : Inv r.shape s.state.relay s.state.wires :=
    s.inv (fun why => by cases r <;> exact fun h => nomatch h)
  refine ⟨⟨fun hkeeps => ?_, ?_⟩, fun later hlater hend => ?_,
    fun later hlater hend => raw_written raw hlater hend⟩
  · by_contra hd
    obtain ⟨n, hgiven⟩ := gives_up hinv s.live s.targetOpen s.clientClosed
    have hsame := alone_same r.shape n s.state
    have hlate := late_lost hgiven (hsame.targetClosed.trans s.targetOpen) ⟨d, hd⟩
    have hinv' : Inv r.shape (r.shape.relay.alone () s.state n).relay (r.shape.relay.alone () s.state n).wires :=
      run_inv hinv _
    have hrun : r.shape.relay.run s.state (sendsLate () n ⟨d, hd⟩) =
        r.shape.relay.run (r.shape.relay.alone () s.state n)
          [.outside (.targetSends ⟨d, hd⟩), .outside .targetCloses, .move ()] := r.shape.relay.run_append _ _ _
    refine not_written hd ?_ (hkeeps _ (sendsLate_downloads () n ⟨d, hd⟩) ?_)
    · rw [hrun]
      show (Loop.forwarded _).length ≤ _
      rw [hlate.2, ← hsame.sent]
      exact hinv'.forwarded_le
    · rw [hrun]
      exact hlate.1
  · rintro rfl
    exact fun _ _ _ i hi => absurd hi (Nat.not_lt_zero i)
  · exact written_of_all s.targetOpen hlater ((run_inv hinv later).forwarded_eq hend)

/-! ## Counterexample -/

/-- The client sends its end of stream at once. -/
def closed (r : Single) : HalfClosed r.shape.relay where
  events := [.outside .clientCloses]
  live := by cases r <;> rfl
  targetOpen := rfl
  clientClosed := rfl

/-- With `relay_raw` the target is silent for 300 seconds behind it. -/
def closedRaw : HalfClosed relayRaw where
  events := [.outside .clientCloses, .move .expire]
  live := rfl
  targetOpen := rfl
  clientClosed := rfl

/-- Two steps, a byte from the target, and one more step. -/
def reply : List (Event Unit) := sendsLate () 2 (.byte 0x2a)

/-- The relays have ended, and the byte is not with the client. -/
theorem reply_cut : Downloads reply [0x2a] ∧ Downloads (sendsLate Thread.up 2 (.byte 0x2a)) [0x2a] ∧
    (relayRaw.run closedRaw.state (sendsLate .up 2 (.byte 0x2a))).relay = ⟨true, true, true, [], []⟩ ∧
    ∀ r : Single,
      (r.shape.relay.run (closed r).state reply).relay.ended = true ∧
        (r.shape.relay.run (closed r).state reply).wires.sent = [0x2a] ∧
        (r.shape.relay.run (closed r).state reply).relay.forwarded = [] ∧
        ¬ Written r.shape.relay (closed r).state (r.shape.relay.run (closed r).state reply) [0x2a] := by
  refine ⟨sendsLate_downloads () 2 _, sendsLate_downloads Thread.up 2 _, by decide, fun r => ?_⟩
  have hforwarded : (r.shape.relay.run (closed r).state reply).relay.forwarded = [] := by cases r <;> decide
  refine ⟨by cases r <;> decide, by cases r <;> decide, hforwarded, not_written (by decide) ?_⟩
  show (Loop.forwarded _).length ≤ _
  rw [hforwarded]
  exact Nat.zero_le _

end Wrongsv.Bugs.RelayHalfClose
