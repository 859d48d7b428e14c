import Wrongsv.L2Machine.RelayLoops

/-!
# Relays: a silent client stops the download

The QUIC, WebTransport and gRPC relays of one thread turn to the client when the target has
nothing to read, and rely on a `WouldBlock` to turn back (server/handler/quic.rs:366-374,
455-469, webtransport.rs:403-411,492-506, grpc.rs:632-647). Their adapters never return one:
with nothing pending, `read` is `incoming_rx.recv()`, which waits (quic.rs:190,
webtransport.rs:222, grpc.rs:169).

Spec clause: while the target is connected, the loop never waits in `client.read` for a
channel that is empty and open.

Fix: `recv_timeout`, mapped to `WouldBlock`, or a thread for each direction.
-/
namespace Wrongsv.Bugs.RelayWaitsForClient
open L2.RelayLoops

/-- The relays that read the client from a channel. -/
inductive Waiting where
  | quicRaw
  | quicVision
  | wtRaw
  | wtVision
  | grpcVision
  deriving DecidableEq, Repr

def Waiting.shape : Waiting → Shape
  | .quicRaw => relayQuicRaw
  | .quicVision => relayQuicVision
  | .wtRaw => relayWtRaw
  | .wtVision => relayWtVision
  | .grpcVision => relayGrpcVision

theorem waits (r : Waiting) : r.shape.waits = true := by
  cases r <;> rfl

theorem goes_on (r : Waiting) : r.shape.halfClose = true ∨ r.shape.emptyChunks = false := by
  cases r with
  | quicRaw => exact .inr rfl
  | wtRaw => exact .inr rfl
  | quicVision => exact .inl rfl
  | wtVision => exact .inl rfl
  | grpcVision => exact .inl rfl

/-- In `client.read`, with an empty channel that is not closed. -/
def Blocked (shape : Shape) (s : State Loop) : Prop :=
  shape.waits = true ∧ s.relay.pc = .client ∧ s.wires.client = [] ∧ s.wires.clientClosed = false

instance (shape : Shape) (s : State Loop) : Decidable (Blocked shape s) :=
  inferInstanceAs (Decidable (_ ∧ _ ∧ _ ∧ _))

def fromClient : Outside → Bool
  | .clientSends _ | .clientCloses => true
  | .targetSends _ | .targetCloses => false

/-- The client does nothing. -/
def Silent (later : List (Event Unit)) : Prop := ∀ o, .outside o ∈ later → fromClient o = false

/-- The loop is never blocked while the target is connected. -/
def NeverWaits (shape : Shape) (s : State Loop) : Prop :=
  ∀ later, (shape.relay.run s later).wires.targetClosed = false → ¬ Blocked shape (shape.relay.run s later)

/-- The loop gets to a wait that the target cannot end. -/
def Starves (shape : Shape) (s : State Loop) : Prop :=
  ∃ n, Blocked shape (shape.relay.alone () s n) ∧ ∀ later, Silent later →
    Blocked shape (shape.relay.run (shape.relay.alone () s n) later) ∧
      (shape.relay.run (shape.relay.alone () s n) later).relay = (shape.relay.alone () s n).relay

section
variable {shape : Shape} {s : State Loop}

theorem blocked_step (h : Blocked shape s) {e : Event Unit} (he : ∀ o, e = .outside o → fromClient o = false) :
    Blocked shape (shape.relay.step s e) ∧ (shape.relay.step s e).relay = s.relay := by
  obtain ⟨hwaits, hpc, hclient, hrunning⟩ := h
  cases e with
  | move m =>
    have hlive : shape.relay.ended s.relay = false := by simp [Shape.relay, Loop.ended, hpc]
    have hmove : shape.relay.move m s.relay s.wires = (s.relay, s.wires) := by
      simp [Shape.relay, Shape.move, hpc, hclient, hrunning, hwaits]
    rw [shape.relay.step_move hlive, hmove]
    exact ⟨⟨hwaits, hpc, hclient, hrunning⟩, rfl⟩
  | outside o =>
    have ho := he o rfl
    cases o with
    | clientSends chunk => cases ho
    | clientCloses => cases ho
    | targetCloses => exact ⟨⟨hwaits, hpc, hclient, hrunning⟩, rfl⟩
    | targetSends b =>
      have hadmits : shape.relay.admitsEvent (.targetSends b) = true := rfl
      rw [Relay.step, if_pos hadmits, Wires.outside]
      split
      · exact ⟨⟨hwaits, hpc, hclient, hrunning⟩, rfl⟩
      · exact ⟨⟨hwaits, hpc, hclient, hrunning⟩, rfl⟩

/-- **Only the client ends the wait.** -/
theorem blocked_run {later : List (Event Unit)} (hsilent : Silent later) :
    ∀ {s : State Loop}, Blocked shape s →
    Blocked shape (shape.relay.run s later) ∧ (shape.relay.run s later).relay = s.relay := by
  induction later with
  | nil => exact fun h => ⟨h, rfl⟩
  | cons e later ih =>
    intro s h
    have he : ∀ o, e = .outside o → fromClient o = false := fun o ho =>
      hsilent o (by rw [ho]; exact List.mem_cons_self)
    obtain ⟨hstep, hrelay⟩ := blocked_step h he
    obtain ⟨hrun, hrelay'⟩ := ih (fun o ho => hsilent o (List.mem_cons_of_mem _ ho)) hstep
    exact ⟨hrun, hrelay'.trans hrelay⟩

theorem run_clientClosed (h : s.wires.clientClosed = true) (later : List (Event Unit)) :
    (shape.relay.run s later).wires.clientClosed = true := by
  refine shape.relay.run_induction (P := fun s => s.wires.clientClosed = true) (fun s e hs => ?_) later h
  cases e with
  | move m => exact (step_same shape s).clientClosed.trans hs
  | outside o =>
    rw [Relay.step]
    split
    · cases o with
      | targetSends b =>
        rw [Wires.outside]
        split
        · exact hs
        · exact hs
      | targetCloses => exact hs
      | clientSends chunk => rw [Wires.outside, if_pos hs]; exact hs
      | clientCloses => rfl
    · exact hs

end

/-- While both sides are connected, none of the five has ended. -/
theorem not_ended {r : Waiting} {s : State Loop} (hinv : Inv r.shape s.relay s.wires)
    (hopen : s.wires.targetClosed = false) (hclient : s.wires.clientClosed = false) : s.relay.ended = false := by
  cases hpc : s.relay.pc with
  | target => simp [Loop.ended, hpc]
  | client => simp [Loop.ended, hpc]
  | ended why =>
    have hreason := hinv.reason why hpc
    cases why with
    | targetEof => rw [hreason.1] at hopen; cases hopen
    | bothEof => rw [hreason.1] at hopen; cases hopen
    | brokenPipe => rw [hreason.2] at hclient; cases hclient
    | clientEof =>
      obtain ⟨hhalf, hclosed | hempty⟩ := hreason
      · rw [hclosed] at hclient; cases hclient
      · rcases goes_on r with h | h
        · rw [h] at hhalf; cases hhalf
        · rw [h] at hempty; cases hempty

theorem starves {r : Waiting} {s : State Loop} (hinv : Inv r.shape s.relay s.wires)
    (hopen : s.wires.targetClosed = false) (hclient : s.wires.clientClosed = false) : Starves r.shape s := by
  obtain ⟨n, hn⟩ := reaches_rest r.shape (not_ended hinv hopen hclient) hopen
  have hsame := alone_same r.shape n s
  have hinv' : Inv r.shape (r.shape.relay.alone () s n).relay (r.shape.relay.alone () s n).wires := run_inv hinv _
  have hclient' := hsame.clientClosed.trans hclient
  have hlive := not_ended hinv' (hsame.targetClosed.trans hopen) hclient'
  rcases hn with hend | ⟨-, hpc, hempty⟩
  · rw [hlive] at hend
    cases hend
  · have hblocked : Blocked r.shape (r.shape.relay.alone () s n) := ⟨waits r, hpc, hempty, hclient'⟩
    exact ⟨n, hblocked, fun later hsilent => blocked_run hsilent hblocked⟩

/-- The first read of the target times out; then it sends a byte. -/
def lateReply : List (Event Unit) :=
  [.move (), .outside (.targetSends (.byte 0x2a)), .move (), .move (), .move ()]

end Wrongsv.Bugs.RelayWaitsForClient
