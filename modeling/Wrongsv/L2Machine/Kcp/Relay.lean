import Wrongsv.L2Machine.Vision.Writer

/-!
# mKCP: the downlink relays

What the target sends goes through a `sync_channel` of eight slots to the update
loop, which hands it to the session. `KcpRelayStream::write` never waits: it puts
the whole buffer into a free slot or returns `WouldBlock`.

`relay_kcp_raw` and `relay_kcp_vision` read the target in blocks of at most
32768 bytes. The raw relay keeps a block until the channel takes it. The Vision
relay encodes the block and writes the encoding once; on `WouldBlock` it goes on
to the upload side, and the encoding is gone.

Not modelled: the upload side, which shares nothing with the downlink but the
thread, and the end of the session (`BrokenPipe`), which ends the relay.
-/
namespace Wrongsv.L2.Kcp
open L1.VisionFrame L2.Vision List

/-! ## The channel -/

/-- server/handler/kcp.rs:473 -/
def vlessTxSlots : Nat := 8

/-- The channel between a relay and the update loop: the buffers in its slots
and the bytes the session was handed. -/
structure Channel where
  slots : List Bytes
  taken : Bytes
  bounded : slots.length ≤ vlessTxSlots

namespace Channel

/-- `try_send` of the whole buffer; `none` is `WouldBlock`. -/
def write (c : Channel) (buf : Bytes) : Option Channel :=
  if h : c.slots.length < vlessTxSlots then
    some ⟨c.slots ++ [buf], c.taken, by rw [length_append, length_singleton]; exact h⟩
  else none

/-- `try_recv`: the session is handed the buffer. `enqueue_application_data`
keeps it while the session is open, and drops it afterwards. -/
def receive : Channel → Channel
  | ⟨[], taken, h⟩ => ⟨[], taken, h⟩
  | ⟨buf :: slots, taken, h⟩ => ⟨slots, taken ++ buf, Nat.le_of_succ_le h⟩

/-- Everything that was written: the session was handed it or is going to be. -/
def entered (c : Channel) : Bytes := c.taken ++ c.slots.flatten

theorem write_room {c : Channel} (h : c.slots.length < vlessTxSlots) (buf : Bytes) :
    ∃ c', c.write buf = some c' ∧ c'.entered = c.entered ++ buf := by
  refine ⟨_, dif_pos h, ?_⟩
  simp [entered]

theorem write_full {c : Channel} (h : ¬ c.slots.length < vlessTxSlots) (buf : Bytes) :
    c.write buf = none :=
  dif_neg h

@[simp] theorem entered_receive (c : Channel) : c.receive.entered = c.entered := by
  obtain ⟨slots, taken, h⟩ := c
  cases slots with
  | nil => rfl
  | cons buf slots => simp [receive, entered]

end Channel

/-! ## The Vision relay -/

/-- A read from the target, with the randomness of its encoding. -/
structure Block where
  bytes : Bytes
  nonempty : bytes ≠ []
  fits : bytes.length ≤ 32768
  draw : Draw

/-- The writer of a block is built for it, and dropped. -/
def Block.write (b : Block) : Write :=
  ⟨b.bytes, b.nonempty, Nat.le_trans b.fits (by decide), true, b.draw⟩

/-- `idle` is a read of the target that times out. -/
inductive VisionEvent where
  | block (b : Block)
  | idle
  | receive

def VisionEvent.blocks : List VisionEvent → List Write
  | [] => []
  | .block b :: es => b.write :: blocks es
  | .idle :: es => blocks es
  | .receive :: es => blocks es

/-- `down_state` and `down_user_uuid`, as the writer that is rebuilt from them,
and the channel. -/
structure VisionDownlink where
  writer : VisionWriter
  channel : Channel

/-- The seed of the relay is usable if the account's is. -/
def relayTestSeed (seed : TestSeed) : TestSeed where
  entries := relaySeed seed.entries
  usable := by
    unfold relaySeed
    split
    · exact seed.usable
    · exact .inr (by decide)

def VisionDownlink.new (u : Uuid) (seed : TestSeed) (channel : Channel) : VisionDownlink :=
  ⟨.new (.new u) false (relayTestSeed seed).entries, channel⟩

/-- One block: the state of the writer moves on, whether or not the channel
takes the encoding. `none` is the panic of the writer. -/
def VisionDownlink.block (d : VisionDownlink) (b : Block) : Option VisionDownlink :=
  match (d.writer.serve b.write).write b.bytes b.draw with
  | none => none
  | some (encoded, writer) =>
    if encoded = [] then some ⟨writer, d.channel⟩
    else match d.channel.write encoded with
      | some channel => some ⟨writer, channel⟩
      -- `break false`: `encoded` goes out of scope
      | none => some ⟨writer, d.channel⟩

def VisionDownlink.step (d : VisionDownlink) : VisionEvent → Option VisionDownlink
  | .block b => d.block b
  | .idle => some d
  | .receive => some { d with channel := d.channel.receive }

def VisionDownlink.run (d : VisionDownlink) : List VisionEvent → Option VisionDownlink
  | [] => some d
  | e :: es => (d.step e).bind (·.run es)

/-! ## One block -/

/-- A writer that copies, or pads with a seed it can draw from. -/
def Encodes (seed : TestSeed) (w : VisionWriter) : Prop :=
  w.Closed ∨ (w.Padding ∧ w.testseed = seed.entries)

theorem Encodes.write {seed : TestSeed} {w : VisionWriter} (h : Encodes seed w) (b : Block) :
    ∃ encoded w', (w.serve b.write).write b.bytes b.draw = some (encoded, w') ∧ encoded ≠ [] ∧ Encodes seed w' := by
  rcases h with h | ⟨h, hseed⟩
  · obtain ⟨w', hw, hclosed⟩ := write_closed (serve_closed h b.write) b.bytes b.draw
    exact ⟨b.bytes, w', hw, b.nonempty, .inl hclosed⟩
  · obtain ⟨-, hs⟩ := serve_frame w b.write
    obtain ⟨f, closing, w', -, hw, -, hseed', hnext⟩ :=
      write_padding (serve_padding h b.write) seed (hs.trans hseed) b.write
    refine ⟨_, w', hw, fun hnil => ?_, ?_⟩
    · exact absurd (List.append_eq_nil_iff.mp hnil).2 (cons_ne_nil _ _)
    · cases closing with
      | none => exact .inr ⟨hnext, hseed'⟩
      | some c => exact .inl hnext

end Wrongsv.L2.Kcp
