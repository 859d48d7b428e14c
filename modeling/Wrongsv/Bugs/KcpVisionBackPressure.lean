import Wrongsv.L2Machine.Kcp.Relay

/-!
# mKCP: the Vision relay drops the blocks that meet a full channel

`relay_kcp_vision` encodes a block, which moves the writer's state on, and then calls
`client.write_all(&encoded)` (server/handler/kcp.rs:796-836). If the eight slots of the
channel are taken this is `WouldBlock`, and the relay leaves the loop to serve the upload
side. `encoded` is local, so the block is gone. `relay_kcp_raw` retries the write (:722-738).

Fix: keep `encoded` and write it before the next read.
-/
namespace Wrongsv.Bugs.KcpVisionBackPressure
open L1.VisionFrame L2.Vision L2.Kcp List

/-- Whenever the relay reads a block, a slot of the channel is free. -/
def RoomForBlocks (d : VisionDownlink) (es : List VisionEvent) : Prop :=
  ∀ before b after d', es = before ++ .block b :: after → d.run before = some d' →
    d'.channel.slots.length < vlessTxSlots

/-- The encoding of all blocks enters the channel, behind what is there. -/
def Lossless (d : VisionDownlink) (es : List VisionEvent) : Prop :=
  ∃ d' encoding, d.run es = some d' ∧ writeAll d.writer (VisionEvent.blocks es) = some encoding ∧
    d'.channel.entered = d.channel.entered ++ encoding

section
variable {d d₁ : VisionDownlink} {e : VisionEvent} {es : List VisionEvent}

theorem run_cons (h : d.step e = some d₁) : d.run (e :: es) = d₁.run es := by
  rw [VisionDownlink.run, h]
  rfl

theorem roomForBlocks_nil : RoomForBlocks d [] := by
  intro before b after d' h
  cases before <;> cases h

theorem roomForBlocks_cons (h : d.step e = some d₁) : RoomForBlocks d (e :: es) ↔
      (∀ b, e = .block b → d.channel.slots.length < vlessTxSlots) ∧ RoomForBlocks d₁ es := by
  constructor
  · intro hr
    refine ⟨fun b hb => hr [] b es d (by rw [hb]; rfl) rfl, fun before b after d' he hrun => ?_⟩
    exact hr (e :: before) b after d' (by rw [he]; rfl) (by rw [run_cons h]; exact hrun)
  · rintro ⟨hfirst, hrest⟩ before b after d' he hrun
    cases before with
    | nil =>
      cases hrun
      exact hfirst b (List.cons.inj he).1
    | cons e' before =>
      obtain ⟨rfl, htail⟩ := List.cons.inj he
      exact hrest before b after d' htail (by rw [← run_cons h]; exact hrun)

theorem roomForBlocks_quiet (h : d.step e = some d₁) (he : ∀ b, e ≠ .block b) :
    RoomForBlocks d (e :: es) ↔ RoomForBlocks d₁ es := by
  rw [roomForBlocks_cons h]
  exact ⟨And.right, fun hr => ⟨fun b hb => absurd hb (he b), hr⟩⟩

/-- The encoding of the blocks behind the first one follows that of the first. -/
theorem writeAll_block {w w' : VisionWriter} {b : Block} {encoded encoding : Bytes}
    (hw : (w.serve b.write).write b.bytes b.draw = some (encoded, w'))
    (hrest : writeAll w' (VisionEvent.blocks es) = some encoding) :
    writeAll w (VisionEvent.blocks (.block b :: es)) = some (encoded ++ encoding) := by
  have hw' : (w.serve b.write).write b.write.bytes b.write.draw = some (encoded, w') := hw
  simp only [VisionEvent.blocks, writeAll, hw', hrest, Option.map_some]

end

/-- A run from a writer that encodes: it goes through, no more than the encoding
enters the channel, and all of it does if and only if every block finds room. -/
theorem run_spec (seed : TestSeed) (es : List VisionEvent) :
    ∀ {d : VisionDownlink}, Encodes seed d.writer →
    ∃ d' encoding, d.run es = some d' ∧ writeAll d.writer (VisionEvent.blocks es) = some encoding ∧
      d'.channel.entered.length ≤ d.channel.entered.length + encoding.length ∧
      (d'.channel.entered = d.channel.entered ++ encoding ↔ RoomForBlocks d es) := by
  induction es with
  | nil =>
    intro d _
    exact ⟨d, [], rfl, rfl, Nat.le_refl _, by rw [append_nil]; exact iff_of_true rfl roomForBlocks_nil⟩
  | cons e es ih =>
    intro d h
    cases e with
    | idle =>
      obtain ⟨d', encoding, hrun, hall, hle, hiff⟩ := ih h
      have hstep : d.step .idle = some d := rfl
      refine ⟨d', encoding, by rw [run_cons hstep]; exact hrun, hall, hle, ?_⟩
      rw [hiff, roomForBlocks_quiet hstep (fun _ => nofun)]
    | receive =>
      have hstep : d.step .receive = some ⟨d.writer, d.channel.receive⟩ := rfl
      obtain ⟨d', encoding, hrun, hall, hle, hiff⟩ := ih (d := ⟨d.writer, d.channel.receive⟩) h
      rw [Channel.entered_receive] at hle hiff
      refine ⟨d', encoding, by rw [run_cons hstep]; exact hrun, hall, hle, ?_⟩
      rw [hiff, roomForBlocks_quiet hstep (fun _ => nofun)]
    | block b =>
      obtain ⟨encoded, w, hw, hne, hnext⟩ := h.write b
      by_cases hroom : d.channel.slots.length < vlessTxSlots
      · obtain ⟨channel, hc, hentered⟩ := Channel.write_room hroom encoded
        have hstep : d.step (.block b) = some ⟨w, channel⟩ := by
          simp only [VisionDownlink.step, VisionDownlink.block, hw, if_neg hne, hc]
        obtain ⟨d', encoding, hrun, hall, hle, hiff⟩ := ih (d := ⟨w, channel⟩) hnext
        rw [hentered, append_assoc] at hiff
        rw [hentered, length_append] at hle
        refine ⟨d', encoded ++ encoding, by rw [run_cons hstep]; exact hrun, writeAll_block hw hall,
          by rw [length_append]; omega, ?_⟩
        rw [hiff, roomForBlocks_cons hstep]
        exact ⟨fun hr => ⟨fun _ _ => hroom, hr⟩, And.right⟩
      · -- what is dropped is at least one byte, so the rest cannot make up for it
        have hstep : d.step (.block b) = some ⟨w, d.channel⟩ := by
          simp only [VisionDownlink.step, VisionDownlink.block, hw, if_neg hne, Channel.write_full hroom]
        obtain ⟨d', encoding, hrun, hall, hle, -⟩ := ih (d := ⟨w, d.channel⟩) hnext
        have hpos := List.length_pos_iff.mpr hne
        have hshort : d'.channel.entered.length < d.channel.entered.length + (encoded ++ encoding).length := by
          have hle : d'.channel.entered.length ≤ d.channel.entered.length + encoding.length := hle
          rw [length_append]
          omega
        refine ⟨d', encoded ++ encoding, by rw [run_cons hstep]; exact hrun, writeAll_block hw hall,
          Nat.le_of_lt hshort, ?_⟩
        rw [roomForBlocks_cons hstep]
        constructor
        · intro heq
          rw [heq, length_append] at hshort
          exact absurd hshort (Nat.lt_irrefl _)
        · exact fun hr => absurd (hr.1 b rfl) hroom

/-- **Back-pressure.** For every sequence of blocks, idle reads and messages
taken by the update loop: the bytes that enter the KCP stream are the Vision
encoding of all blocks, in order, if and only if no block is read while the
channel is full. -/
theorem lossless_iff (u : Uuid) (seed : TestSeed) (channel : Channel) (es : List VisionEvent) :
    Lossless (.new u seed channel) es ↔ RoomForBlocks (.new u seed channel) es := by
  obtain ⟨d', encoding, hrun, hall, -, hiff⟩ :=
    run_spec (relayTestSeed seed) es (d := .new u seed channel) (.inr ⟨⟨rfl, rfl⟩, rfl⟩)
  rw [← hiff]
  constructor
  · rintro ⟨d'', encoding', hrun', hall', heq⟩
    rw [hrun, Option.some.injEq] at hrun'
    rw [hall, Option.some.injEq] at hall'
    rw [hrun', hall']
    exact heq
  · exact fun heq => ⟨d', encoding, hrun, hall, heq⟩

/-- A block of one byte, and the smallest padding. -/
def byteBlock : Block :=
  ⟨[7], by decide, by decide, 0, fun n => List.replicate n 0, fun _ => length_replicate⟩

/-- The response header waits in the channel when the relay starts. -/
def responseQueued : Channel := ⟨[[0, 0]], [], by decide⟩

/-- Eight blocks while the update loop does not run: there are seven slots for
them, and of the 64 bytes of their encoding the last six do not enter. -/
theorem eighth_block_dropped :
    ¬ Lossless (.new ⟨List.replicate 16 1, rfl⟩ .server responseQueued) (List.replicate 8 (.block byteBlock)) := by
  rintro ⟨d, encoding, hrun, hall, heq⟩
  have hentered : d.channel.entered.length = 60 := by
    have := congrArg (Option.map fun d => d.channel.entered.length) hrun
    exact Option.some.inj (this.symm.trans (by decide +kernel))
  have hencoding : encoding.length = 64 := by
    have := congrArg (Option.map List.length) hall
    exact Option.some.inj (this.symm.trans (by decide +kernel))
  have hlen := congrArg List.length heq
  rw [length_append, hentered, hencoding] at hlen
  omega

end Wrongsv.Bugs.KcpVisionBackPressure
