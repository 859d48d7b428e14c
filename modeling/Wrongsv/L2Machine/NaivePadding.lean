import Wrongsv.Core

/-!
# Naive padding

The first 8 writes in each direction are framed (handler/naive.rs:78-203):

  length(2) padding_length(1) payload padding

and everything behind them is passed on as it is. An encoder cuts a payload of more
than 65535 bytes into several frames. Both sides count the frames on their own.

Results, beside `run_append`, `padding_inverted`:
* `framed_frame`, `framed_writeFrames`: frames are taken off one by one, and inside of
  one the decoder never passes bytes on as they are.
-/
namespace Wrongsv.L2.Naive
open List

def naivePadOps : Nat := 8
def naivePadMaxPayload : Nat := 65535

inductive PadDecodeState where
  | header
  | payload (remaining padding : Nat)
  | padding (remaining : Nat)
  | passthrough
  deriving DecidableEq, Repr

structure NaivePadDecoder where
  buf : Bytes
  state : PadDecodeState
  opsRemaining : Nat
  deriving DecidableEq, Repr

def NaivePadDecoder.new : NaivePadDecoder := ⟨[], .header, naivePadOps⟩

/-- How many passes a state is away from the next header. -/
def PadDecodeState.rank : PadDecodeState → Nat
  | .payload .. => 3
  | .padding _ => 2
  | .header => 1
  | .passthrough => 0

/-- The loop over the buffer: what it puts out, and the decoder behind it. With `ops = 1`
the end of the padding is the end of padding mode. -/
def run (state : PadDecodeState) (ops : Nat) (buf : Bytes) : Bytes × NaivePadDecoder :=
  match state with
  | .passthrough => (buf, ⟨[], .passthrough, ops⟩)
  | .header =>
    if buf.length < 3 then ([], ⟨buf, .header, ops⟩)
    else run (.payload (u16At buf 0) (buf.getD 2 0).toNat) ops (buf.drop 3)
  | .payload remaining padding =>
    let take := min remaining buf.length
    if remaining - take = 0 then
      let later := run (.padding padding) ops (buf.drop take)
      (buf.take take ++ later.1, later.2)
    else (buf.take take, ⟨buf.drop take, .payload (remaining - take) padding, ops⟩)
  | .padding remaining =>
    let take := min remaining buf.length
    if remaining - take = 0 then
      run (if ops - 1 = 0 then .passthrough else .header) (ops - 1) (buf.drop take)
    else ([], ⟨buf.drop take, .padding (remaining - take), ops⟩)
termination_by buf.length + state.rank
decreasing_by
  · simp only [PadDecodeState.rank, length_drop]; omega
  · simp only [PadDecodeState.rank, length_drop]; omega
  · split <;> simp only [PadDecodeState.rank, length_drop] <;> omega

/-- naive.rs:110-162 -/
def NaivePadDecoder.feedInto (d : NaivePadDecoder) (input : Bytes) : Bytes × NaivePadDecoder :=
  run d.state d.opsRemaining (d.buf ++ input)

/-- The outputs of one call after the other. -/
def NaivePadDecoder.feedAll (d : NaivePadDecoder) : List Bytes → Bytes × NaivePadDecoder
  | [] => ([], d)
  | chunk :: chunks =>
    let later := (d.feedInto chunk).2.feedAll chunks
    ((d.feedInto chunk).1 ++ later.1, later.2)

/-- The random bytes of a frame's padding: `next_u32() & 0xff` of them. -/
abbrev Padding := { p : Bytes // p.length ≤ 255 }

def frame (chunk : Bytes) (pad : Padding) : Bytes :=
  be16 chunk.length ++ (UInt8.ofNat pad.val.length :: (chunk ++ pad.val))

/-- The encoder's loop: the frames, what is left of the payload, and `ops_remaining`.
`pads ops` is the padding drawn for the frame that is written with `ops` left. -/
def writeFrames (pads : Nat → Padding) : Nat → Bytes → Bytes × Bytes × Nat
  | 0, rest => ([], rest, 0)
  | ops + 1, rest =>
    if rest = [] then ([], [], ops + 1)
    else
      let (out, left, ops') := writeFrames pads ops (rest.drop naivePadMaxPayload)
      (frame (rest.take naivePadMaxPayload) (pads (ops + 1)) ++ out, left, ops')

structure NaivePadEncoder where
  opsRemaining : Nat
  deriving DecidableEq, Repr

def NaivePadEncoder.new : NaivePadEncoder := ⟨naivePadOps⟩

def NaivePadEncoder.encode (pads : Nat → Padding) (e : NaivePadEncoder) (payload : Bytes) :
    Bytes × NaivePadEncoder :=
  if e.opsRemaining = 0 ∨ payload = [] then (payload, e)
  else
    let (out, left, ops) := writeFrames pads e.opsRemaining payload
    (out ++ left, ⟨ops⟩)

/-- The stream that the payloads become, and the encoder behind them. -/
def NaivePadEncoder.encodeAll (pads : Nat → Padding) (e : NaivePadEncoder) :
    List Bytes → Bytes × NaivePadEncoder
  | [] => ([], e)
  | payload :: payloads =>
    let later := (e.encode pads payload).2.encodeAll pads payloads
    ((e.encode pads payload).1 ++ later.1, later.2)

/-- The bytes of the stream that are frames. -/
def NaivePadEncoder.paddedLength (pads : Nat → Padding) (e : NaivePadEncoder) : List Bytes → Nat
  | [] => 0
  | payload :: payloads =>
    (writeFrames pads e.opsRemaining payload).1.length + (e.encode pads payload).2.paddedLength pads payloads

/-! ## Fed in pieces -/

section
variable (ops padding : Nat) (c t : Bytes)

theorem run_payload : run (.payload c.length padding) ops (c ++ t) =
    (c ++ (run (.padding padding) ops t).1, (run (.padding padding) ops t).2) := by
  rw [run]
  simp

theorem run_payload_short {remaining : Nat} (h : c.length < remaining) :
    run (.payload remaining padding) ops c = (c, ⟨[], .payload (remaining - c.length) padding, ops⟩) := by
  rw [run]
  simp [Nat.min_eq_right (Nat.le_of_lt h), Nat.sub_ne_zero_of_lt h]

theorem run_padding : run (.padding c.length) ops (c ++ t) =
    run (if ops - 1 = 0 then .passthrough else .header) (ops - 1) t := by
  rw [run]
  simp

theorem run_padding_short {remaining : Nat} (h : c.length < remaining) :
    run (.padding remaining) ops c = ([], ⟨[], .padding (remaining - c.length), ops⟩) := by
  rw [run]
  simp [Nat.min_eq_right (Nat.le_of_lt h), Nat.sub_ne_zero_of_lt h]

end

/-- **Pieces do not matter**: the loop stops where it can go on with more bytes. -/
theorem run_append (state : PadDecodeState) (ops : Nat) (buf : Bytes) :
    ∀ more, run state ops (buf ++ more) =
      ((run state ops buf).1 ++ ((run state ops buf).2.feedInto more).1, ((run state ops buf).2.feedInto more).2) := by
  fun_induction run state ops buf with
  | case1 => intro more; simp [run, NaivePadDecoder.feedInto]
  | case2 => intro more; simp [NaivePadDecoder.feedInto]
  | case3 ops buf hlen ih =>
    intro more
    rw [← ih more, ← drop_append_of_le_length (by omega), run, if_neg (by rw [length_append]; omega)]
    grind [u16At]
  | case4 ops buf remaining padding take hdone later ih =>
    intro more
    have htake : min remaining (buf ++ more).length = take := by grind
    rw [run, htake]
    grind
  | case5 ops buf remaining padding take hmore =>
    intro more
    -- the rest of the payload starts with the new bytes
    have htake : take = buf.length := by omega
    have hsum : min remaining (buf ++ more).length = buf.length + min (remaining - buf.length) more.length := by
      grind
    simp only [htake, take_length, drop_length, NaivePadDecoder.feedInto, nil_append]
    rw [run, run]
    simp only [hsum, take_length_add_append, drop_length_add_append, Nat.sub_add_eq]
    split
    · simp
    · rfl
  | case6 ops buf remaining take hdone ih =>
    intro more
    have htake : min remaining (buf ++ more).length = take := by grind
    rw [run, htake]
    grind
  | case7 ops buf remaining take hmore =>
    intro more
    have htake : take = buf.length := by omega
    have hsum : min remaining (buf ++ more).length = buf.length + min (remaining - buf.length) more.length := by
      grind
    simp only [htake, drop_length, NaivePadDecoder.feedInto, nil_append]
    rw [run, run]
    simp only [hsum, drop_length_add_append, Nat.sub_add_eq]

theorem feedAll_run (chunks : List Bytes) : ∀ (state : PadDecodeState) (ops : Nat) (buf : Bytes),
    run state ops (buf ++ chunks.flatten) =
      ((run state ops buf).1 ++ ((run state ops buf).2.feedAll chunks).1, ((run state ops buf).2.feedAll chunks).2) := by
  induction chunks with
  | nil => intro state ops buf; simp [NaivePadDecoder.feedAll]
  | cons chunk chunks ih =>
    intro state ops buf
    rw [flatten_cons, ← append_assoc, ih, run_append]
    simp [NaivePadDecoder.feedAll]

/-! ## Frames -/

/-- Between two frames, with `ops` of them left. -/
def start (ops : Nat) (buf : Bytes) : Bytes × NaivePadDecoder :=
  run (if ops = 0 then .passthrough else .header) ops buf

/-- `padded` is taken as whole frames with the payload `payload`, from `ops` frames left
to `ops'`. -/
structure Framed (ops : Nat) (padded payload : Bytes) (ops' : Nat) : Prop where
  whole : ∀ t, start ops (padded ++ t) = (payload ++ (start ops' t).1, (start ops' t).2)
  part : ∀ a b, a ++ b = padded → b ≠ [] → (start ops a).2.state ≠ .passthrough

theorem Framed.nil (ops : Nat) : Framed ops [] [] ops :=
  ⟨fun _ => rfl, fun _ _ h hb => absurd (List.append_eq_nil_iff.mp h).2 hb⟩

theorem Framed.append {ops ops' ops'' : Nat} {padded padded' payload payload' : Bytes}
    (h : Framed ops padded payload ops') (h' : Framed ops' padded' payload' ops'') :
    Framed ops (padded ++ padded') (payload ++ payload') ops'' := by
  refine ⟨fun t => ?_, fun a b hab hb => ?_⟩
  · rw [append_assoc, h.whole, h'.whole, append_assoc]
  · rcases List.append_eq_append_iff.mp hab with ⟨c, rfl, hc⟩ | ⟨c, rfl, hc⟩
    · by_cases hne : c = []
      · subst hne
        have hwhole := h.whole []
        rw [append_nil, append_nil] at hwhole
        rw [hwhole]
        exact h'.part [] b hc hb
      · exact h.part a c rfl hne
    · rw [h.whole]
      exact h'.part c b hc.symm hb

theorem framed_frame (ops : Nat) {chunk : Bytes} (hlen : chunk.length ≤ naivePadMaxPayload)
    (pad : Padding) : Framed (ops + 1) (frame chunk pad) chunk ops := by
  have hsize : (UInt8.ofNat pad.val.length).toNat = pad.val.length := by
    rw [UInt8.toNat_ofNat']
    omega
  have hrun : ∀ t, start (ops + 1) (be16 chunk.length ++ (UInt8.ofNat pad.val.length :: t)) =
      run (.payload chunk.length pad.val.length) (ops + 1) t := by
    intro t
    have hu : u16At (be16 chunk.length ++ (UInt8.ofNat pad.val.length :: t)) 0 = chunk.length :=
      u16At_append [] (Nat.lt_succ_of_le hlen) _
    unfold start
    rw [if_neg (Nat.succ_ne_zero ops), run, hu, if_neg (by simp [be16])]
    simp [be16, hsize]
  refine ⟨fun t => ?_, fun a b hab hb => ?_⟩
  · have hframe : frame chunk pad ++ t =
        be16 chunk.length ++ (UInt8.ofNat pad.val.length :: (chunk ++ (pad.val ++ t))) := by simp [frame]
    rw [hframe, hrun, run_payload, run_padding]
    rfl
  · -- the cut is in the header, in the payload or in the padding
    rcases a with _ | ⟨x, _ | ⟨y, _ | ⟨z, a⟩⟩⟩
    · simp [start, run]
    · simp [start, run]
    · simp [start, run]
    simp only [frame, be16, cons_append, nil_append, List.cons.injEq] at hab
    obtain ⟨rfl, rfl, rfl, hab⟩ := hab
    have hhead := hrun a
    simp only [be16, cons_append, nil_append] at hhead
    rw [hhead]
    by_cases hshort : a.length < chunk.length
    · rw [run_payload_short _ _ _ hshort]
      exact PadDecodeState.noConfusion
    · obtain ⟨c, rfl⟩ : chunk <+: a :=
        prefix_of_prefix_length_le ⟨_, rfl⟩ ⟨b, hab⟩ (Nat.not_lt.mp hshort)
      rw [append_assoc, append_cancel_left_eq] at hab
      have hcut : c.length < pad.val.length := by
        rw [← hab, length_append]
        exact Nat.lt_add_of_pos_right (List.length_pos_iff.mpr hb)
      rw [run_payload, run_padding_short _ _ hcut]
      exact PadDecodeState.noConfusion

variable (pads : Nat → Padding)

theorem framed_writeFrames (ops : Nat) : ∀ rest : Bytes,
    ∃ payload, Framed ops (writeFrames pads ops rest).1 payload (writeFrames pads ops rest).2.2 ∧
      rest = payload ++ (writeFrames pads ops rest).2.1 ∧
      ((writeFrames pads ops rest).2.2 ≠ 0 → (writeFrames pads ops rest).2.1 = []) := by
  induction ops with
  | zero => intro rest; exact ⟨[], Framed.nil 0, rfl, fun h => absurd rfl h⟩
  | succ ops ih =>
    intro rest
    rw [writeFrames]
    split
    · rename_i hnil
      exact ⟨[], Framed.nil _, hnil, fun _ => rfl⟩
    · obtain ⟨payload, hframed, hrest, hleft⟩ := ih (rest.drop naivePadMaxPayload)
      refine ⟨rest.take naivePadMaxPayload ++ payload, (framed_frame ops ?_ _).append hframed, ?_, hleft⟩
      · exact (length_take_le _ _)
      · rw [append_assoc, ← hrest, take_append_drop]

/-! ## Streams -/

/-- Bytes that are not in a frame come behind the last one. -/
theorem start_raw {ops : Nat} {raw : Bytes} (h : ops ≠ 0 → raw = []) :
    start ops raw = (raw, ⟨[], if ops = 0 then .passthrough else .header, ops⟩) := by
  unfold start
  split
  · rw [run]
  · rename_i hops
    rw [h hops, run]
    rfl

theorem start_nil (ops : Nat) :
    start ops [] = ([], ⟨[], if ops = 0 then .passthrough else .header, ops⟩) :=
  start_raw fun _ => rfl

/-- An encoder's first return is the case of its loop that has nothing to do. -/
theorem encode_eq (e : NaivePadEncoder) (payload : Bytes) :
    e.encode pads payload = ((writeFrames pads e.opsRemaining payload).1 ++
      (writeFrames pads e.opsRemaining payload).2.1, ⟨(writeFrames pads e.opsRemaining payload).2.2⟩) := by
  unfold NaivePadEncoder.encode
  split
  · rename_i h
    rcases h with h | rfl
    · cases e; cases h; rfl
    · cases e with | mk ops => cases ops <;> rfl
  · rfl

theorem Framed.zero {ops' : Nat} {padded payload : Bytes} (h : Framed 0 padded payload ops') :
    padded = [] ∧ payload = [] ∧ ops' = 0 := by
  have hpadded : padded = [] := by
    by_contra hne
    exact h.part [] padded rfl hne (by rw [start_nil]; rfl)
  have hwhole := h.whole []
  rw [hpadded, append_nil, start_nil, start_nil] at hwhole
  have hout := congrArg Prod.fst hwhole
  have hops := congrArg (·.2.opsRemaining) hwhole
  exact ⟨hpadded, (List.append_eq_nil_iff.mp hout.symm).1, hops.symm⟩

/-- The stream of the payloads: frames, and behind the last one bytes as they are. -/
theorem encodeAll_framed (payloads : List Bytes) : ∀ e : NaivePadEncoder, ∃ padded payload raw,
    (e.encodeAll pads payloads).1 = padded ++ raw ∧ payloads.flatten = payload ++ raw ∧
      padded.length = e.paddedLength pads payloads ∧
      Framed e.opsRemaining padded payload (e.encodeAll pads payloads).2.opsRemaining ∧
      ((e.encodeAll pads payloads).2.opsRemaining ≠ 0 → raw = []) := by
  induction payloads with
  | nil => intro e; exact ⟨[], [], [], rfl, rfl, rfl, Framed.nil _, fun _ => rfl⟩
  | cons p payloads ih =>
    intro e
    obtain ⟨c, hframed, hp, hleft⟩ := framed_writeFrames pads e.opsRemaining p
    obtain ⟨padded, payload, raw, hstream, hflat, hlen, hlater, hraw⟩ := ih (e.encode pads p).2
    rw [NaivePadEncoder.encodeAll, NaivePadEncoder.paddedLength]
    rw [encode_eq] at hstream hlen hlater hraw ⊢
    generalize writeFrames pads e.opsRemaining p = w at *
    -- there is no frame behind bytes as they are
    have hswap : w.2.1 ++ padded = padded ++ w.2.1 ∧ w.2.1 ++ payload = payload ++ w.2.1 := by
      by_cases hops : w.2.2 = 0
      · rw [hops] at hlater
        simp [hlater.zero]
      · simp [hleft hops]
    refine ⟨w.1 ++ padded, c ++ payload, w.2.1 ++ raw, ?_, ?_, ?_, hframed.append hlater, ?_⟩
    · rw [hstream, append_assoc, append_assoc, ← append_assoc w.2.1, hswap.1]
      simp
    · rw [flatten_cons, hflat, hp, append_assoc, ← append_assoc w.2.1, hswap.2]
      simp
    · rw [length_append, hlen]
    · intro hops
      have hw : w.2.2 ≠ 0 := by
        intro h0
        rw [h0] at hlater hops
        exact hops hlater.zero.2.2
      rw [hleft hw, hraw hops]
      rfl

/-- **The padding is taken off again.** For every choice of paddings and every list of
payloads: from any chunks of the stream the decoder puts out the payloads, and it has
counted as many frames as the encoder. Behind any first part of the stream the decoder is
out of padding mode if and only if the encoder has left it too and that part has all its
frames. -/
theorem padding_inverted (pads : Nat → Padding) (payloads : List Bytes) :
    (∀ chunks : List Bytes, chunks.flatten = (NaivePadEncoder.new.encodeAll pads payloads).1 →
      (NaivePadDecoder.new.feedAll chunks).1 = payloads.flatten ∧
      (NaivePadDecoder.new.feedAll chunks).2.opsRemaining =
        (NaivePadEncoder.new.encodeAll pads payloads).2.opsRemaining) ∧
    (∀ (chunks : List Bytes) (later : Bytes),
      chunks.flatten ++ later = (NaivePadEncoder.new.encodeAll pads payloads).1 →
      ((NaivePadDecoder.new.feedAll chunks).2.state = .passthrough ↔
        (NaivePadEncoder.new.encodeAll pads payloads).2.opsRemaining = 0 ∧
          NaivePadEncoder.new.paddedLength pads payloads ≤ chunks.flatten.length)) := by
  obtain ⟨padded, payload, raw, hstream, hflat, hlen, hframed, hraw⟩ :=
    encodeAll_framed pads payloads NaivePadEncoder.new
  have hfeed : ∀ chunks : List Bytes, NaivePadDecoder.new.feedAll chunks = start naivePadOps chunks.flatten := by
    intro chunks
    have hrun := feedAll_run chunks .header naivePadOps []
    rw [show run .header naivePadOps [] = ([], NaivePadDecoder.new) from start_nil naivePadOps] at hrun
    exact hrun.symm
  have hwhole : ∀ t, start naivePadOps (padded ++ t) = _ := hframed.whole
  refine ⟨fun chunks hchunks => ?_, fun chunks later hchunks => ?_⟩
  · rw [hfeed, hchunks, hstream, hwhole, start_raw hraw, hflat]
    exact ⟨rfl, rfl⟩
  · rw [hfeed, ← hlen]
    rw [hstream] at hchunks
    by_cases hle : padded.length ≤ chunks.flatten.length
    · obtain ⟨c, hc⟩ : padded <+: chunks.flatten := prefix_of_prefix_length_le ⟨raw, rfl⟩ ⟨later, hchunks⟩ hle
      rw [← hc, append_assoc, append_cancel_left_eq] at hchunks
      have hnil := fun hops => (List.append_eq_nil_iff.mp (hchunks.trans (hraw hops))).1
      rw [← hc, hwhole, start_raw hnil]
      simp
    · obtain ⟨b, hb⟩ : chunks.flatten <+: padded :=
        prefix_of_prefix_length_le ⟨later, hchunks⟩ ⟨raw, rfl⟩ (Nat.le_of_not_le hle)
      have hne : b ≠ [] := by
        rintro rfl
        exact hle (by simp [← hb])
      exact ⟨fun h => absurd h (hframed.part _ b hb hne), fun h => absurd h.2 hle⟩

end Wrongsv.L2.Naive
