import Wrongsv.Core

/-!
# Frames in a byte stream

A decoder takes one frame off the front of a buffer, or says that there is no
whole frame yet. A reader adds what arrives to its buffer and runs the decoder
until there is no whole frame left (`Decoder.drain`).

Results, beside `feed_stream`:
* `drain_eq`: the loop, one frame at a time; it never runs out of fuel.
* `drain_stream`: on the first bytes of a stream of frames it takes the whole
  frames among them, and leaves a part of the next one.
-/
namespace Wrongsv.Framing
open List

variable {ε α : Type}

structure Decoder (ε α : Type) where
  /-- the value of the first frame and what is behind it; `none` if it is not whole yet -/
  next : Bytes → Except ε (Option (α × Bytes))
  shrinks : ∀ {b rest : Bytes} {a : α}, next b = .ok (some (a, rest)) → rest.length < b.length

namespace Decoder

variable (d : Decoder ε α)

/-- The values of the frames, and the bytes that are left or the error. -/
def drainGo : Nat → Bytes → List α × Except ε Bytes
  | 0, b => ([], .ok b)
  | fuel + 1, b =>
    match d.next b with
    | .error e => ([], .error e)
    | .ok none => ([], .ok b)
    | .ok (some (a, rest)) => (a :: (drainGo fuel rest).1, (drainGo fuel rest).2)

def drain (b : Bytes) : List α × Except ε Bytes := d.drainGo (b.length + 1) b

theorem drainGo_enough (fuel : Nat) : ∀ {fuel' : Nat} {b : Bytes}, b.length < fuel → b.length <
    fuel' → d.drainGo fuel b = d.drainGo fuel' b := by
  induction fuel with
  | zero => intro fuel' b h; omega
  | succ fuel ih =>
    intro fuel' b h h'
    obtain ⟨fuel', rfl⟩ : ∃ k, fuel' = k + 1 := ⟨fuel' - 1, by omega⟩
    rw [drainGo, drainGo]
    cases hn : d.next b with
    | error e => rfl
    | ok r =>
      cases r with
      | none => rfl
      | some p =>
        have hlt := d.shrinks hn
        have hrest : d.drainGo fuel p.2 = d.drainGo fuel' p.2 := ih (by omega) (by omega)
        simp only [hrest]

theorem drain_eq (b : Bytes) : d.drain b =
    match d.next b with
    | .error e => ([], .error e)
    | .ok none => ([], .ok b)
    | .ok (some (a, rest)) => (a :: (d.drain rest).1, (d.drain rest).2) := by
  unfold drain
  rw [drainGo]
  cases hn : d.next b with
  | error e => rfl
  | ok r =>
    cases r with
    | none => rfl
    | some p =>
      have hlt := d.shrinks hn
      have hrest : d.drainGo b.length p.2 = d.drainGo (p.2.length + 1) p.2 :=
        d.drainGo_enough _ (by omega) (by omega)
      simp only [hrest]

theorem drain_some {b rest : Bytes} {a : α} (h : d.next b = .ok (some (a, rest))) :
    d.drain b = (a :: (d.drain rest).1, (d.drain rest).2) := by
  rw [drain_eq, h]

theorem drain_none {b : Bytes} (h : d.next b = .ok none) : d.drain b = ([], .ok b) := by
  rw [drain_eq, h]

/-- Every chunk is put behind what was left, and the loop is run. -/
def feed : Bytes → List Bytes → List α × Except ε Bytes
  | pending, [] => ([], .ok pending)
  | pending, chunk :: chunks =>
    match d.drain (pending ++ chunk) with
    | (values, .error e) => (values, .error e)
    | (values, .ok rest) => (values ++ (feed rest chunks).1, (feed rest chunks).2)

theorem feed_cons {pending chunk rest : Bytes} {values : List α} (chunks : List Bytes)
    (h : d.drain (pending ++ chunk) = (values, .ok rest)) : d.feed pending (chunk :: chunks) =
    (values ++ (d.feed rest chunks).1, (d.feed rest chunks).2) := by
  rw [feed, h]

theorem mem_drainGo {a : α} (fuel : Nat) : ∀ {b : Bytes}, a ∈ (d.drainGo fuel b).1 →
    ∃ b rest, d.next b = .ok (some (a, rest)) := by
  induction fuel with
  | zero => intro b h; cases h
  | succ fuel ih =>
    intro b h
    rw [drainGo] at h
    split at h
    · cases h
    · cases h
    · rename_i first rest hnext
      rcases mem_cons.mp h with rfl | h
      · exact ⟨b, rest, hnext⟩
      · exact ih h

/-- Every value was taken off the front of some buffer. -/
theorem mem_feed {a : α} (chunks : List Bytes) : ∀ {pending : Bytes}, a ∈
    (d.feed pending chunks).1 → ∃ b rest, d.next b = .ok (some (a, rest)) := by
  induction chunks with
  | nil => intro pending h; cases h
  | cons chunk chunks ih =>
    intro pending h
    have hdrain : ∀ {b : Bytes}, a ∈ (d.drain b).1 → _ := fun hm => d.mem_drainGo _ hm
    rw [feed] at h
    split at h
    · rename_i hd
      exact hdrain (by rw [hd]; exact h)
    · rename_i hd
      rcases mem_append.mp h with h | h
      · exact hdrain (by rw [hd]; exact h)
      · exact ih h

end Decoder

/-- A frame: a decoder takes it whole and nothing behind it, and waits for the rest of a part. -/
structure Frame (d : Decoder ε α) where
  bytes : Bytes
  value : α
  whole : ∀ t, d.next (bytes ++ t) = .ok (some (value, t))
  part : ∀ {k : Nat}, k < bytes.length → d.next (bytes.take k) = .ok none

namespace Frame

variable {d : Decoder ε α}

/-- The frames of a stream, one behind the other. -/
def stream (frames : List (Frame d)) : Bytes := frames.flatMap Frame.bytes

@[simp] theorem stream_nil : stream ([] : List (Frame d)) = [] := rfl

@[simp] theorem stream_cons (f : Frame d) (frames : List (Frame d)) :
    stream (f :: frames) = f.bytes ++ stream frames := rfl

/-- What is left of a frame that was cut. -/
def Cut (d : Decoder ε α) (tail : Bytes) : Prop :=
  ∃ f : Frame d, ∃ k < f.bytes.length, tail = f.bytes.take k

variable {tail later : Bytes}

theorem next_cut {b : Bytes} (h : Cut d tail) (hb : b ++ later = tail) : d.next b = .ok none := by
  obtain ⟨f, k, hk, rfl⟩ := h
  have htake : b = f.bytes.take b.length := by
    have hpre : b <+: f.bytes.take k := ⟨later, hb⟩
    exact List.prefix_iff_eq_take.mp (hpre.trans ( take_prefix k _))
  have hlen := congrArg List.length hb
  rw [length_append, length_take] at hlen
  rw [htake]
  exact f.part (by omega)

/-- No first part of `tail` is a whole frame. -/
def Waits (d : Decoder ε α) (tail : Bytes) : Prop :=
  ∀ {b later : Bytes}, b ++ later = tail → d.next b = .ok none

theorem Cut.waits (h : Cut d tail) : Waits d tail := fun hb => next_cut h hb

theorem waits_nil (h : d.next [] = .ok none) : Waits d [] := by
  intro b later hb
  rw [(List.append_eq_nil_iff.mp hb).1]
  exact h

/-- **The loop on the first bytes of a stream** takes the frames that are whole. -/
theorem drain_waits (htail : Waits d tail) (frames : List (Frame d)) : ∀ b : Bytes,
    b ++ later = stream frames ++ tail →
    ∃ done left rest, frames = done ++ left ∧ d.drain b = (done.map Frame.value, .ok rest) ∧
      rest ++ later = stream left ++ tail ∧ d.next rest = .ok none := by
  induction frames with
  | nil =>
    intro b hb
    have hnone := htail hb
    exact ⟨[], [], b, rfl, d.drain_none hnone, hb, hnone⟩
  | cons f frames ih =>
    intro b hb
    rw [stream_cons, append_assoc] at hb
    by_cases hlen : f.bytes.length ≤ b.length
    · have hpre : f.bytes <+: b :=
        prefix_of_prefix_length_le ⟨_, rfl⟩ (by rw [← hb]; exact prefix_append b later) hlen
      obtain ⟨more, rfl⟩ := hpre
      rw [append_assoc] at hb
      obtain ⟨done, left, rest, hsplit, hdrain, hbytes, hnone⟩ := ih more (append_cancel_left hb)
      refine ⟨f :: done, left, rest, by rw [hsplit]; rfl, ?_, hbytes, hnone⟩
      rw [d.drain_some (f.whole more), hdrain]
      rfl
    · have hpre : b <+: f.bytes :=
        prefix_of_prefix_length_le (by rw [← hb]; exact prefix_append b later) ⟨_, rfl⟩ (by omega)
      have hnone := @Frame.part _ _ _ f b.length (by omega)
      rw [← List.prefix_iff_eq_take.mp hpre] at hnone
      refine ⟨[], f :: frames, b, rfl, d.drain_none hnone, ?_, hnone⟩
      rw [stream_cons, append_assoc, hb]

theorem drain_stream (htail : Cut d tail) (frames : List (Frame d)) (b : Bytes)
    (hb : b ++ later = stream frames ++ tail) :
    ∃ done left rest, frames = done ++ left ∧ d.drain b = (done.map Frame.value, .ok rest) ∧
      rest ++ later = stream left ++ tail ∧ d.next rest = .ok none :=
  drain_waits htail.waits frames b hb

/-- **The stream in chunks.** Whatever the chunks are: the frames that are whole are
taken, in order, and what is pending is the part of the stream behind them. -/
theorem feed_stream (htail : Waits d tail) (chunks : List Bytes) :
    ∀ {frames : List (Frame d)} {pending : Bytes}, d.next pending = .ok none →
      pending ++ (chunks.flatten ++ later) = stream frames ++ tail → ∃ done left rest,
      frames = done ++ left ∧ d.feed pending chunks = (done.map Frame.value, .ok rest) ∧
        rest ++ later = stream left ++ tail ∧ d.next rest = .ok none := by
  induction chunks with
  | nil =>
    intro frames pending hnone hb
    exact ⟨[], frames, pending, rfl, rfl, hb, hnone⟩
  | cons chunk chunks ih =>
    intro frames pending _ hb
    rw [flatten_cons, append_assoc, ← append_assoc] at hb
    obtain ⟨done, left, rest, rfl, hdrain, hrest, hnone⟩ := drain_waits htail frames (pending ++ chunk) hb
    obtain ⟨done', left', rest', rfl, hfeed, hrest', hnone'⟩ := ih hnone hrest
    refine ⟨done ++ done', left', rest', by rw [append_assoc], ?_, hrest', hnone'⟩
    rw [d.feed_cons chunks hdrain, hfeed, map_append]

theorem length_lt_of_waiting {f : Frame d} {left : List (Frame d)} {rest : Bytes}
    (hrest : rest ++ later = stream (f :: left) ++ tail) (hnone : d.next rest = .ok none) :
    rest.length < f.bytes.length := by
  by_contra hge
  rw [stream_cons, append_assoc] at hrest
  have hpre : f.bytes <+: rest :=
    prefix_of_prefix_length_le ⟨_, rfl⟩ (by rw [← hrest]; exact prefix_append rest later)
      (Nat.not_lt.mp hge)
  obtain ⟨more, rfl⟩ := hpre
  rw [f.whole] at hnone
  cases hnone

/-- Nothing but a cut frame is left when the whole stream is there. -/
theorem left_nil {rest : Bytes} {left : List (Frame d)} (hbytes : rest = stream left ++ tail)
    (hnone : d.next rest = .ok none) : left = [] ∧ rest = tail := by
  cases left with
  | nil => exact ⟨rfl, hbytes⟩
  | cons f left =>
    rw [hbytes, stream_cons, append_assoc, f.whole] at hnone
    cases hnone

end Frame

end Wrongsv.Framing
