import Wrongsv.L1Encoding.WebSocketFrame

/-!
# WebSocketStream

`WebSocketStream` of websocket/stream.rs presents the Binary frames
of a client as a byte stream. It answers Ping and Close itself.

Below the model of the code, over the bytes of the inner stream, is a view of it
in terms of frames: what is left of the current payload, and the frames that
will arrive, with a `WouldBlock` between some of them. `read_shows` says that
`read` is the same on both, up to the first fatal error.
-/
namespace Wrongsv.L2.WebSocket
open L1.WebSocket List

/-- The errors of `WebSocketStream::read`; all but the first are fatal. -/
inductive IoError where
  | wouldBlock
  | frame (e : FrameError)
  /-- "unexpected text frame (only binary supported)" -/
  | text
  deriving DecidableEq, Repr

structure WebSocketStream where
  inner : Schedule
  /-- what has been written to the inner stream -/
  out : Bytes
  readBuf : Bytes
  readPos : Nat
  closed : Bool
  deriving DecidableEq, Repr

namespace WebSocketStream

def new (inner : Schedule) (initial : Bytes) : WebSocketStream := ⟨inner, [], initial, 0, false⟩

def bufRemaining (s : WebSocketStream) : Nat := s.readBuf.length - s.readPos

/-- stream.rs:61-113; the results of the writes are
ignored there, and `write_pong` fails only on a payload that is too long -/
def fillBuffer.go : Nat → WebSocketStream → Except IoError Bool × WebSocketStream
  | 0, s => (.error (.frame (.io .truncated)), s)
  | fuel + 1, s =>
    match readFrame true s.inner with
    | (.ok ⟨_, .binary, payload⟩, inner) => (.ok true, { s with inner, readBuf := payload, readPos := 0 })
    | (.ok ⟨_, .text, _⟩, inner) => (.error .text, { s with inner })
    | (.ok ⟨_, .ping, payload⟩, inner) =>
      go fuel { s with inner, out := s.out ++ (writePong payload).toOption.getD [] }
    | (.ok ⟨_, .pong, _⟩, inner) => go fuel { s with inner }
    | (.ok ⟨_, .close, _⟩, inner) =>
      (.ok false, { inner, out := s.out ++ writeClose 1000, readBuf := [], readPos := 0, closed := true })
    | (.error (.io .wouldBlock), inner) => (.error .wouldBlock, { s with inner })
    | (.error e, inner) => (.error (.frame e), { s with inner })

/-- Every pass takes a byte or a `WouldBlock`.
stream.rs:62-113 -/
def fillBuffer (s : WebSocketStream) : Except IoError Bool × WebSocketStream :=
  fillBuffer.go (s.inner.weight + 1) s

/-- The next bytes of the buffer, at most `len`. -/
def serve (s : WebSocketStream) (len : Nat) : Except IoError Bytes × WebSocketStream :=
  let n := min s.bufRemaining len
  (.ok ((s.readBuf.drop s.readPos).take n), { s with readPos := s.readPos + n })

/-- stream.rs:117-147; `len` is the length of the
caller's buffer -/
def read (s : WebSocketStream) (len : Nat) : Except IoError Bytes × WebSocketStream :=
  if s.closed then (.ok [], s)
  else if 0 < s.bufRemaining then s.serve len
  else
    match s.fillBuffer with
    | (.ok true, s) => s.serve len
    | (.ok false, s) => (.ok [], s)
    | (.error e, s) => (.error e, s)

/-- One read after the other, until an error. -/
def reads (s : WebSocketStream) : List Nat → List (Except IoError Bytes) × WebSocketStream
  | [] => ([], s)
  | len :: lens =>
    match s.read len with
    | (.error e, s') => ([.error e], s')
    | (.ok bytes, s') =>
      let (results, s'') := s'.reads lens
      (.ok bytes :: results, s'')

end WebSocketStream

/-! ## Frames and timeouts -/

inductive Event where
  | frame (f : ClientFrame)
  | idle

/-- The inner stream on which these events happen. -/
def schedule : List Event → Schedule
  | [] => ⟨[], []⟩
  | .frame f :: es => ⟨f.bytes ++ (schedule es).avail, (schedule es).later⟩
  | .idle :: es => ⟨[], (schedule es).avail :: (schedule es).later⟩

def framesOf : List Event → List ClientFrame
  | [] => []
  | .frame f :: es => f :: framesOf es
  | .idle :: es => framesOf es

/-- Bytes and `WouldBlock`s. -/
def cost : List Event → Nat
  | [] => 0
  | .frame f :: es => f.bytes.length + cost es
  | .idle :: es => 1 + cost es

variable (es : List Event)

theorem schedule_bytes : (schedule es).bytes = (framesOf es).flatMap (·.bytes) := by
  induction es with
  | nil => rfl
  | cons e es ih =>
    cases e with
    | frame f =>
      rw [framesOf, flatMap_cons, ← ih, schedule, Schedule.bytes, Schedule.bytes, append_assoc]
    | idle => exact ih

theorem schedule_weight : (schedule es).weight = cost es := by
  induction es with
  | nil => rfl
  | cons e es ih =>
    rw [Schedule.weight, Schedule.bytes, length_append] at ih ⊢
    cases e with
    | frame f => simp only [schedule, cost, length_append]; omega
    | idle => simp only [schedule, cost, flatten_cons, length_append, length_cons, length_nil]; omega

theorem bytes_length (f : ClientFrame) : f.payload.length + 6 ≤ f.bytes.length := by
  have := f.mask_length
  have hfield : 1 ≤ (f.form.field 0x80 f.payload.length).length := by cases f.form <;> exact Nat.le_add_left 1 _
  simp only [ClientFrame.bytes, maskedPayload, length_append, length_cons, length_applyMask]
  omega

theorem length_le_cost : es.length ≤ cost es := by
  induction es with
  | nil => exact Nat.le_refl 0
  | cons e es ih =>
    cases e with
    | frame f => have := bytes_length f; simp only [cost, length_cons]; omega
    | idle => simp only [cost, length_cons]; omega

theorem schedule_frames (fs : List ClientFrame) :
    schedule (fs.map .frame) = ⟨fs.flatMap (·.bytes), []⟩ ∧ framesOf (fs.map .frame) = fs := by
  induction fs with
  | nil => exact ⟨rfl, rfl⟩
  | cons f fs ih => exact ⟨by simp only [map_cons, schedule, ih.1, flatMap_cons],
      by rw [map_cons, framesOf, ih.2]⟩

/-! ## The stream in terms of frames -/

structure View where
  /-- what is left of the current payload -/
  pending : Bytes
  events : List Event
  closed : Bool
  out : Bytes

/-- `fill_buffer`. Behind a fatal error the view says nothing. -/
def fill (out : Bytes) : List Event → Except IoError Bool × View
  | [] => (.error (.frame (.io .truncated)), ⟨[], [], false, out⟩)
  | .idle :: es => (.error .wouldBlock, ⟨[], es, false, out⟩)
  | .frame f :: es =>
    match f.received with
    | .ok ⟨_, .binary, payload⟩ => (.ok true, ⟨payload, es, false, out⟩)
    | .ok ⟨_, .text, _⟩ => (.error .text, ⟨[], es, false, out⟩)
    | .ok ⟨_, .ping, payload⟩ => fill (out ++ writeFrame (pongFrame payload)) es
    | .ok ⟨_, .pong, _⟩ => fill out es
    | .ok ⟨_, .close, _⟩ => (.ok false, ⟨[], es, true, out ++ writeClose 1000⟩)
    | .error e => (.error (.frame e), ⟨[], es, false, out⟩)

namespace View

def serve (v : View) (len : Nat) : Except IoError Bytes × View :=
  (.ok (v.pending.take len), { v with pending := v.pending.drop len })

/-- stream.rs:117-147 -/
def read (v : View) (len : Nat) : Except IoError Bytes × View :=
  if v.closed then (.ok [], v)
  else if v.pending ≠ [] then v.serve len
  else
    match fill v.out v.events with
    | (.ok true, v) => v.serve len
    | (.ok false, v) => (.ok [], v)
    | (.error e, v) => (.error e, v)

def reads (v : View) : List Nat → List (Except IoError Bytes) × View
  | [] => ([], v)
  | len :: lens =>
    match v.read len with
    | (.error e, v') => ([.error e], v')
    | (.ok bytes, v') =>
      let (results, v'') := v'.reads lens
      (.ok bytes :: results, v'')

theorem read_closed (v : View) (h : v.closed = true) (len : Nat) : v.read len = (.ok [], v) := by
  rw [read, if_pos h]

theorem read_pending {pending : Bytes} (hp : pending ≠ []) (es : List Event) (out : Bytes) (len : Nat) :
    read ⟨pending, es, false, out⟩ len = (.ok (pending.take len), ⟨pending.drop len, es, false, out⟩) := by
  rw [read, if_neg Bool.false_ne_true, if_pos hp, serve]

theorem read_fill (es : List Event) (out : Bytes) (len : Nat) :
    read ⟨[], es, false, out⟩ len = match fill out es with
      | (.ok true, v) => (.ok (v.pending.take len), { v with pending := v.pending.drop len })
      | (.ok false, v) => (.ok [], v)
      | (.error e, v) => (.error e, v) := rfl

/-- After the Close every read returns `Ok(0)`. -/
theorem reads_closed (lens : List Nat) {v : View} (h : v.closed = true) :
    v.reads lens = (List.replicate lens.length (.ok []), v) := by
  induction lens with
  | nil => rfl
  | cons len lens ih => grind [reads, read_closed]

end View

structure Shows (s : WebSocketStream) (v : View) : Prop where
  inner : s.inner = schedule v.events
  out : s.out = v.out
  pending : s.readBuf.drop s.readPos = v.pending
  closed : s.closed = v.closed

/-- The same result and the same answers to the client, and the view is still
right unless the result is a fatal error. -/
structure Agree {α : Type} (r : Except IoError α × WebSocketStream) (q : Except IoError α × View) : Prop where
  result : r.1 = q.1
  out : r.2.out = q.2.out
  shows : (∃ e, q.1 = .error e ∧ e ≠ .wouldBlock) ∨ Shows r.2 q.2

theorem Agree.of_shows {α : Type} {result : Except IoError α} {s : WebSocketStream} {v : View}
    (h : Shows s v) : Agree (result, s) (result, v) :=
  ⟨rfl, h.out, .inr h⟩

theorem Agree.shows_of_ok {α : Type} {r : Except IoError α × WebSocketStream} {a : α} {v : View}
    (h : Agree r (.ok a, v)) : Shows r.2 v :=
  h.shows.resolve_left (fun ⟨_, he, _⟩ => nomatch he)

/-! ## The view is right -/

theorem checkHead_ne_io {opcode : Opcode} {len : Nat} {e : FrameError} {r : ReadError}
    (h : checkHead true true opcode len = .error e) : e ≠ .io r := by
  unfold checkHead at h
  split_ifs at h <;> (cases h; rintro ⟨⟩)

theorem received_ne_io {f : ClientFrame} {e : FrameError} {r : ReadError}
    (h : f.received = .error e) : e ≠ .io r := by
  unfold ClientFrame.received at h
  grind [checkHead_ne_io]

theorem writePong_received {f : ClientFrame} {fin : Bool} {payload : Bytes}
    (h : f.received = .ok ⟨fin, .ping, payload⟩) :
    (writePong payload).toOption.getD [] = writeFrame (pongFrame payload) := by
  have hle : ¬ maxCtrlPayload < payload.length := by
    unfold ClientFrame.received at h
    grind [checkHead]
  rw [writePong, if_neg hle]
  rfl

theorem readFrame_frame (f : ClientFrame) (es : List Event) :
    ∃ inner, readFrame true (schedule (.frame f :: es)) = (f.received, inner) ∧
      ((∃ frame, f.received = .ok frame) → inner = schedule es) := by
  obtain ⟨left, h, hleft⟩ := settles_readFrame f
  refine ⟨_, h _ _, fun hok => ?_⟩
  rw [hleft hok]
  rfl

theorem fill_shows : ∀ (fuel : Nat) (s : WebSocketStream), es.length < fuel →
    Shows s ⟨[], es, false, s.out⟩ → Agree (WebSocketStream.fillBuffer.go fuel s) (fill s.out es) := by
  induction es with
  | nil =>
    intro fuel s hfuel hs
    obtain ⟨fuel, rfl⟩ := Nat.exists_eq_succ_of_ne_zero (Nat.ne_of_gt (Nat.zero_lt_of_lt hfuel))
    rw [WebSocketStream.fillBuffer.go, hs.inner, show readFrame true (schedule []) = _ from starves_readFrame_nil.eof]
    exact ⟨rfl, rfl, .inl ⟨_, rfl, nofun⟩⟩
  | cons e es ih =>
    intro fuel s hfuel hs
    obtain ⟨fuel, rfl⟩ := Nat.exists_eq_succ_of_ne_zero (Nat.ne_of_gt (Nat.zero_lt_of_lt hfuel))
    have hfuel' : es.length < fuel := Nat.lt_of_succ_lt_succ hfuel
    rw [WebSocketStream.fillBuffer.go, hs.inner]
    cases e with
    | idle =>
      exact .of_shows ⟨rfl, rfl, hs.pending, hs.closed⟩
    | frame f =>
      obtain ⟨inner, hread, hinner⟩ := readFrame_frame f es
      rw [hread, fill]
      cases hr : f.received with
      | error e =>
        have hne : ∀ r, e ≠ .io r := fun r => received_ne_io hr
        cases e with
        | io r => exact absurd rfl (hne r)
        | _ => exact ⟨rfl, rfl, .inl ⟨_, rfl, nofun⟩⟩
      | ok frame =>
        have hnext := hinner ⟨frame, hr⟩
        obtain ⟨fin, opcode, payload⟩ := frame
        cases opcode with
        | text => exact ⟨rfl, rfl, .inl ⟨_, rfl, nofun⟩⟩
        | binary => exact .of_shows ⟨hnext, rfl, rfl, hs.closed⟩
        | close => exact .of_shows ⟨hnext, rfl, rfl, rfl⟩
        | pong => exact ih fuel { s with inner } hfuel' ⟨hnext, rfl, hs.pending, hs.closed⟩
        | ping =>
          simp only [writePong_received hr]
          exact ih fuel { s with inner, out := s.out ++ writeFrame (pongFrame payload) } hfuel'
            ⟨hnext, rfl, hs.pending, hs.closed⟩

variable {s : WebSocketStream} {v : View}

theorem Shows.bufRemaining (h : Shows s v) : s.bufRemaining = v.pending.length := by
  rw [← h.pending, length_drop]
  rfl

theorem serve_shows (h : Shows s v) (len : Nat) : Agree (s.serve len) (v.serve len) := by
  have htake : min s.bufRemaining len = min len v.pending.length := by
    rw [h.bufRemaining, Nat.min_comm]
  refine ⟨?_, h.out, .inr ⟨h.inner, h.out, ?_, h.closed⟩⟩
  · show Except.ok _ = Except.ok _
    rw [h.pending, htake, ← take_eq_take_min]
  · show s.readBuf.drop (s.readPos + min s.bufRemaining len) = v.pending.drop len
    rw [← drop_drop, h.pending, htake]
    simp

/-- **The view.** `read` gives the same result on the bytes and on the frames. -/
theorem read_shows (h : Shows s v) (len : Nat) : Agree (s.read len) (v.read len) := by
  unfold WebSocketStream.read View.read
  rw [h.closed, h.bufRemaining]
  cases hc : v.closed with
  | true => exact .of_shows h
  | false =>
    simp only [Bool.false_eq_true, if_false]
    by_cases hp : v.pending = []
    · rw [if_neg (by rw [hp]; exact Nat.lt_irrefl 0), if_neg (not_not.mpr hp)]
      have hfuel : v.events.length < s.inner.weight + 1 := by
        rw [h.inner, schedule_weight]
        exact Nat.lt_succ_of_le (length_le_cost _)
      have hfill := fill_shows v.events _ s hfuel ⟨h.inner, rfl, h.pending.trans hp, h.closed.trans hc⟩
      rw [h.out] at hfill
      rw [WebSocketStream.fillBuffer]
      generalize WebSocketStream.fillBuffer.go (s.inner.weight + 1) s = r at hfill ⊢
      generalize fill v.out v.events = q at hfill ⊢
      obtain ⟨result, s'⟩ := r
      obtain ⟨result', v'⟩ := q
      cases hfill.result
      cases result with
      | error e =>
        refine ⟨rfl, hfill.out, ?_⟩
        rcases hfill.shows with ⟨e', he, hne⟩ | hshows
        all_goals simp_all
      | ok more =>
        cases more with
        | true => exact serve_shows hfill.shows_of_ok len
        | false => exact .of_shows hfill.shows_of_ok
    · rw [if_pos (length_pos_of_ne_nil hp), if_pos hp]
      exact serve_shows h len

/-- **Reads to the end.** The same results and the same answers to the client. -/
theorem reads_shows (lens : List Nat) : ∀ {s : WebSocketStream} {v : View}, Shows s v →
    (s.reads lens).1 = (v.reads lens).1 ∧ (s.reads lens).2.out = (v.reads lens).2.out := by
  induction lens with
  | nil => intro s v h; exact ⟨rfl, h.out⟩
  | cons len lens ih =>
    intro s v h
    have hread := read_shows h len
    rw [WebSocketStream.reads, View.reads]
    generalize s.read len = r at hread ⊢
    generalize v.read len = q at hread ⊢
    obtain ⟨result, s'⟩ := r
    obtain ⟨result', v'⟩ := q
    cases hread.result
    cases result with
    | error e => exact ⟨rfl, hread.out⟩
    | ok bytes =>
      obtain ⟨h1, h2⟩ := ih hread.shows_of_ok
      exact ⟨by simp only [h1], h2⟩

theorem new_shows (initial : Bytes) :
    Shows (WebSocketStream.new (schedule es) initial) ⟨initial, es, false, []⟩ :=
  ⟨rfl, rfl, drop_zero, rfl⟩

end Wrongsv.L2.WebSocket
