import Wrongsv.L2Machine.WebSocket.Stream

/-!
# WebSocket: a timeout inside a frame loses the frame

`read_frame` (websocket/frame.rs:64-132) reads head, length, mask and payload one after the other
and keeps them on the stack. If one of the reads reports `WouldBlock`, the relay loops call
`read` again (server/handler/websocket.rs:680-688), and the middle of the frame is taken for
the head of the next one. Over TLS this needs no slow client: `AnyTlsStream::read`
(anytls/lib.rs:121-159) reports `WouldBlock` whenever a TLS record is not complete.

Fix: keep the bytes of a partial frame in the stream, and parse them again.
-/
namespace Wrongsv.Bugs.WebSocketIdleReads
open L1.WebSocket L2.WebSocket List

/-! ## A caller that asks again -/

inductive Stop where
  | eof
  | failed (e : IoError)
  deriving DecidableEq, Repr

/-- websocket.rs:676-688; call `i` has a buffer
of `lens i` bytes -/
def retry.go (lens : Nat → Nat) : Nat → Nat → WebSocketStream → Collected (Option Stop)
  | 0, _, _ => ⟨[], none⟩
  | fuel + 1, i, s =>
    match s.read (lens i) with
    | (.ok [], _) => ⟨[], some .eof⟩
    | (.ok bytes, s) => (go lens fuel (i + 1) s).prepend bytes
    | (.error .wouldBlock, s) => go lens fuel (i + 1) s
    | (.error e, _) => ⟨[], some (.failed e)⟩

/-- Every call gives a byte, or takes a byte or a `WouldBlock`. -/
def retry (lens : Nat → Nat) (s : WebSocketStream) : Collected (Option Stop) :=
  retry.go lens (s.bufRemaining + s.inner.weight + 1) 0 s

/-! ## What the frames say -/

/-- The caller's bytes, by the frames. An empty Binary frame ends them like a
Close. -/
def carried : List ClientFrame → Collected (Option Stop)
  | [] => ⟨[], some (.failed (.frame (.io .truncated)))⟩
  | f :: fs =>
    match f.received with
    | .ok ⟨_, .binary, []⟩ => ⟨[], some .eof⟩
    | .ok ⟨_, .binary, payload⟩ => (carried fs).prepend payload
    | .ok ⟨_, .text, _⟩ => ⟨[], some (.failed .text)⟩
    | .ok ⟨_, .ping, _⟩ => carried fs
    | .ok ⟨_, .pong, _⟩ => carried fs
    | .ok ⟨_, .close, _⟩ => ⟨[], some .eof⟩
    | .error e => ⟨[], some (.failed (.frame e))⟩

/-- What `fill_buffer` makes of the next frames, and what is left for the caller. -/
inductive Filled (fs : List ClientFrame) (limit : Nat) : Except IoError Bool × View → Prop
  | ended (v : View) (h : carried fs = ⟨[], some .eof⟩) : Filled fs limit (.ok false, v)
  | failed (e : IoError) (v : View) (hne : e ≠ .wouldBlock) (h : carried fs = ⟨[], some (.failed e)⟩) :
    Filled fs limit (.error e, v)
  | idle (es : List Event) (out : Bytes) (h : carried fs = carried (framesOf es)) (hlt : cost es < limit) :
    Filled fs limit (.error .wouldBlock, ⟨[], es, false, out⟩)
  | empty (es : List Event) (out : Bytes) (h : carried fs = ⟨[], some .eof⟩) :
    Filled fs limit (.ok true, ⟨[], es, false, out⟩)
  | frame (payload : Bytes) (es : List Event) (out : Bytes) (hne : payload ≠ [])
    (h : carried fs = (carried (framesOf es)).prepend payload) (hlt : payload.length + cost es < limit) :
    Filled fs limit (.ok true, ⟨payload, es, false, out⟩)

theorem Filled.mono {fs fs' : List ClientFrame} {k m : Nat} {q : Except IoError Bool × View}
    (h : Filled fs k q) (hc : carried fs' = carried fs) (hkm : k ≤ m) : Filled fs' m q := by
  cases h with
  | ended v h => exact .ended v (hc.trans h)
  | failed e v hne h => exact .failed e v hne (hc.trans h)
  | idle es out h hlt => exact .idle es out (hc.trans h) (Nat.lt_of_lt_of_le hlt hkm)
  | empty es out h => exact .empty es out (hc.trans h)
  | frame payload es out hne h hlt => exact .frame payload es out hne (hc.trans h) (Nat.lt_of_lt_of_le hlt hkm)

theorem payload_of_received {f : ClientFrame} {frame : Frame} (h : f.received = .ok frame) :
    frame.payload = f.payload := by
  unfold ClientFrame.received at h
  grind

theorem filled (es : List Event) : ∀ out, Filled (framesOf es) (cost es) (fill out es) := by
  induction es with
  | nil => intro out; exact .failed _ _ IoError.noConfusion rfl
  | cons e es ih =>
    intro out
    cases e with
    | idle => exact .idle es out rfl (by simp only [cost]; omega)
    | frame f =>
      have hlen := bytes_length f
      rw [framesOf, fill, cost]
      cases hr : f.received with
      | error e =>
        have hne : IoError.frame e ≠ .wouldBlock := IoError.noConfusion
        exact .failed _ _ hne (by simp only [carried, hr])
      | ok frame =>
        have hp := payload_of_received hr
        obtain ⟨fin, opcode, payload⟩ := frame
        cases opcode with
        | text => exact .failed _ _ IoError.noConfusion (by simp only [carried, hr])
        | close => exact .ended _ (by simp only [carried, hr])
        | ping => exact (ih _).mono (by simp only [carried, hr]) (Nat.le_add_left _ _)
        | pong => exact (ih _).mono (by simp only [carried, hr]) (Nat.le_add_left _ _)
        | binary =>
          cases payload with
          | nil => exact .empty es out (by simp only [carried, hr])
          | cons a payload =>
            refine .frame _ es out (cons_ne_nil _ _) (by simp only [carried, hr]) ?_
            grind

/-! ## Timeouts between frames -/

variable {lens : Nat → Nat}

/-- Some bytes of a payload, then what is left of it and of the stream. -/
theorem go_serve {fuel i : Nat} {s s' : WebSocketStream} {payload : Bytes} {r : Collected (Option Stop)}
    (hpos : 0 < lens i) (hne : payload ≠ []) (hread : s.read (lens i) = (.ok (payload.take (lens i)), s'))
    (hrest : retry.go lens fuel (i + 1) s' = r.prepend (payload.drop (lens i))) :
    retry.go lens (fuel + 1) i s = r.prepend payload := by
  rw [retry.go, hread]
  cases htake : payload.take (lens i) with
  | nil => simp_all
  | cons a taken => simp only [hrest, Collected.prepend_prepend, ← htake, take_append_drop]

/-- **Timeouts between frames do no harm.** -/
theorem go_between (hlens : ∀ i, 0 < lens i) (fuel : Nat) :
    ∀ (i : Nat) (s : WebSocketStream) (pending : Bytes) (es : List Event) (out : Bytes),
      Shows s ⟨pending, es, false, out⟩ → pending.length + cost es < fuel →
      retry.go lens fuel i s = (carried (framesOf es)).prepend pending := by
  induction fuel with
  | zero => intro i s pending es out _ h; cases h
  | succ fuel ih =>
    intro i s pending es out hs hfuel
    have hpos := hlens i
    have hserved : ∀ {payload : Bytes} {n : Nat}, payload ≠ [] → payload.length + n < fuel + 1 →
        (payload.drop (lens i)).length + n < fuel := by
      intro payload n hne hlt
      have hlen := length_pos_of_ne_nil hne
      rw [length_drop]
      omega
    by_cases hp : pending = []
    · subst hp
      have hread := read_shows hs (lens i)
      have hfilled := filled es out
      rw [View.read_fill] at hread
      generalize fill out es = q at hfilled hread
      have hnil : (carried (framesOf es)).prepend [] = carried (framesOf es) := rfl
      rw [hnil]
      cases hfilled with
      | ended v h =>
        rw [retry.go, show s.read (lens i) = (.ok [], _) from Prod.ext hread.result rfl, h]
      | failed e v hne h =>
        rw [retry.go, show s.read (lens i) = (.error e, _) from Prod.ext hread.result rfl, h]
        simp
      | idle es' out' h hlt =>
        rw [retry.go, show s.read (lens i) = (.error .wouldBlock, _) from Prod.ext hread.result rfl, h]
        refine ih (i + 1) _ [] es' out' (hread.shows.resolve_left ?_) (by rw [length_nil]; omega)
        simp
      | empty es' out' h =>
        simp only [take_nil] at hread
        rw [retry.go, show s.read (lens i) = (.ok [], _) from Prod.ext hread.result rfl, h]
      | frame payload es' out' hne h hlt =>
        rw [h]
        exact go_serve hpos hne (Prod.ext hread.result rfl)
          (ih (i + 1) _ _ es' out' hread.shows_of_ok (hserved hne (by omega)))
    · have hread := read_shows hs (lens i)
      rw [View.read_pending hp] at hread
      exact go_serve hpos hp (Prod.ext hread.result rfl)
        (ih (i + 1) _ _ es out hread.shows_of_ok (hserved hp hfuel))

/-- Every timeout of the schedule falls between two frames, or before the first
or behind the last one. -/
def Between (frames : List ClientFrame) (s : Schedule) : Prop :=
  ∃ es, framesOf es = frames ∧ schedule es = s

theorem retry_between (hlens : ∀ i, 0 < lens i) {frames : List ClientFrame} {s : Schedule}
    (h : Between frames s) : retry lens (WebSocketStream.new s []) = carried frames := by
  obtain ⟨es, rfl, rfl⟩ := h
  have hs := new_shows es []
  refine go_between hlens _ 0 _ [] es [] hs ?_
  rw [hs.bufRemaining, show (WebSocketStream.new (schedule es) []).inner = schedule es from rfl, schedule_weight]
  exact Nat.lt_succ_self _

/-! ## A timeout inside a frame -/

theorem read_inside {f : ClientFrame} {frame : Frame} (hf : f.received = .ok frame) {got missing : Bytes}
    (hbytes : f.bytes = got ++ missing) (hm : missing ≠ []) (next : Bytes) (later : List Bytes) (len : Nat) :
    (WebSocketStream.new ⟨got, next :: later⟩ []).read len =
      (.error .wouldBlock, WebSocketStream.new ⟨next, later⟩ []) := by
  obtain ⟨left, hsettles, hleft⟩ := settles_readFrame f
  rw [hleft ⟨frame, hf⟩, hbytes] at hsettles
  have hblock := ((exact_readFrame true).starves hsettles hm).block next later
  unfold WebSocketStream.read
  rw [WebSocketStream.fillBuffer, WebSocketStream.fillBuffer.go,
    show (WebSocketStream.new ⟨got, next :: later⟩ []).inner = ⟨got, next :: later⟩ from rfl, hblock]
  rfl

/-! ## Result -/

/-- **Timeouts.** A caller that asks again gets the same bytes and the same end
as without timeouts, whatever its buffers are, if every timeout falls between
two frames; and a read that times out leaves the stream where it was if and
only if no byte of the frame has arrived. -/
theorem retry_independent (frames : List ClientFrame) :
    (∀ (s : Schedule), Between frames s → ∀ (lens lens' : Nat → Nat), (∀ i, 0 < lens i) → (∀ i, 0 < lens' i) →
      retry lens (WebSocketStream.new s []) = retry lens' (WebSocketStream.new ⟨s.bytes, []⟩ [])) ∧
    ∀ f ∈ frames, ∀ frame, f.received = .ok frame → ∀ got missing, f.bytes = got ++ missing → missing ≠ [] →
      ∀ (next : Bytes) (later : List Bytes) (len : Nat),
        ((WebSocketStream.new ⟨got, next :: later⟩ []).read len).2.inner.bytes =
          Schedule.bytes ⟨got, next :: later⟩ ↔ got = [] := by
  constructor
  · intro s hs lens lens' hlens hlens'
    have hwhole : Between frames ⟨s.bytes, []⟩ := by
      obtain ⟨es, rfl, rfl⟩ := hs
      obtain ⟨h1, h2⟩ := schedule_frames (framesOf es)
      exact ⟨_, h2, by rw [h1, schedule_bytes]⟩
    rw [retry_between hlens hs, retry_between hlens' hwhole]
  · intro f _ frame hf got missing hbytes hm next later len
    rw [read_inside hf hbytes hm]
    show next ++ later.flatten = got ++ (next :: later).flatten ↔ got = []
    constructor
    · intro h
      have hlen := congrArg List.length h
      rw [flatten_cons] at hlen
      simp only [length_append] at hlen
      exact eq_nil_of_length_eq_zero (by omega)
    · rintro rfl
      rfl

/-- A Binary frame with `hi`, a Ping, and a Close. -/
def hi : ClientFrame := .hi
def ping : ClientFrame := .empty 0x89 1 2 3 4
def bye : ClientFrame := .empty 0x88 0 0 0 0

/-- Timeouts in front of, between and behind the frames. -/
theorem idle_between_frames :
    retry (fun _ => 1) (WebSocketStream.new ⟨[], [hi.bytes, [], ping.bytes ++ bye.bytes]⟩ []) =
        retry (fun _ => 32768) (WebSocketStream.new ⟨hi.bytes ++ ping.bytes ++ bye.bytes, []⟩ []) ∧
      retry (fun _ => 1) (WebSocketStream.new ⟨[], [hi.bytes, [], ping.bytes ++ bye.bytes]⟩ []) =
        ⟨[0x68, 0x69], some .eof⟩ ∧
      (((WebSocketStream.new ⟨[], [hi.bytes]⟩ []).read 1).2.inner.bytes = Schedule.bytes
        ⟨[], [hi.bytes]⟩ ↔ ([] : Bytes) = []) := by
  refine ⟨?_, by decide +kernel, (retry_independent [hi, ping, bye]).2 hi mem_cons_self
    ⟨true, .binary, [0x68, 0x69]⟩ (by decide +kernel) [] hi.bytes rfl (by decide) hi.bytes [] 1⟩
  exact (retry_independent [hi, ping, bye]).1 ⟨[], [hi.bytes, [], ping.bytes ++ bye.bytes]⟩
    ⟨[.idle, .frame hi, .idle, .idle, .frame ping, .frame bye], rfl, rfl⟩ _ _
    (fun _ => Nat.one_pos) (fun _ => by decide)

/-- A timeout between the mask and the payload: the caller gets `hi` without
it, and an error with it. -/
theorem timeout_inside_frame_loses_it :
    (hi.bytes ++ bye.bytes).take 6 ++ (hi.bytes ++ bye.bytes).drop 6 = [hi, bye].flatMap (·.bytes) ∧
      retry (fun _ => 32768) (WebSocketStream.new ⟨hi.bytes ++ bye.bytes, []⟩ []) = ⟨[0x68, 0x69], some .eof⟩ ∧
      retry (fun _ => 32768)
          (WebSocketStream.new ⟨(hi.bytes ++ bye.bytes).take 6, [(hi.bytes ++ bye.bytes).drop 6]⟩ []) =
        ⟨[], some (.failed (.frame .notMasked))⟩ := by
  decide +kernel

end Wrongsv.Bugs.WebSocketIdleReads
