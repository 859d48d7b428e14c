import Wrongsv.L1Encoding.GrpcHunk

/-!
# The uplink of a gRPC stream

Two parties of server/handler/grpc.rs: `drive_incoming`, which takes the
request body apart into the data of the hunks and sends it into a channel for 32
messages, and the relay, which reads from `GrpcStream` until a read returns `Ok(0)`.
A run is a list of their steps in any order: the driver's next step (`Step.drive`:
take a chunk of the body, or send one message), and a read of the relay with a
buffer of some size. A party that has to wait makes no step: the driver for room in
the channel, the relay for a message.

A relay that has seen its end of stream reads no more; what the driver then makes of
the closed channel is left out.

Results: `drive_inv`, `read_inv`, `run_inv`, `finishes`.
-/
namespace Wrongsv.L2.GrpcUplink
open Framing L1.GrpcHunk

/-! ## The parties -/

/-- What `body.data()` returns next; behind the last one the body ends. -/
inductive BodyEvent where
  | data (chunk : Bytes)
  /-- reset with `CANCEL`, `NO_ERROR` or `STREAM_CLOSED` -/
  | gracefulEnd
  | error
  deriving DecidableEq, Repr

/-- Where `drive_incoming` is. -/
inductive Driver where
  | reading
  /-- the body has ended -/
  | ended
  /-- a reset, a stream error or an error of the decoder -/
  | aborted
  deriving DecidableEq, Repr

structure State where
  body : List BodyEvent
  driver : Driver
  buf : Bytes
  /-- messages the driver has not sent yet -/
  outbox : List Bytes
  /-- the channel -/
  queue : List Bytes
  pending : Bytes
  eof : Bool
  /-- what the relay's reads returned -/
  got : Bytes
  /-- a read has returned no bytes -/
  done : Bool
  deriving DecidableEq, Repr

def State.start (body : List BodyEvent) : State :=
  ⟨body, .reading, [], [], [], [], false, [], false⟩

/-- The sender is dropped when `drive_incoming` has returned. -/
def State.closed (s : State) : Prop := s.driver ≠ .reading ∧ s.outbox = []

instance (s : State) : Decidable s.closed := inferInstanceAs (Decidable (_ ∧ _))

def drive (c : HunkCodec) (s : State) : State :=
  match s.outbox with
  | message :: outbox =>
    if s.queue.length < 32 then { s with outbox := outbox, queue := s.queue ++ [message] } else s
  | [] =>
    match s.driver, s.body with
    | .reading, .data chunk :: body =>
      match (decoder c).drain (s.buf ++ chunk) with
      | (frames, .ok buf) => { s with body := body, buf := buf, outbox := frames }
      -- the frames in front of the bad one are sent before `?` returns
      | (frames, .error _) => { s with body := body, driver := .aborted, outbox := frames }
    | .reading, .gracefulEnd :: body => { s with body := body, driver := .aborted }
    | .reading, .error :: body => { s with body := body, driver := .aborted }
    | .reading, [] => { s with driver := .ended, outbox := if s.buf = [] then [] else [s.buf] }
    | _, _ => s

/-- A read that returns. -/
def State.deliver (s : State) (b : Bytes) : State := { s with got := s.got ++ b, done := b.isEmpty }

/-- `GrpcReader::read` is the same. -/
def read (size : Nat) (s : State) : State :=
  if s.done then s
  else if s.pending ≠ [] then { s with pending := s.pending.drop size }.deliver (s.pending.take size)
  else if s.eof then s.deliver []
  else
    match s.queue with
    | message :: queue =>
      if message.length ≤ size then { s with queue := queue }.deliver message
      else { s with queue := queue, pending := message.drop size }.deliver (message.take size)
    | [] => if s.closed then { s with eof := true }.deliver [] else s

inductive Step where
  | drive
  | read (size : { n : Nat // 0 < n })
  deriving DecidableEq, Repr

def step (c : HunkCodec) (s : State) : Step → State
  | .drive => drive c s
  | .read size => read size s

def run (c : HunkCodec) (s : State) (steps : List Step) : State := steps.foldl (step c) s

/-! ## What is uploaded -/

/-- Hunks, and what the end of the stream has left of one more. -/
structure Upload (c : HunkCodec) where
  hunks : List (Hunk c)
  tail : Bytes
  cut : ∃ h : Hunk c, ∃ k < (encodeHunkFrame c h.data).length, tail = (encodeHunkFrame c h.data).take k

namespace Upload

variable {c : HunkCodec}

def bytes (u : Upload c) : Bytes := u.hunks.flatMap (fun h => encodeHunkFrame c h.data) ++ u.tail

/-- The data of the complete hunks. -/
def data (u : Upload c) : Bytes := u.hunks.flatMap Hunk.data

/-- What the driver sends at the end of the body. -/
def tailMessage (u : Upload c) : List Bytes := if u.tail = [] then [] else [u.tail]

def messages (u : Upload c) : List Bytes := u.hunks.map Hunk.data ++ u.tailMessage

theorem cutFrame (u : Upload c) : Frame.Cut (decoder c) u.tail := by
  obtain ⟨h, k, hk, htail⟩ := u.cut
  exact ⟨h.frame, k, hk, htail⟩

theorem messages_flatten (u : Upload c) : u.messages.flatten = u.data ++ u.tail := by
  rw [messages, tailMessage, data, List.flatten_append, List.flatMap_def]
  split <;> simp [*]

end Upload

/-! ## The invariant -/

variable {c : HunkCodec} {u : Upload c} {s : State} {taken coming : List Bytes}

/-- What the driver still has to make messages of. -/
inductive Driving (c : HunkCodec) (u : Upload c) (s : State) : List Bytes → Prop where
  | reading (left : List (Hunk c)) (chunks : List Bytes) (driver : s.driver = .reading)
      (body : s.body = chunks.map .data)
      (bytes : s.buf ++ chunks.flatten = Frame.stream (left.map Hunk.frame) ++ u.tail)
      (buf : (decoder c).next s.buf = .ok none) : Driving c u s (left.map Hunk.data ++ u.tailMessage)
  | ended (driver : s.driver = .ended) : Driving c u s []

theorem Driving.congr {s' : State} (h : Driving c u s coming) (hdriver : s'.driver = s.driver)
    (hbody : s'.body = s.body) (hbuf : s'.buf = s.buf) : Driving c u s' coming := by
  cases h with
  | reading left chunks driver body bytes buf =>
    exact .reading left chunks (hdriver.trans driver) (hbody.trans body) (by rw [hbuf]; exact bytes)
      (by rw [hbuf]; exact buf)
  | ended driver => exact .ended (hdriver.trans driver)

/-- Everything has been read. -/
structure Drained (s : State) : Prop where
  driver : s.driver = .ended
  outbox : s.outbox = []
  queue : s.queue = []
  pending : s.pending = []

/-- The messages `taken` were taken out of the channel, `coming` are not decoded yet. -/
structure Inv (c : HunkCodec) (u : Upload c) (s : State) (taken coming : List Bytes) : Prop where
  messages : taken ++ (s.queue ++ (s.outbox ++ coming)) = u.messages
  got : s.got ++ s.pending = taken.flatten
  driving : Driving c u s coming
  done : s.done = true → [] ∈ taken ∨ Drained s
  eof : s.eof = true → s.done = true

/-- The end of the body is still to come. -/
def Driver.left : Driver → Nat
  | .reading => 1
  | _ => 0

/-- What is left to do. -/
def work (s : State) (coming : List Bytes) : Nat :=
  s.body.length + s.driver.left + (s.outbox ++ coming).length + s.pending.length +
    ((s.queue ++ (s.outbox ++ coming)).map (·.length + 1)).sum

theorem start_inv {chunks : List Bytes} (h : chunks.flatten = u.bytes) :
    Inv c u (State.start (chunks.map .data)) [] u.messages where
  messages := rfl
  got := rfl
  driving := by
    refine .reading u.hunks chunks rfl rfl ?_ rfl
    simp [State.start, h, Upload.bytes, Frame.stream, List.flatMap_map, Hunk.frame]
  done := by simp [State.start]
  eof := by simp [State.start]

/-! ## A step of the driver -/

theorem drive_closed (h : s.closed) : drive c s = s := by
  obtain ⟨hdriver, houtbox⟩ := h
  grind [drive]

theorem drive_queue (h : (drive c s).queue = []) : s.queue = [] := by
  unfold drive at h
  split at h
  · split at h
    · simp at h
    · exact h
  all_goals grind

/-- **The driver.** It moves a message on, or takes the next chunk or the end of the
body; it does nothing only if the channel is full or its work is done. -/
theorem drive_inv (h : Inv c u s taken coming) :
    ∃ coming', Inv c u (drive c s) taken coming' ∧ work (drive c s) coming' ≤ work s coming ∧
      (s.queue = [] → ¬ s.closed → work (drive c s) coming' < work s coming) := by
  have hdone : s.done = true → [] ∈ taken ∨ Drained (drive c s) := fun hd => (h.done hd).imp_right fun hdr => by
    rw [drive_closed ⟨by simp [hdr.driver], hdr.outbox⟩]
    exact hdr
  cases houtbox : s.outbox with
  | cons message outbox =>
    by_cases hroom : s.queue.length < 32
    · have heq : drive c s = { s with outbox := outbox, queue := s.queue ++ [message] } := by
        simp [drive, houtbox, hroom]
      rw [heq] at hdone ⊢
      refine ⟨coming, ⟨?_, h.got, h.driving.congr rfl rfl rfl, hdone, h.eof⟩, ?_, fun _ _ => ?_⟩
      · simpa [houtbox] using h.messages
      · simp [work, houtbox]
      · simp [work, houtbox]
    all_goals grind [drive]
  | nil =>
    cases h.driving with
    | reading left chunks driver body bytes buf =>
      cases chunks with
      | nil =>
        -- the end of the body
        have heq : drive c s = { s with driver := .ended, outbox := if s.buf = [] then [] else [s.buf] } := by
          simp [drive, houtbox, driver, body]
        obtain ⟨hleft, hbuf⟩ := Frame.left_nil (by simpa using bytes) buf
        have hleft' : left = [] := by simpa using hleft
        rw [heq] at hdone ⊢
        refine ⟨[], ⟨?_, h.got, .ended rfl, hdone, h.eof⟩, ?_, fun _ _ => ?_⟩
        · simpa [houtbox, hleft', hbuf, Upload.tailMessage] using h.messages
        · simp [work, houtbox, hleft', hbuf, Upload.tailMessage, driver, Driver.left]
        · simp [work, houtbox, hleft', hbuf, Upload.tailMessage, driver, Driver.left]
      | cons chunk chunks =>
        obtain ⟨done, left', rest, hsplit, hdrain, hbytes, hnone⟩ :=
          Frame.drain_stream u.cutFrame (left.map Hunk.frame) (s.buf ++ chunk)
            (by rw [List.append_assoc]; simpa using bytes)
        obtain ⟨front, back, rfl, rfl, rfl⟩ := List.map_eq_append_iff.mp hsplit
        have hvalues : (front.map Hunk.frame).map Frame.value = front.map Hunk.data := by
          simp [Hunk.frame]
        have heq : drive c s = { s with body := chunks.map .data, buf := rest, outbox := front.map Hunk.data } := by
          grind [drive]
        rw [heq] at hdone ⊢
        refine ⟨back.map Hunk.data ++ u.tailMessage,
          ⟨?_, h.got, .reading back chunks driver rfl hbytes hnone, hdone, h.eof⟩, ?_, fun _ _ => ?_⟩
        · simpa [houtbox] using h.messages
        all_goals grind [work]
    | ended driver =>
      have hclosed : s.closed := ⟨by simp [driver], houtbox⟩
      grind [drive_closed]

/-! ## A read of the relay -/

variable {size : Nat}

theorem take_ne_nil (hsize : 0 < size) {b : Bytes} (hb : b ≠ []) : b.take size ≠ [] := by
  grind [List.take_eq_nil_iff]

theorem read_message {message : Bytes} {queue : List Bytes} (hdone : s.done = false)
    (heof : s.eof = false) (hpending : s.pending = []) (hqueue : s.queue = message :: queue) :
    read size s = { s with queue := queue, pending := message.drop size }.deliver (message.take size) := by
  by_cases hfits : message.length ≤ size
  · simp [read, hdone, hpending, heof, hqueue, hfits, State.deliver, List.take_of_length_le hfits,
      List.drop_eq_nil_of_le hfits]
  · simp [read, hdone, hpending, heof, hqueue, hfits]

/-- A read that leaves `s'`: the messages are kept, there is not more to do than before,
and less if something was there; at the end of the channel it is the last read. -/
def Reads (c : HunkCodec) (u : Upload c) (s s' : State) (coming : List Bytes) : Prop :=
  ∃ taken', Inv c u s' taken' coming ∧ work s' coming ≤ work s coming ∧
    (s'.done = false → s.pending ≠ [] ∨ s.queue ≠ [] → work s' coming < work s coming) ∧
    (s.pending = [] → s.queue = [] → s.closed → s'.done = true)

theorem reads_pending (hsize : 0 < size) (h : Inv c u s taken coming) (heof : s.eof = false)
    (hpending : s.pending ≠ []) :
    Reads c u s ({ s with pending := s.pending.drop size }.deliver (s.pending.take size)) coming := by
  have hpos := List.length_pos_of_ne_nil hpending
  refine ⟨taken, ⟨?_, ?_, h.driving.congr rfl rfl rfl, fun hempty => ?_, ?_⟩, ?_, fun _ _ => ?_,
    fun hp => absurd hp hpending⟩
  · simpa [State.deliver] using h.messages
  · simpa [State.deliver] using h.got
  all_goals grind [State.deliver, take_ne_nil, work]

theorem reads_message (hsize : 0 < size) (h : Inv c u s taken coming) (heof : s.eof = false)
    (hpending : s.pending = []) {message : Bytes} {queue : List Bytes} (hqueue : s.queue = message :: queue) :
    Reads c u s ({ s with queue := queue, pending := message.drop size }.deliver (message.take size)) coming := by
  have hgot : s.got = taken.flatten := by simpa [hpending] using h.got
  refine ⟨taken ++ [message], ⟨?_, ?_, h.driving.congr rfl rfl rfl, fun hempty => ?_, ?_⟩, ?_, fun _
    _ => ?_, fun _ hq => by simp [hqueue] at hq⟩
  · simpa [State.deliver, hqueue] using h.messages
  · simp [State.deliver, hgot]
  · simp only [State.deliver, List.isEmpty_iff] at hempty
    grind [take_ne_nil]
  all_goals grind [State.deliver, work]

theorem reads_closed (h : Inv c u s taken coming) (hpending : s.pending = []) (hqueue : s.queue = [])
    (hclosed : s.closed) : Reads c u s ({ s with eof := true }.deliver []) coming := by
  have hended : s.driver = .ended := by
    cases h.driving with
    | reading _ _ driver => exact absurd driver hclosed.1
    | ended driver => exact driver
  refine ⟨taken, ⟨?_, ?_, h.driving.congr rfl rfl rfl, fun _ => .inr ⟨hended, hclosed.2, hqueue,
    hpending⟩, fun _ => rfl⟩, ?_, fun hf => by simp [State.deliver] at hf, fun _ _ _ => rfl⟩
  · simpa [State.deliver] using h.messages
  · simpa [State.deliver] using h.got
  · simp [work, State.deliver]

/-- **The relay.** It takes bytes of the message it is in, or the next message; when the
channel is closed and empty it gets its end of stream. -/
theorem read_inv (hsize : 0 < size) (h : Inv c u s taken coming) :
    Reads c u s (read size s) coming := by
  by_cases hdone : s.done = true
  · have heq : read size s = s := by simp [read, hdone]
    rw [heq]
    exact ⟨taken, h, Nat.le_refl _, fun hf => by simp [hdone] at hf, fun _ _ _ => hdone⟩
  have heof : s.eof = false := by
    cases he : s.eof with
    | false => rfl
    | true => exact absurd (h.eof he) hdone
  rw [Bool.not_eq_true] at hdone
  by_cases hpending : s.pending = []
  · cases hqueue : s.queue with
    | cons message queue =>
      rw [read_message hdone heof hpending hqueue]
      exact reads_message hsize h heof hpending hqueue
    | nil =>
      by_cases hclosed : s.closed
      · have heq : read size s = { s with eof := true }.deliver [] := by
          simp [read, hdone, hpending, heof, hqueue, hclosed]
        rw [heq]
        exact reads_closed h hpending hqueue hclosed
      · -- the read waits
        have heq : read size s = s := by simp [read, hdone, hpending, heof, hqueue, hclosed]
        rw [heq]
        exact ⟨taken, h, Nat.le_refl _, fun _ hor => by simp [hpending, hqueue] at hor,
          fun _ _ hcl => absurd hcl hclosed⟩
  · have heq : read size s = { s with pending := s.pending.drop size }.deliver (s.pending.take size) := by
      simp [read, hdone, hpending]
    rw [heq]
    exact reads_pending hsize h heof hpending

/-! ## Runs -/

theorem step_inv (h : Inv c u s taken coming) (st : Step) :
    ∃ taken' coming', Inv c u (step c s st) taken' coming' := by
  cases st with
  | drive =>
    obtain ⟨coming', hinv, -⟩ := drive_inv h
    exact ⟨taken, coming', hinv⟩
  | read size =>
    obtain ⟨taken', hinv, -⟩ := read_inv size.property h
    exact ⟨taken', coming, hinv⟩

/-- **Every run** keeps the messages. -/
theorem run_inv (steps : List Step) : ∀ {s : State} {taken coming : List Bytes}, Inv c u s taken
    coming → ∃ taken' coming', Inv c u (run c s steps) taken' coming' := by
  induction steps with
  | nil => intro s taken coming h; exact ⟨taken, coming, h⟩
  | cons st steps ih =>
    intro s taken coming h
    obtain ⟨taken', coming', h'⟩ := step_inv h st
    exact ih h'

/-- A turn of each party. -/
def rounds (size : { n : Nat // 0 < n }) (n : Nat) : List Step :=
  (List.replicate n [Step.drive, Step.read size]).flatten

theorem round_inv (size : { n : Nat // 0 < n }) (h : Inv c u s taken coming) :
    ∃ taken' coming', Inv c u (read size (drive c s)) taken' coming' ∧
      ((read size (drive c s)).done = true ∨ work (read size (drive c s)) coming' < work s coming) := by
  obtain ⟨coming', hdrive, hle, hlt⟩ := drive_inv h
  obtain ⟨taken', hread, hle', hlt', hend⟩ := read_inv size.property hdrive
  refine ⟨taken', coming', hread, ?_⟩
  by_cases hdone : (read size (drive c s)).done = true
  · exact .inl hdone
  · rw [Bool.not_eq_true] at hdone
    refine .inr ?_
    by_cases hsome : (drive c s).pending ≠ [] ∨ (drive c s).queue ≠ []
    · exact Nat.lt_of_lt_of_le (hlt' hdone hsome) hle
    · -- nothing to read, so the driver had something to do
      grind [drive_queue, drive_closed]

/-- **The end of stream comes** if both parties keep going. -/
theorem finishes (size : { n : Nat // 0 < n }) (h : Inv c u s taken coming) :
    ∃ n, (run c s (rounds size n)).done = true := by
  induction hwork : work s coming using Nat.strongRecOn generalizing s taken coming with
  | _ left ih =>
    obtain ⟨taken', coming', hinv, hdone | hlt⟩ := round_inv size h
    · exact ⟨1, hdone⟩
    · obtain ⟨n, hn⟩ := ih _ (hwork ▸ hlt) hinv rfl
      exact ⟨n + 1, hn⟩

end Wrongsv.L2.GrpcUplink
