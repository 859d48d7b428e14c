import Wrongsv.L2Machine.WebSocket.Stream

/-!
# WebSocket: an empty Binary frame looks like the end of the stream

`read` of websocket/stream.rs:117-147 serves what it finds in the buffer after `fill_buffer` has
returned `Ok(true)`. For a Binary frame without payload that is nothing, so it returns
`Ok(0)`, which every caller takes for the end of the stream.

Everything else holds (`presents_iff`).

Fix: go on to the next frame in `fill_buffer` if the payload is empty.
-/
namespace Wrongsv.Bugs.WebSocketEmptyFrame
open L1.WebSocket L2.WebSocket List

/-! ## Sessions -/

/-- A Binary frame, or a Ping or Pong. -/
structure DataFrame extends ClientFrame where
  opcode : Opcode
  opcode_eq : Opcode.fromU8 (head &&& 0x0F) = some opcode
  kind : opcode = .binary ∧ payload.length ≤ maxFrameSize ∨
    (opcode = .ping ∨ opcode = .pong) ∧ payload.length ≤ maxCtrlPayload

structure CloseFrame extends ClientFrame where
  opcode_eq : Opcode.fromU8 (head &&& 0x0F) = some .close
  len : payload.length ≤ maxCtrlPayload

/-- What a client sends before it closes, and the Close. -/
structure Session where
  body : List DataFrame
  last : CloseFrame

def binaryPayload (f : DataFrame) : Bytes := if f.opcode = .binary then f.payload else []

def pong (f : DataFrame) : Bytes :=
  if f.opcode = .ping then writeFrame (pongFrame f.payload) else []

namespace Session

variable (s : Session)

def frames : List ClientFrame := s.body.map (·.toClientFrame) ++ [s.last.toClientFrame]

def bytes : Bytes := s.frames.flatMap (·.bytes)

/-- The concatenation of the Binary payloads. -/
def payload : Bytes := s.body.flatMap binaryPayload

/-- One Pong per Ping, then a Close. -/
def answers : Bytes := s.body.flatMap pong ++ writeClose 1000

end Session

/-- The results of reads with buffers of `lens` bytes, and what has been written
to the client: some pieces of the payload, none of them empty; then nothing but
`Ok(0)`, but only if all of the payload has been read and all answers have been
sent, the Close being the last one. -/
def Presents (payload answers : Bytes) (lens : List Nat) (results : List (Except IoError Bytes))
    (out : Bytes) : Prop :=
  ∃ pieces : List Bytes, pieces.length ≤ lens.length ∧ (∀ p ∈ pieces, p ≠ []) ∧
    results = pieces.map .ok ++ List.replicate (lens.length - pieces.length) (.ok []) ∧
    pieces.flatten <+: payload ∧ out <+: answers ∧
    (pieces.length < lens.length → pieces.flatten = payload ∧ out = answers)

section
variable {payload answers out piece : Bytes} {lens : List Nat}
  {results : List (Except IoError Bytes)}

theorem presents_nil (h : out <+: answers) : Presents payload answers [] [] out :=
  ⟨[], Nat.le_refl 0, nofun, rfl, nil_prefix, h, fun h => absurd h (Nat.lt_irrefl 0)⟩

theorem Presents.cons (hpiece : piece ≠ []) (h : Presents payload answers lens results out)
    (len : Nat) : Presents (piece ++ payload) answers (len :: lens) (.ok piece :: results) out := by
  obtain ⟨pieces, hle, hne, rfl, hpre, hout, hall⟩ := h
  refine ⟨piece :: pieces, Nat.succ_le_succ hle, ?_, ?_, ?_, hout, fun hlt => ?_⟩
  all_goals simp_all

theorem Presents.uncons {len : Nat} (hpiece : piece ≠ [])
    (h : Presents (piece ++ payload) answers (len :: lens) (.ok piece :: results) out) :
    Presents payload answers lens results out := by
  obtain ⟨pieces, hle, hne, hres, hpre, hout, hall⟩ := h
  cases pieces with
  | nil => simp_all
  | cons p pieces =>
    simp only [length_cons, Nat.add_sub_add_right, map_cons, cons_append, List.cons.injEq,
      Except.ok.injEq] at hres
    obtain ⟨rfl, hres⟩ := hres
    refine ⟨pieces, Nat.le_of_succ_le_succ hle, fun p hp => hne p (mem_cons_of_mem _ hp), hres,
      (prefix_append_right_inj piece).mp hpre, hout, fun hlt => ?_⟩
    simp_all

end

/-! ## Reading a session -/

theorem checkHead_binary {len : Nat} (h : len ≤ maxFrameSize) :
    checkHead true true .binary len = .ok () := by
  grind [checkHead]

theorem checkHead_control (opcode : Opcode) {len : Nat} (h : len ≤ maxCtrlPayload) :
    checkHead true true opcode len = .ok () := by
  have hmax : len ≤ maxFrameSize := Nat.le_trans h (by decide)
  grind [checkHead]

theorem received_data (f : DataFrame) :
    f.toClientFrame.received = .ok ⟨f.head &&& 0x80 != 0, f.opcode, f.payload⟩ := by
  have hcheck : checkHead true true f.opcode f.payload.length = .ok () := by
    rcases f.kind with ⟨hop, hlen⟩ | ⟨-, hlen⟩
    · rw [hop]
      exact checkHead_binary hlen
    · exact checkHead_control _ hlen
  simp only [ClientFrame.received, f.opcode_eq, hcheck]

theorem received_close (f : CloseFrame) :
    f.toClientFrame.received = .ok ⟨f.head &&& 0x80 != 0, .close, f.payload⟩ := by
  simp only [ClientFrame.received, f.opcode_eq, checkHead_control _ f.len]

/-- The frames that will arrive: those of a session from some point on. -/
def arrivals (body : List DataFrame) (last : CloseFrame) : List Event :=
  body.map (fun f => .frame f.toClientFrame) ++ [.frame last.toClientFrame]

theorem fill_control (es : List Event) : ∀ (control : List DataFrame) (out : Bytes),
    (∀ f ∈ control, f.opcode ≠ .binary) →
    fill out (control.map (fun f => .frame f.toClientFrame) ++ es) = fill (out ++ control.flatMap pong) es := by
  intro control
  induction control with
  | nil => intro out _; rw [flatMap_nil, append_nil]; rfl
  | cons f control ih =>
    intro out h
    rw [map_cons, cons_append, fill, received_data, flatMap_cons, ← append_assoc, pong]
    rcases f.kind with ⟨hop, -⟩ | ⟨hop | hop, -⟩
    all_goals simp_all

/-- A body starts with Pings and Pongs, and then there is a Binary frame or the
Close. -/
theorem body_cases (body : List DataFrame) : (∀ f ∈ body, f.opcode ≠ .binary) ∨
      ∃ (control : List DataFrame) (b : DataFrame) (rest : List DataFrame), body = control ++ b :: rest ∧
        (∀ f ∈ control, f.opcode ≠ .binary) ∧ b.opcode = .binary := by
  induction body with
  | nil => exact .inl nofun
  | cons f body ih =>
    by_cases hf : f.opcode = .binary
    · exact .inr ⟨[], f, body, rfl, nofun, hf⟩
    all_goals grind

theorem payload_control {control : List DataFrame} (h : ∀ f ∈ control, f.opcode ≠ .binary) :
    control.flatMap binaryPayload = [] := by
  rw [flatMap_eq_nil_iff]
  intro f hf
  rw [binaryPayload, if_neg (h f hf)]

section
variable {control rest : List DataFrame} {b : DataFrame} (last : CloseFrame)

theorem fill_binary (hc : ∀ f ∈ control, f.opcode ≠ .binary) (hb : b.opcode = .binary)
    (out : Bytes) : fill out (arrivals (control ++ b :: rest) last) =
      (.ok true, ⟨b.payload, arrivals rest last, false, out ++ control.flatMap pong⟩) := by
  grind [arrivals, fill_control, fill, received_data]

theorem payload_binary (hc : ∀ f ∈ control, f.opcode ≠ .binary) (hb : b.opcode = .binary) :
    (control ++ b :: rest).flatMap binaryPayload = b.payload ++ rest.flatMap binaryPayload := by
  rw [flatMap_append, payload_control hc, flatMap_cons, binaryPayload, if_pos hb, nil_append]

theorem answers_binary (hb : b.opcode = .binary) (out : Bytes) :
    out ++ (control ++ b :: rest).flatMap pong = out ++ control.flatMap pong ++ rest.flatMap pong := by
  grind [pong]

end

/-! ## Without empty frames -/

/-- **The payloads, then the end.** -/
theorem presents_of_nonempty (last : CloseFrame) (lens : List Nat) :
    ∀ (pending : Bytes) (body : List DataFrame) (out : Bytes), (∀ n ∈ lens, 0 < n) →
      (∀ f ∈ body, f.opcode = .binary → f.payload ≠ []) →
      Presents (pending ++ body.flatMap binaryPayload) (out ++ body.flatMap pong ++ writeClose 1000) lens
        (View.reads ⟨pending, arrivals body last, false, out⟩ lens).1
        (View.reads ⟨pending, arrivals body last, false, out⟩ lens).2.out := by
  induction lens with
  | nil =>
    intro pending body out _ _
    rw [append_assoc]
    exact presents_nil (prefix_append out _)
  | cons len lens ih =>
    intro pending body out hlens hbody
    have hlens' : ∀ n ∈ lens, 0 < n := fun n hn => hlens n (mem_cons_of_mem _ hn)
    have hpos : 0 < len := hlens len mem_cons_self
    -- a read takes a piece off what is left of a payload
    have hpiece : ∀ p : Bytes, p ≠ [] → p.take len ≠ [] := by
      grind [take_eq_nil_iff]
    by_cases hp : pending = []
    · subst hp
      rw [View.reads, View.read_fill]
      rcases body_cases body with hc | ⟨control, b, rest, rfl, hc, hb⟩
      · rw [arrivals, fill_control _ body _ hc, fill, received_close]
        simp only [View.reads_closed lens, payload_control hc, append_nil]
        refine ⟨[], Nat.zero_le _, forall_mem_nil _, ?_, nil_prefix, prefix_rfl, fun _ => ⟨rfl, rfl⟩⟩
        rfl
      · have hb' := hbody b (mem_append_right _ mem_cons_self) hb
        have hrest := ih (b.payload.drop len) rest (out ++ control.flatMap pong) hlens'
          (fun f hf => hbody f (mem_append_right _ (mem_cons_of_mem _ hf)))
        rw [fill_binary last hc hb, payload_binary hc hb, answers_binary hb, nil_append]
        have := hrest.cons (hpiece _ hb') len
        rwa [← append_assoc, take_append_drop] at this
    · rw [View.reads, View.read_pending hp]
      have := (ih (pending.drop len) body out hlens' hbody).cons (hpiece _ hp) len
      rwa [← append_assoc, take_append_drop] at this

/-! ## With one -/

theorem not_presents_empty {payload answers out : Bytes} {len : Nat}
    (h : out.length < answers.length) : ¬ Presents payload answers [len] [.ok []] out := by
  rintro ⟨pieces, hle, hne, hres, -, -, hall⟩
  cases pieces with
  | nil => simp_all
  | cons p pieces => simp_all

theorem nonempty_of_presents (last : CloseFrame) (n : Nat) : ∀ (body : List DataFrame)
    (out : Bytes), body.length ≤ n →
    (∀ lens, (∀ k ∈ lens, 0 < k) →
      Presents (body.flatMap binaryPayload) (out ++ body.flatMap pong ++ writeClose 1000) lens
        (View.reads ⟨[], arrivals body last, false, out⟩ lens).1
        (View.reads ⟨[], arrivals body last, false, out⟩ lens).2.out) →
    ∀ f ∈ body, f.opcode = .binary → f.payload ≠ [] := by
  induction n with
  | zero => simp_all
  | succ n ih =>
    intro body out hlen h
    rcases body_cases body with hc | ⟨control, b, rest, rfl, hc, hb⟩
    · intro f hf hop
      exact absurd hop (hc f hf)
    rw [payload_binary hc hb, answers_binary hb] at h
    have hb' : b.payload ≠ [] := by
      intro hempty
      have := h [1] (by intro k hk; rw [List.mem_singleton.mp hk]; exact Nat.one_pos)
      rw [View.reads, View.read_fill, fill_binary last hc hb] at this
      simp only [hempty, take_nil] at this
      refine not_presents_empty ?_ this
      have hclose : (writeClose 1000).length = 4 := rfl
      simp only [View.reads, length_append, hclose]
      omega
    have hrest : ∀ f ∈ rest, f.opcode = .binary → f.payload ≠ [] := by
      refine ih rest (out ++ control.flatMap pong) ?_ (fun lens hlens => ?_)
      · grind
      -- the payload of `b` in one read, then the reads of `lens`
      · have := h (b.payload.length :: lens) (List.forall_mem_cons.mpr ⟨length_pos_of_ne_nil hb', hlens⟩)
        rw [View.reads, View.read_fill, fill_binary last hc hb] at this
        simp only [take_length, drop_length] at this
        exact this.uncons hb'
    grind

/-! ## Result -/

/-- **Binary frames as a byte stream.** For every session on a stream that
never blocks, and all caller buffers that are not empty: `Ok(0)` comes from the
Close on and never before it, the bytes before it are the Binary payloads, and
the client gets a Pong per Ping and then a Close; if and only if no Binary
frame is empty. -/
theorem presents_iff (s : Session) : (∀ lens : List Nat, (∀ n ∈ lens, 0 < n) →
      Presents s.payload s.answers lens ((WebSocketStream.new ⟨s.bytes, []⟩ []).reads lens).1
        ((WebSocketStream.new ⟨s.bytes, []⟩ []).reads lens).2.out) ↔
      ∀ f ∈ s.body, f.opcode = .binary → f.payload ≠ [] := by
  have harrivals : arrivals s.body s.last = s.frames.map .frame := by
    rw [arrivals, Session.frames, map_append, map_map]
    rfl
  have hschedule : schedule (arrivals s.body s.last) = ⟨s.bytes, []⟩ := by
    rw [harrivals, (schedule_frames s.frames).1]
    rfl
  have hshows := new_shows (arrivals s.body s.last) []
  rw [hschedule] at hshows
  constructor
  · intro h
    refine nonempty_of_presents s.last _ s.body [] (Nat.le_refl _) (fun lens hlens => ?_)
    obtain ⟨h1, h2⟩ := reads_shows lens hshows
    rw [← h1, ← h2]
    exact h lens hlens
  · intro h lens hlens
    obtain ⟨h1, h2⟩ := reads_shows lens hshows
    rw [h1, h2]
    exact presents_of_nonempty s.last lens [] s.body [] hlens h

/-- An empty Binary frame, `hi`, and a Close. -/
def empty : DataFrame := ⟨.empty 0x82 1 2 3 4, .binary, by decide, by decide⟩
def hi : DataFrame := ⟨.hi, .binary, by decide, by decide⟩
def bye : CloseFrame := ⟨.empty 0x88 0 0 0 0, by decide, by decide⟩

/-- The first read returns `Ok(0)`, before `hi` and before the Close. -/
theorem empty_frame_ends_stream : Session.payload ⟨[empty, hi], bye⟩ = [0x68, 0x69] ∧
      ((WebSocketStream.new ⟨Session.bytes ⟨[empty, hi], bye⟩, []⟩ []).reads [32768]).1 = [.ok []] ∧
      ((WebSocketStream.new ⟨Session.bytes ⟨[empty, hi], bye⟩, []⟩ []).reads [32768]).2.out = [] ∧
      ((WebSocketStream.new ⟨Session.bytes ⟨[empty, hi], bye⟩, []⟩ []).reads [32768, 32768, 32768]).1 =
        [.ok [], .ok [0x68, 0x69], .ok []] := by
  decide +kernel

end Wrongsv.Bugs.WebSocketEmptyFrame
