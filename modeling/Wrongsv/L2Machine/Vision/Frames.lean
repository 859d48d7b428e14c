import Wrongsv.L2Machine.Vision.Unpadding

/-!
# XTLS Vision: the byte machine on a well-formed stream

`Mark` annotates each byte of the framed part of a stream with what the
decoder makes of it: whether it is payload, and whether the counters behind
it look like those of a finished END or DIRECT frame although the frame goes
on (`leave`). The reader takes the second for the end of the padding, so it
is the exact place where a read must not stop.

`Runs` says that the machine follows the marks from given counters. It holds
from the first header on (`runs_stream`), and it gives the decoder's output
and counters for a stream cut anywhere (`feed_runs_take`, `feed_runs`).
-/
namespace Wrongsv.L2.Vision
open L1.VisionFrame List

structure Mark where
  byte : UInt8
  payload : Bool
  leave : Bool
  deriving DecidableEq, Repr

def bytesOf (ms : List Mark) : Bytes := ms.map (·.byte)

def payloadOf (ms : List Mark) : Bytes := (ms.filter (·.payload)).map (·.byte)

/-- A read that ends with these marks leaves misleading counters behind. -/
def cutLeaves (ms : List Mark) : Bool := ms.getLast?.any (·.leave)

def plain (b : UInt8) : Mark := ⟨b, false, false⟩

def carried (b : UInt8) : Mark := ⟨b, true, false⟩

section
variable (a b : List Mark)

@[simp] theorem bytesOf_append : bytesOf (a ++ b) = bytesOf a ++ bytesOf b := by simp [bytesOf]

@[simp] theorem payloadOf_append :
    payloadOf (a ++ b) = payloadOf a ++ payloadOf b := by simp [payloadOf]

@[simp] theorem bytesOf_length : (bytesOf a).length = a.length := by simp [bytesOf]

theorem bytesOf_cons (m : Mark) : bytesOf (m :: a) = m.byte :: bytesOf a := rfl

theorem payloadOf_cons (m : Mark) : payloadOf (m :: a) = payloadOf [m] ++ payloadOf a :=
  payloadOf_append [m] a

theorem payloadOf_length_le : (payloadOf a).length ≤ a.length := by
  grind [payloadOf]

@[simp] theorem bytesOf_plain (l : Bytes) : bytesOf (l.map plain) = l := by
  simp [bytesOf, plain, Function.comp_def]

@[simp] theorem payloadOf_plain (l : Bytes) : payloadOf (l.map plain) = [] := by
  simp [payloadOf, plain, filter_map, Function.comp_def]

@[simp] theorem bytesOf_carried (l : Bytes) : bytesOf (l.map carried) = l := by
  simp [bytesOf, carried, Function.comp_def]

@[simp] theorem payloadOf_carried (l : Bytes) : payloadOf (l.map carried) = l := by
  simp [payloadOf, carried, filter_map, Function.comp_def]

end

/-! ## The marks of a stream -/

/-- Behind the command byte of an END or DIRECT frame the counters are still
those of the frame before, which are zero; every further length byte keeps
them at zero until one is not. `exposed` is false for a header in which no
read can end. -/
def headerMarks (f : Frame) (command : UInt8) (exposed : Bool) : List Mark :=
  let len := f.content.length
  let pad := f.padding.length
  [⟨command, false, exposed⟩,
   ⟨UInt8.ofNat (len / 256), false, exposed && decide (len < 256)⟩,
   ⟨UInt8.ofNat len, false, exposed && decide (len = 0)⟩,
   ⟨UInt8.ofNat (pad / 256), false, exposed && decide (len = 0 ∧ pad < 256)⟩,
   ⟨UInt8.ofNat pad, false, false⟩]

def bodyMarks (f : Frame) : List Mark := f.content.map carried ++ f.padding.map plain

def frameMarks (f : Frame) (command : UInt8) (exposed : Bool) : List Mark :=
  headerMarks f command exposed ++ bodyMarks f

/-- The marks of the framed part. Only the header of the closing frame can be
cut at a misleading place, and only when it is not the first one: the UUID and
the first header reach the decoder in one piece. -/
def marks (v : VisionStream) : List Mark :=
  v.uuid.bytes.map plain ++ v.frames.flatMap (frameMarks · cmdPaddingContinue false) ++
    frameMarks v.last v.closing.command (!v.frames.isEmpty)

theorem bytesOf_frame (f : Frame) (command : UInt8) (exposed : Bool) :
    bytesOf (frameMarks f command exposed) = f.encode command := by
  unfold frameMarks bodyMarks Frame.encode
  simp only [bytesOf_append, bytesOf_carried, bytesOf_plain, append_assoc]
  rfl

theorem payloadOf_frame (f : Frame) (command : UInt8) (exposed : Bool) :
    payloadOf (frameMarks f command exposed) = f.content := by
  unfold frameMarks bodyMarks
  simp only [payloadOf_append, payloadOf_carried, payloadOf_plain, append_nil]
  rfl

theorem bytesOf_frames (fs : List Frame) :
    bytesOf (fs.flatMap (frameMarks · cmdPaddingContinue false)) = encodeFrames fs := by
  induction fs with
  | nil => rfl
  | cons f fs ih => simp [encodeFrames, bytesOf_frame, ih]

theorem payloadOf_frames (fs : List Frame) :
    payloadOf (fs.flatMap (frameMarks · cmdPaddingContinue false)) = contents fs := by
  induction fs with
  | nil => rfl
  | cons f fs ih => simp [contents, payloadOf_frame, ih]

theorem encode_eq_marks (v : VisionStream) : v.encode = bytesOf (marks v) ++ v.raw := by
  unfold VisionStream.encode Ending.encode marks
  simp only [bytesOf_append, bytesOf_plain, bytesOf_frames, bytesOf_frame, append_assoc]

theorem payload_eq_marks (v : VisionStream) : v.payload = payloadOf (marks v) ++ v.raw := by
  unfold VisionStream.payload Ending.payload marks
  simp only [payloadOf_append, payloadOf_plain, payloadOf_frames, payloadOf_frame, nil_append,
    append_assoc]

/-! ## Following the marks -/

/-- The counters behind a byte: a complete CONTINUE frame waits for the next
header, a complete END or DIRECT frame is over. -/
def Counters.settle (c : Counters) : Counters :=
  if c.Complete then if c.currentCommand = 0 then c.startHeader else c.reset else c

/-- What the reader looks at to leave padding mode, behind END or DIRECT. -/
def Counters.Leaves (c : Counters) : Prop :=
  c.remainingContent ≤ 0 ∧ c.remainingPadding ≤ 0 ∧ c.currentCommand ≠ 0

instance (c : Counters) : Decidable c.Leaves := inferInstanceAs (Decidable (_ ∧ _ ∧ _))

/-- The counters behind the closing frame. -/
def closed (command : UInt8) : Counters := ⟨-1, -1, -1, command.toNat⟩

theorem closed_complete (command : UInt8) : (closed command).Complete := by
  unfold closed Counters.Complete
  simp

/-- The only commands of a stream: CONTINUE and the closing one. -/
def Counters.Known (command : UInt8) (c : Counters) : Prop :=
  c.currentCommand = 0 ∨ c.currentCommand = command.toNat

/-- From `c` the machine reads the marked bytes, outputs the payload ones,
has misleading counters exactly where marked, and ends closed. -/
def Runs (command : UInt8) : Counters → List Mark → Prop
  | c, [] => c = closed command
  | c, m :: ms =>
    (¬ c.Complete ∧ c.Known command) ∧ (feedByte c m.byte).1 = payloadOf [m] ∧
      (ms ≠ [] → ((feedByte c m.byte).2.settle.Leaves ↔ m.leave = true)) ∧
      Runs command (feedByte c m.byte).2.settle ms

variable {command : UInt8} {c : Counters} {ms : List Mark}

theorem Runs.not_complete (h : Runs command c ms) (hne : ms ≠ []) : ¬ c.Complete := by
  cases ms with
  | nil => exact absurd rfl hne
  | cons m ms => exact h.1.1

theorem Runs.known (h : Runs command c ms) : c.Known command := by
  cases ms with
  | nil => exact .inr (congrArg Counters.currentCommand h)
  | cons m ms => exact h.1.2

/-- While the frame goes on, settling is what `resume` does first. -/
theorem resume_of_settle (h : ¬ c.settle.Complete) (rest : Bytes) :
    resume c rest = feed c.settle rest := by
  grind [resume, Counters.settle, reset_complete]

/-- Counters that settle closed pass the rest of the buffer through. -/
theorem resume_of_closed (h : c.settle = closed command) (rest : Bytes) :
    resume c rest = (rest, closed command) := by
  unfold resume
  unfold Counters.settle at h
  by_cases hc : c.Complete
  · by_cases h0 : c.currentCommand = 0
    · rw [if_pos hc, if_pos h0] at h
      have h5 : (5 : Int) = -1 := congrArg Counters.remainingCommand h
      omega
    all_goals simp_all
  all_goals grind [closed_complete]

/-- **Cut inside the framed part.** The machine outputs the payload read so
far, and its counters look finished exactly where marked. -/
theorem feed_runs_take (command : UInt8) (b : List Mark) (hb : b ≠ []) :
    ∀ (a : List Mark) (c : Counters), Runs command c (a ++ b) →
      (feed c (bytesOf a)).1 = payloadOf a ∧ Runs command (feed c (bytesOf a)).2 b ∧
        (a ≠ [] → ((feed c (bytesOf a)).2.Leaves ↔ cutLeaves a = true)) := by
  intro a
  induction a with
  | nil => intro c h; exact ⟨rfl, h, fun hn => absurd rfl hn⟩
  | cons m a ih =>
    intro c h
    obtain ⟨-, hout, hleave, hrest⟩ := h
    have hne : a ++ b ≠ [] := by simp [hb]
    obtain ⟨h1, h2, h3⟩ := ih _ hrest
    rw [bytesOf_cons, feed_cons, resume_of_settle (hrest.not_complete hne), payloadOf_cons, hout, h1]
    refine ⟨rfl, h2, fun _ => ?_⟩
    cases a with
    | nil => simpa [cutLeaves, feed, bytesOf] using hleave hne
    | cons m' a => simpa [cutLeaves] using h3 (by simp)

/-- **The whole framed part.** Everything behind it passes through. -/
theorem feed_runs (command : UInt8) (rest : Bytes) :
    ∀ (ms : List Mark) (c : Counters), ms ≠ [] → Runs command c ms →
      feed c (bytesOf ms ++ rest) = (payloadOf ms ++ rest, closed command) := by
  intro ms
  induction ms with
  | nil => intro c hne; exact absurd rfl hne
  | cons m ms ih =>
    intro c _ h
    obtain ⟨-, hout, -, hrest⟩ := h
    rw [bytesOf_cons, cons_append, feed_cons, payloadOf_cons, hout]
    by_cases hms : ms = []
    · subst hms
      rw [resume_of_closed hrest]
      simp [bytesOf, payloadOf]
    · rw [resume_of_settle (hrest.not_complete hms), ih _ hms hrest, append_assoc]

/-! ## Well-formed streams follow their marks -/

theorem not_leaves_of_settle (hc : c.remainingCommand ≤ 0) (h : ¬ c.settle.Complete) :
    ¬ c.settle.Leaves := by
  intro ⟨h1, h2, h3⟩
  unfold Counters.settle at h h1 h2 h3
  by_cases hd : c.Complete
  · by_cases h0 : c.currentCommand = 0
    · rw [if_pos hd, if_pos h0] at h3
      exact h3 h0
    · rw [if_pos hd, if_neg h0] at h
      exact h (reset_complete c)
  · rw [if_neg hd] at h1 h2
    exact hd ⟨hc, h1, h2⟩

theorem settle_of_not_complete (h : ¬ c.Complete) : c.settle = c := by
  unfold Counters.settle
  rw [if_neg h]

section
variable {rest : List Mark}

/-- A mark that no read misjudges, in front of marks the machine follows. -/
theorem runs_cons {m : Mark} (hc : ¬ c.Complete ∧ c.Known command) (hm : m.leave = false)
    (hout : (feedByte c m.byte).1 = payloadOf [m]) (h0 : (feedByte c m.byte).2.remainingCommand ≤ 0)
    (h : Runs command (feedByte c m.byte).2.settle rest) : Runs command c (m :: rest) := by
  refine ⟨hc, hout, fun hne => ?_, h⟩
  rw [hm]
  simpa using not_leaves_of_settle h0 (h.not_complete hne)

/-- A block of bytes with the same kind of mark, which count down from `d l.length` to `d 0`. -/
theorem runs_block {mark : UInt8 → Mark} (hm : ∀ x, (mark x).leave = false) (d : Nat → Counters)
    (hd : ∀ n, ¬ (d (n + 1)).Complete ∧ (d (n + 1)).Known command) (h0 : ∀ n, (d n).remainingCommand ≤ 0)
    (hf : ∀ n x, feedByte (d (n + 1)) (mark x).byte = (payloadOf [mark x], d n))
    (h : Runs command (d 0).settle rest) (l : Bytes) : Runs command (d l.length).settle (l.map mark ++ rest) := by
  induction l with
  | nil => exact h
  | cons x l ih =>
    rw [length_cons, settle_of_not_complete (hd _).1]
    refine runs_cons (hd _) (hm x) ?_ ?_ ?_
    all_goals rw [hf]
    · exact h0 _
    · exact ih

theorem runs_body (f : Frame) {cc : Int} (hk : cc = 0 ∨ cc = command.toNat)
    (h : Runs command (Counters.settle ⟨0, 0, 0, cc⟩) rest) :
    Runs command (Counters.settle ⟨0, f.content.length, f.padding.length, cc⟩) (bodyMarks f ++ rest) := by
  have hpadding := @runs_block _ _ plain (fun _ => rfl) (fun n => ⟨0, 0, n, cc⟩)
    (fun n => ⟨by simp only [Counters.Complete]; omega, hk⟩) (fun _ => Int.le_refl 0) (fun n x => by simp [feedByte]; rfl)
    h f.padding
  rw [bodyMarks, append_assoc]
  exact @runs_block _ _ carried (fun _ => rfl) (fun n => ⟨0, n, f.padding.length, cc⟩)
    (fun n => ⟨by simp only [Counters.Complete]; omega, hk⟩) (fun _ => Int.le_refl 0) (fun n x => by simp [feedByte]; rfl)
    hpadding f.content

end

/-! ### Headers -/

section
variable (a b d : Int) (x y : UInt8)

theorem headerByte_command : headerByte ⟨5, a, b, d⟩ x = ⟨4, a, b, x.toNat⟩ := rfl

theorem headerByte_content_hi : headerByte ⟨4, a, b, d⟩ x = ⟨3, (x.toNat <<< 8 : Nat), b, d⟩ := rfl

theorem headerByte_content_lo :
    headerByte ⟨3, (x.toNat <<< 8 : Nat), b, d⟩ y = ⟨2, (u16 x y : Nat), b, d⟩ := by
  rw [← shift_or_eq_u16]; rfl

theorem headerByte_padding_hi : headerByte ⟨2, a, b, d⟩ x = ⟨1, a, (x.toNat <<< 8 : Nat), d⟩ := rfl

theorem headerByte_padding_lo :
    headerByte ⟨1, a, (x.toNat <<< 8 : Nat), d⟩ y = ⟨0, a, (u16 x y : Nat), d⟩ := by
  rw [← shift_or_eq_u16]; rfl

end

theorem not_complete_of_command (h : 0 < c.remainingCommand) : ¬ c.Complete :=
  fun hc => absurd hc.1 (by omega)

theorem feedByte_header (h : 0 < c.remainingCommand) (x : UInt8) :
    feedByte c x = ([], headerByte c x) := by
  unfold feedByte
  rw [if_pos h]

theorem feed_header_byte (h : 1 < c.remainingCommand) (x : UInt8) (rest : Bytes) :
    feed c (x :: rest) = feed (headerByte c x) rest := by
  grind [headerByte, feed_cons, feedByte_header, resume_of_not_complete, not_complete_of_command]

theorem feed_header (a b d : Int) (f : Frame) (command : UInt8) (rest : Bytes) :
    feed ⟨5, a, b, d⟩ (f.header command ++ rest) =
      resume ⟨0, f.content.length, f.padding.length, command.toNat⟩ rest := by
  show feed ⟨5, a, b, d⟩ (command :: UInt8.ofNat (f.content.length / 256) ::
    UInt8.ofNat f.content.length :: UInt8.ofNat (f.padding.length / 256) ::
    UInt8.ofNat f.padding.length :: rest) = _
  rw [feed_header_byte (by simp), headerByte_command, feed_header_byte (by simp),
    headerByte_content_hi, feed_header_byte (by simp), headerByte_content_lo,
    u16_be16 _ f.content_lt, feed_header_byte (by simp), headerByte_padding_hi, feed_cons,
    feedByte_header (by simp), headerByte_padding_lo, u16_be16 _ f.padding_lt]
  rfl

section
variable {cc : UInt8} {rest : List Mark}

theorem runs_header_byte {x : UInt8} {leave : Bool} (hc : 1 < c.remainingCommand)
    (hk : c.Known command) (hl : (headerByte c x).Leaves ↔ leave = true) (h : Runs command (headerByte c x) rest) :
    Runs command c (⟨x, false, leave⟩ :: rest) := by
  have h' : 0 < (headerByte c x).remainingCommand := by
    show 0 < c.remainingCommand - 1
    omega
  refine ⟨⟨not_complete_of_command (by omega), hk⟩, ?_, fun _ => ?_, ?_⟩
  all_goals rw [feedByte_header (by omega)]
  · rfl
  all_goals rw [settle_of_not_complete (not_complete_of_command h')]
  · exact hl
  · exact h

/-- A header behind a finished CONTINUE frame, whose counters are zero. -/
theorem runs_header (a b : Int) (ha : a ≤ 0) (hb : b ≤ 0) (f : Frame)
    (hk : (cc.toNat : Int) = 0 ∨ (cc.toNat : Int) = command.toNat)
    (h : Runs command (Counters.settle ⟨0, f.content.length, f.padding.length, cc.toNat⟩) rest) :
    Runs command ⟨5, a, b, 0⟩ (headerMarks f cc (decide (cc ≠ 0)) ++ rest) := by
  have hcc : (cc.toNat : Int) ≠ 0 ↔ cc ≠ 0 := by
    simp [← UInt8.toNat_inj]
  have hhi : ∀ n, n < 65536 → (((UInt8.ofNat (n / 256)).toNat <<< 8 : Nat) ≤ (0 : Int) ↔ n < 256) := by
    intro n hn
    rw [UInt8.toNat_ofNat', Nat.shiftLeft_eq]
    omega
  have hlen : ((f.content.length : Nat) : Int) ≤ 0 ↔ f.content.length = 0 := by omega
  refine runs_header_byte (by decide : (1 : Int) < 5) (.inl rfl) ?_ ?_
  · grind [headerByte_command, Counters.Leaves]
  rw [headerByte_command]
  refine runs_header_byte (by decide : (1 : Int) < 4) hk ?_ ?_
  · rw [headerByte_content_hi]
    simp only [Counters.Leaves, hb, hcc, hhi _ f.content_lt, true_and, Bool.and_eq_true,
      decide_eq_true_eq, and_comm]
  rw [headerByte_content_hi]
  refine runs_header_byte (by decide : (1 : Int) < 3) hk ?_ ?_
  · rw [headerByte_content_lo, u16_be16 _ f.content_lt]
    grind [Counters.Leaves]
  rw [headerByte_content_lo, u16_be16 _ f.content_lt]
  refine runs_header_byte (by decide : (1 : Int) < 2) hk ?_ ?_
  · rw [headerByte_padding_hi]
    simp only [Counters.Leaves, hcc, hlen, hhi _ f.padding_lt, Bool.and_eq_true, decide_eq_true_eq]
    grind
  rw [headerByte_padding_hi]
  -- the last header byte ends the header, so the frame's counters are in place
  have h1 : (0 : Int) < (⟨1, f.content.length, ((UInt8.ofNat (f.padding.length / 256)).toNat <<< 8 :
      Nat), cc.toNat⟩ : Counters).remainingCommand := by simp
  refine runs_cons ⟨not_complete_of_command h1, hk⟩ rfl ?_ ?_ ?_
  all_goals rw [feedByte_header h1, headerByte_padding_lo, u16_be16 _ f.padding_lt]
  · rfl
  · exact h

theorem runs_frame (a b : Int) (ha : a ≤ 0) (hb : b ≤ 0) (f : Frame)
    (hk : (cc.toNat : Int) = 0 ∨ (cc.toNat : Int) = command.toNat)
    (h : Runs command (Counters.settle ⟨0, 0, 0, cc.toNat⟩) rest) :
    Runs command ⟨5, a, b, 0⟩ (frameMarks f cc (decide (cc ≠ 0)) ++ rest) := by
  grind [frameMarks, runs_header, runs_body]

end

theorem runs_frames (command : UInt8) (tail : List Mark) (h : Runs command ⟨5, 0, 0, 0⟩ tail) :
    ∀ (fs : List Frame),
      Runs command ⟨5, 0, 0, 0⟩ (fs.flatMap (frameMarks · cmdPaddingContinue false) ++ tail) := by
  intro fs
  induction fs with
  | nil => exact h
  | cons f fs ih =>
    rw [flatMap_cons, append_assoc]
    exact @runs_frame command cmdPaddingContinue _ 0 0 (Int.le_refl 0) (Int.le_refl 0) f (.inl rfl) ih

section
variable (v : VisionStream)

theorem runs_last : Runs v.closing.command ⟨5, 0, 0, 0⟩ (frameMarks v.last v.closing.command true) := by
  have h := @runs_frame v.closing.command v.closing.command [] 0 0
    (Int.le_refl 0) (Int.le_refl 0) v.last (.inr rfl)
    (by cases v.closing <;> rfl)
  have he : decide (v.closing.command ≠ 0) = true := by cases v.closing <;> rfl
  rw [he, append_nil] at h
  exact h

/-- The first frame of a stream with its command, and the marks behind it. -/
def firstFrame (v : VisionStream) : Frame × UInt8 × List Mark :=
  match v.frames with
  | [] => (v.last, v.closing.command, [])
  | f :: fs =>
    (f, cmdPaddingContinue,
      fs.flatMap (frameMarks · cmdPaddingContinue false) ++ frameMarks v.last v.closing.command true)

theorem marks_eq_first : marks v = v.uuid.bytes.map plain ++
      (headerMarks (firstFrame v).1 (firstFrame v).2.1 false ++
        (bodyMarks (firstFrame v).1 ++ (firstFrame v).2.2)) := by
  grind [marks, firstFrame, frameMarks]

/-- **A well-formed stream follows its marks** from behind the first header on. -/
theorem runs_stream : Runs v.closing.command
      (Counters.settle ⟨0, (firstFrame v).1.content.length, (firstFrame v).1.padding.length,
        (firstFrame v).2.1.toNat⟩)
      (bodyMarks (firstFrame v).1 ++ (firstFrame v).2.2) := by
  unfold firstFrame
  cases h : v.frames with
  | nil => exact runs_body v.last (.inr rfl) (by cases v.closing <;> rfl)
  | cons f fs => exact runs_body f (.inl rfl) (runs_frames _ _ (runs_last v) fs)

/-! ## `xtls_unpadding` on a well-formed stream -/

variable (d : DirectionState)

@[simp] theorem hold_toCounters (b : Bytes) : (d.hold b).toCounters = d.toCounters := rfl

@[simp] theorem hold_initialBuffer (b : Bytes) : (d.hold b).initialBuffer = b := rfl

@[simp] theorem setCounters_toCounters (c : Counters) :
    (d.setCounters c).toCounters = c := rfl

@[simp] theorem setCounters_initialBuffer (c : Counters) :
    (d.setCounters c).initialBuffer = d.initialBuffer := rfl

/-- A direction in front of the marks `ms` of the stream `v`. -/
inductive Synced (v : VisionStream) (d : DirectionState) (ms : List Mark) : Prop where
  /-- the UUID and the first header are still held back -/
  | held (a : List Mark) (split : marks v = a ++ ms) (short : a.length < 21)
      (counters : d.toCounters = ⟨-1, -1, -1, 0⟩) (buffer : d.initialBuffer = bytesOf a)
  | inside (runs : Runs v.closing.command d.toCounters ms) (buffer : d.initialBuffer = [])

theorem synced_new : Synced v .new (marks v) :=
  .held [] rfl (by simp) rfl rfl

/-- The UUID and the first header: 21 bytes that no read can split. -/
def preamble (v : VisionStream) : List Mark :=
  v.uuid.bytes.map plain ++ headerMarks (firstFrame v).1 (firstFrame v).2.1 false

def afterPreamble (v : VisionStream) : List Mark := bodyMarks (firstFrame v).1 ++ (firstFrame v).2.2

theorem marks_eq_preamble : marks v = preamble v ++ afterPreamble v := by
  rw [marks_eq_first, preamble, afterPreamble, append_assoc]

theorem preamble_length : (preamble v).length = 21 := by
  simp [preamble, headerMarks, v.uuid.length_eq]

theorem marks_length : 21 ≤ (marks v).length := by
  rw [marks_eq_preamble, length_append, preamble_length]
  omega

theorem preamble_quiet : ∀ m ∈ preamble v, m.payload = false ∧ m.leave = false := by
  intro m hm
  simp only [preamble, headerMarks, mem_append, mem_map, mem_cons, not_mem_nil,
    or_false, Bool.false_and] at hm
  rcases hm with ⟨b, -, rfl⟩ | rfl | rfl | rfl | rfl | rfl <;> exact ⟨rfl, rfl⟩

variable {a : List Mark}

theorem payloadOf_of_quiet (h : ∀ m ∈ a, m.payload = false ∧ m.leave = false) :
    payloadOf a = [] := by
  grind [payloadOf, filter_eq_nil_iff]

theorem cutLeaves_of_quiet (h : ∀ m ∈ a, m.payload = false ∧ m.leave = false) :
    cutLeaves a = false := by
  grind [cutLeaves]

theorem cutLeaves_append (a : List Mark) {b : List Mark} (hb : b ≠ []) :
    cutLeaves (a ++ b) = cutLeaves b := by
  unfold cutLeaves
  rw [List.getLast?_append, List.getLast?_eq_some_getLast hb]
  rfl

theorem not_mismatch_of_start (p rest : Bytes)
    (h : p ++ rest = v.encode) : mismatch v.uuid p = false := by
  rw [mismatch_eq_false_iff]
  have hu : v.uuid.bytes = (p ++ rest).take 16 := by
    rw [h, VisionStream.encode, append_assoc, take_append_of_le_length
      (Nat.le_of_eq v.uuid.length_eq.symm), take_of_length_le
      (Nat.le_of_eq v.uuid.length_eq)]
  grind

/-- A stream starts with its UUID, and the first frame header is behind it. -/
theorem encode_fits : mismatch v.uuid v.encode = false ∧ 21 ≤ v.encode.length := by
  have hlen : 21 ≤ v.encode.length := by
    grind [marks_length, encode_eq_marks, bytesOf_length]
  refine ⟨?_, hlen⟩
  have hid : v.uuid.bytes.take v.encode.length = v.uuid.bytes :=
    take_of_length_le (by rw [v.uuid.length_eq]; omega)
  rw [mismatch_eq_false_iff, hid]
  unfold VisionStream.encode
  rw [append_assoc, take_left' v.uuid.length_eq]

theorem quiet_of_start {c : List Mark} (h : marks v = a ++ c)
    (ha : a.length ≤ 21) : ∀ m ∈ a, m.payload = false ∧ m.leave = false := by
  intro m hm
  have ht := congrArg (List.take a.length) (marks_eq_preamble v)
  rw [h, take_left, take_append_of_le_length (by rw [preamble_length]; exact ha)] at ht
  rw [ht] at hm
  exact preamble_quiet v m (mem_of_mem_take hm)

theorem split_at_preamble {c : List Mark} (h : marks v = a ++ c)
    (ha : 21 ≤ a.length) : ∃ p, a = preamble v ++ p ∧ afterPreamble v = p ++ c := by
  rw [marks_eq_preamble] at h
  rcases List.append_eq_append_iff.mp h with ⟨p, h1, h2⟩ | ⟨p, h1, h2⟩
  · exact ⟨p, h1, h2⟩
  · have hl := congrArg List.length h1
    rw [preamble_length, length_append] at hl
    have hp : p = [] := eq_nil_of_length_eq_zero (by omega)
    subst hp
    exact ⟨[], by simpa using h1.symm, by simpa using h2.symm⟩

/-- The counters behind the first header. -/
def firstCounters (v : VisionStream) : Counters :=
  ⟨0, (firstFrame v).1.content.length, (firstFrame v).1.padding.length, (firstFrame v).2.1.toNat⟩

theorem feed_preamble (rest : Bytes) :
    feed ⟨5, -1, -1, 0⟩ ((bytesOf (preamble v) ++ rest).drop 16) = resume (firstCounters v) rest := by
  have hb : bytesOf (preamble v) ++ rest =
      v.uuid.bytes ++ ((firstFrame v).1.header (firstFrame v).2.1 ++ rest) := by
    rw [preamble, bytesOf_append, bytesOf_plain, append_assoc]
    rfl
  rw [hb, drop_append_of_le_length (Nat.le_of_eq v.uuid.length_eq.symm),
    drop_of_length_le (Nat.le_of_eq v.uuid.length_eq), nil_append]
  exact feed_header (-1) (-1) 0 _ _ rest

variable (s : TrafficState) (up : Bool)

/-- In front of the stream, `pending` is what `xtls_unpadding` looks at. -/
theorem xtlsUnpadding_held (hu : s.userUuid = v.uuid) (x rest : Bytes)
    (hc : (s.dir up).toCounters = ⟨-1, -1, -1, 0⟩) (hbuf : (s.dir up).initialBuffer = bytesOf a)
    (hx : bytesOf a ++ x ++ rest = v.encode) : xtlsUnpadding x s up =
    if (bytesOf a ++ x).length < 21 then ([], s.setDir up ((s.dir up).hold (bytesOf a ++ x)))
      else ((feed ⟨5, -1, -1, 0⟩ ((bytesOf a ++ x).drop 16)).1, s.setDir up (((s.dir up).hold
          []).setCounters (feed ⟨5, -1, -1, 0⟩ ((bytesOf a ++ x).drop 16)).2)) := by
  have hi : (s.dir up).Initial := by rw [hc]; exact ⟨rfl, rfl, rfl⟩
  have hstart : (s.dir up).startHeader = ⟨5, -1, -1, 0⟩ := by rw [hc]; rfl
  have hmis : mismatch s.userUuid ((s.dir up).initialBuffer ++ x) = false := by
    rw [hu, hbuf]
    exact not_mismatch_of_start v _ rest hx
  rw [xtlsUnpadding_initial _ _ _ hi, hmis, if_neg (by simp), hbuf, hstart]

/-- **A read that ends inside the framed part.** -/
theorem xtlsUnpadding_cut (hu : s.userUuid = v.uuid) {b ms : List Mark} (hb : b ≠ [])
    (hms : ms ≠ []) (h : Synced v (s.dir up) (b ++ ms)) :
    ∃ d, xtlsUnpadding (bytesOf b) s up = (payloadOf b, s.setDir up d) ∧ Synced v d ms ∧
      (d.Leaves ↔ cutLeaves b = true) := by
  cases h with
  | inside runs buffer =>
    obtain ⟨h1, h2, h3⟩ := feed_runs_take _ ms hms b _ runs
    refine ⟨(s.dir up).setCounters (feed (s.dir up).toCounters (bytesOf b)).2, ?_, .inside h2 buffer, h3 hb⟩
    rw [xtlsUnpadding_inside _ _ _ (runs.not_complete (by simp [hb])), h1]
  | held a split short counters buffer =>
    rw [← append_assoc] at split
    rw [xtlsUnpadding_held v s up hu (bytesOf b) (bytesOf ms ++ v.raw) counters buffer
      (by rw [encode_eq_marks, split]; simp), ← bytesOf_append, bytesOf_length]
    by_cases hs : (a ++ b).length < 21
    · -- still not enough: the bytes stay in `initial_buffer`
      have hq : ∀ m ∈ b, m.payload = false ∧ m.leave = false :=
        fun m hm => quiet_of_start v split (by omega) m (mem_append_right a hm)
      rw [if_pos hs, payloadOf_of_quiet hq, cutLeaves_of_quiet hq]
      refine ⟨_, rfl, .held (a ++ b) split hs counters rfl, ?_⟩
      simp [Counters.Leaves, counters]
    · -- the preamble is complete, what follows it is fed
      obtain ⟨p, hp, hafter⟩ := split_at_preamble v split (by omega)
      have hruns : Runs v.closing.command (firstCounters v).settle (p ++ ms) := by
        rw [← hafter]; exact runs_stream v
      obtain ⟨h1, h2, h3⟩ := feed_runs_take _ ms hms p _ hruns
      have hn := hruns.not_complete (by simp [hms])
      have hpay : payloadOf b = payloadOf p := by
        have := congrArg payloadOf hp
        rw [payloadOf_append, payloadOf_append, payloadOf_of_quiet (preamble_quiet v),
          payloadOf_of_quiet (quiet_of_start v (append_assoc .. ▸ split) (by omega))] at this
        exact this
      rw [if_neg hs, hp, bytesOf_append, feed_preamble, resume_of_settle hn, h1, hpay]
      refine ⟨_, rfl, .inside h2 rfl, ?_⟩
      rw [← cutLeaves_append a hb, hp]
      by_cases hpn : p = []
      · subst hpn
        rw [append_nil, cutLeaves_of_quiet (preamble_quiet v)]
        simpa [feed, bytesOf] using not_leaves_of_settle (c := firstCounters v) (Int.le_refl 0) hn
      · rw [cutLeaves_append _ hpn]
        exact h3 hpn

/-- **The read that reaches the end of the framed part.** -/
theorem xtlsUnpadding_cross (hu : s.userUuid = v.uuid) {ms : List Mark} (hms : ms ≠ [])
    (raw rest : Bytes) (hraw : v.raw = raw ++ rest) (h : Synced v (s.dir up) ms) :
    ∃ d, xtlsUnpadding (bytesOf ms ++ raw) s up = (payloadOf ms ++ raw, s.setDir up d) ∧
      d.toCounters = closed v.closing.command ∧ d.initialBuffer = [] := by
  cases h with
  | inside runs buffer =>
    refine ⟨(s.dir up).setCounters (closed v.closing.command), ?_, rfl, buffer⟩
    rw [xtlsUnpadding_inside _ _ _ (runs.not_complete hms), feed_runs _ _ _ _ hms runs]
  | held a split short counters buffer =>
    rw [xtlsUnpadding_held v s up hu (bytesOf ms ++ raw) rest counters buffer
      (by rw [encode_eq_marks, split, hraw]; simp), ← append_assoc, ← bytesOf_append, ← split,
      marks_eq_preamble]
    have hl : ¬ (bytesOf (preamble v ++ afterPreamble v) ++ raw).length < 21 := by
      simp [bytesOf_length, preamble_length]
    have hpay : payloadOf ms = payloadOf (afterPreamble v) := by
      have := congrArg payloadOf (split.symm.trans (marks_eq_preamble v))
      rw [payloadOf_append, payloadOf_append, payloadOf_of_quiet (preamble_quiet v),
        payloadOf_of_quiet (quiet_of_start v split (by omega))] at this
      exact this
    refine ⟨((s.dir up).hold []).setCounters (closed v.closing.command), ?_, rfl, rfl⟩
    rw [if_neg hl, bytesOf_append, append_assoc, feed_preamble, hpay]
    have hruns : Runs v.closing.command (firstCounters v).settle (afterPreamble v) := runs_stream v
    by_cases hn : afterPreamble v = []
    · rw [hn] at hruns ⊢
      rw [resume_of_closed hruns]
      rfl
    · rw [resume_of_settle (hruns.not_complete hn), feed_runs _ _ _ _ hn hruns]

end

theorem split_cut {ms : List Mark} {x rest raw : Bytes} (h : x ++ rest = bytesOf ms ++ raw)
    (hlt : x.length < ms.length) :
    x = bytesOf (ms.take x.length) ∧ rest = bytesOf (ms.drop x.length) ++ raw := by
  have hb : bytesOf ms = bytesOf (ms.take x.length) ++ bytesOf (ms.drop x.length) := by
    rw [← bytesOf_append, take_append_drop]
  rw [hb, append_assoc] at h
  exact append_inj h (by rw [bytesOf_length, length_take]; omega)

theorem split_cross {ms : List Mark} {x rest raw : Bytes} (h : x ++ rest = bytesOf ms ++ raw)
    (hle : ms.length ≤ x.length) :
    x = bytesOf ms ++ x.drop ms.length ∧ raw = x.drop ms.length ++ rest := by
  have hx : x = x.take ms.length ++ x.drop ms.length := (take_append_drop _ _).symm
  rw [hx, append_assoc] at h
  obtain ⟨h1, h2⟩ := append_inj h (by rw [bytesOf_length, length_take]; omega)
  refine ⟨?_, h2.symm⟩
  rw [← h1, take_append_drop]

end Wrongsv.L2.Vision
