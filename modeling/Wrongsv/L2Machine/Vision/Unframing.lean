import Wrongsv.L2Machine.Vision.Frames

/-!
# XTLS Vision: a list of frames under every chunking

`xtls_unpadding` (vless/vision.rs:176-265) on the chunks of a list of
frames: the UUID in front of the first one, CONTINUE in all but the last, which may
be CONTINUE, END or DIRECT.

Results, beside `feed_start_not_complete`, `Reached.chunk`, `loopPasses_pos`, `unpadding_inverts`:
* `feed_frames`: the byte machine on the whole list.
-/
namespace Wrongsv.L2.Vision
open L1.VisionFrame List

/-! ## Lists of frames -/

/-- A UUID and one frame or more; `closing` is `none` if the last one is a CONTINUE. -/
structure FrameList where
  uuid : Uuid
  frames : List Frame
  last : Frame
  closing : Option Closing
  deriving DecidableEq, Repr

namespace FrameList

variable (l : FrameList)

def command : UInt8 :=
  match l.closing with
  | none => cmdPaddingContinue
  | some closing => closing.command

/-- The frames without the UUID. -/
def body : Bytes := encodeFrames l.frames ++ l.last.encode l.command

def encode : Bytes := l.uuid.bytes ++ l.body

def contents : Bytes := Wrongsv.L1.VisionFrame.contents l.frames ++ l.last.content

/-- The counters behind the last frame. -/
def counters : Counters :=
  match l.closing with
  | none => ⟨5, 0, 0, 0⟩
  | some closing => closed closing.command

end FrameList

/-! ## The byte machine on whole frames -/

theorem resume_content (m : Nat) (cc : Int) (content rest : Bytes) :
    resume ⟨0, content.length, m, cc⟩ (content ++ rest) =
      (content ++ (resume ⟨0, 0, m, cc⟩ rest).1, (resume ⟨0, 0, m, cc⟩ rest).2) := by
  cases content with
  | nil => rfl
  | cons x content =>
    have hinside : ¬ (⟨0, ((x :: content).length : Nat), m, cc⟩ : Counters).Complete := by
      unfold Counters.Complete
      simp only [length_cons]
      omega
    rw [resume_of_not_complete hinside, feed_content (Int.le_refl 0) (cons_ne_nil x content) rest (Int.le_refl _)]
    simp only [Int.sub_self]

theorem resume_padding (cc : Int) (padding rest : Bytes) :
    resume ⟨0, 0, padding.length, cc⟩ (padding ++ rest) = resume ⟨0, 0, 0, cc⟩ rest := by
  cases padding with
  | nil => rfl
  | cons x padding =>
    have hinside : ¬ (⟨0, 0, ((x :: padding).length : Nat), cc⟩ : Counters).Complete := by
      simp [Counters.Complete]
    rw [resume_of_not_complete hinside,
      feed_padding (Int.le_refl 0) (cons_ne_nil x padding) rest (Int.le_refl 0) (Int.le_refl _)]
    simp only [Int.sub_self]

theorem feed_frame (a b d : Int) (f : Frame) (command : UInt8) (rest : Bytes) :
    feed ⟨5, a, b, d⟩ (f.encode command ++ rest) =
      (f.content ++ (resume ⟨0, 0, 0, command.toNat⟩ rest).1, (resume ⟨0, 0, 0, command.toNat⟩ rest).2) := by
  rw [Frame.encode, append_assoc, append_assoc, feed_header, resume_content, resume_padding]

theorem resume_continue (rest : Bytes) :
    resume ⟨0, 0, 0, cmdPaddingContinue.toNat⟩ rest = feed ⟨5, 0, 0, 0⟩ rest := by
  rfl

theorem feed_frames (fs : List Frame) (f : Frame) (command : UInt8) : ∀ a b d : Int,
    feed ⟨5, a, b, d⟩ (encodeFrames fs ++ f.encode command) =
      (contents fs ++ f.content, (resume ⟨0, 0, 0, command.toNat⟩ []).2) := by
  induction fs with
  | nil =>
    intro a b d
    have hone := feed_frame a b d f command []
    have hout : (resume ⟨0, 0, 0, command.toNat⟩ []).1 = [] := by
      unfold resume
      split
      · split <;> rfl
      · rfl
    rw [append_nil, hout, append_nil] at hone
    exact hone
  | cons g fs ih =>
    intro a b d
    have hcons : encodeFrames (g :: fs) ++ f.encode command =
        g.encode cmdPaddingContinue ++ (encodeFrames fs ++ f.encode command) := by
      rw [encodeFrames, flatMap_cons, append_assoc]
      rfl
    rw [hcons, feed_frame, resume_continue, ih]
    simp [contents]

variable (l : FrameList)

/-- **The whole list**: its contents, and the counters of the last command. -/
theorem feed_body (a b d : Int) : feed ⟨5, a, b, d⟩ l.body = (l.contents, l.counters) := by
  have hlast : (resume ⟨0, 0, 0, l.command.toNat⟩ []).2 = l.counters := by
    unfold FrameList.command FrameList.counters
    cases l.closing with
    | none => rfl
    | some closing => cases closing <;> rfl
  rw [FrameList.body, feed_frames, hlast, FrameList.contents]

/-! ## Parts of the list -/

/-- A stream that the list is a first part of. Behind a last CONTINUE frame it goes
on with an empty END frame. -/
def FrameList.stream (l : FrameList) : VisionStream :=
  match l.closing with
  | none => { uuid := l.uuid, frames := l.frames ++ [l.last], last := .empty,
              closing := .padEnd, raw := [] }
  | some closing => { uuid := l.uuid, frames := l.frames, last := l.last, closing, raw := [] }

/-- What the stream has behind the list. -/
def FrameList.beyond (l : FrameList) : Bytes :=
  match l.closing with
  | none => [0x01, 0, 0, 0, 0]
  | some _ => []

theorem FrameList.encode_stream : l.stream.encode = l.uuid.bytes ++ (l.body ++ l.beyond) := by
  unfold FrameList.stream FrameList.beyond FrameList.body FrameList.command
  cases l.closing with
  | none =>
    simp [VisionStream.encode, Ending.encode, encodeFrames, Frame.encode, Frame.header, Frame.empty, Closing.command, be16]
  | some closing => simp [VisionStream.encode, Ending.encode]

theorem stream_raw : l.stream.raw = [] := by
  unfold FrameList.stream
  cases l.closing <;> rfl

theorem stream_uuid : l.stream.uuid = l.uuid := by
  unfold FrameList.stream
  cases l.closing <;> rfl

/-- Behind the first header, with more to come, the machine is inside a frame. -/
theorem feed_stream_not_complete (v : VisionStream) (hraw : v.raw = []) {q r : Bytes}
    (hlen : 5 ≤ q.length) (hr : r ≠ []) (h : v.uuid.bytes ++ (q ++ r) = v.encode) (a b d : Int) :
    ¬ (feed ⟨5, a, b, d⟩ q).2.Complete := by
  rw [encode_eq_marks, hraw, append_nil, marks_eq_first, bytesOf_append, bytesOf_plain] at h
  have hq := append_cancel_left h
  rw [bytesOf_append] at hq
  have hheader : ∀ f command exposed, bytesOf (headerMarks f command exposed) = f.header command := fun _ _ _ => rfl
  -- `q` is the first header and the bytes of the marks `x`
  have hpre : (firstFrame v).1.header (firstFrame v).2.1 <+: q :=
    prefix_of_prefix_length_le ⟨_, hq.symm⟩ ⟨r, rfl⟩ hlen
  obtain ⟨x, rfl⟩ := hpre
  rw [append_assoc] at hq
  have hx := append_cancel_left hq
  have hruns := runs_stream v
  generalize hms : bodyMarks (firstFrame v).1 ++ (firstFrame v).2.2 = ms at hx hruns
  have htake : bytesOf (ms.take x.length) = x := by
    grind [bytesOf, List.take, take_left, map_take]
  have hlt : x.length < ms.length := by
    grind [bytesOf_length]
  have hmore : ms.drop x.length ≠ [] := by
    rw [ne_eq, drop_eq_nil_iff]
    omega
  have hne : ms ≠ [] := by
    grind
  rw [feed_header, resume_of_settle (hruns.not_complete hne), ← htake]
  rw [← take_append_drop x.length ms] at hruns
  exact (feed_runs_take _ _ hmore _ _ hruns).2.1.not_complete hmore

/-- **No first part of the list looks complete.** -/
theorem feed_start_not_complete {q r : Bytes} (hlen : 5 ≤ q.length) (hr : r ≠ [])
    (h : q ++ r = l.body) (a b d : Int) : ¬ (feed ⟨5, a, b, d⟩ q).2.Complete := by
  have hmore : r ++ l.beyond ≠ [] := fun hnil => hr (List.append_eq_nil_iff.mp hnil).1
  refine feed_stream_not_complete l.stream (stream_raw l) hlen hmore ?_ a b d
  rw [l.encode_stream, stream_uuid, ← h, append_assoc]

/-! ## The passes of the loop -/

/-- The bytes that the passes of the loop take, one number for each. -/
def loopPasses.go : Nat → Bytes → Counters → List Nat
  | 0, _, _ => []
  | _ + 1, [], _ => []
  | fuel + 1, byte :: rest, c =>
    let (buf, c, _) := loopBody byte rest c
    ((byte :: rest).length - buf.length) ::
      if c.Complete then if c.currentCommand = 0 then go fuel buf c.startHeader else []
      else go fuel buf c

def loopPasses (buf : Bytes) (c : Counters) : List Nat := loopPasses.go (2 * buf.length + 1) buf c

theorem loopPasses_go_pos (fuel : Nat) : ∀ (buf : Bytes) {c : Counters}, ¬ c.Complete →
    ∀ n ∈ loopPasses.go fuel buf c, 1 ≤ n := by
  induction fuel with
  | zero => intro buf c _ n hn; cases hn
  | succ fuel ih =>
    intro buf c hc n hn
    match buf with
    | [] => cases hn
    | byte :: rest =>
      obtain ⟨-, htaken⟩ := loopBody_feed byte rest c hc
      rw [loopPasses.go] at hn
      grind [startHeader_not_complete]

/-- **Every pass takes a byte**, from inside a frame on. -/
theorem loopPasses_pos (buf : Bytes) {c : Counters} (hc : ¬ c.Complete) :
    ∀ n ∈ loopPasses buf c, 1 ≤ n :=
  loopPasses_go_pos _ buf hc

/-- What `xtls_unpadding` calls `unpadding_loop` with, if it does. -/
def loopCall (buf : Bytes) (s : TrafficState) (isUplink : Bool) : Option (Bytes × Counters) :=
  let dir := s.dir isUplink
  if dir.Initial then
    if dir.initialBuffer ≠ [] ∨ buf.length < 21 then
      let pending := dir.initialBuffer ++ buf
      if mismatch s.userUuid pending then none
      else if pending.length < 21 then none
      else some (pending.drop 16, dir.startHeader)
    else if 21 ≤ buf.length ∧ s.userUuid.bytes = buf.take 16 then some (buf.drop 16, dir.startHeader)
    else none
  else some (buf, dir.toCounters)

/-- Only a direction inside a frame, or a new one, calls the loop. -/
theorem loopCall_not_complete {buf b : Bytes} {s : TrafficState} {up : Bool} {c : Counters}
    (h : loopCall buf s up = some (b, c)) (hdir : (s.dir up).Initial ∨ ¬ (s.dir up).Complete) : ¬ c.Complete := by
  grind [loopCall, startHeader_not_complete]

/-! ## Chunks -/

/-- The calls for the chunks, one after the other: what they return, and the state. -/
def unpadRun (up : Bool) : TrafficState → List Bytes → List Bytes × TrafficState
  | s, [] => ([], s)
  | s, chunk :: chunks =>
    let r := xtlsUnpadding chunk s up
    (r.1 :: (unpadRun up r.2 chunks).1, (unpadRun up r.2 chunks).2)

/-- The calls of the loop among them. -/
def loopCalls (up : Bool) : TrafficState → List Bytes → List (Bytes × Counters)
  | _, [] => []
  | s, chunk :: chunks => (loopCall chunk s up).toList ++ loopCalls up (xtlsUnpadding chunk s up).2 chunks

/-- A direction that was given the first part `p` of a list and has returned `out`. -/
inductive Reached (d : DirectionState) (p out : Bytes) : Prop where
  | held (short : p.length < 21) (counters : d.toCounters = ⟨-1, -1, -1, 0⟩) (buffer : d.initialBuffer = p)
      (output : out = [])
  | framed (long : 21 ≤ p.length) (counters : d.toCounters = (feed ⟨5, -1, -1, 0⟩ (p.drop 16)).2)
      (buffer : d.initialBuffer = []) (output : out = (feed ⟨5, -1, -1, 0⟩ (p.drop 16)).1)

theorem reached_new : Reached .new [] [] := .held (by simp) rfl rfl rfl

section
variable {l : FrameList} {p later : Bytes}

theorem drop_encode (h : p ++ later = l.encode) (hlong : 16 ≤ p.length) :
    p.drop 16 ++ later = l.body := by
  have hdrop := congrArg (List.drop 16) h
  rw [drop_append_of_le_length hlong, FrameList.encode, drop_left' l.uuid.length_eq] at hdrop
  exact hdrop

theorem start_not_mismatch (h : p ++ later = l.encode) : mismatch l.uuid p = false := by
  rw [← stream_uuid l]
  refine not_mismatch_of_start l.stream p (later ++ l.beyond) ?_
  rw [l.encode_stream, ← append_assoc, h, FrameList.encode, append_assoc]

/-- Where the counters look complete, the list is over and was closed. -/
theorem Reached.over {d : DirectionState} {out : Bytes} (hd : Reached d p out)
    (h : p ++ later = l.encode) (hc : d.Complete) (hi : ¬ d.Initial) : False := by
  cases hd with
  | held short counters buffer output => exact hi (counters ▸ ⟨rfl, rfl, rfl⟩)
  | framed long counters buffer output =>
    have hbody := drop_encode h (by omega)
    by_cases hlater : later = []
    · rw [hlater, append_nil] at hbody
      rw [hbody, feed_body] at counters
      unfold FrameList.counters at counters
      cases hclosing : l.closing with
      | none => grind [not_complete_of_command]
      | some closing =>
        rw [hclosing] at counters
        exact hi (counters ▸ ⟨rfl, rfl, rfl⟩)
    all_goals grind [feed_start_not_complete]

/-- **One chunk**, from any point of the list. -/
theorem Reached.chunk {s : TrafficState} {up : Bool} {out chunk : Bytes} (hs : s.userUuid = l.uuid)
    (hd : Reached (s.dir up) p out) (h : p ++ chunk ++ later = l.encode) :
    ∃ o d, xtlsUnpadding chunk s up = (o, s.setDir up d) ∧ Reached d (p ++ chunk) (out ++ o) := by
  have hpart : p ++ (chunk ++ later) = l.encode := by rw [← append_assoc, h]
  by_cases hc : (s.dir up).Complete
  · -- the direction waits for a UUID
    have hi : (s.dir up).Initial := by
      by_contra hi
      exact hd.over hpart hc hi
    rw [xtlsUnpadding_initial chunk s up hi, hs]
    cases hd with
    | held short counters buffer output =>
      subst output
      rw [buffer, start_not_mismatch h, if_neg (by decide)]
      by_cases hshort : (p ++ chunk).length < 21
      · rw [if_pos hshort]
        exact ⟨_, _, rfl, .held hshort counters rfl rfl⟩
      · rw [if_neg hshort]
        have hstart : (s.dir up).startHeader = ⟨5, -1, -1, 0⟩ := by rw [Counters.startHeader, counters]
        rw [hstart]
        exact ⟨_, _, rfl, .framed (Nat.not_lt.mp hshort) rfl rfl rfl⟩
    | framed long counters buffer output =>
      -- the list is over, and nothing can follow it
      have hnil : chunk = [] ∧ later = [] := by
        by_contra hne
        have hmore : chunk ++ later ≠ [] := fun hnil => hne (List.append_eq_nil_iff.mp hnil)
        have hn := feed_start_not_complete l (by rw [length_drop]; omega) hmore (drop_encode hpart (by omega))
          (-1) (-1) 0
        rw [← counters] at hn
        exact hn hc
      have hempty : mismatch l.uuid [] = false := rfl
      rw [hnil.1, append_nil, buffer, append_nil, hempty, if_neg (by decide), if_pos (by decide)]
      exact ⟨[], _, rfl, .framed long counters rfl (by rw [append_nil]; exact output)⟩
  · rw [xtlsUnpadding_inside chunk s up hc]
    cases hd with
    | held short counters buffer output =>
      rw [counters] at hc
      exact absurd (by decide) hc
    | framed long counters buffer output =>
      rw [counters] at hc
      have happend := feed_append (p.drop 16) chunk _ hc
      have hdrop : (p ++ chunk).drop 16 = p.drop 16 ++ chunk := drop_append_of_le_length (by omega)
      refine ⟨_, _, rfl, .framed (by rw [length_append]; omega) ?_ buffer ?_⟩
      all_goals simp_all

/-- A direction that reached a point of the list is new, or inside a frame. -/
theorem Reached.ready {d : DirectionState} {out : Bytes} (hd : Reached d p out)
    (h : p ++ later = l.encode) : d.Initial ∨ ¬ d.Complete := by
  by_contra hnot
  obtain ⟨hi, hc⟩ := not_or.mp hnot
  exact hd.over h (not_not.mp hc) hi

end

/-- **All chunks**, from any point of the list. -/
theorem Reached.run {l : FrameList} {up : Bool} (chunks : List Bytes) :
    ∀ {s : TrafficState} {p out later : Bytes},
    s.userUuid = l.uuid → Reached (s.dir up) p out → p ++ chunks.flatten ++ later = l.encode →
    Reached ((unpadRun up s chunks).2.dir up) (p ++ chunks.flatten) (out ++ (unpadRun up s chunks).1.flatten) ∧
      ∀ call ∈ loopCalls up s chunks, ¬ call.2.Complete := by
  induction chunks with
  | nil =>
    intro s p out later _ hd h
    simp only [unpadRun, flatten_nil, append_nil]
    exact ⟨hd, fun call hcall => nomatch hcall⟩
  | cons chunk chunks ih =>
    intro s p out later hs hd h
    rw [flatten_cons, ← append_assoc] at h
    have hwhole : p ++ chunk ++ (chunks.flatten ++ later) = l.encode := by
      rw [← append_assoc]
      exact h
    have hpart : p ++ (chunk ++ (chunks.flatten ++ later)) = l.encode := by
      rw [← append_assoc]
      exact hwhole
    obtain ⟨o, d, hcall, hd'⟩ := hd.chunk hs hwhole
    obtain ⟨hreached, hcalls⟩ := ih (s := s.setDir up d) (by rw [setDir_userUuid]; exact hs)
      (by rw [setDir_dir]; exact hd') h
    refine ⟨?_, fun call hmem => ?_⟩
    · grind [unpadRun]
    · rw [loopCalls, hcall] at hmem
      rcases List.mem_append.mp hmem with hmem | hmem
      · exact loopCall_not_complete (Option.mem_toList.mp hmem) (hd.ready hpart)
      · exact hcalls call hmem

/-- **`xtls_unpadding` inverts the framing under every chunking.** The outputs of the
calls are the contents of the frames, every pass of the loop takes a byte, and at
the end the direction expects a header if the last frame was a CONTINUE, and is as
new if it was an END or DIRECT. -/
theorem unpadding_inverts (l : FrameList) (up : Bool) (chunks : List Bytes)
    (h : chunks.flatten = l.encode) : let run := unpadRun up (.new l.uuid) chunks
    run.1.flatten = l.contents ∧
      (∀ call ∈ loopCalls up (.new l.uuid) chunks, ∀ taken ∈ loopPasses call.1 call.2, 1 ≤ taken) ∧
      (l.closing = none → (run.2.dir up).remainingCommand = 5 ∧ (run.2.dir up).remainingContent =
        0 ∧ (run.2.dir up).remainingPadding = 0) ∧
      (l.closing ≠ none → (run.2.dir up).remainingCommand = -1 ∧
        (run.2.dir up).remainingContent = -1 ∧ (run.2.dir up).remainingPadding = -1) := by
  have hnew : Reached ((TrafficState.new l.uuid).dir up) [] [] := by cases up <;> exact reached_new
  have hwhole : [] ++ chunks.flatten ++ [] = l.encode := by
    rw [append_nil]
    exact h
  obtain ⟨hreached, hcalls⟩ := Reached.run chunks rfl hnew hwhole
  rw [nil_append, nil_append, h] at hreached
  have hlen : 21 ≤ l.encode.length := by
    simp only [FrameList.encode, FrameList.body, Frame.encode, Frame.header, length_append,
      length_cons, be16_length, l.uuid.length_eq]
    omega
  have hbody : l.encode.drop 16 = l.body := by rw [FrameList.encode, drop_left' l.uuid.length_eq]
  cases hreached with
  | held short counters buffer output => omega
  | framed long counters buffer output =>
    rw [hbody, feed_body] at counters output
    refine ⟨output, fun call hcall => loopPasses_pos _ (hcalls call hcall), fun hnone => ?_, fun hsome => ?_⟩
    · rw [counters, FrameList.counters, hnone]
      exact ⟨rfl, rfl, rfl⟩
    · obtain ⟨closing, hclosing⟩ := Option.ne_none_iff_exists'.mp hsome
      rw [counters, FrameList.counters, hclosing]
      exact ⟨rfl, rfl, rfl⟩

/-- A CONTINUE and an END frame. -/
def twoFrames : FrameList :=
  { uuid := ⟨List.replicate 16 7, rfl⟩, frames := [⟨[1], [0, 0], by decide, by decide⟩],
    last := { Frame.empty with content := [2, 3], content_lt := by decide }, closing := some .padEnd }

/-- The UUID and a part of the first header, nothing, and the rest. -/
theorem twoFrames_unpadded :
    let chunks := [twoFrames.encode.take 18, [], twoFrames.encode.drop 18]
    chunks.flatten = twoFrames.encode ∧
      (unpadRun true (.new twoFrames.uuid) chunks).1.flatten = [1, 2, 3] := by
  have h : [twoFrames.encode.take 18, [], twoFrames.encode.drop 18].flatten = twoFrames.encode := by decide
  exact ⟨h, (unpadding_inverts twoFrames true _ h).1⟩

end Wrongsv.L2.Vision
