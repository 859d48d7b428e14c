import Wrongsv.L2Machine.Vision.Frames

/-!
# XTLS Vision: the reader

`VisionReader::read` takes one inner read after the other, unpads it, and
decides from the counters whether the direction is still padded. A schedule is
the list of the inner reads with the length of the caller's buffer each was
made for (`InnerRead`); the end of the list is EOF.

Results, beside `run_tail`:
* `readToEnd_eq_run`: reading until EOF returns the outputs of the single
  inner reads, one after the other.
* `run_length_le`: a reader never returns more than it was given.
-/
namespace Wrongsv.L2.Vision
open L1.VisionFrame List

/-- One `inner.read(&mut raw_buf[..buf.len()])`: the bytes it returned, at
least one and at most as many as the caller's buffer holds. All inner reads of
one `read` call have the same `buf`; nothing below depends on that. -/
structure InnerRead where
  bytes : Bytes
  buf : Nat
  nonempty : bytes ≠ []
  fits : bytes.length ≤ buf
  deriving DecidableEq, Repr

/-- The bytes a schedule delivers. -/
def delivered (xs : List InnerRead) : Bytes := xs.flatMap (·.bytes)

@[simp] theorem delivered_nil : delivered [] = [] := rfl

@[simp] theorem delivered_cons (x : InnerRead) (xs : List InnerRead) :
    delivered (x :: xs) = x.bytes ++ delivered xs := rfl

/-- vless/vision.rs:371-379; `raw_buf` only holds the
current inner read. -/
structure VisionReader where
  state : TrafficState
  isUplink : Bool
  direct : Bool
  deriving DecidableEq, Repr

def VisionReader.new (state : TrafficState) (isUplink : Bool) : VisionReader :=
  { state, isUplink, direct := false }

/-- The update of `within_padding_buffers` behind each unpadded read, and
whether it sets `direct`. -/
def leavePadding (d : DirectionState) : DirectionState × Bool :=
  if 0 < d.remainingContent ∨ 0 < d.remainingPadding ∨ d.currentCommand = 0 then
    ({ d with withinPaddingBuffers := true }, false)
  else if d.currentCommand = 1 then ({ d with withinPaddingBuffers := false }, false)
  else if d.currentCommand = 2 then
    ({ d with withinPaddingBuffers := false, directCopy := true }, true)
  else (d, false)

/-- `within` of the source: the next read is still unpadded. -/
def VisionReader.Active (r : VisionReader) : Prop :=
  (r.state.dir r.isUplink).withinPaddingBuffers = true ∨ 0 < r.state.numberOfPacketToFilter

instance (r : VisionReader) : Decidable r.Active := inferInstanceAs (Decidable (_ ∨ _))

/-- One pass of the `loop` of `read`, behind a successful inner read. -/
def VisionReader.onRead (r : VisionReader) (x : InnerRead) : Bytes × VisionReader :=
  if r.direct then (x.bytes.take x.buf, r)
  else if ¬ r.Active then (x.bytes.take x.buf, r)
  else
    let u := xtlsUnpadding x.bytes r.state r.isUplink
    let l := leavePadding (u.2.dir r.isUplink)
    (u.1.take x.buf,
      { r with state := filterPacket u.1 (u.2.setDir r.isUplink l.1), direct := l.2 })

/-- `read`: passes without output are repeated, EOF is the empty output. -/
def VisionReader.read (r : VisionReader) : List InnerRead → Bytes × VisionReader × List InnerRead
  | [] => ([], r, [])
  | x :: xs =>
    let o := r.onRead x
    if o.1 = [] then read o.2 xs else (o.1, o.2, xs)

/-- `read` until it returns 0; every call before that takes an inner read. -/
def readToEnd.go : Nat → VisionReader → List InnerRead → Bytes
  | 0, _, _ => []
  | calls + 1, r, xs =>
    let o := r.read xs
    if o.1 = [] then [] else o.1 ++ go calls o.2.1 o.2.2

def readToEnd (r : VisionReader) (xs : List InnerRead) : Bytes := readToEnd.go (xs.length + 1) r xs

/-- The outputs of all inner reads. -/
def run (r : VisionReader) : List InnerRead → Bytes
  | [] => []
  | x :: xs => (r.onRead x).1 ++ run (r.onRead x).2 xs

theorem read_run (xs : List InnerRead) : ∀ (r : VisionReader),
    run r xs = (r.read xs).1 ++ run (r.read xs).2.1 (r.read xs).2.2 ∧ ((r.read xs).1 = [] → (r.read xs).2.2 = []) ∧
      ((r.read xs).1 ≠ [] → (r.read xs).2.2.length < xs.length) := by
  induction xs with
  | nil => intro r; simp [VisionReader.read, run]
  | cons x xs ih =>
    intro r
    simp only [VisionReader.read, run]
    grind

theorem readToEnd_go (calls : Nat) : ∀ (r : VisionReader) (xs : List InnerRead), xs.length < calls →
    readToEnd.go calls r xs = run r xs := by
  induction calls with
  | zero => intro r xs h; omega
  | succ calls ih =>
    intro r xs h
    obtain ⟨h1, h2, h3⟩ := read_run xs r
    simp only [readToEnd.go]
    by_cases ho : (r.read xs).1 = []
    · rw [if_pos ho, h1, ho, h2 ho]
      rfl
    · have hl := h3 ho
      rw [if_neg ho, h1, ih _ _ (by omega)]

theorem readToEnd_eq_run (r : VisionReader) (xs : List InnerRead) : readToEnd r xs = run r xs :=
  readToEnd_go _ r xs (Nat.lt_succ_self _)

/-! ## One inner read -/

theorem take_buf (x : InnerRead) : x.bytes.take x.buf = x.bytes := take_of_length_le x.fits

variable {r : VisionReader}

theorem onRead_raw (h : r.direct = true ∨ ¬ r.Active) (x : InnerRead) :
    r.onRead x = (x.bytes, r) := by
  grind [VisionReader.onRead, take_buf]

theorem run_raw (h : r.direct = true ∨ ¬ r.Active) :
    ∀ (xs : List InnerRead), run r xs = delivered xs := by
  intro xs
  induction xs with
  | nil => rfl
  | cons x xs ih => simp only [run, onRead_raw h, ih, delivered_cons]

/-- The state a reader goes on with, for unpadded bytes `out` and a direction `d`. -/
def VisionReader.next (r : VisionReader) (out : Bytes) (d : DirectionState) : VisionReader :=
  ⟨(filterPacket out r.state).setDir r.isUplink (leavePadding d).1, r.isUplink, (leavePadding d).2⟩

theorem onRead_active (hd : r.direct = false) (ha : r.Active) (x : InnerRead)
    {out : Bytes} {d : DirectionState}
    (hu : xtlsUnpadding x.bytes r.state r.isUplink = (out, r.state.setDir r.isUplink d)) :
    r.onRead x = (out.take x.buf, r.next out d) := by
  grind [VisionReader.onRead, VisionReader.next, setDir_dir, setDir_setDir, filterPacket_setDir]

def DirectionState.setWithin (d : DirectionState) (within : Bool) : DirectionState :=
  { d with withinPaddingBuffers := within }

section
variable (d : DirectionState) (within : Bool)

@[simp] theorem setWithin_toCounters : (d.setWithin within).toCounters = d.toCounters := rfl

@[simp] theorem setWithin_initialBuffer : (d.setWithin within).initialBuffer = d.initialBuffer :=
  rfl

@[simp] theorem setWithin_within : (d.setWithin within).withinPaddingBuffers = within := rfl

end

variable {d : DirectionState}

theorem leavePadding_stay (h : ¬ d.Leaves) : leavePadding d = (d.setWithin true, false) := by
  unfold leavePadding
  rw [if_pos]
  · rfl
  · unfold Counters.Leaves at h
    omega

theorem leavePadding_end (h : d.Leaves) (h1 : d.currentCommand = 1) :
    leavePadding d = (d.setWithin false, false) := by
  obtain ⟨hc, hp, h0⟩ := h
  unfold leavePadding
  rw [if_neg (by omega), if_pos h1]
  rfl

theorem leavePadding_direct (h : d.Leaves) (h2 : d.currentCommand = 2) :
    (leavePadding d).2 = true := by
  obtain ⟨hc, hp, h0⟩ := h
  grind [leavePadding]

theorem leavePadding_frame (d : DirectionState) : (leavePadding d).1.toCounters = d.toCounters ∧
      (leavePadding d).1.initialBuffer = d.initialBuffer := by
  grind [leavePadding]

/-- A reader over the detector `s` with the direction `d`. -/
def readerAt (s : TrafficState) (up : Bool) (d : DirectionState) : VisionReader :=
  ⟨s.setDir up d, up, false⟩

theorem new_eq_readerAt (u : Uuid) (packets : Int) (up : Bool) :
    VisionReader.new (.counting u packets) up = readerAt (.counting u packets) up .new := by
  unfold VisionReader.new readerAt
  rw [← counting_dir up u packets, setDir_self]

section
variable (s : TrafficState) (up : Bool) (d : DirectionState)

theorem readerAt_active :
    (readerAt s up d).Active ↔ d.withinPaddingBuffers = true ∨ 0 < s.numberOfPacketToFilter := by
  unfold VisionReader.Active readerAt
  simp only [setDir_dir, setDir_filter]

theorem next_stay {d' : DirectionState} (out : Bytes) (h : ¬ d'.Leaves) :
    (readerAt s up d).next out d' = readerAt (filterPacket out s) up (d'.setWithin true) := by
  simp only [VisionReader.next, readerAt, leavePadding_stay h, filterPacket_setDir, setDir_setDir]

theorem next_end {d' : DirectionState} (out : Bytes) (h : d'.Leaves) (h1 : d'.currentCommand = 1) :
    (readerAt s up d).next out d' = readerAt (filterPacket out s) up (d'.setWithin false) := by
  simp only [VisionReader.next, readerAt, leavePadding_end h h1, filterPacket_setDir, setDir_setDir]

end

/-! ## Nothing is made up -/

/-- Between reads a direction waits for a UUID or is inside a frame. -/
def Counters.Sound (c : Counters) : Prop := c.Initial ∨ ¬ c.Complete

theorem feed_sound (buf : Bytes) : ∀ (c : Counters), ¬ c.Complete → (feed c buf).2.Sound := by
  induction buf with
  | nil => intro c h; exact .inr h
  | cons b rest ih =>
    intro c _
    rw [feed_cons]
    unfold resume
    split
    · split
      · exact ih _ (startHeader_not_complete _)
      · exact .inl ⟨rfl, rfl, rfl⟩
    · rename_i hc
      exact ih _ hc

/-- What `xtls_unpadding` returns and holds back was there before. -/
theorem xtlsUnpadding_length (buf : Bytes) (s : TrafficState) (up : Bool) (h : (s.dir up).Sound) :
    ∃ out d, xtlsUnpadding buf s up = (out, s.setDir up d) ∧ d.Sound ∧
      out.length + d.initialBuffer.length ≤ (s.dir up).initialBuffer.length + buf.length := by
  by_cases hc : (s.dir up).Complete
  · have hi := h.resolve_right (not_not_intro hc)
    rw [xtlsUnpadding_initial _ _ _ hi]
    generalize hp : (s.dir up).initialBuffer ++ buf = pending
    have hl : pending.length = (s.dir up).initialBuffer.length + buf.length := by
      rw [← hp, length_append]
    split
    · exact ⟨_, _, rfl, h, by simp [hl]⟩
    split
    · exact ⟨_, _, rfl, h, by simp [hl]⟩
    refine ⟨_, _, rfl, feed_sound _ _ (startHeader_not_complete _), ?_⟩
    have := feed_length_le (pending.drop 16) (s.dir up).startHeader
    grind [setCounters_initialBuffer, hold_initialBuffer]
  · rw [xtlsUnpadding_inside _ _ _ hc]
    refine ⟨_, _, rfl, feed_sound _ _ hc, ?_⟩
    grind [feed_length_le, setCounters_initialBuffer]

def VisionReader.held (r : VisionReader) : Bytes := (r.state.dir r.isUplink).initialBuffer

def VisionReader.Sound (r : VisionReader) : Prop := (r.state.dir r.isUplink).Sound

theorem onRead_length (r : VisionReader) (x : InnerRead) (h : r.Sound) : (r.onRead x).2.Sound ∧
      (r.onRead x).1.length + (r.onRead x).2.held.length ≤ r.held.length + x.bytes.length := by
  by_cases hraw : r.direct = true ∨ ¬ r.Active
  · rw [onRead_raw hraw]
    exact ⟨h, by simp only; omega⟩
  · obtain ⟨hd, ha⟩ := not_or.mp hraw
    obtain ⟨out, d, hu, hs, hl⟩ := xtlsUnpadding_length x.bytes r.state r.isUplink h
    obtain ⟨h1, h2⟩ := leavePadding_frame d
    rw [onRead_active (by simpa using hd) (Decidable.not_not.mp ha) x hu]
    grind [VisionReader.Sound, VisionReader.held, VisionReader.next, setDir_dir]

theorem run_length_le (xs : List InnerRead) : ∀ (r : VisionReader), r.Sound →
    (run r xs).length ≤ r.held.length + (delivered xs).length := by
  induction xs with
  | nil => intro r _; simp [run]
  | cons x xs ih =>
    intro r h
    obtain ⟨h1, h2⟩ := onRead_length r x h
    have h3 := ih _ h1
    simp only [run, delivered_cons, length_append]
    omega

/-! ## Waiting for a UUID

A direction waits for a UUID before its first frame (`within = true`) and
again behind an END frame, as long as the TLS detector still counts packets
(`within = false`). -/

/-- The schedules under which a waiting reader loses nothing. `held` are the
bytes it holds back: a prefix of the UUID shorter than 21 bytes. They have to
be released by a read that does not continue the UUID, into a buffer that
takes them all, before EOF and before the reader goes over to copying. -/
def Clean (within : Bool) : TrafficState → Bytes → List InnerRead → Prop
  | _, held, [] => held = []
  | s, held, x :: xs =>
    if within = false ∧ s.numberOfPacketToFilter ≤ 0 then held = []
    else if mismatch s.userUuid (held ++ x.bytes) then
      (held ++ x.bytes).length ≤ x.buf ∧ Clean within (filterPacket (held ++ x.bytes) s) [] xs
    else if (held ++ x.bytes).length < 21 then
      Clean within (filterPacket [] s) (held ++ x.bytes) xs
    else False

/-- A direction waiting for a UUID: nothing of a frame is there, and the
reader's last decision was `within`. -/
structure Waiting (d : DirectionState) : Prop where
  initial : d.Initial
  command : (d.currentCommand = 0 ∧ d.withinPaddingBuffers = true) ∨
    (d.currentCommand = 1 ∧ d.withinPaddingBuffers = false)

theorem leavePadding_waiting (h : Waiting d) (b : Bytes) :
    leavePadding (d.hold b) = (d.hold b, false) := by
  obtain ⟨⟨h1, h2, h3⟩, h4⟩ := h
  rcases h4 with ⟨hc, hw⟩ | ⟨hc, hw⟩
  · rw [leavePadding_stay (d := d.hold b) (fun hl => hl.2.2 hc), ← hw]
    rfl
  · have hl : (d.hold b).Leaves := by
      refine ⟨?_, ?_, ?_⟩
      all_goals simp_all
    rw [leavePadding_end hl hc, ← hw]
    rfl

theorem Waiting.hold (h : Waiting d) (b : Bytes) : Waiting (d.hold b) :=
  ⟨h.initial, h.command⟩

theorem next_waiting (s : TrafficState) (up : Bool) (h : Waiting d) (out b : Bytes) :
    (readerAt s up d).next out (d.hold b) = readerAt (filterPacket out s) up (d.hold b) := by
  unfold VisionReader.next readerAt
  simp only [leavePadding_waiting h, filterPacket_setDir, setDir_setDir]

/-- Bytes that neither come out nor are held back are missing for good. -/
theorem run_ne_of_length (hs : r.Sound) (hh : r.held = []) {out pending : Bytes}
    (h : out.length < pending.length) (xs : List InnerRead) : out ++ run r xs ≠ pending ++ delivered xs := by
  have hle := run_length_le xs r hs
  grind [length_append]

theorem released_sound (s : TrafficState) (up : Bool) (h : Waiting d) :
    (readerAt s up (d.hold [])).Sound ∧ (readerAt s up (d.hold [])).held = [] := by
  unfold VisionReader.Sound VisionReader.held readerAt
  rw [setDir_dir]
  exact ⟨.inl h.initial, rfl⟩

theorem next_header_sound (r : VisionReader) (d : DirectionState) (out bytes : Bytes) :
    (r.next out ((d.hold []).setCounters (feed d.startHeader bytes).2)).Sound ∧
      (r.next out ((d.hold []).setCounters (feed d.startHeader bytes).2)).held = [] := by
  unfold VisionReader.Sound VisionReader.held VisionReader.next
  rw [setDir_dir, (leavePadding_frame _).1, (leavePadding_frame _).2]
  exact ⟨feed_sound _ _ (startHeader_not_complete _), rfl⟩

/-- **Waiting for a UUID.** The stream comes through unchanged exactly under
the clean schedules. -/
theorem run_tail (up : Bool) (xs : List InnerRead) : ∀ (s : TrafficState) (d : DirectionState),
      Waiting d → (run (readerAt s up d) xs = d.initialBuffer ++ delivered xs ↔
        Clean d.withinPaddingBuffers s d.initialBuffer xs) := by
  induction xs with
  | nil =>
    intro s d _
    simp only [run, Clean, delivered_nil, append_nil]
    exact eq_comm
  | cons x xs ih =>
    intro s d hw
    have hdir : (readerAt s up d).state.dir up = d := setDir_dir s up d
    unfold Clean
    split
    · -- the detector is done: everything is copied, what is held back is lost
      have hraw : ¬ (readerAt s up d).Active := by
        grind [readerAt_active]
      rw [run_raw (.inr hraw), self_eq_append_left]
    · rename_i hon
      have ha : (readerAt s up d).Active := by
        grind [readerAt_active]
      have hi : ((readerAt s up d).state.dir up).Initial := by rw [hdir]; exact hw.initial
      have hx := xtlsUnpadding_initial x.bytes (readerAt s up d).state up hi
      rw [hdir] at hx
      simp only [readerAt, setDir_userUuid] at hx
      generalize hp : d.initialBuffer ++ x.bytes = pending at hx ⊢
      have happ : d.initialBuffer ++ delivered (x :: xs) = pending ++ delivered xs := by
        rw [delivered_cons, ← append_assoc, hp]
      rw [happ]
      split
      · -- no UUID: released, as far as the caller's buffer goes
        rename_i hm
        rw [if_pos hm] at hx
        simp only [run, onRead_active rfl ha x hx, next_waiting s up hw]
        by_cases hfit : pending.length ≤ x.buf
        · have hih := ih (filterPacket pending s) (d.hold []) (hw.hold [])
          rw [take_of_length_le hfit, append_cancel_left_eq]
          simpa [hfit, DirectionState.hold] using hih
        · obtain ⟨hsound, hheld⟩ := released_sound (filterPacket pending s) up hw
          grind [run_ne_of_length]
      · rename_i hm
        rw [if_neg hm] at hx
        split
        · -- still a prefix of the UUID: held back
          rename_i hs
          rw [if_pos hs] at hx
          have hih := ih (filterPacket [] s) (d.hold pending) (hw.hold pending)
          simp only [run, onRead_active rfl ha x hx, next_waiting s up hw, take_nil, nil_append]
          simpa [DirectionState.hold] using hih
        · -- a UUID: at least these 16 bytes are gone
          rename_i hs
          rw [if_neg hs] at hx
          have hf := feed_length_le (pending.drop 16) d.startHeader
          simp only [run, onRead_active rfl ha x hx, iff_false]
          grind [next_header_sound, readerAt, feed, run_ne_of_length]

end Wrongsv.L2.Vision
