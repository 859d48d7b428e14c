import Wrongsv.L2Machine.Vision.State

/-!
# XTLS Vision: removing the padding

`unpaddingLoop` is the `while` loop of `unpadding_loop`: it copies content
and skips padding in blocks as long as the buffer has them. `feed` is the
same machine one byte at a time. `unpaddingLoop_eq_feed` says that the two
agree from every state inside a frame, and `feed_append` that `feed` does
not see where its input is cut: a buffer fed in two parts decodes as the
whole, as long as the first part does not complete an END or DIRECT frame.

`xtlsUnpadding` adds the search for the user's UUID in front of the first
frame, with the `initial_buffer` that holds back short prefixes of it.
-/
namespace Wrongsv.L2.Vision
open L1.VisionFrame List

/-! ## The loop of the source -/

/-- One byte of the 5-byte frame header. `remaining_content |= byte` is
reached with the high byte already shifted in, so the `or` is on naturals.
vless/vision.rs:224-234 -/
def headerByte (c : Counters) (byte : UInt8) : Counters :=
  let c' :=
    if c.remainingCommand = 5 then { c with currentCommand := byte.toNat }
    else if c.remainingCommand = 4 then { c with remainingContent := (byte.toNat <<< 8 : Nat) }
    else if c.remainingCommand = 3 then
      { c with remainingContent := (c.remainingContent.toNat ||| byte.toNat : Nat) }
    else if c.remainingCommand = 2 then { c with remainingPadding := (byte.toNat <<< 8 : Nat) }
    else if c.remainingCommand = 1 then
      { c with remainingPadding := (c.remainingPadding.toNat ||| byte.toNat : Nat) }
    else c
  { c' with remainingCommand := c.remainingCommand - 1 }

/-- The three-way branch of the loop body: what is left of the buffer, the
counters, and the bytes appended to `output`. -/
def loopBody (byte : UInt8) (rest : Bytes) (c : Counters) : Bytes × Counters × Bytes :=
  if 0 < c.remainingCommand then (rest, headerByte c byte, [])
  else if 0 < c.remainingContent then
    let len := min c.remainingContent.toNat (byte :: rest).length
    ((byte :: rest).drop len, { c with remainingContent := c.remainingContent - len },
      (byte :: rest).take len)
  else if 0 < c.remainingPadding then
    let len := min c.remainingPadding.toNat (byte :: rest).length
    ((byte :: rest).drop len, { c with remainingPadding := c.remainingPadding - len }, [])
  else (byte :: rest, c, [])

/-- The block is complete. -/
def Counters.Complete (c : Counters) : Prop :=
  c.remainingCommand ≤ 0 ∧ c.remainingContent ≤ 0 ∧ c.remainingPadding ≤ 0

instance (c : Counters) : Decidable c.Complete := inferInstanceAs (Decidable (_ ∧ _ ∧ _))

def Counters.reset (c : Counters) : Counters :=
  { c with remainingCommand := -1, remainingContent := -1, remainingPadding := -1 }

/-- The next block starts with its header. -/
def Counters.startHeader (c : Counters) : Counters := { c with remainingCommand := 5 }

theorem startHeader_not_complete (c : Counters) : ¬ c.startHeader.Complete := by
  unfold Counters.Complete Counters.startHeader
  simp

/-- The `while` loop; the fuel bounds its passes, of which every second one
at least consumes a byte. -/
def unpaddingLoop.go : Nat → Bytes → Counters → Bytes → Bytes × Counters
  | 0, _, c, output => (output, c)
  | _ + 1, [], c, output => (output, c)
  | fuel + 1, byte :: rest, c, output =>
    let (buf, c, out) := loopBody byte rest c
    if c.Complete then
      if c.currentCommand = 0 then go fuel buf c.startHeader (output ++ out)
      else (output ++ out ++ buf, c.reset)
    else go fuel buf c (output ++ out)

/-- vless/vision.rs:217-265 -/
def unpaddingLoop (buf : Bytes) (c : Counters) : Bytes × Counters :=
  unpaddingLoop.go (2 * buf.length + 1) buf c []

/-! ## The same machine, byte by byte -/

/-- What one byte does: the byte it outputs, if any, and the counters. -/
def feedByte (c : Counters) (b : UInt8) : Bytes × Counters :=
  if 0 < c.remainingCommand then ([], headerByte c b)
  else if 0 < c.remainingContent then
    ([b], { c with remainingContent := c.remainingContent - 1 })
  else ([], { c with remainingPadding := c.remainingPadding - 1 })

/-- Feed a buffer: contents and, behind an END or DIRECT frame, everything
else are output. -/
def feed : Counters → Bytes → Bytes × Counters
  | c, [] => ([], c)
  | c, b :: rest =>
    let c' := (feedByte c b).2
    if c'.Complete then
      if c'.currentCommand = 0 then
        let r := feed c'.startHeader rest
        ((feedByte c b).1 ++ r.1, r.2)
      else ((feedByte c b).1 ++ rest, c'.reset)
    else
      let r := feed c' rest
      ((feedByte c b).1 ++ r.1, r.2)

/-- The end of a pass: a completed CONTINUE frame starts the next header, a
completed END or DIRECT frame passes the rest through. -/
def resume (c : Counters) (rest : Bytes) : Bytes × Counters :=
  if c.Complete then
    if c.currentCommand = 0 then feed c.startHeader rest
    else (rest, c.reset)
  else feed c rest

theorem feed_cons (c : Counters) (b : UInt8) (rest : Bytes) : feed c (b :: rest) =
      ((feedByte c b).1 ++ (resume (feedByte c b).2 rest).1, (resume (feedByte c b).2 rest).2) := by
  simp only [feed, resume]
  split
  · split <;> rfl
  · rfl

theorem resume_of_not_complete {c : Counters} (h : ¬ c.Complete) (rest : Bytes) :
    resume c rest = feed c rest := by
  unfold resume; rw [if_neg h]

/-- A block of bytes that count down from `d l.length` to `d 0`; `out` is what each of them outputs. -/
theorem feed_block (out : UInt8 → Bytes) (d : Nat → Counters) (hd : ∀ n, ¬ (d (n + 1)).Complete)
    (hf : ∀ n b, feedByte (d (n + 1)) b = (out b, d n)) (rest : Bytes) : ∀ l : Bytes, l ≠ [] →
    feed (d l.length) (l ++ rest) = (l.flatMap out ++ (resume (d 0) rest).1, (resume (d 0) rest).2)
  | [], h => absurd rfl h
  | [x], _ => by
    rw [cons_append, feed_cons, length_singleton, hf, flatMap_singleton]
    rfl
  | x :: y :: l, _ => by
    rw [cons_append, feed_cons, length_cons, hf, length_cons, resume_of_not_complete (hd _), flatMap_cons,
      ← length_cons, feed_block out d hd hf rest (y :: l) (cons_ne_nil _ _), append_assoc]

section
variable {c : Counters} (hc : c.remainingCommand ≤ 0) {l : Bytes} (hl : l ≠ []) (rest : Bytes)
include hc hl

theorem feed_content (h : (l.length : Int) ≤ c.remainingContent) :
    feed c (l ++ rest) = (l ++ (resume { c with remainingContent := c.remainingContent - l.length }
      rest).1, (resume { c with remainingContent := c.remainingContent - l.length } rest).2) := by
  have hblock := feed_block (fun b => [b])
    (fun n => { c with remainingContent := c.remainingContent - l.length + n })
    (fun n hn => by have := hn.2.1; simp only at this; omega)
    (fun n b => by simp only [feedByte]; grind) rest l hl
  simpa using hblock

theorem feed_padding (hd : c.remainingContent ≤ 0) (h : (l.length : Int) ≤ c.remainingPadding) :
    feed c (l ++ rest) = resume { c with remainingPadding := c.remainingPadding - l.length } rest := by
  have hblock := feed_block (fun _ => [])
    (fun n => { c with remainingPadding := c.remainingPadding - l.length + n })
    (fun n hn => by have := hn.2.2; simp only at this; omega)
    (fun n b => by simp only [feedByte]; grind) rest l hl
  have hnone : l.flatMap (fun _ => ([] : Bytes)) = [] := by simp
  simpa [hnone] using hblock

end

theorem loopBody_feed (byte : UInt8) (rest : Bytes) (c : Counters) (h : ¬ c.Complete) :
    feed c (byte :: rest) =
      ((loopBody byte rest c).2.2 ++ (resume (loopBody byte rest c).2.1 (loopBody byte rest c).1).1,
        (resume (loopBody byte rest c).2.1 (loopBody byte rest c).1).2) ∧
      (loopBody byte rest c).1.length ≤ rest.length := by
  -- the block that the source copies or skips at once
  have hblock : ∀ n : Nat, 0 < n → ∃ l rest', byte :: rest = l ++ rest' ∧ l ≠ [] ∧ l.length ≤ n ∧
      min n (l ++ rest').length = l.length ∧ rest'.length ≤ rest.length := by
    intro n hn
    refine ⟨(byte :: rest).take n, (byte :: rest).drop n, (take_append_drop ..).symm, ?_, ?_, ?_, ?_⟩
    all_goals simp
    all_goals omega
  unfold loopBody
  split
  · grind [feed_cons, feedByte, headerByte]
  split
  · obtain ⟨l, rest', hsplit, hne, hle, hmin, hlen⟩ := hblock c.remainingContent.toNat (by omega)
    simp only [hsplit, hmin, drop_left, take_left]
    exact ⟨feed_content (by omega) hne rest' (by omega), hlen⟩
  split
  · obtain ⟨l, rest', hsplit, hne, hle, hmin, hlen⟩ := hblock c.remainingPadding.toNat (by omega)
    simp only [hsplit, hmin, drop_left, nil_append]
    exact ⟨feed_padding (by omega) hne rest' (by omega) (by omega), hlen⟩
  · exact absurd ⟨by omega, by omega, by omega⟩ h

theorem go_eq_feed : ∀ (fuel : Nat) (buf : Bytes) (c : Counters) (output : Bytes), ¬ c.Complete →
    2 * buf.length < fuel →
    unpaddingLoop.go fuel buf c output = (output ++ (feed c buf).1, (feed c buf).2) := by
  intro fuel
  induction fuel with
  | zero => intro buf c output _ hf; omega
  | succ fuel ih =>
    intro buf c output hc hf
    match buf with
    | [] => simp [unpaddingLoop.go, feed]
    | byte :: rest =>
      obtain ⟨h1, h2⟩ := loopBody_feed byte rest c hc
      rw [h1]
      simp only [unpaddingLoop.go]
      generalize loopBody byte rest c = r at h2 ⊢
      grind [resume, startHeader_not_complete]

variable (buf : Bytes)

theorem unpaddingLoop_eq_feed (c : Counters) (h : ¬ c.Complete) :
    unpaddingLoop buf c = feed c buf := by
  unfold unpaddingLoop
  rw [go_eq_feed _ buf c [] h (by omega)]
  simp

/-! ## Cutting the input -/

theorem reset_complete (c : Counters) : c.reset.Complete := by
  unfold Counters.Complete Counters.reset
  simp

/-- **Cut independence.** A buffer may be fed in two parts, unless the first
one completes an END or DIRECT frame. -/
theorem feed_append (a b : Bytes) : ∀ (c : Counters), ¬ (feed c a).2.Complete →
    feed c (a ++ b) = ((feed c a).1 ++ (feed (feed c a).2 b).1, (feed (feed c a).2 b).2) := by
  induction a with
  | nil => intro c _; simp [feed]
  | cons x a ih => grind [feed_cons, resume, reset_complete]

theorem feed_length_le : ∀ (c : Counters), (feed c buf).1.length ≤ buf.length := by
  induction buf with
  | nil => intro c; simp [feed]
  | cons b rest ih =>
    intro c
    have h1 : (feedByte c b).1.length ≤ 1 := by
      grind [feedByte]
    have h2 : (resume (feedByte c b).2 rest).1.length ≤ rest.length := by
      grind [resume]
    grind [feed_cons]

/-! ## The UUID in front of the first frame -/

/-- `initial_buffer.iter().zip(user_uuid).any(|(got, expected)| got != expected)` -/
def mismatch (u : Uuid) (buf : Bytes) : Bool := (buf.zip u.bytes).any (fun p => p.1 != p.2)

/-- A direction that waits for the UUID of a first frame. -/
def Counters.Initial (c : Counters) : Prop :=
  c.remainingCommand = -1 ∧ c.remainingContent = -1 ∧ c.remainingPadding = -1

instance (c : Counters) : Decidable c.Initial := inferInstanceAs (Decidable (_ ∧ _ ∧ _))

/-- `initial_buffer` after a call. -/
def DirectionState.hold (d : DirectionState) (buf : Bytes) : DirectionState :=
  { d with initialBuffer := buf }

def DirectionState.setCounters (d : DirectionState) (c : Counters) : DirectionState :=
  { d with toCounters := c }

/-- vless/vision.rs:176-215 -/
def xtlsUnpadding (buf : Bytes) (s : TrafficState) (isUplink : Bool) : Bytes × TrafficState :=
  let dir := s.dir isUplink
  if dir.Initial then
    if dir.initialBuffer ≠ [] ∨ buf.length < 21 then
      let pending := dir.initialBuffer ++ buf
      if mismatch s.userUuid pending then (pending, s.setDir isUplink (dir.hold []))
      else if pending.length < 21 then ([], s.setDir isUplink (dir.hold pending))
      else
        let r := unpaddingLoop (pending.drop 16) dir.startHeader
        (r.1, s.setDir isUplink ((dir.hold []).setCounters r.2))
    else if 21 ≤ buf.length ∧ s.userUuid.bytes = buf.take 16 then
      let r := unpaddingLoop (buf.drop 16) dir.startHeader
      (r.1, s.setDir isUplink (dir.setCounters r.2))
    else (buf, s)
  else
    let r := unpaddingLoop buf dir.toCounters
    (r.1, s.setDir isUplink (dir.setCounters r.2))

theorem zip_any_ne_iff : ∀ (a b : Bytes), (a.zip b).any (fun p => p.1 != p.2) = false ↔
    a.take b.length = b.take a.length
  | [], b => by simp
  | a, [] => by simp
  | x :: a, y :: b => by
    simp only [zip_cons_cons, any_cons, Bool.or_eq_false_iff, bne_eq_false_iff_eq,
      zip_any_ne_iff a b, length_cons, take_succ_cons, List.cons.injEq]

theorem mismatch_eq_false_iff (u : Uuid) (buf : Bytes) :
    mismatch u buf = false ↔ buf.take 16 = u.bytes.take buf.length := by
  unfold mismatch
  rw [zip_any_ne_iff, u.length_eq]

theorem hold_of_empty (d : DirectionState) (h : d.initialBuffer = []) : d.hold [] = d := by
  unfold DirectionState.hold
  rw [← h]

/-- The two initial branches of `xtls_unpadding` do the same thing with what
is held back and what is new. -/
theorem xtlsUnpadding_initial (s : TrafficState) (up : Bool)
    (h : (s.dir up).Initial) :
    xtlsUnpadding buf s up =
      if mismatch s.userUuid ((s.dir up).initialBuffer ++ buf) then
        ((s.dir up).initialBuffer ++ buf, s.setDir up ((s.dir up).hold []))
      else if ((s.dir up).initialBuffer ++ buf).length < 21 then
        ([], s.setDir up ((s.dir up).hold ((s.dir up).initialBuffer ++ buf)))
      else
        ((feed (s.dir up).startHeader (((s.dir up).initialBuffer ++ buf).drop 16)).1,
          s.setDir up (((s.dir up).hold []).setCounters
            (feed (s.dir up).startHeader (((s.dir up).initialBuffer ++ buf).drop 16)).2)) := by
  simp only [xtlsUnpadding, if_pos h, unpaddingLoop_eq_feed _ _ (startHeader_not_complete _)]
  by_cases hi : (s.dir up).initialBuffer ≠ [] ∨ buf.length < 21
  · rw [if_pos hi]
  · obtain ⟨h1, h2⟩ := not_or.mp hi
    simp only [ne_eq, Decidable.not_not] at h1
    rw [if_neg hi, hold_of_empty _ h1, setDir_self]
    have hm : (21 ≤ buf.length ∧ s.userUuid.bytes = buf.take 16) ↔
        mismatch s.userUuid buf = false := by
      have hl : s.userUuid.bytes.take buf.length = s.userUuid.bytes :=
        take_of_length_le (by rw [s.userUuid.length_eq]; omega)
      rw [mismatch_eq_false_iff, hl]
      constructor
      · intro hb; exact hb.2.symm
      · intro hb; exact ⟨by omega, hb.symm⟩
    grind

/-- Inside a frame `xtls_unpadding` is the byte machine. -/
theorem xtlsUnpadding_inside (s : TrafficState) (up : Bool) (h : ¬ (s.dir up).Complete) :
    xtlsUnpadding buf s up = ((feed (s.dir up).toCounters buf).1,
        s.setDir up ((s.dir up).setCounters (feed (s.dir up).toCounters buf).2)) := by
  have hi : ¬ (s.dir up).Initial := by
    intro hi; apply h
    obtain ⟨h1, h2, h3⟩ := hi
    unfold Counters.Complete; omega
  simp only [xtlsUnpadding, if_neg hi, unpaddingLoop_eq_feed _ _ h]

end Wrongsv.L2.Vision
