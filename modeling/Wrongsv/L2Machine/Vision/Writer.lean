import Wrongsv.L2Machine.Vision.State

/-!
# XTLS Vision: the writer

`VisionWriter::write` wraps each write in a frame until the TLS detector and
`is_complete_record` let it close the padding with END or DIRECT; from then
on it copies. The random number and the random bytes of `xtls_padding` are
arguments (`Draw`), so every result holds whatever they are. `none` stands
for the panic of `gen_range` on an empty range.

The relays of WebSocket, mKCP, ShadowTLS and others do not keep the writer:
they build one per write from the carried state and `user_uuid`
(`VisionWriter.rebuild`), which forgets `direct` but not `is_padding`.

`writeAll_framed`: whatever is written, the output is the UUID once, frames
that carry the writes in order, and behind a closing frame the raw writes.
-/
namespace Wrongsv.L2.Vision
open L1.VisionFrame

/-! ## Padding -/

/-- `n as i32` -/
def asI32 (n : UInt32) : Int := if n.toNat < 2 ^ 31 then n.toNat else n.toNat - 2 ^ 32

/-- What `rng` gives to one call of `xtls_padding`. -/
structure Draw where
  number : Nat
  bytes : Nat → Bytes
  bytes_length : ∀ n, (bytes n).length = n

/-- `rng.gen_range(0..range)`, which panics on an empty range. -/
def Draw.genRange (d : Draw) (range : UInt32) : Option UInt32 :=
  if range = 0 then none else some (UInt32.ofNat (d.number % range.toNat))

/-- vless/vision.rs:130-134 -/
def effectiveSeed (testseed : List UInt32) : List UInt32 :=
  if testseed.length < 4 then [900, 500, 900, 256] else testseed

/-- The padding length before it is cut to what the frame has room for. -/
def drawPadding (contentLen : Int) (longPadding : Bool) (seed : List UInt32) (draw : Draw) :
    Option Int :=
  if contentLen < asI32 (seed.getD 0 0) ∧ longPadding = true then
    (draw.genRange (seed.getD 1 0)).map fun extra =>
      max (asI32 extra + asI32 (seed.getD 2 0) - contentLen) 0
  else (draw.genRange (seed.getD 3 0)).map asI32

/-- `if let Some(uuid) = user_uuid.take() { frame.extend_from_slice(&uuid) }` -/
def uuidBytes : Option Uuid → Bytes
  | some uuid => uuid.bytes
  | none => []

/-- The frame `xtls_padding` returns; it takes the UUID out of `user_uuid`.
vless/vision.rs:123-171 -/
def xtlsPadding (buf : Bytes) (command : UInt8) (userUuid : Option Uuid) (longPadding : Bool)
    (testseed : List UInt32) (draw : Draw) : Option Bytes :=
  (drawPadding buf.length longPadding (effectiveSeed testseed) draw).map fun drawn =>
    let paddingLen := min drawn (65536 - 21 - (buf.length : Int))
    uuidBytes userUuid ++
      command :: (be16 buf.length ++ be16 (paddingLen % 65536).toNat ++ buf ++
        (if 0 < paddingLen then draw.bytes paddingLen.toNat else []))

/-! ## Complete TLS records -/

/-- The scan of `is_complete_record`; every pass consumes a byte at least. -/
def isCompleteRecord.go : Nat → Nat → Nat → Bytes → Bool
  | _, headerRemaining, recordRemaining, [] => headerRemaining == 5 && recordRemaining == 0
  | 0, _, _, _ :: _ => false
  | fuel + 1, headerRemaining, recordRemaining, byte :: rest =>
    if 0 < headerRemaining then
      if (headerRemaining = 5 ∧ byte ≠ 0x17) ∨ (headerRemaining = 4 ∧ byte ≠ 0x03) ∨
          (headerRemaining = 3 ∧ byte ≠ 0x03) then false
      else
        let recordRemaining :=
          if headerRemaining = 2 then byte.toNat <<< 8
          else if headerRemaining = 1 then recordRemaining ||| byte.toNat
          else recordRemaining
        go fuel (headerRemaining - 1) recordRemaining rest
    else if 0 < recordRemaining then
      if (byte :: rest).length < recordRemaining then false
      else go fuel 5 0 ((byte :: rest).drop recordRemaining)
    else false

/-- vless/vision.rs:322-366 -/
def isCompleteRecord (buf : Bytes) : Bool := isCompleteRecord.go buf.length 5 0 buf

/-! ## The writer -/

structure VisionWriter where
  state : TrafficState
  isUplink : Bool
  userUuid : Option Uuid
  testseed : List UInt32
  direct : Bool

def VisionWriter.new (state : TrafficState) (isUplink : Bool) (testseed : List UInt32) :
    VisionWriter :=
  { state, isUplink, userUuid := some state.userUuid, testseed, direct := false }

/-- A new writer with the carried state and `user_uuid`.
server/handler/websocket.rs:737-748 -/
def VisionWriter.rebuild (w : VisionWriter) : VisionWriter :=
  { VisionWriter.new w.state w.isUplink w.testseed with userUuid := w.userUuid }

/-- `writer_direction`: the opposite of the reader's.
vless/vision.rs:458-464 -/
def VisionWriter.direction (w : VisionWriter) : DirectionState := w.state.dir (!w.isUplink)

/-- `is_padding = false`, and `direct_copy` with XTLS. -/
def TrafficState.stopPadding (s : TrafficState) (up xtls : Bool) : TrafficState :=
  s.setDir up { s.dir up with isPadding := false, directCopy := (s.dir up).directCopy || xtls }

/-- The output and the writer behind a write to a sink that takes everything. -/
def VisionWriter.write (w : VisionWriter) (buf : Bytes) (draw : Draw) :
    Option (Bytes × VisionWriter) :=
  if w.direct then some (buf, w)
  else
    let s := filterPacket buf w.state
    if (s.dir (!w.isUplink)).isPadding then
      if buf = [] then
        (xtlsPadding [] cmdPaddingContinue w.userUuid true w.testseed draw).map fun frame =>
          (frame, { w with state := s, userUuid := none })
      else if s.isTls ∧ 6 ≤ buf.length ∧ buf.take 3 = tlsAppDataStart ∧ isCompleteRecord buf = true then
        let closing : Closing := if s.enableXtls then .padDirect else .padEnd
        (xtlsPadding buf closing.command w.userUuid false w.testseed draw).map fun frame =>
          (frame, { w with state := s.stopPadding (!w.isUplink) s.enableXtls, userUuid := none,
                           direct := s.enableXtls })
      else
        (xtlsPadding buf cmdPaddingContinue w.userUuid s.isTls w.testseed draw).map fun frame =>
          (frame, { w with state := s, userUuid := none })
    else some (buf, { w with state := s })

/-! ## Frames -/

/-- The seeds with which `xtls_padding` neither panics nor leaves `i32`: both
ranges are non-empty and no entry reaches 2^30. -/
structure TestSeed where
  entries : List UInt32
  usable : entries.length < 4 ∨
    (0 < entries.getD 1 0 ∧ 0 < entries.getD 3 0 ∧ ∀ i < 4, (entries.getD i 0).toNat < 2 ^ 30)

/-- The `up_seed` of the relays. -/
def relaySeed (testseed : List UInt32) : List UInt32 :=
  if 4 ≤ testseed.length then testseed else [900, 500, 900, 256]

/-- The seed the server uses: its accounts have an empty `testseed`.
server/handler/mod.rs:528 -/
def TestSeed.server : TestSeed := ⟨relaySeed [], by decide⟩

variable (seed : TestSeed)

theorem TestSeed.effective :
    0 < (effectiveSeed seed.entries).getD 1 0 ∧ 0 < (effectiveSeed seed.entries).getD 3 0 ∧
      ∀ i < 4, ((effectiveSeed seed.entries).getD i 0).toNat < 2 ^ 30 := by
  unfold effectiveSeed
  rcases seed.usable with h | h
  · rw [if_pos h]
    decide
  · split
    · decide
    · exact h

theorem genRange_some (d : Draw) {range : UInt32} (h : 0 < range) :
    ∃ n, d.genRange range = some n ∧ n.toNat < range.toNat := by
  have hpos : 0 < range.toNat := UInt32.lt_iff_toNat_lt.mp h
  have hne : range ≠ 0 := fun h0 => by rw [h0] at hpos; exact absurd hpos (by decide)
  refine ⟨_, if_neg hne, ?_⟩
  have := range.toNat_lt
  have hlt := Nat.mod_lt d.number hpos
  rw [UInt32.toNat_ofNat', Nat.mod_eq_of_lt (by omega)]
  exact hlt

theorem asI32_nonneg {n : UInt32} (h : n.toNat < 2 ^ 31) : 0 ≤ asI32 n := by
  unfold asI32
  omega

theorem drawPadding_some (contentLen : Int) (long : Bool) (draw : Draw) :
    ∃ n, drawPadding contentLen long (effectiveSeed seed.entries) draw = some n ∧ 0 ≤ n := by
  obtain ⟨h1, h3, hsmall⟩ := seed.effective
  unfold drawPadding
  split
  · obtain ⟨e, he, -⟩ := genRange_some draw h1
    grind
  · obtain ⟨e, he, hlt⟩ := genRange_some draw h3
    have := hsmall 3 (by decide)
    exact ⟨_, by rw [he]; rfl, asI32_nonneg (by omega)⟩

/-- **`xtls_padding` frames its input**: the UUID if there is one, then one
frame with the content and some padding. -/
theorem xtlsPadding_frame (buf : Bytes) (hlen : buf.length ≤ 65515) (command : UInt8)
    (uuid : Option Uuid) (long : Bool) (draw : Draw) :
    ∃ f : Frame, f.content = buf ∧ xtlsPadding buf command uuid long seed.entries draw =
        some (uuidBytes uuid ++ f.encode command) := by
  obtain ⟨n, hn, hpos⟩ := drawPadding_some seed buf.length long draw
  generalize hp : min n (65536 - 21 - (buf.length : Int)) = len
  have hpad : (if 0 < len then draw.bytes len.toNat else []).length = len.toNat := by
    split
    · exact draw.bytes_length _
    · rw [List.length_nil]; omega
  refine ⟨⟨buf, if 0 < len then draw.bytes len.toNat else [], by omega, by rw [hpad]; omega⟩, rfl, ?_⟩
  grind [xtlsPadding, Frame.encode, Frame.header]

/-! ## Whole runs -/

/-- One call of `write`: a non-empty buffer that leaves room for a frame,
whether the writer is a fresh one, and the randomness. -/
structure Write where
  bytes : Bytes
  nonempty : bytes ≠ []
  fits : bytes.length ≤ 65515
  rebuilt : Bool
  draw : Draw

def written (xs : List Write) : Bytes := xs.flatMap (·.bytes)

/-- The writer that serves a call: the kept one or a fresh one. -/
def VisionWriter.serve (w : VisionWriter) (x : Write) : VisionWriter :=
  if x.rebuilt then w.rebuild else w

/-- The output of a sequence of writes. -/
def writeAll : VisionWriter → List Write → Option Bytes
  | _, [] => some []
  | w, x :: xs =>
    match (w.serve x).write x.bytes x.draw with
    | none => none
    | some (out, w') => (writeAll w' xs).map (out ++ ·)

/-- The framed part so far and, once it is closed, the ending. -/
def framed (frames : List Frame) (ending : Option Ending) : Bytes :=
  encodeFrames frames ++ (ending.map (·.encode)).getD []

def framedPayload (frames : List Frame) (ending : Option Ending) : Bytes :=
  contents frames ++ (ending.map (·.payload)).getD []

/-- The padding is closed: the writer copies, fresh or kept. -/
def VisionWriter.Closed (w : VisionWriter) : Prop := w.direction.isPadding = false

/-- Still padding. A kept writer could only be `direct` if it had closed. -/
def VisionWriter.Padding (w : VisionWriter) : Prop :=
  w.direction.isPadding = true ∧ w.direct = false

variable {w : VisionWriter}

theorem serve_closed (h : w.Closed) (x : Write) : (w.serve x).Closed := by
  unfold VisionWriter.serve
  split <;> exact h

theorem serve_padding (h : w.Padding) (x : Write) : (w.serve x).Padding := by
  unfold VisionWriter.serve
  split
  · exact ⟨h.1, rfl⟩
  · exact h

theorem serve_frame (w : VisionWriter) (x : Write) :
    (w.serve x).userUuid = w.userUuid ∧ (w.serve x).testseed = w.testseed := by
  unfold VisionWriter.serve
  split <;> exact ⟨rfl, rfl⟩

theorem write_closed (h : w.Closed) (buf : Bytes) (draw : Draw) :
    ∃ w', w.write buf draw = some (buf, w') ∧ w'.Closed := by
  unfold VisionWriter.write
  split
  · exact ⟨w, rfl, h⟩
  have hp : ((filterPacket buf w.state).dir (!w.isUplink)).isPadding = false := by
    rw [filterPacket_dir]; exact h
  rw [if_neg (by rw [hp]; decide)]
  exact ⟨_, rfl, hp⟩

/-- **One write of a padding writer**: the UUID if it is still there, and one
frame with the written bytes, which either leaves the writer padding or
closes it. -/
theorem write_padding (h : w.Padding) (seed : TestSeed) (hseed : w.testseed = seed.entries) (x : Write) :
    ∃ (f : Frame) (closing : Option Closing) (w' : VisionWriter), f.content = x.bytes ∧
      w.write x.bytes x.draw =
        some (uuidBytes w.userUuid ++ f.encode ((closing.map (·.command)).getD cmdPaddingContinue), w') ∧
      w'.userUuid = none ∧ w'.testseed = seed.entries ∧
      (match closing with | none => w'.Padding | some _ => w'.Closed) := by
  have hp : ((filterPacket x.bytes w.state).dir (!w.isUplink)).isPadding = true := by
    rw [filterPacket_dir]; exact h.1
  unfold VisionWriter.write
  rw [if_neg (by rw [h.2]; decide), hseed]
  simp only [hp, if_true, if_neg x.nonempty]
  split
  · generalize hc : (if (filterPacket x.bytes w.state).enableXtls then Closing.padDirect else .padEnd) = c
    obtain ⟨f, hf, hx⟩ := xtlsPadding_frame seed x.bytes x.fits c.command w.userUuid false x.draw
    rw [hx]
    refine ⟨f, some c, _, hf, rfl, rfl, rfl, ?_⟩
    simp only [VisionWriter.Closed, VisionWriter.direction, TrafficState.stopPadding, setDir_dir]
  · obtain ⟨f, hf, hx⟩ := xtlsPadding_frame seed x.bytes x.fits cmdPaddingContinue w.userUuid
      (filterPacket x.bytes w.state).isTls x.draw
    rw [hx]
    exact ⟨f, none, _, hf, rfl, rfl, rfl, hp, h.2⟩

theorem writeAll_closed (xs : List Write) :
    ∀ (w : VisionWriter), w.Closed → writeAll w xs = some (written xs) := by
  induction xs with
  | nil => intro w _; rfl
  | cons x xs ih =>
    intro w h
    obtain ⟨w', hw, hc⟩ := write_closed (serve_closed h x) x.bytes x.draw
    simp only [writeAll, hw, ih w' hc, Option.map_some]
    rfl

section
variable (seed : TestSeed)

/-- What is left to show for a sequence of writes behind the UUID. -/
def Frames (xs : List Write) : Prop :=
  ∀ w : VisionWriter, w.Padding → w.userUuid = none → w.testseed = seed.entries →
    ∃ frames ending, writeAll w xs = some (framed frames ending) ∧
      framedPayload frames ending = written xs

theorem writeAll_cons (x : Write) {xs : List Write} (hxs : Frames seed xs)
    (h : w.Padding) (hs : w.testseed = seed.entries) :
    ∃ frames ending, writeAll w (x :: xs) = some (uuidBytes w.userUuid ++ framed frames ending) ∧
      framedPayload frames ending = written (x :: xs) := by
  obtain ⟨su, ss⟩ := serve_frame w x
  obtain ⟨f, closing, w', hf, hw, hu', hs', hnext⟩ :=
    write_padding (serve_padding h x) seed (ss.trans hs) x
  have hx : written (x :: xs) = f.content ++ written xs := by rw [hf]; rfl
  cases closing with
  | none =>
    obtain ⟨frames, ending, ho, hp⟩ := hxs w' hnext hu' hs'
    refine ⟨f :: frames, ending, ?_, ?_⟩
    all_goals grind [writeAll, framed, encodeFrames, framedPayload, contents]
  | some c =>
    refine ⟨[], some ⟨f, c, written xs⟩, ?_, hx.symm⟩
    grind [writeAll, writeAll_closed, framed, encodeFrames, Ending.encode]

theorem writeAll_frames (xs : List Write) : Frames seed xs := by
  induction xs with
  | nil => intro w _ _ _; exact ⟨[], none, rfl, rfl⟩
  | cons x xs ih =>
    intro w h hu hs
    have := writeAll_cons seed x ih h hs
    rwa [hu] at this

/-- **The writer emits a well-formed stream that carries what is written**:
the UUID, CONTINUE frames, and either nothing or a closing frame with raw
bytes behind it. It does so for every sequence of writes, whether the writer
is kept or rebuilt before any of them. -/
theorem writeAll_framed (u : Uuid) (up : Bool) (x : Write) (xs : List Write) : ∃ frames ending,
      writeAll (.new (.new u) up seed.entries) (x :: xs) = some (u.bytes ++ framed frames ending) ∧
      framedPayload frames ending = written (x :: xs) := by
  have hpad : (VisionWriter.new (.new u) up seed.entries).Padding := by
    cases up <;> exact ⟨rfl, rfl⟩
  exact writeAll_cons seed x (writeAll_frames seed xs) hpad rfl

end

end Wrongsv.L2.Vision
