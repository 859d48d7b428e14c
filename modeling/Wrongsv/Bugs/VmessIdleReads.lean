import Wrongsv.L2Machine.Vmess.Endpoints

/-!
# VMess: an idle client desynchronises the body reader

The socket of a VMess client has a read timeout of one second, and the uplink thread calls
`read_chunk` again after a `WouldBlock` (server/handler/vmess_handler.rs:137-170). But
`read_chunk` is not restartable:

* `decode_size` (server/vmess.rs:958-983) takes the padding length from the SHAKE stream
  before it reads the size. With GLOBAL_PADDING, a default, a timeout before the first byte
  of a chunk moves the stream on.
* a timeout behind the first byte loses what `read_exact` had got, and the size once it has
  been decoded.

Fix: keep size, padding length and the partly filled buffers in the reader.
-/
namespace Wrongsv.Bugs.VmessIdleReads
open L2.Vmess List

variable (x : Crypto)

/-! ## The uplink thread -/

inductive Stop where
  | eof
  | failed (e : VmessError)
  deriving DecidableEq, Repr

/-- The bytes written to the target, and why the loop has ended. -/
structure Relayed where
  forwarded : Bytes
  stop : Option Stop
  deriving DecidableEq, Repr

def relayUplink.go : Nat → VmessBodyReader → Schedule → Relayed
  | 0, _, _ => ⟨[], none⟩
  | fuel + 1, r, src =>
    match r.readChunk x src with
    | (.ok (some plaintext), r, src) =>
      let rest := go fuel r src
      { rest with forwarded := plaintext ++ rest.forwarded }
    | (.ok none, _, _) => ⟨[], some .eof⟩
    | (.error (.read .wouldBlock), r, src) => go fuel r src
    | (.error e, _, _) => ⟨[], some (.failed e)⟩

/-- Every pass takes a byte or a `WouldBlock`. -/
def relayUplink (r : VmessBodyReader) (src : Schedule) : Relayed :=
  relayUplink.go x (src.weight + 1) r src

variable {x}

/-! ## A timeout before the first byte -/

variable {w : VmessBodyWriter}

/-- **A timeout before the first byte leaves the reader as it was** exactly when
there is no padding. -/
theorem readChunk_idle_iff (hs : w.Sound) (next : Bytes) (later : List Bytes) :
    w.reader.readChunk x ⟨[], next :: later⟩ = (.error (.read .wouldBlock), w.reader, ⟨next, later⟩) ↔
      w.useGlobalPadding = false := by
  obtain ⟨n, c, hn, -, -⟩ := w.nextPaddingLen_sound x hs
  rw [readChunk_idle (r := w.reader) rfl hn]
  unfold SizeCodec.nextPaddingLen at hn
  cases hp : w.useGlobalPadding with
  | false =>
    rw [hp] at hn
    simp only [if_true, Prod.mk.injEq] at hn
    rw [← hn.2]
    exact ⟨fun _ => rfl, fun _ => rfl⟩
  | true =>
    obtain ⟨s, hsome⟩ := Option.isSome_iff_exists.mp (hs.padded hp)
    rw [hp, hsome] at hn
    simp only [Bool.true_eq_false, if_false, Prod.mk.injEq] at hn
    rw [← hn.2]
    constructor
    · intro h
      have hshake := congrArg (fun r => r.2.1.shake) h
      have hpos : some (s.nextPaddingLen x).2 = some s := by
        rw [← hsome]
        exact hshake
      grind [ShakeState.nextPaddingLen, ShakeState.nextU16]
    · intro h
      cases h

/-! ## The end of the stream -/

theorem relay_end (fuel : Nat) : ∀ (r : VmessBodyReader) (src : Schedule), r.done = false →
    (r.useGlobalPadding = true → r.shake.isSome = true) → src.bytes = [] → src.later.length < fuel →
    relayUplink.go x fuel r src = ⟨[], some .eof⟩ := by
  induction fuel with
  | zero => intro r src _ _ _ h; cases h
  | succ fuel ih =>
    intro r src hd hp hb hf
    obtain ⟨avail, later⟩ := src
    obtain ⟨rfl, hl⟩ := List.append_eq_nil_iff.mp hb
    obtain ⟨n, c, hn, -, -, hp'⟩ := SizeCodec.nextPaddingLen_ok x hp
    cases later with
    | nil => rw [relayUplink.go, readChunk_eof hd hn]
    | cons next later =>
      rw [relayUplink.go, readChunk_idle hd hn]
      exact ih _ _ hd hp' hl (Nat.lt_of_succ_lt_succ hf)

/-! ## Timeouts between chunks -/

/-- The position `k` is inside one of the pieces; the first one starts at `o`. -/
def Inside (k : Nat) : Nat → List Bytes → Prop
  | _, [] => False
  | o, piece :: pieces => (o < k ∧ k < o + piece.length) ∨ Inside k (o + piece.length) pieces

instance decidableInside (k : Nat) : (o : Nat) → (pieces : List Bytes) → Decidable (Inside k o pieces)
  | _, [] => .isFalse id
  | o, piece :: pieces =>
    have := decidableInside k (o + piece.length) pieces
    inferInstanceAs (Decidable (_ ∨ _))

/-- No timeout falls inside a piece, and with padding none before the end. -/
def Quiet (padding : Bool) (stop o : Nat) (pieces : List Bytes) (src : Schedule) : Prop :=
  ∀ k ∈ src.cuts o, ¬ Inside k o pieces ∧ (padding = true → stop ≤ k)

instance (padding : Bool) (stop o : Nat) (pieces : List Bytes) (src : Schedule) :
    Decidable (Quiet padding stop o pieces src) := by
  unfold Quiet; infer_instance

/-- The next piece is there, or the reader is idle in front of it and there is
no padding. -/
theorem quiet_cases {padding : Bool} {stop o : Nat} {piece : Bytes} {pieces : List Bytes}
    {src : Schedule} (hb : src.bytes = (piece :: pieces).flatten) (hstop : o + piece.length ≤ stop)
    (hq : Quiet padding stop o (piece :: pieces) src) :
    (∃ rest, src = ⟨piece ++ rest, src.later⟩ ∧ (⟨rest, src.later⟩ : Schedule).bytes =
        pieces.flatten ∧ Quiet padding stop (o + piece.length) pieces ⟨rest, src.later⟩) ∨
      (∃ next later, src = ⟨[], next :: later⟩ ∧ padding = false ∧
        Quiet padding stop o (piece :: pieces) ⟨next, later⟩) := by
  obtain ⟨avail, later⟩ := src
  have hb' : avail ++ later.flatten = piece ++ pieces.flatten := hb
  by_cases hle : piece.length ≤ avail.length
  · left
    have hstart : piece <+: avail ++ later.flatten := ⟨pieces.flatten, hb'.symm⟩
    obtain ⟨rest, rfl⟩ :=
      prefix_of_prefix_length_le hstart (prefix_append avail later.flatten) hle
    rw [append_assoc] at hb'
    refine ⟨rest, rfl, append_cancel_left hb', fun k hk => ?_⟩
    have hcuts : Schedule.cuts ⟨rest, later⟩ (o + piece.length) = Schedule.cuts ⟨piece ++ rest, later⟩ o := by
      simp only [Schedule.cuts, length_append, Nat.add_assoc]
    rw [hcuts] at hk
    exact ⟨fun h => (hq k hk).1 (.inr h), (hq k hk).2⟩
  · right
    have hlt := Nat.not_le.mp hle
    have hn : piece.length ≤ (⟨avail, later⟩ : Schedule).bytes.length := by
      rw [hb]
      simp
    obtain ⟨next, later', hl⟩ := Schedule.later_ne_nil hn hlt
    subst hl
    -- the timeout is in front of the piece
    obtain ⟨h1, h2⟩ := hq (o + avail.length) mem_cons_self
    have havail : avail = [] := by
      apply eq_nil_of_length_eq_zero
      have : ¬ (o < o + avail.length ∧ o + avail.length < o + piece.length) := fun h => h1 (.inl h)
      omega
    subst havail
    refine ⟨next, later', rfl, ?_, fun k hk => hq k (mem_cons_of_mem _ hk)⟩
    grind

/-- The rest of a stream: the writer's chunks and what `write_eof` adds to them,
if it is called. -/
def ending (x : Crypto) (w : VmessBodyWriter) : Option (Nat → UInt8) → List Bytes
  | none => []
  | some fill => [w.eofBytes x fill]

/-- A stream that goes on with the pieces `pieces`, `stop` being its end. -/
structure Carries (w : VmessBodyWriter) (pieces : List Bytes) (src : Schedule) (o stop : Nat) : Prop where
  sound : w.Sound
  bytes : src.bytes = pieces.flatten
  stop_eq : o + src.bytes.length = stop
  quiet : Quiet w.useGlobalPadding stop o pieces src

theorem go_idle (hs : w.Sound) (hp : w.useGlobalPadding = false) (fuel : Nat)
    (next : Bytes) (later : List Bytes) : relayUplink.go x (fuel + 1) w.reader ⟨[], next :: later⟩ =
    relayUplink.go x fuel w.reader ⟨next, later⟩ := by
  rw [relayUplink.go, (readChunk_idle_iff hs next later).mpr hp]

theorem Carries.cases {piece : Bytes} {pieces : List Bytes} {src : Schedule}
    {o stop : Nat} (h : Carries w (piece :: pieces) src o stop) :
    (∃ rest, src = ⟨piece ++ rest, src.later⟩ ∧ (⟨rest, src.later⟩ : Schedule).bytes = pieces.flatten ∧
        Quiet w.useGlobalPadding stop (o + piece.length) pieces ⟨rest, src.later⟩) ∨
      (∃ next later, src = ⟨[], next :: later⟩ ∧ w.useGlobalPadding = false ∧
        Carries w (piece :: pieces) ⟨next, later⟩ o stop) := by
  have hstop : o + piece.length ≤ stop := by
    have h1 := h.stop_eq
    rw [h.bytes, flatten_cons, length_append] at h1
    omega
  rcases quiet_cases h.bytes hstop h.quiet with hc | ⟨next, later, rfl, hp, hq⟩
  · exact .inl hc
  · exact .inr ⟨next, later, rfl, hp, ⟨h.sound, h.bytes, h.stop_eq, hq⟩⟩

theorem relay_ending (eof : Option (Nat → UInt8)) (fuel : Nat) : ∀ (w : VmessBodyWriter)
    (src : Schedule) (o stop : Nat), Carries w (ending x w eof) src o stop → src.weight < fuel →
    relayUplink.go x fuel w.reader src = ⟨[], some .eof⟩ := by
  induction fuel with
  | zero => intro w src o stop _ h; cases h
  | succ fuel ih =>
    intro w src o stop h hf
    have hend : src.bytes = [] → relayUplink.go x (fuel + 1) w.reader src = ⟨[], some .eof⟩ := by
      intro hb
      refine relay_end (fuel + 1) w.reader src rfl h.sound.padded hb ?_
      rw [Schedule.weight] at hf
      omega
    cases eof with
    | none => exact hend h.bytes
    | some fill =>
      cases he : (w.writeEof x fill).1 with
      | error e =>
        apply hend
        rw [h.bytes]
        grind [ending, VmessBodyWriter.eofBytes]
      | ok piece =>
        have hpiece : ending x w (some fill) = [piece] := by
          simp only [ending, VmessBodyWriter.eofBytes, he]
        have he' : w.writeChunk x [] fill = (.ok piece, (w.writeEof x fill).2) := Prod.ext he rfl
        obtain ⟨hw⟩ := writeChunk_wrote x h.sound he'
        rw [hpiece] at h
        rcases h.cases with ⟨rest, hsrc, -, -⟩ | ⟨next, later, rfl, hp, hc⟩
        · have hread := hw.readChunk_nil h.sound rest src.later
          rw [hsrc, relayUplink.go]
          generalize w.reader.readChunk x ⟨piece ++ rest, src.later⟩ = result at hread ⊢
          obtain ⟨result, r, src'⟩ := result
          cases hread
          rfl
        · rw [go_idle h.sound hp]
          exact ih w _ o stop (hpiece ▸ hc) (Nat.lt_of_succ_lt_succ hf)

/-- **Timeouts between chunks do no harm.** -/
theorem relay_quiet (eof : Option (Nat → UInt8)) (fuel : Nat) : ∀ (chunks : List Write)
    (w w' : VmessBodyWriter) (pieces : List Bytes) (src : Schedule) (o stop : Nat),
    w.writeAll x chunks = some (pieces, w') → Carries w (pieces ++ ending x w' eof) src o stop →
    src.weight < fuel →
    relayUplink.go x fuel w.reader src = ⟨(chunks.map (·.plaintext)).flatten, some .eof⟩ := by
  induction fuel with
  | zero => intro chunks w w' pieces src o stop _ _ h; cases h
  | succ fuel ih =>
    intro chunks w w' pieces src o stop hw h hf
    cases chunks with
    | nil =>
      simp only [VmessBodyWriter.writeAll, Option.some.injEq, Prod.mk.injEq] at hw
      grind [relay_ending]
    | cons c chunks =>
      obtain ⟨first, rest, w₁, hc, hr, rfl⟩ := writeAll_cons x hw
      obtain ⟨hwrote⟩ := writeChunk_wrote x h.sound hc
      have hpos := hwrote.bytes_pos h.sound
      rw [cons_append] at h
      rcases h.cases with ⟨avail, hsrc, hb, hq⟩ | ⟨next, later, rfl, hp, hcarries⟩
      · have hread := hwrote.readChunk h.sound c.nonempty avail src.later
        have hlen : src.bytes.length = first.length + (⟨avail, src.later⟩ : Schedule).bytes.length := by
          rw [hb, h.bytes, flatten_cons, length_append]
        have hnext : Carries w₁ (rest ++ ending x w' eof) ⟨avail, src.later⟩ (o + first.length) stop := by
          refine ⟨hwrote.sound h.sound, hb, ?_, hwrote.useGlobalPadding_eq ▸ hq⟩
          have := h.stop_eq
          omega
        have hweight : (⟨avail, src.later⟩ : Schedule).weight < fuel := by
          rw [Schedule.weight] at hf ⊢
          simp only at hlen ⊢
          omega
        rw [hsrc, relayUplink.go, hread]
        simp only [ih chunks w₁ w' rest _ _ _ hr hnext hweight, map_cons, flatten_cons]
      · rw [go_idle h.sound hp]
        exact ih (c :: chunks) w w' (first :: rest) _ o stop hw hcarries (Nat.lt_of_succ_lt_succ hf)

/-! ## Result -/

/-- **Idle periods.** With a supported pair of options and security, and after
any chunks: the relay forwards exactly the chunks if no timeout falls inside
one, and none before the end when there is padding; and a timeout in front of
the next chunk leaves the reader as it was if and only if there is no padding. -/
theorem relay_forwards_chunks (e : Endpoints x) (hsupported : Supported e.option e.security)
    (chunks : List Write) (pieces : List Bytes) (w : VmessBodyWriter)
    (hw : e.writer.writeAll x chunks = some (pieces, w)) :
    (∀ (eof : Option (Nat → UInt8)) (src : Schedule), src.bytes = (pieces ++ ending x w eof).flatten →
      Quiet (e.option &&& requestOptionGlobalPadding != 0) src.bytes.length 0 (pieces ++ ending x w
      eof) src → relayUplink x e.reader src = ⟨(chunks.map (·.plaintext)).flatten, some .eof⟩) ∧
    ∀ (next : Bytes) (later : List Bytes), w.reader.readChunk x ⟨[], next :: later⟩ =
      (.error (.read .wouldBlock), w.reader, ⟨next, later⟩) ↔
        e.option &&& requestOptionGlobalPadding = 0 := by
  obtain ⟨hreader, hnew⟩ := e.codec
  have hs : e.writer.Sound := (newCodec_sound hnew).mpr hsupported
  have hflag := newCodec_useGlobalPadding hnew
  refine ⟨fun eof src hb hq => ?_, fun next later => ?_⟩
  · rw [← hflag] at hq
    rw [hreader]
    exact relay_quiet eof _ chunks e.writer w pieces src 0 _ hw ⟨hs, hb, Nat.zero_add _, hq⟩
      (Nat.lt_succ_self _)
  · obtain ⟨hs', hflag'⟩ := writeAll_sound x chunks hs hw
    rw [readChunk_idle_iff hs', hflag', hflag]
    simp

/-- `hi` and a `!`. -/
def hi : Write := ⟨[0x68, 0x69], fun _ => 0, by decide, by decide⟩
def mark : Write := ⟨[0x21], fun _ => 0, by decide, by decide⟩

/-- CHUNK_MASKING without padding, SECURITY_NONE. -/
def masked : Endpoints plainCrypto where
  payloadKey := List.replicate 16 1
  payloadIv := List.replicate 16 2
  sizeKeySource := List.replicate 16 1
  sizeIvSource := List.replicate 16 2
  option := 0x05
  security := 0x05
  writer := ⟨⟨⟨.shakeMasked, some ⟨List.replicate 16 2, 0⟩, false⟩, .none⟩⟩
  reader := ⟨⟨⟨.shakeMasked, some ⟨List.replicate 16 2, 0⟩, false⟩, .none⟩, false⟩
  writer_new := rfl
  reader_new := rfl

/-- Timeouts in front of, between and behind two chunks. -/
theorem masked_chunks_forwarded :
    relayUplink plainCrypto masked.reader ⟨[], [[0, 3, 0x68, 0x69], [2, 2, 0x21], []]⟩ =
      ⟨[0x68, 0x69, 0x21], some .eof⟩ := by
  have hw : masked.writer.writeAll plainCrypto [hi, mark] =
      some ([[0, 3, 0x68, 0x69], [2, 2, 0x21]],
        ⟨⟨⟨.shakeMasked, some ⟨List.replicate 16 2, 4⟩, false⟩, .none⟩⟩) := rfl
  exact (relay_forwards_chunks masked (by decide) [hi, mark] _ _ hw).1 none _ rfl (by decide)

/-! ## Counterexamples -/

/-- The default options, with GLOBAL_PADDING, and SECURITY_NONE. -/
def padded : Endpoints plainCrypto where
  payloadKey := List.replicate 16 1
  payloadIv := List.replicate 16 2
  sizeKeySource := List.replicate 16 1
  sizeIvSource := List.replicate 16 2
  option := 0x0d
  security := 0x05
  writer := ⟨⟨⟨.shakeMasked, some ⟨List.replicate 16 2, 0⟩, true⟩, .none⟩⟩
  reader := ⟨⟨⟨.shakeMasked, some ⟨List.replicate 16 2, 0⟩, true⟩, .none⟩, false⟩
  writer_new := rfl
  reader_new := rfl

/-- One timeout before the first byte, with padding; or one between the size
and the payload, without: in both cases `hi` is written and nothing arrives. -/
theorem idle_client_loses_chunk :
    (padded.writer.writeAll plainCrypto [hi]).map (·.1) = some [[2, 0, 0x68, 0x69, 0]] ∧
      relayUplink plainCrypto padded.reader ⟨[2, 0, 0x68, 0x69, 0], []⟩ = ⟨[0x68, 0x69], some .eof⟩ ∧
      relayUplink plainCrypto padded.reader ⟨[], [[2, 0, 0x68, 0x69, 0]]⟩ =
        ⟨[], some (.failed (.read .unexpectedEof))⟩ ∧
      (masked.writer.writeAll plainCrypto [hi]).map (·.1) = some [[0, 3, 0x68, 0x69]] ∧
      relayUplink plainCrypto masked.reader ⟨[0, 3], [[0x68, 0x69]]⟩ =
        ⟨[], some (.failed (.protocol "chunk too large: 27242"))⟩ := by
  decide +kernel

end Wrongsv.Bugs.VmessIdleReads
