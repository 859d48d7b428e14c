import Wrongsv.L2Machine.WebSocket.Upgrade

/-!
# WebSocket: frames that come with the upgrade are taken for payload

`parse_upgrade` hands back what it finds behind the request, and `handle_ws_connection`
(server/handler/websocket.rs:404-453) gives it to `WebSocketStream::new` as the read buffer.
That buffer holds decoded payload, but these bytes are frames: they go to the VLESS decoder
as they are, and the rest of a frame that was read in part is taken for a new one. Over TLS
the request is also lost if it does not come in one read.

Fix: put the leftover in front of the inner stream, and over TLS read up to the empty line.
-/
namespace Wrongsv.Bugs.WebSocketEarlyFrames
open L1.WebSocket L1.HttpUpgrade L2.WebSocket List

/-! ## What the application should read -/

/-- The Binary payloads. A Close, or a frame the server does not accept, ends
the stream. -/
def streamPayload : List ClientFrame → Bytes
  | [] => []
  | f :: fs =>
    match f.received with
    | .ok ⟨_, .binary, payload⟩ => payload ++ streamPayload fs
    | .ok ⟨_, .ping, _⟩ => streamPayload fs
    | .ok ⟨_, .pong, _⟩ => streamPayload fs
    | _ => []

/-- The bytes of all reads. -/
def returned : List (Except IoError Bytes) → Bytes
  | [] => []
  | .ok bytes :: results => bytes ++ returned results
  | .error _ :: results => returned results

/-- The handler builds a stream, and its reads return the Binary payloads in
order: never anything else, and all of them after enough reads. -/
def Presents (result : Except HandlerError WebSocketStream) (frames : List ClientFrame) : Prop :=
  ∃ s, result = .ok s ∧ (∀ lens : List Nat, (∀ n ∈ lens, 0 < n) → returned (s.reads lens).1 <+: streamPayload frames) ∧
    ∃ enough, ∀ lens : List Nat, (∀ n ∈ lens, 0 < n) → enough ≤ lens.length →
      returned (s.reads lens).1 = streamPayload frames

/-! ## Nothing is left over -/

/-- What `fill_buffer` makes of the next frames. -/
inductive Filled (fs : List ClientFrame) : Except IoError Bool × View → Prop
  | frame (payload : Bytes) (fs' : List ClientFrame) (out : Bytes)
    (h : streamPayload fs = payload ++ streamPayload fs') (hlt : fs'.length < fs.length) :
    Filled fs (.ok true, ⟨payload, fs'.map .frame, false, out⟩)
  | ended (v : View) (hclosed : v.closed = true) (h : streamPayload fs = []) : Filled fs (.ok false, v)
  | failed (e : IoError) (v : View) (h : streamPayload fs = []) : Filled fs (.error e, v)

theorem Filled.skip {f : ClientFrame} {fs : List ClientFrame} {q : Except IoError Bool × View}
    (h : Filled fs q) (hf : streamPayload (f :: fs) = streamPayload fs) : Filled (f :: fs) q := by
  cases h with
  | frame payload fs' out h hlt => exact .frame payload fs' out (hf.trans h) (Nat.lt_succ_of_lt hlt)
  | ended v hclosed h => exact .ended v hclosed (hf.trans h)
  | failed e v h => exact .failed e v (hf.trans h)

theorem fill_payload (fs : List ClientFrame) :
    ∀ out : Bytes, Filled fs (fill out (fs.map .frame)) := by
  induction fs with
  | nil => intro out; exact .failed _ _ rfl
  | cons f fs ih =>
    intro out
    rw [map_cons, fill]
    cases hr : f.received with
    | error e => exact .failed _ _ (by simp only [streamPayload, hr])
    | ok frame =>
      obtain ⟨fin, opcode, payload⟩ := frame
      cases opcode with
      | binary => exact .frame payload fs out (by simp only [streamPayload, hr]) (Nat.lt_succ_self _)
      | text => exact .failed _ _ (by simp only [streamPayload, hr])
      | close => exact .ended _ rfl (by simp only [streamPayload, hr])
      | ping => exact (ih _).skip (by simp only [streamPayload, hr])
      | pong => exact (ih _).skip (by simp only [streamPayload, hr])

theorem returned_closed (lens : List Nat) {v : View} (h : v.closed = true) :
    returned (v.reads lens).1 = [] := by
  rw [View.reads_closed lens h]
  induction lens with
  | nil => rfl
  | cons len lens ih => exact ih

/-- **Frames as payload.** -/
theorem returned_reads (lens : List Nat) : ∀ (pending : Bytes) (fs : List ClientFrame)
    (out : Bytes), (∀ n ∈ lens, 0 < n) →
    returned (View.reads ⟨pending, fs.map .frame, false, out⟩ lens).1 <+: pending ++ streamPayload fs ∧
      (pending.length + (streamPayload fs).length + fs.length < lens.length →
        returned (View.reads ⟨pending, fs.map .frame, false, out⟩ lens).1 = pending ++ streamPayload fs) := by
  induction lens with
  | nil => intro pending fs out _; exact ⟨ nil_prefix, fun h => nomatch h⟩
  | cons len lens ih =>
    intro pending fs out hlens
    have hpos : 0 < len := hlens len mem_cons_self
    have hlens' : ∀ n ∈ lens, 0 < n := fun n hn => hlens n (mem_cons_of_mem _ hn)
    -- a part of a payload, then the rest
    have hserve : ∀ (payload : Bytes) (fs' : List ClientFrame) (out' : Bytes),
        returned (.ok (payload.take len) :: (View.reads ⟨payload.drop len, fs'.map .frame, false, out'⟩ lens).1) <+:
          payload ++ streamPayload fs' ∧
        ((payload.drop len).length + (streamPayload fs').length + fs'.length < lens.length →
          returned (.ok (payload.take len) :: (View.reads ⟨payload.drop len, fs'.map .frame, false,
            out'⟩ lens).1) = payload ++ streamPayload fs') := by
      intro payload fs' out'
      obtain ⟨h1, h2⟩ := ih (payload.drop len) fs' out' hlens'
      have hsplit : payload ++ streamPayload fs' = payload.take len ++ (payload.drop len ++ streamPayload fs') := by
        rw [← append_assoc, take_append_drop]
      rw [returned, hsplit]
      exact ⟨(prefix_append_right_inj _).mpr h1, fun h => by rw [h2 h]⟩
    by_cases hp : pending = []
    · subst hp
      have hfilled := fill_payload fs out
      rw [View.reads, View.read_fill]
      generalize fill out (fs.map .frame) = q at hfilled ⊢
      cases hfilled with
      | frame payload fs' out' hpayload hlt => grind
      | ended v hclosed hpayload => grind [returned, returned_closed]
      | failed e v hpayload =>
        rw [hpayload]
        exact ⟨prefix_rfl, fun _ => rfl⟩
    · obtain ⟨h4, h5⟩ := hserve pending fs out
      rw [View.reads, View.read_pending hp]
      grind [length_pos_of_ne_nil]

theorem presents_new (frames : List ClientFrame) :
    Presents (.ok (WebSocketStream.new ⟨frames.flatMap (·.bytes), []⟩ [])) frames := by
  have hshows := new_shows (frames.map .frame) []
  rw [(schedule_frames frames).1] at hshows
  refine ⟨_, rfl, fun lens hlens => ?_, (streamPayload frames).length + frames.length + 1, fun lens hlens hlen => ?_⟩
  · rw [(reads_shows lens hshows).1]
    exact (returned_reads lens [] frames [] hlens).1
  · rw [(reads_shows lens hshows).1]
    grind [returned_reads]

/-! ## Something is left over -/

/-- A Binary frame with a zero. -/
def probe : ClientFrame := ⟨0x82, .short, [0, 0, 0, 0], [0], rfl, by decide⟩

theorem not_presents_leftover (inner : Schedule) (rest : Bytes) :
    ¬ Presents (.ok (WebSocketStream.new inner (0x82 :: rest))) [probe] := by
  rintro ⟨s, hs, h, -⟩
  cases hs
  have hread : returned ((WebSocketStream.new inner (0x82 :: rest)).reads [1]).1 = [0x82] := by
    have hserve : (WebSocketStream.new inner (0x82 :: rest)).read 1 =
        (.ok [0x82], ⟨inner, [], 0x82 :: rest, 1, false⟩) := by
      have hmin : min (rest.length + 1) 1 = 1 := Nat.min_eq_right (Nat.succ_le_succ (Nat.zero_le _))
      simp only [WebSocketStream.read, WebSocketStream.new, WebSocketStream.bufRemaining, WebSocketStream.serve,
        length_cons, Nat.sub_zero, Nat.zero_lt_succ, if_true, Bool.false_eq_true, if_false, hmin,
        drop_zero, take_succ_cons, take_zero, Nat.zero_add]
    simp only [WebSocketStream.reads, hserve, returned, append_nil]
  have := h [1] (by intro n hn; rw [List.mem_singleton.mp hn]; exact Nat.one_pos)
  rw [hread, show streamPayload [probe] = [0] from rfl] at this
  exact absurd this (by decide)

/-! ## A read that blocks -/

/-- A Pong, which the application does not see. -/
def pong : ClientFrame := .empty 0x8A 0 0 0 0

def pongs (n : Nat) : Bytes := (List.replicate n pong).flatMap (·.bytes)

theorem pongs_length (n : Nat) : (pongs n).length = n * 6 := by
  induction n with
  | zero => rfl
  | succ n ih =>
    have hnext : pongs (n + 1) = pong.bytes ++ pongs n := rfl
    rw [hnext, length_append, ih, show pong.bytes.length = 6 from rfl]
    omega

theorem pong_received : pong.received = .ok ⟨true, .pong, []⟩ := rfl

theorem settles_pong : (readFrame true).Settles pong.bytes (.ok ⟨true, .pong, []⟩) [] := by
  obtain ⟨left, hsettles, hleft⟩ := settles_readFrame pong
  obtain rfl := hleft ⟨_, pong_received⟩
  rw [pong_received] at hsettles
  exact hsettles

/-- The first read goes through all Pongs, and fails if it blocks before their end. -/
theorem go_pongs (n : Nat) :
    ∀ {fuel : Nat} {s : WebSocketStream} {avail missing next : Bytes} {later : List Bytes},
    s.inner = ⟨avail, next :: later⟩ → avail ++ missing = pongs n → missing ≠ [] → avail.length < fuel →
    (WebSocketStream.fillBuffer.go fuel s).1 = .error .wouldBlock := by
  induction n with
  | zero =>
    intro fuel s avail missing next later _ hpongs hmissing
    exact absurd (List.append_eq_nil_iff.mp hpongs).2 hmissing
  | succ n ih =>
    intro fuel s avail missing next later hinner hpongs hmissing hfuel
    obtain ⟨fuel, rfl⟩ : ∃ m, fuel = m + 1 := ⟨fuel - 1, by omega⟩
    have hnext : avail ++ missing = pong.bytes ++ pongs n := hpongs
    have hlen : pong.bytes.length = 6 := rfl
    rw [WebSocketStream.fillBuffer.go, hinner]
    by_cases hpart : avail.length < 6
    · -- a part of the Pong is lost with the error
      have hsplit : avail ++ pong.bytes.drop avail.length = pong.bytes := by
        have htake := congrArg (List.take avail.length) hnext
        rw [take_left, take_append_of_le_length (by omega)] at htake
        conv => lhs; lhs; rw [htake]
        exact take_append_drop _ _
      have hrest : pong.bytes.drop avail.length ≠ [] := ne_nil_of_length_pos (by rw [length_drop]; omega)
      rw [((exact_readFrame true).starves (hsplit.symm ▸ settles_pong) hrest).block]
    · have hwhole := congrArg (List.take 6) hnext
      rw [take_append_of_le_length (by omega), ← hlen, take_left] at hwhole
      obtain ⟨rest, rfl⟩ : ∃ rest, avail = pong.bytes ++ rest := ⟨avail.drop pong.bytes.length, by
        conv => rhs; lhs; rw [← hwhole]
        exact (take_append_drop _ _).symm⟩
      rw [settles_pong rest (next :: later)]
      rw [append_assoc, append_cancel_left_eq] at hnext
      rw [length_append, hlen] at hfuel
      exact ih (s := { s with inner := ⟨rest, next :: later⟩ }) rfl hnext hmissing (by omega)

theorem streamPayload_pongs (n : Nat) : streamPayload (List.replicate n pong ++ [probe]) = [0] := by
  induction n with
  | zero => rfl
  | succ n ih => simpa only [replicate_succ, cons_append, streamPayload, pong_received] using ih

/-- A client that sends Pongs beyond the read that blocks, and then a payload. -/
theorem not_presents_paused {n : Nat} {bytes : Bytes} (hbytes : bytes = pongs (n + 1) ++ probe.bytes) :
    ¬ Presents (.ok (WebSocketStream.new (innerStream (some n) bytes .tls) [])) (List.replicate (n + 1) pong ++ [probe]) := by
  rintro ⟨s, hs, -, enough, hall⟩
  cases hs
  have hlen := pongs_length (n + 1)
  have hsplit : bytes.take n ++ (pongs (n + 1)).drop n = pongs (n + 1) := by
    rw [hbytes, take_append_of_le_length (by omega), take_append_drop]
  have hfill : ((WebSocketStream.new (innerStream (some n) bytes .tls) []).fillBuffer).1 = .error .wouldBlock := by
    refine go_pongs (n + 1) rfl hsplit (ne_nil_of_length_pos (by rw [length_drop]; omega)) ?_
    simp only [WebSocketStream.new, innerStream, Schedule.weight, Schedule.bytes, length_append]
    omega
  rcases hq : (WebSocketStream.new (innerStream (some n) bytes .tls) []).fillBuffer with ⟨r, s'⟩
  rw [hq] at hfill
  obtain rfl : r = .error .wouldBlock := hfill
  have hread : (WebSocketStream.new (innerStream (some n) bytes .tls) []).read 1 = (.error .wouldBlock, s') := by
    rw [WebSocketStream.read, hq]
    rfl
  have hnone := hall (List.replicate (enough + 1) 1) (by simp) (by simp)
  rw [replicate_succ, WebSocketStream.reads, hread, streamPayload_pongs] at hnone
  cases hnone

/-! ## Result -/

/-- A read ends where the request ends; over TLS, the first one, and no later one blocks. -/
def EndsRead : Transport → ReadSizes → Option Nat → Nat → Prop
  | .raw, r, _, k => ∃ n, r.total n = k
  | .tls, r, pause, k => r.size 0 = k ∧ pause = none

section
variable {path : Text} {host : Option Text} {pause : Option Nat} (u : Upgrade path host)
  (r : ReadSizes) (t : Bytes)

theorem u_pos : 0 < u.bytes.length := by
  obtain ⟨-, head, hs, -⟩ := u.head
  have := splitHead_length hs
  omega

theorem raw_buffer : ∃ m later, r.total m < u.bytes.length ∧ u.bytes.length ≤ r.total (m + 1) ∧
    later.flatten = t.drop (r.total (m + 1) - u.bytes.length) ∧
    streamReadUpgrade [] (socketReads r (u.bytes ++ t)) =
      .ok (u.bytes ++ t.take (r.total (m + 1) - u.bytes.length), later) := by
  obtain ⟨hmax, head, hs, -⟩ := u.head
  have := streamReadUpgrade_eq (t := t) r hs hmax _ 0 (u.bytes ++ t).length rfl (u_pos u) (Nat.le_refl _)
  exact this

theorem tls_buffer : readTlsPlaintext (socketReads r (u.bytes ++ t)) =
    .ok ((u.bytes ++ t).take (r.size 0), socketReads.go r ((u.bytes ++ t).length - 1) 1 ((u.bytes ++ t).drop (r.size 0))) := by
  have hpos := u_pos u
  have hr := r.pos 0
  have hne : u.bytes ++ t ≠ [] := by
    apply ne_nil_of_length_pos
    rw [length_append]
    omega
  have hpiece : (u.bytes ++ t).take (r.size 0) ≠ [] := by
    grind [take_eq_nil_iff]
  obtain ⟨n, hn⟩ : ∃ n, (u.bytes ++ t).length = n + 1 :=
    ⟨(u.bytes ++ t).length - 1, by rw [length_append]; omega⟩
  rw [socketReads, hn, socketReads.go, if_neg hne, readTlsPlaintext, if_neg hpiece]
  rfl

theorem presents_of_buffer {transport : Transport} (hquiet : transport = .tls → pause = none)
    {pieces later : List Bytes} {frames : List ClientFrame} (hlater : later.flatten = frames.flatMap (·.bytes))
    (h : readUpgrade transport pieces = .ok (u.bytes, later)) :
    Presents (handleWsConnection transport path host pause pieces) frames := by
  have hinner : innerStream pause later.flatten transport = ⟨later.flatten, []⟩ := by
    cases transport with
    | raw => rfl
    | tls => rw [hquiet rfl, innerStream]
  have hstream : handleWsConnection transport path host pause pieces =
      .ok (WebSocketStream.new ⟨later.flatten, []⟩ []) := by
    simp only [handleWsConnection, h, u.accepted, hinner]
  rw [hstream, hlater]
  exact presents_new frames

/-- A buffer that ends elsewhere: in the request, or in the frame behind it. -/
theorem not_presents_of_buffer (transport : Transport)
    {pieces later : List Bytes} {k : Nat} (hk : k ≠ u.bytes.length)
    (h : readUpgrade transport pieces = .ok ((u.bytes ++ probe.bytes).take k, later)) :
    ¬ Presents (handleWsConnection transport path host pause pieces) [probe] := by
  have hbytes : probe.bytes = [0x82, 0x81, 0, 0, 0, 0, 0] := rfl
  simp only [handleWsConnection, h]
  rcases Nat.lt_or_gt_of_ne hk with hlt | hgt
  · obtain ⟨-, head, hs, -⟩ := u.head
    have herror : ∃ e, parseUpgrade (u.bytes.take k) path host = .error e := by
      unfold parseUpgrade
      split
      · exact ⟨_, rfl⟩
      · rw [splitHead_take hs hlt]
        exact ⟨_, rfl⟩
    obtain ⟨e, he⟩ := herror
    rw [take_append_of_le_length (Nat.le_of_lt hlt), he]
    rintro ⟨s, hs, -⟩
    cases hs
  · obtain ⟨n, hn⟩ : ∃ n, k - u.bytes.length = n + 1 := ⟨k - u.bytes.length - 1, by omega⟩
    rw [take_append, take_of_length_le (Nat.le_of_lt hgt), u.parse_append, hn, hbytes]
    by_cases hlong : maxHeaderSize < (u.bytes ++ [0x82, 0x81, 0, 0, 0, 0, 0].take (n + 1)).length
    · rw [if_pos hlong]
      rintro ⟨s, hs, -⟩
      cases hs
    · rw [if_neg hlong]
      exact not_presents_leftover _ _

/-- Over TLS with a read that blocks, some client is not understood. -/
theorem not_presents_of_pause {n : Nat} (hsize : r.size 0 = u.bytes.length) :
    ¬ Presents (handleWsConnection .tls path host (some n)
      (socketReads r (u.bytes ++ (List.replicate (n + 1) pong ++ [probe]).flatMap (·.bytes))))
      (List.replicate (n + 1) pong ++ [probe]) := by
  have hbuf := tls_buffer u r ((List.replicate (n + 1) pong ++ [probe]).flatMap (·.bytes))
  rw [hsize, take_left, drop_left] at hbuf
  simp only [handleWsConnection, readUpgrade, hbuf, u.accepted]
  refine not_presents_paused ?_
  rw [socketReads_flatten, flatMap_append, flatMap_singleton]
  · rfl
  · have hpos := u_pos u
    rw [length_append]
    omega

end

def request : Bytes :=
  "GET / HTTP/1.1\r\nHost: a\r\nUpgrade: websocket\r\nConnection: Upgrade\r\nSec-WebSocket-Key: k\r\n\r\n".toList.map
    fun c => UInt8.ofNat c.toNat

def hi : ClientFrame := .hi

end Wrongsv.Bugs.WebSocketEarlyFrames
