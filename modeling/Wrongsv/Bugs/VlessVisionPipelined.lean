import Wrongsv.L2Machine.Vless.Connection

/-!
# VLESS with Vision: bytes that come with the header are dropped

The first chunk of a session may hold more than the request header. `relay_raw_with_initial`
writes the rest, `remaining_body`, to the target first. `relay_vision` has no such parameter
(server/handler/relay.rs:493-499), so with flow xtls-rprx-vision the bytes are gone
(vless.rs:145-157, httpupgrade.rs:406-416). A client that sends its first Vision block
together with the header loses the UUID in front of it.

`forwarded_iff` says for which requests and numbers of pipelined bytes every upload reaches
the target. The Vision reader is taken to decode well-formed streams (`Upload.decodes`).
-/
namespace Wrongsv.Bugs.VlessVisionPipelined
open L1.VisionFrame L1.VlessHeader L2.Vision L2.Vless List

/-! ## Uploads -/

inductive Transport where
  | direct
  | httpUpgrade
  deriving DecidableEq, Repr

/-- How the client's bytes come in. -/
inductive Arrival where
  | direct (reads : List InnerRead)
  | httpUpgrade (initialData : Bytes) (reads : List InnerRead)

def Arrival.transport : Arrival → Transport
  | .direct _ => .direct
  | .httpUpgrade _ _ => .httpUpgrade

/-- The chunk the request is decoded from, and the reads behind it. -/
def Arrival.first : Arrival → Except ServeError (Bytes × List InnerRead)
  | .direct reads => .ok (firstRead reads)
  | .httpUpgrade initialData reads => readFirstVlessChunk initialData reads

def Arrival.handle (reg : Registry) : Arrival → Outcome × List InnerRead
  | .direct reads => handleConnection reg reads
  | .httpUpgrade initialData reads => handleVlessOverHttpupgradeRaw reg initialData reads

/-- A request header that is accepted and leads to a TCP relay. -/
structure Accepted (reg : Registry) where
  header : Bytes
  decoded : DecodedRequest
  accepts : decodeRequestHeader reg header = .ok (decoded, [])
  stream : decoded.header.command ≠ .udp

/-- What a client sends behind its header: anything without Vision, a
well-formed Vision stream under its own id with Vision. -/
inductive Body (d : DecodedRequest) where
  | plain (noVision : usesVision d = false) (data : Bytes)
  | framed (vision : usesVision d = true) (v : VisionStream) (owner : v.uuid = d.userSentId)

def Body.bytes {d : DecodedRequest} : Body d → Bytes
  | .plain _ data => data
  | .framed _ v _ => v.encode

def Body.payload {d : DecodedRequest} : Body d → Bytes
  | .plain _ data => data
  | .framed _ v _ => v.payload

variable {reg : Registry}

/-- An upload of which the first `k` bytes come in one chunk with the header. -/
structure Upload (q : Accepted reg) (t : Transport) (k : Nat) where
  body : Body q.decoded
  enough : k ≤ body.bytes.length
  arrival : Arrival
  transport_eq : arrival.transport = t
  rest : List InnerRead
  first : arrival.first = .ok (q.header ++ body.bytes.take k, rest)
  later : delivered rest = body.bytes.drop k
  decodes : ∀ v : VisionStream, v.uuid = q.decoded.userSentId → delivered rest = v.encode →
    relayVision q.decoded.userSentId rest = v.payload

/-- The target is written exactly the payload. -/
def Upload.Forwarded {q : Accepted reg} {t : Transport} {k : Nat} (u : Upload q t k) : Prop :=
  ∃ relay, (u.arrival.handle reg).1.relay = .ok relay ∧
    relay.uplink (u.arrival.handle reg).2 = some u.body.payload

theorem handle_of_first {a : Arrival} {first : Bytes} {rest : List InnerRead}
    (h : a.first = .ok (first, rest)) : a.handle reg = (serveFirst reg first, rest) := by
  cases a with
  | direct reads =>
    simp only [Arrival.first, Except.ok.injEq] at h
    simp only [Arrival.handle, handleConnection, h]
  | httpUpgrade initialData reads =>
    simp only [Arrival.first] at h
    simp only [Arrival.handle, handleVlessOverHttpupgradeRaw, h]

variable {q : Accepted reg} {t : Transport} {k : Nat}

/-- Whatever comes with the header, the relay is chosen by the request. -/
theorem Upload.handle_eq (u : Upload q t k) : (u.arrival.handle reg).2 = u.rest ∧
      (u.arrival.handle reg).1.relay = .ok (if usesVision q.decoded then
        .vision q.decoded.userSentId q.decoded.header.user.account.testseed
        else .raw (u.body.bytes.take k)) := by
  have hdec := (takes_decodeRequestHeader reg).append q.accepts (u.body.bytes.take k)
  rw [handle_of_first u.first]
  refine ⟨rfl, ?_⟩
  unfold serveFirst
  rw [decodeVlessRequest_ok hdec]
  exact serveRequest_stream q.stream

theorem Upload.forwarded_of_plain (u : Upload q t k) (h : usesVision q.decoded = false) :
    u.Forwarded := by
  obtain ⟨hrest, hrelay⟩ := u.handle_eq
  rw [h] at hrelay
  refine ⟨_, hrelay, ?_⟩
  rw [hrest]
  -- what came with the header goes first
  have hup : relayRawWithInitial (u.body.bytes.take k) u.rest = u.body.bytes := by
    unfold relayRawWithInitial
    rw [u.later, take_append_drop]
  simp only [Bool.false_eq_true, if_false, Relay.uplink, hup]
  cases hb : u.body with
  | plain _ data => rfl
  | framed hv _ _ => rw [h] at hv; cases hv

/-- With Vision the target gets what the reader makes of the later reads. -/
theorem Upload.forwarded_iff_of_vision (u : Upload q t k) (h : usesVision q.decoded = true) :
    u.Forwarded ↔ relayVision q.decoded.userSentId u.rest = u.body.payload := by
  obtain ⟨hrest, hrelay⟩ := u.handle_eq
  rw [h] at hrelay
  unfold Upload.Forwarded
  rw [hrest, hrelay]
  constructor
  · rintro ⟨relay, hr, hup⟩
    cases hr
    exact Option.some.inj hup
  · intro hup
    exact ⟨_, rfl, congrArg some hup⟩

theorem Upload.forwarded_of_none (u : Upload q t 0) (h : usesVision q.decoded = true) :
    u.Forwarded := by
  rw [u.forwarded_iff_of_vision h]
  have hlater := u.later
  cases hb : u.body with
  | plain hn _ => rw [h] at hn; cases hn
  | framed _ v hv =>
    rw [hb] at hlater
    exact u.decodes v hv hlater

/-! ## A lossy upload for every number of pipelined bytes -/

variable (u : Uuid)

/-- The reader on a stream of one read: a read that does not fit the UUID
comes through, a short one that does is held back. -/
theorem relayVision_one (x : InnerRead) :
    (mismatch u x.bytes = true → relayVision u [x] = x.bytes) ∧
      (mismatch u x.bytes = false → x.bytes.length < 21 → relayVision u [x] = []) := by
  have hrun : ∀ {out d}, xtlsUnpadding x.bytes (.new u) true = (out, (TrafficState.new u).setDir true d) →
      relayVision u [x] = out.take x.buf := by
    intro out d hu
    unfold relayVision
    rw [readToEnd_eq_run]
    simp only [run, onRead_active (r := .new (.new u) true) rfl (.inl rfl) x hu, append_nil]
  have hx := xtlsUnpadding_initial x.bytes (.new u) true ⟨rfl, rfl, rfl⟩
  have hpending : ((TrafficState.new u).dir true).initialBuffer ++ x.bytes = x.bytes := rfl
  grind [TrafficState.new, take_buf]

/-- An empty closing frame and unframed data behind it. -/
def tailStream (u : Uuid) (closing : Closing) (raw : Bytes) : VisionStream :=
  { uuid := u, frames := [], last := .empty, closing, raw }

section
variable (u : Uuid) (closing : Closing) (raw : Bytes)

theorem tailStream_encode : (tailStream u closing raw).encode =
    u.bytes ++ (closing.command :: 0 :: 0 :: 0 :: 0 :: raw) := by
  simp [tailStream, VisionStream.encode, encodeFrames, Ending.encode, Frame.encode, Frame.header, Frame.empty, be16]

theorem tailStream_payload : (tailStream u closing raw).payload = raw := rfl

theorem tailStream_length : (tailStream u closing raw).encode.length = 21 + raw.length := by
  rw [tailStream_encode, length_append, u.length_eq]
  simp only [length_cons]
  omega

end

/-- The closing command that differs from the last byte of an id. -/
def otherClosing (u : Uuid) : Closing := if u.bytes.getD 15 0 = 0x01 then .padDirect else .padEnd

theorem otherClosing_command : (otherClosing u).command ≠ u.bytes.getD 15 0 := by
  unfold otherClosing
  split
  · rename_i h
    rw [h]
    decide
  · rename_i h
    exact fun he => h he.symm

/-- Behind the first byte of the id, the closing command stands where the
last byte of the id is expected. -/
theorem mismatch_tail (raw : Bytes) :
    mismatch u ((tailStream u (otherClosing u) raw).encode.drop 1) = true := by
  by_contra h
  rw [Bool.not_eq_true, mismatch_eq_false_iff, tailStream_encode] at h
  have hlen := u.length_eq
  have h15 := congrArg (fun l : Bytes => l.getD 15 0) h
  grind [otherClosing_command]

/-- An upload of which the first `k` bytes are missing: a stream under the id
`u`, and reads of its rest that are no such stream and that the reader does
not make the payload of. -/
structure Lossy (u : Uuid) (k : Nat) where
  v : VisionStream
  rest : List InnerRead
  owner : v.uuid = u
  enough : k ≤ v.encode.length
  later : delivered rest = v.encode.drop k
  loses : relayVision u rest ≠ v.payload
  unframed : ∀ w : VisionStream, w.uuid = u → delivered rest ≠ w.encode

/-- All of a stream has come with the header. -/
def Lossy.all (u : Uuid) (n : Nat) : Lossy u (21 + (n + 1)) where
  v := tailStream u .padEnd (List.replicate (n + 1) 0)
  rest := []
  owner := rfl
  enough := by simp [tailStream_length]
  later := by
    rw [drop_of_length_le (by simp [tailStream_length])]
    rfl
  loses := by
    rw [tailStream_payload, replicate_succ]
    exact fun h => nomatch h
  unframed := by
    intro w hw h
    have := (encode_fits w).2
    rw [← h] at this
    simp at this

theorem head_fits : mismatch u [u.bytes.getD 0 0] = false := by
  obtain ⟨_ | ⟨b, bs⟩, h⟩ := u
  · cases h
  · simp [mismatch]

/-- The cut is inside the id or the first frame header. One unframed byte,
the first of the id, is all the stream carries: the reader holds back what is
left of the stream, or passes all of it through. -/
theorem lossy_inside {k : Nat} (h0 : 0 < k) (h21 : k ≤ 21) : Nonempty (Lossy u k) := by
  let v := tailStream u (otherClosing u) [u.bytes.getD 0 0]
  have hlen : (v.encode.drop k).length = 22 - k := by
    rw [length_drop, tailStream_length, length_singleton]
  have hne : v.encode.drop k ≠ [] := by
    rw [← length_pos_iff, hlen]
    omega
  have hlater : delivered [⟨v.encode.drop k, 22, hne, by omega⟩] = v.encode.drop k := by simp
  -- the only cut that leaves enough for an id and a header is in front of the second byte
  have hfirst : 21 ≤ 22 - k → mismatch u (v.encode.drop k) = true := by
    grind [mismatch_tail]
  obtain ⟨hpass, hhold⟩ := relayVision_one u ⟨v.encode.drop k, 22, hne, by omega⟩
  refine ⟨v, [⟨v.encode.drop k, 22, hne, by omega⟩], rfl, ?_, hlater, ?_, ?_⟩
  · grind
  · rw [tailStream_payload]
    cases hm : mismatch u (v.encode.drop k) with
    | true =>
      -- one byte is left, and it fits the id
      grind [head_fits]
    | false => grind
  all_goals grind [encode_fits]

theorem lossy {k : Nat} (h0 : 0 < k) : Nonempty (Lossy u k) := by
  by_cases h21 : k ≤ 21
  · exact lossy_inside u h0 h21
  · obtain ⟨n, rfl⟩ : ∃ n, k = 21 + (n + 1) := ⟨k - 22, by omega⟩
    exact ⟨.all u n⟩

/-! ## The exact condition -/

/-- Any chunk with a header in it can come in over either transport. -/
theorem exists_arrival (t : Transport) (chunk : Bytes) (rest : List InnerRead)
    (h : 18 ≤ chunk.length) : ∃ a : Arrival, a.transport = t ∧ a.first = .ok (chunk, rest) := by
  have hne : chunk ≠ [] := by
    rintro rfl
    simp at h
  cases t with
  | direct => exact ⟨.direct (⟨chunk, chunk.length, hne, Nat.le_refl _⟩ :: rest), rfl, rfl⟩
  | httpUpgrade =>
    refine ⟨.httpUpgrade chunk rest, rfl, ?_⟩
    have hn : ¬ (chunk = [] ∨ chunk.length < 18) := by
      simp_all
    unfold Arrival.first readFirstVlessChunk
    simp only [if_neg hn]

/-- One registered user with the Vision flow; the addons of its client ask
for it. -/
def someRegistry : Registry := .single xrv fun _ => .ok ⟨xrv⟩

/-- A TCP request to 127.0.0.1:80; the addons are the field `Flow` with the
16 bytes of the flow name. -/
def someHeader : Bytes :=
  0x00 :: someId.bytes ++
    [0x12, 0x0A, 0x10, 0x78, 0x74, 0x6C, 0x73, 0x2D, 0x72, 0x70, 0x72, 0x78, 0x2D, 0x76, 0x69, 0x73,
      0x69, 0x6F, 0x6E] ++
    [0x01, 0x00, 0x50, 0x01, 0x7F, 0x00, 0x00, 0x01]

def someAccepted : Accepted someRegistry where
  header := someHeader
  decoded := ⟨someId, ⟨0, .tcp, .loopback, 80, someUser xrv⟩, ⟨xrv⟩⟩
  accepts := rfl
  stream := by decide

/-- Two frames that carry one byte each. -/
def someStream : VisionStream :=
  { uuid := someId, frames := [.byte 0x68],
    last := .byte 0x69, closing := .padEnd, raw := [] }

/-- The id and the first frame. -/
def someBlock : Bytes := someId.bytes ++ [0x00, 0x00, 0x01, 0x00, 0x00, 0x68]

/-- The second frame. -/
def someLater : List InnerRead :=
  [⟨[0x01, 0x00, 0x01, 0x00, 0x00, 0x69], 32768, by decide, by decide⟩]

end Wrongsv.Bugs.VlessVisionPipelined
