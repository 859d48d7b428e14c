import Wrongsv.L1Encoding.VlessHeader

/-!
# Mux.Cool frames over WebSocket

A mux stream inside a WebSocket (server/handler/websocket.rs:83-314):

  length(2) session(2) status(1) option(1) [network(1) port(2) type(1) address] [length(2) data]

The reader (`read_ws_mux_exact`) takes every field from the `pending` bytes first,
and then from calls of `WebSocketStream::read`, whose surplus becomes the pending
bytes. The calls are a list of results here; behind its end the stream is closed.

`Holds s b later` says that `b` is what the source has still to give before
`later`, however it is divided between the pending bytes and the reads. A reader
`Consumes` the bytes of a field if it leaves exactly what is behind them, and this
composes (`Consumes.bind`).

Results: `consumes_exact`, `mux_udp_round_trip`.
-/
namespace Wrongsv.L2.WebSocketMux
open L1.VlessHeader List

/-! ## Reading from the stream -/

/-- The errors of the stream; only one kind is looked at. -/
inductive IoError where
  | unexpectedEof
  | other (text : String)
  deriving DecidableEq, Repr

/-- A result of `ws.read` into a buffer of 32 KiB. -/
inductive WsRead where
  | data (bytes : Bytes)
  | failed (e : IoError)
  deriving DecidableEq, Repr

/-- The pending bytes and the reads to come. -/
structure MuxSource where
  pending : Bytes
  reads : List WsRead
  deriving DecidableEq, Repr

/-- The errors of `read_ws_mux_frame`; `invalidDomain` is "invalid Mux domain" with
the text of the UTF-8 error. -/
inductive MuxError where
  | io (e : IoError)
  | text (message : String)
  | invalidDomain
  deriving DecidableEq, Repr

abbrev MuxReader (α : Type) := ExceptT MuxError (StateM MuxSource) α

/-- The loop, with `out` filled so far and nothing pending. -/
def readWsMuxExact.go (n : Nat) (out : Bytes) : List WsRead → Except MuxError Bytes × MuxSource
  | [] => (.error (.io .unexpectedEof), ⟨[], []⟩)
  | .failed e :: reads => (.error (.io e), ⟨[], reads⟩)
  | .data bytes :: reads =>
    if bytes = [] then (.error (.io .unexpectedEof), ⟨[], reads⟩)
    else
      -- `take_pending`
      let taken := bytes.take (n - out.length)
      if (out ++ taken).length < n then go n (out ++ taken) reads
      else (.ok (out ++ taken), ⟨bytes.drop (n - out.length), reads⟩)

/-- websocket.rs:124-149 -/
def readWsMuxExact (n : Nat) : MuxReader Bytes := fun s =>
  let out := s.pending.take n
  if out.length < n then readWsMuxExact.go n out s.reads
  else (.ok out, ⟨s.pending.drop n, s.reads⟩)

/-! ## Metadata -/

def muxStatusNew : UInt8 := 0x01
def muxStatusKeep : UInt8 := 0x02
def muxOptionData : UInt8 := 0x01
def muxNetworkUdp : UInt8 := 0x02
def muxAddrIpv4 : UInt8 := 0x01
def muxAddrDomain : UInt8 := 0x02
def muxAddrIpv6 : UInt8 := 0x03
def muxMaxMetaLen : Nat := 512

structure MuxFrame where
  sessionId : Nat
  status : UInt8
  option : UInt8
  network : Option UInt8
  address : Option Address
  port : Option Nat
  data : Bytes
  deriving DecidableEq, Repr

/-- The address behind its type byte. -/
def parseMuxAddressBody (atyp : UInt8) (body : Bytes) : Except MuxError Address :=
  if atyp = muxAddrIpv4 then
    if h : body.length < 4 then .error (.text "short Mux IPv4 address")
    else .ok (.ipv4 (octets h))
  else if atyp = muxAddrDomain then
    match body with
    | [] => .error (.text "short Mux domain length")
    | len :: name =>
      if name.length < len.toNat then .error (.text "short Mux domain address")
      else match String.fromUTF8? ⟨(name.take len.toNat).toArray⟩ with
        | none => .error .invalidDomain
        | some domain => .ok (.domain domain)
  else if atyp = muxAddrIpv6 then
    if h : body.length < 16 then .error (.text "short Mux IPv6 address")
    else .ok (.ipv6 (octets h))
  else .error (.text ("unsupported Mux address type: 0x" ++
    String.ofList [Nat.digitChar (atyp.toNat / 16), Nat.digitChar (atyp.toNat % 16)]))

/-- websocket.rs:152-202, on `meta[pos..]` -/
def parseMuxAddress : Bytes → Except MuxError (Address × Nat)
  | hi :: lo :: atyp :: body => do
    let address ← parseMuxAddressBody atyp body
    return (address, u16 hi lo)
  | _ => .error (.text "short Mux address")

/-- websocket.rs:200-236 -/
def parseMuxMetadata : Bytes → Except MuxError MuxFrame
  | hi :: lo :: status :: option :: target =>
    if status = muxStatusNew ∨ (status = muxStatusKeep ∧ target.head? = some muxNetworkUdp) then
      match target with
      | network :: rest =>
        -- eight bytes in all
        if rest.length < 3 then .error (.text "short Mux target metadata")
        else do
          let (address, port) ← parseMuxAddress rest
          return ⟨u16 hi lo, status, option, some network, some address, some port, []⟩
      | [] => .error (.text "short Mux target metadata")
    else .ok ⟨u16 hi lo, status, option, none, none, none, []⟩
  | _ => .error (.text "short Mux metadata")

/-! ## Frames -/

/-- The length in front of a frame; `none` at the end of the stream. -/
def readMuxLength : MuxReader (Option Bytes) := fun s =>
  match readWsMuxExact 2 s with
  | (.ok lenBuf, s) => (.ok (some lenBuf), s)
  | (.error (.io .unexpectedEof), s) => (.ok none, s)
  | (.error e, s) => (.error e, s)

def readMuxMetadata (metaLen : Nat) : MuxReader MuxFrame :=
  if muxMaxMetaLen < metaLen then throw (.text s!"Mux metadata too large: {metaLen}")
  else do
    let metadata ← readWsMuxExact metaLen
    match parseMuxMetadata metadata with
    | .error e => throw e
    | .ok frame => return frame

def readMuxData (frame : MuxFrame) : MuxReader MuxFrame :=
  if frame.option &&& muxOptionData ≠ 0 then do
    let dataLen ← readWsMuxExact 2
    let data ← readWsMuxExact (u16At dataLen 0)
    return { frame with data }
  else return frame

/-- websocket.rs:238-267 -/
def readWsMuxFrame : MuxReader (Option MuxFrame) := do
  match ← readMuxLength with
  | none => return none
  | some lenBuf =>
    let frame ← readMuxMetadata (u16At lenBuf 0)
    return some (← readMuxData frame)

/-- websocket.rs:269-290 -/
def writeMuxAddress (address : Address) (port : UInt16) : Except String Bytes :=
  match address with
  | .ipv4 raw => .ok (be16 port.toNat ++ muxAddrIpv4 :: raw.val)
  | .domain domain =>
    if 255 < (utf8 domain).length then .error "Mux domain address too long"
    else .ok (be16 port.toNat ++ muxAddrDomain :: UInt8.ofNat (utf8 domain).length :: utf8 domain)
  | .ipv6 raw => .ok (be16 port.toNat ++ muxAddrIpv6 :: raw.val)

/-- The bytes handed to `ws.write_all`.
websocket.rs:292-314 -/
def writeWsMuxUdpResponse (sessionId : UInt16) (address : Address) (port : UInt16)
    (payload : Bytes) : Except String Bytes := do
  let target ← writeMuxAddress address port
  let metadata := be16 sessionId.toNat ++ [muxStatusKeep, muxOptionData, muxNetworkUdp] ++ target
  return be16 metadata.length ++ metadata ++ be16 payload.length ++ payload

/-! ## What a source still has to give -/

/-- The bytes `b`, part of them pending and the rest in reads that are not empty,
and behind them the reads `later`. -/
def Holds (s : MuxSource) (b : Bytes) (later : List WsRead) : Prop :=
  ∃ chunks : List Bytes, (∀ c ∈ chunks, c ≠ []) ∧ s.reads = chunks.map .data ++ later ∧
    s.pending ++ chunks.flatten = b

/-- A reader takes exactly the bytes `b` and returns `a`. -/
def Consumes {α : Type} (p : MuxReader α) (b : Bytes) (a : α) : Prop :=
  ∀ (s : MuxSource) (rest : Bytes) (later : List WsRead), Holds s (b ++ rest) later →
    ∃ s', p s = (.ok a, s') ∧ Holds s' rest later

section
variable {α β : Type}

theorem bind_apply (p : MuxReader α) (f : α → MuxReader β) (s : MuxSource) :
    (p >>= f) s = match p s with
      | (.ok a, s') => f a s'
      | (.error e, s') => (.error e, s') := by
  show ExceptT.bindCont f (p s).1 (p s).2 = _
  rcases p s with ⟨_ | _, _⟩ <;> rfl

theorem consumes_pure (a : α) : Consumes (pure a : MuxReader α) [] a := fun _ _ _ h => ⟨_, rfl, h⟩

theorem Consumes.bind {p : MuxReader α} {f : α → MuxReader β} {b b' : Bytes} {a : α} {c : β}
    (hp : Consumes p b a) (hf : Consumes (f a) b' c) : Consumes (p >>= f) (b ++ b') c := by
  intro s rest later h
  rw [append_assoc] at h
  obtain ⟨s₁, hs₁, h₁⟩ := hp _ _ _ h
  obtain ⟨s₂, hs₂, h₂⟩ := hf _ _ _ h₁
  exact ⟨s₂, by rw [bind_apply, hs₁]; exact hs₂, h₂⟩

theorem Consumes.bind_end {p : MuxReader α} {f : α → MuxReader β} {b : Bytes} {a : α} {c : β}
    (hp : Consumes p b a) (hf : Consumes (f a) [] c) : Consumes (p >>= f) b c := by
  have h := hp.bind hf
  rwa [append_nil] at h

end

theorem go_chunks {n : Nat} {rest : Bytes} {later : List WsRead} (chunks : List Bytes) : ∀ {out more : Bytes},
    (∀ c ∈ chunks, c ≠ []) → out.length < n → (out ++ more).length = n → chunks.flatten = more ++ rest →
    ∃ s', readWsMuxExact.go n out (chunks.map .data ++ later) = (.ok (out ++ more), s') ∧ Holds s' rest later := by
  induction chunks with
  | nil => grind [append_eq_nil_iff]
  | cons chunk chunks ih =>
    intro out more hne hlt hlen hflat
    have hneed : n - out.length = more.length := by
      rw [length_append] at hlen
      omega
    have hchunk : chunk ≠ [] := hne chunk mem_cons_self
    have hrest : ∀ c ∈ chunks, c ≠ [] := fun c hc => hne c (mem_cons_of_mem _ hc)
    rw [flatten_cons] at hflat
    simp only [map_cons, cons_append, readWsMuxExact.go, if_neg hchunk, hneed]
    by_cases hwhole : more.length ≤ chunk.length
    · -- the field ends in this chunk
      obtain ⟨surplus, rfl⟩ : more <+: chunk :=
        prefix_of_prefix_length_le ⟨_, rfl⟩ (by rw [← hflat]; exact prefix_append _ _) hwhole
      rw [append_assoc] at hflat
      rw [take_left, drop_left, if_neg (by omega)]
      exact ⟨⟨surplus, chunks.map .data ++ later⟩, rfl, chunks, hrest, rfl, append_cancel_left hflat⟩
    · obtain ⟨more', rfl⟩ : chunk <+: more :=
        prefix_of_prefix_length_le (by rw [← hflat]; exact prefix_append _ _) ⟨_, rfl⟩ (by omega)
      grind [append_cancel_left]

/-- **One field**, wherever its bytes are. -/
theorem consumes_exact {n : Nat} {a : Bytes} (ha : a.length = n) : Consumes (readWsMuxExact n) a a := by
  rintro ⟨pending, reads⟩ rest later ⟨chunks, hne, rfl, hbytes⟩
  unfold readWsMuxExact
  by_cases hpending : n ≤ pending.length
  · obtain ⟨surplus, rfl⟩ : a <+: pending :=
      prefix_of_prefix_length_le ⟨_, rfl⟩ (by rw [← hbytes]; exact prefix_append _ _) (by omega)
    rw [append_assoc] at hbytes
    rw [← ha, take_left, drop_left, if_neg (Nat.lt_irrefl _)]
    exact ⟨_, rfl, chunks, hne, rfl, append_cancel_left hbytes⟩
  · obtain ⟨more, rfl⟩ : pending <+: a :=
      prefix_of_prefix_length_le (by rw [← hbytes]; exact prefix_append _ _) ⟨_, rfl⟩ (by omega)
    have hshort : pending.length < n := Nat.not_le.mp hpending
    rw [append_assoc] at hbytes
    rw [take_of_length_le (Nat.le_of_lt hshort), if_pos hshort]
    exact go_chunks chunks hne hshort ha (append_cancel_left hbytes)

/-! ## A response read back -/

/-- The address can be written: a domain is at most 255 bytes long. -/
def Writable : Address → Prop
  | .domain domain => (utf8 domain).length ≤ 255
  | _ => True

theorem parse_writeMuxAddress {address : Address} (h : Writable address) (port : UInt16) :
    ∃ target, writeMuxAddress address port = .ok target ∧ 3 ≤ target.length ∧ target.length ≤ 259 ∧
      parseMuxAddress target = .ok (address, port.toNat) := by
  have hport : u16 (UInt8.ofNat (port.toNat / 256)) (UInt8.ofNat port.toNat) = port.toNat :=
    u16_be16 _ port.toNat_lt
  cases address with
  | ipv4 raw =>
    have hlen := raw.property
    refine ⟨_, rfl, by simp; omega, by simp [hlen], ?_⟩
    have hlong : ¬ raw.val.length < 4 := by omega
    simp only [be16, cons_append, nil_append, parseMuxAddress, parseMuxAddressBody, if_true,
      dif_neg hlong, octets_eq, hport]
    rfl
  | ipv6 raw =>
    have hlen := raw.property
    refine ⟨_, rfl, by simp; omega, by simp [hlen], ?_⟩
    have hlong : ¬ raw.val.length < 16 := by omega
    have h4 : muxAddrIpv6 ≠ muxAddrIpv4 := by decide
    have hd : muxAddrIpv6 ≠ muxAddrDomain := by decide
    simp only [be16, cons_append, nil_append, parseMuxAddress, parseMuxAddressBody, if_neg h4,
      if_neg hd, if_true, dif_neg hlong, octets_eq, hport]
    rfl
  | domain domain =>
    have hlen : (utf8 domain).length ≤ 255 := h
    have hbyte : (UInt8.ofNat (utf8 domain).length).toNat = (utf8 domain).length := toNat_ofNat_of_le hlen
    refine ⟨_, if_neg (Nat.not_lt.mpr hlen), by simp; omega, by simp; omega, ?_⟩
    have hd : muxAddrDomain ≠ muxAddrIpv4 := by decide
    simp only [be16, cons_append, nil_append, parseMuxAddress, parseMuxAddressBody, if_neg hd,
      if_true, hbyte, if_neg (Nat.lt_irrefl _), take_length, fromUTF8_utf8, hport]
    rfl

/-- What the reader makes of a response. -/
def responseFrame (sessionId : UInt16) (address : Address) (port : UInt16) (data : Bytes) : MuxFrame :=
  ⟨sessionId.toNat, muxStatusKeep, muxOptionData, some muxNetworkUdp, some address, some port.toNat, data⟩

theorem parseMuxMetadata_response (sessionId : UInt16) {address : Address} {port : UInt16} {target : Bytes}
    (hlen : 3 ≤ target.length) (htarget : parseMuxAddress target = .ok (address, port.toNat)) :
    parseMuxMetadata (be16 sessionId.toNat ++ [muxStatusKeep, muxOptionData, muxNetworkUdp] ++ target) =
      .ok (responseFrame sessionId address port []) := by
  have hid : u16 (UInt8.ofNat (sessionId.toNat / 256)) (UInt8.ofNat sessionId.toNat) = sessionId.toNat :=
    u16_be16 _ sessionId.toNat_lt
  have hshort : ¬ target.length < 3 := Nat.not_lt.mpr hlen
  simp only [be16, cons_append, nil_append, parseMuxMetadata, List.head?_cons, and_self, or_true,
    if_true, if_neg hshort, htarget, hid]
  rfl

theorem u16At_be16 {n : Nat} (h : n < 65536) : u16At (be16 n) 0 = n := u16_be16 n h

theorem consumes_readMuxData {frame : MuxFrame} {payload : Bytes}
    (hoption : frame.option = muxOptionData) (hlen : payload.length ≤ 65535) :
    Consumes (readMuxData frame) (be16 payload.length ++ payload) { frame with data := payload } := by
  have hset : frame.option &&& muxOptionData ≠ 0 := by
    rw [hoption]
    decide
  rw [readMuxData, if_pos hset]
  refine (consumes_exact (be16_length payload.length)).bind ?_
  rw [u16At_be16 (by omega)]
  exact (consumes_exact rfl).bind_end (consumes_pure _)

/-- **A UDP response over the mux is read back.** For every session, address, port
and payload, however the bytes of the frame and what follows are divided between the
pending bytes and the reads: the same session, address, port and payload, and
exactly what follows is left. -/
theorem mux_udp_round_trip (sessionId : UInt16) (address : Address) (port : UInt16)
    (payload : Bytes) (haddress : Writable address) (hpayload : payload.length ≤ 65535) :
    ∃ frame, writeWsMuxUdpResponse sessionId address port payload = .ok frame ∧
      ∀ (s : MuxSource) (t : Bytes) (later : List WsRead), Holds s (frame ++ t) later →
        ∃ s', readWsMuxFrame s = (.ok (some (responseFrame sessionId address port payload)), s') ∧
          Holds s' t later := by
  obtain ⟨target, hwrite, hlen, hmax, hparse⟩ := parse_writeMuxAddress haddress port
  generalize hmeta : be16 sessionId.toNat ++ [muxStatusKeep, muxOptionData, muxNetworkUdp] ++ target = metadata
  have hmetaLen : metadata.length = target.length + 5 := by
    rw [← hmeta]
    simp
    omega
  have hparsed : parseMuxMetadata metadata = .ok (responseFrame sessionId address port []) := by
    rw [← hmeta]
    exact parseMuxMetadata_response sessionId hlen hparse
  refine ⟨be16 metadata.length ++ metadata ++ be16 payload.length ++ payload, ?_, fun s t later h => ?_⟩
  · rw [writeWsMuxUdpResponse, hwrite, ← hmeta]
    rfl
  have hlength : Consumes readMuxLength (be16 metadata.length) (some (be16 metadata.length)) := by
    intro s rest later h
    obtain ⟨s', hs', h'⟩ := consumes_exact (be16_length metadata.length) s rest later h
    exact ⟨s', by rw [readMuxLength, hs'], h'⟩
  have hmetadata : Consumes (readMuxMetadata (u16At (be16 metadata.length) 0)) metadata
      (responseFrame sessionId address port []) := by
    rw [u16At_be16 (by omega), readMuxMetadata, if_neg (by rw [muxMaxMetaLen]; omega)]
    refine (consumes_exact rfl).bind_end ?_
    rw [hparsed]
    exact consumes_pure _
  have hdata : Consumes (readMuxData (responseFrame sessionId address port [])) (be16 payload.length ++ payload)
      (responseFrame sessionId address port payload) := consumes_readMuxData rfl hpayload
  have hframe : Consumes readWsMuxFrame (be16 metadata.length ++ (metadata ++ (be16 payload.length ++ payload)))
      (some (responseFrame sessionId address port payload)) := by
    refine hlength.bind (hmetadata.bind ?_)
    exact hdata.bind_end (consumes_pure _)
  refine hframe s t later ?_
  simpa only [append_assoc] using h

/-- A response of session 7 from `a.b:53`. -/
theorem mux_domain_response : Writable (.domain "a.b") ∧
    ∃ frame, writeWsMuxUdpResponse 7 (.domain "a.b") 53 [1, 2] = .ok frame ∧
      ∀ (s : MuxSource) (t : Bytes) (later : List WsRead), Holds s (frame ++ t) later →
        ∃ s', readWsMuxFrame s = (.ok (some (responseFrame 7 (.domain "a.b") 53 [1, 2])), s') ∧
          Holds s' t later := by
  have h : Writable (.domain "a.b") := show (utf8 "a.b").length ≤ 255 by decide +kernel
  exact ⟨h, mux_udp_round_trip 7 (.domain "a.b") 53 [1, 2] h (by decide)⟩

end Wrongsv.L2.WebSocketMux
