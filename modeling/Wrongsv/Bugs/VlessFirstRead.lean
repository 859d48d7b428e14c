import Wrongsv.L2Machine.Vless.Connection

/-!
# VLESS: a request header that arrives in pieces

`handle_connection` (server/handler/vless.rs:93-103) makes one `stream.read` and decodes the
request from whatever that returns, which may be any first part of the header; the
connection is then dropped. The test `raw_vless_accepts_fragmented_request_header`
(tests/fragment_tests.rs:88-113) sends a header byte by byte; the accept loop sleeps 200 ms
between polls (handler/mod.rs), in which time its bytes can gather in the socket.

`handled_iff`: served are the connections whose first read has the whole header.
-/
namespace Wrongsv.Bugs.VlessFirstRead
open L1.VisionFrame L1.VlessHeader L2.Vision L2.Vless

/-- A client whose stream, however it is cut into reads, starts with a header
that `decode_request_header` accepts. -/
structure Connection (reg : Registry) where
  reads : List InnerRead
  decoded : DecodedRequest
  body : Bytes
  accepted : decodeRequestHeader reg (delivered reads) = .ok (decoded, body)

variable {reg : Registry}

/-- The number of bytes in front of the body. -/
def Connection.headerLength (c : Connection reg) : Nat := (delivered c.reads).length - c.body.length

def Connection.HeaderInFirstRead (c : Connection reg) : Prop :=
  c.headerLength ≤ (firstRead c.reads).1.length

/-- The handler acts on the request in the stream, and what it keeps of the
first read together with the later ones is the body. -/
def Connection.Handled (c : Connection reg) : Prop :=
  ∃ remaining, remaining ++ delivered (firstRead c.reads).2 = c.body ∧
    handleConnection reg c.reads =
      (serveRequest ⟨c.decoded, remaining, usesVision c.decoded⟩, (firstRead c.reads).2)

/-- No answer, no relay. -/
def Connection.Dropped (c : Connection reg) : Prop :=
  ∃ e, e.OfDecoder ∧ (handleConnection reg c.reads).1 = ⟨[], .error e⟩

theorem Connection.not_handled_of_dropped {c : Connection reg} (h : c.Dropped) : ¬ c.Handled := by
  rintro ⟨remaining, -, hh⟩
  obtain ⟨e, he, hd⟩ := h
  rw [hh] at hd
  exact serveRequest_relay _ (congrArg Outcome.relay hd) he

theorem Connection.headerInFirstRead_iff (c : Connection reg) :
    c.HeaderInFirstRead ↔ (delivered (firstRead c.reads).2).length ≤ c.body.length := by
  unfold Connection.HeaderInFirstRead Connection.headerLength
  rw [← delivered_firstRead, List.length_append] at *
  omega

theorem Connection.cases (c : Connection reg) :
    (c.HeaderInFirstRead ∧ c.Handled) ∨ (¬ c.HeaderInFirstRead ∧ c.Dropped) := by
  have hacc := c.accepted
  rw [← delivered_firstRead] at hacc
  rcases decodeVlessRequest_cut hacc with ⟨hle, remaining, hb, hok⟩ | ⟨hlt, e, he, herr⟩
  · refine .inl ⟨c.headerInFirstRead_iff.mpr hle, remaining, hb.symm, ?_⟩
    unfold handleConnection serveFirst
    rw [hok]
  · refine .inr ⟨fun hw => Nat.not_le_of_lt hlt (c.headerInFirstRead_iff.mp hw), e, he, ?_⟩
    unfold handleConnection serveFirst
    rw [herr]

/-- **Exactly the clients whose first read has the whole header are served**:
for every accepted header and every way to cut the stream into reads, the
handler reaches the decision of the whole stream and keeps its body if and
only if the header is in the first read; otherwise the connection is dropped
without an answer. -/
theorem handled_iff (c : Connection reg) :
    (c.Handled ↔ c.HeaderInFirstRead) ∧ (¬ c.HeaderInFirstRead → c.Dropped) := by
  rcases c.cases with ⟨hw, hh⟩ | ⟨hw, hd⟩
  · exact ⟨⟨fun _ => hw, fun _ => hh⟩, fun hn => absurd hw hn⟩
  · refine ⟨⟨fun hh => ?_, fun h => absurd h hw⟩, fun _ => hd⟩
    exact absurd hh (Connection.not_handled_of_dropped hd)

/-! ## Counterexample -/

/-- Addons of any content have no flow. -/
def someRegistry : Registry := .single "" fun _ => .ok .default

/-- A TCP request to 127.0.0.1:80, in two reads of 20 and 6 bytes. -/
def someReads : List InnerRead :=
  [⟨0x00 :: someId.bytes ++ [0x00, 0x01, 0x00], 8192, by decide, by decide⟩,
   ⟨[0x50, 0x01, 0x7F, 0x00, 0x00, 0x01], 32768, by decide, by decide⟩]

/-- The reads are a complete header of a registered user. -/
def someConnection : Connection someRegistry where
  reads := someReads
  decoded := ⟨someId, ⟨0, .tcp, .loopback, 80, someUser ""⟩, .default⟩
  body := []
  accepted := rfl

/-- The header is longer than the first read, and the connection is dropped. -/
theorem header_in_two_reads_dropped :
    decodeRequestHeader someRegistry (delivered someConnection.reads) =
        .ok (⟨someId, ⟨0, .tcp, .loopback, 80, someUser ""⟩, .default⟩, []) ∧
      someConnection.headerLength = 26 ∧ (firstRead someConnection.reads).1.length = 20 ∧
      (handleConnection someRegistry someConnection.reads).1 =
        ⟨[], .error (.decode (.addressParse .io))⟩ :=
  ⟨rfl, rfl, rfl, rfl⟩

end Wrongsv.Bugs.VlessFirstRead
