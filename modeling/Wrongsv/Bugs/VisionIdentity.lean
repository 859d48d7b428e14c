import Wrongsv.Bugs.VisionReaderCuts
import Wrongsv.L2Machine.Vless.Carriers

/-!
# Vision: the id on the wire and the account's id

`MemoryValidator::get` ignores bytes 6 and 7 of the id (vless/validator.rs:48-55,
uuid/types.rs:81-86), so a client may send any of 2^16 ids for an account, and frames its
Vision uplink with the one it sent. Raw TCP and WebSocket seed the Vision state with that id
(handler/vless.rs:146-152, websocket.rs:509-517), the TLS, AnyTLS and ShadowTLS handlers with
`account.id.bytes()` (handler/tls.rs:209, anytls.rs:170 and 366, shadowtls.rs:696). If the
two differ, `xtls_unpadding` does not find its UUID: the framed uplink goes to the target
as it is, and the downlink starts with a UUID the client does not wait for.

What holds: with the account's id, all carriers but raw TCP write the same bytes to the
target whatever arrives, all six write the payload under the schedules raw TCP and
WebSocket decode, and the downlinks are equal.

Fix: pass `&decoded.user_sent_id` in the four places.
-/
namespace Wrongsv.Bugs.VisionIdentity
open L1.VisionFrame L1.VlessHeader L2.Vision L2.Vless

/-- A Vision request with the bytes that came behind its header. -/
def session (d : DecodedRequest) (remaining : Bytes) : VlessRequest := ⟨d, remaining, true⟩

/-- The carriers agree on the Vision sessions of a client. -/
structure Agree (d : DecodedRequest) : Prop where
  /-- Whatever the chunks are, the target gets what it gets over WebSocket. -/
  webSocket : ∀ c ≠ VisionCarrier.rawTcp, ∀ (remaining : Bytes) (reads : List InnerRead),
    c.uplink (session d remaining) reads = VisionCarrier.webSocket.uplink (session d remaining) reads
  /-- A stream framed with the id the client sent: where raw TCP and WebSocket
  deliver its payload, the others do. -/
  payload : ∀ (c : VisionCarrier) (v : VisionStream) (remaining : Bytes) (reads : List InnerRead),
    v.uuid = d.userSentId → remaining ++ delivered reads = v.encode →
    VisionCarrier.rawTcp.uplink (session d remaining) reads = some v.payload →
    VisionCarrier.webSocket.uplink (session d remaining) reads = some v.payload →
    c.uplink (session d remaining) reads = some v.payload
  /-- For the same blocks and the same randomness the client gets the same bytes. -/
  downlink : ∀ (c : VisionCarrier) (remaining : Bytes) (blocks : List Write),
    c.downlink (session d remaining) blocks = VisionCarrier.rawTcp.downlink (session d remaining) blocks

theorem visionId_of_same {d : DecodedRequest} (h : accountId d = d.userSentId) (c : VisionCarrier) :
    c.visionId d = d.userSentId := by
  cases c with
  | rawTcp | webSocket => rfl
  | tls | anyTls | singAnyTls | shadowTls => exact h

section
variable {d : DecodedRequest} (hc : d.header.command = .tcp)
include hc

theorem uplink_session (c : VisionCarrier) (remaining : Bytes) (reads : List InnerRead) :
    c.uplink (session d remaining) reads =
      some (c.visionUplink (c.visionId d) (c.initialData remaining) reads) := by
  rw [VisionCarrier.uplink, serve_vision c hc rfl]
  rfl

theorem downlink_session (c : VisionCarrier) (remaining : Bytes) (blocks : List Write) :
    c.downlink (session d remaining) blocks =
      c.visionDownlink (c.visionId d) d.header.user.account.testseed blocks := by
  rw [VisionCarrier.downlink, serve_vision c hc rfl]
  rfl

/-! ## The account's own id -/

theorem agree_of_same (h : accountId d = d.userSentId) : Agree d := by
  have hws : ∀ c ≠ VisionCarrier.rawTcp, ∀ (remaining : Bytes) (reads : List InnerRead),
      c.uplink (session d remaining) reads = VisionCarrier.webSocket.uplink (session d remaining) reads := by
    intro c hne remaining reads
    rw [uplink_session hc, uplink_session hc, visionUplink_unpad hne, visionUplink_unpad (by decide),
      visionId_of_same h, visionId_of_same h]
    cases c with
    | rawTcp => exact absurd rfl hne
    | _ => rfl
  refine ⟨hws, ?_, ?_⟩
  · intro c v remaining reads _ _ hraw hwebs
    by_cases hne : c = .rawTcp
    · rw [hne]
      exact hraw
    · rw [hws c hne]
      exact hwebs
  · intro c remaining blocks
    rw [downlink_session hc, downlink_session hc, visionDownlink_raw, visionId_of_same h,
      visionId_of_same h]

/-! ## Another id -/

/-- A frame that closes the padding at once. -/
def closingStream (u : Uuid) : VisionStream :=
  { uuid := u, frames := [], last := .empty, closing := .padEnd, raw := [] }

/-- The stream as one chunk. -/
def whole (v : VisionStream) : InnerRead :=
  ⟨v.encode, v.encode.length, by
    intro h0
    have hlen := (encode_fits v).2
    rw [h0, List.length_nil] at hlen
    omega, Nat.le_refl _⟩

/-- **Another id.** A stream that comes in one chunk is decoded over WebSocket;
over the carriers with the account's id the frames themselves reach the target. -/
theorem uplink_of_other (h : accountId d ≠ d.userSentId) (v : VisionStream) (hv : v.uuid = d.userSentId) :
    VisionCarrier.webSocket.uplink (session d []) [whole v] = some v.payload ∧ ∀ c : VisionCarrier,
      c.visionId d = accountId d → c.uplink (session d []) [whole v] = some v.encode := by
  constructor
  · rw [uplink_session hc]
    show some (unpadChunks (.new d.userSentId) [whole v]) = _
    rw [← hv, unpadChunks_one v _ rfl]
  · intro c hid
    have hne : c ≠ .rawTcp := by
      intro hraw
      rw [hraw] at hid
      exact h hid.symm
    have hnil : c.initialData [] = [] := by cases c <;> rfl
    rw [uplink_session hc, hid, visionUplink_unpad hne, hnil, unpadRelay, dif_pos rfl,
      unpadChunks_foreign v (by rw [hv]; exact h) _ rfl]

end

/-- **Exactly the account's own id.** For every registry that `add` and `del` can
lead to and every request a client can send to it, the id on the wire agrees with
the account's outside bytes 6 and 7; the carriers agree on its Vision sessions if
and only if it is the account's. -/
theorem carriers_agree_iff {toLowercase : String → String} {w : MemoryValidator}
    (hw : w.Reachable toLowercase) {unmarshal : Bytes → Except String Addons} {first rest : Bytes}
    {d : DecodedRequest} (hd : decodeRequestHeader (w.registry unmarshal) first = .ok (d, rest))
    (hc : d.header.command = .tcp) : processUuid d.userSentId = processUuid (accountId d) ∧
    (Agree d ↔ accountId d = d.userSentId) := by
  refine ⟨MemoryValidator.get_process hw (gives_lookup _ _ _ _ hd), ?_, agree_of_same hc⟩
  intro hagree
  by_contra hne
  obtain ⟨hdecoded, hframes⟩ := uplink_of_other hc hne (closingStream d.userSentId) rfl
  have heq := hagree.webSocket .tls (by decide) [] [whole (closingStream d.userSentId)]
  rw [hdecoded, hframes .tls rfl, Option.some.injEq] at heq
  exact encode_ne_payload _ heq

/-! ## Counterexample -/

def ownId : Uuid := .ofByte 0xAA

/-- The account's id with another byte 6. -/
def sentId : Uuid := ⟨ownId.bytes.set 6 0x42, rfl⟩

def someUser : MemoryUser := ⟨⟨ownId, xrv, true, []⟩, "vision@test"⟩

/-- The registry with this one user. -/
def someValidator : MemoryValidator :=
  ⟨Table.empty.insert (processUuid ownId) someUser, Table.empty.insert "vision@test" someUser⟩

theorem someValidator_reachable : someValidator.Reachable id :=
  have hadd : MemoryValidator.new.add id someUser = .ok someValidator := rfl
  .add .new hadd

/-- A TCP request to 127.0.0.1:80 with the Vision flow. -/
def requestOf (u : Uuid) : Bytes :=
  0x00 :: u.bytes ++ [0x01, 0x00] ++ [0x01, 0x00, 0x50, 0x01, 0x7F, 0x00, 0x00, 0x01]

def decodedOf (u : Uuid) : DecodedRequest :=
  ⟨u, ⟨0x00, .tcp, .loopback, 80, someUser⟩, ⟨xrv⟩⟩

def helloStream : VisionStream :=
  { uuid := sentId, frames := [.byte 0x68],
    last := .byte 0x69, closing := .padEnd, raw := [] }

theorem accepted : ∀ u ∈ [ownId, sentId],
    decodeRequestHeader (someValidator.registry fun _ => .ok ⟨xrv⟩) (requestOf u) = .ok (decodedOf u, []) := by
  simp only [List.forall_mem_cons]
  exact ⟨rfl, rfl, fun u h => nomatch h⟩

/-- The carriers agree on the account's own id and not on the other one. -/
theorem own_id_agrees : Agree (decodedOf ownId) ∧ ¬ Agree (decodedOf sentId) := by
  have hown := carriers_agree_iff someValidator_reachable (accepted ownId (by decide)) rfl
  have hsent := carriers_agree_iff someValidator_reachable (accepted sentId (by decide)) rfl
  exact ⟨hown.2.mpr rfl, fun h => absurd (hsent.2.mp h) (by decide)⟩

/-- The request is accepted. Raw TCP and WebSocket write the two bytes to the
target, the others the frames; and the answer starts with the account's id. -/
theorem frames_reach_target : decodeRequestHeader (someValidator.registry fun _ => .ok ⟨xrv⟩)
        (requestOf sentId) = .ok (decodedOf sentId, []) ∧
      helloStream.payload = [0x68, 0x69] ∧
      (∀ c ∈ [VisionCarrier.rawTcp, .webSocket],
        c.uplink (session (decodedOf sentId) []) [whole helloStream] = some [0x68, 0x69]) ∧
      (∀ c ∈ [VisionCarrier.tls, .anyTls, .singAnyTls, .shadowTls],
        c.uplink (session (decodedOf sentId) []) [whole helloStream] = some helloStream.encode) := by
  refine ⟨accepted sentId (by decide), by decide, ?_, ?_⟩
  · decide +kernel
  · decide +kernel

end Wrongsv.Bugs.VisionIdentity
