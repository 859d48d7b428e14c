import Wrongsv.L1Encoding.VlessHeader

/-!
# VLESS header: a domain longer than 255 bytes

`write_address_port` (protocol/address_parser.rs:104-108) writes `domain.len() as u8` and then
the whole domain. The decoder takes as many bytes as the length byte says, so a longer
domain decodes to a shorter one, or to nothing when the cut falls inside a character, and
the rest of it is read as the body. For addons that do not fit their length byte the encoder
refuses (addons.rs:32-34).

Fix: let `write_address_port` return an error for such a domain.
-/
namespace Wrongsv.Bugs.VlessLongDomain
open L1.VisionFrame L1.VlessHeader Wrongsv.Parser

variable {reg : Registry}

/-- TCP and UDP: the destination is sent, and read back if it fits. -/
theorem readDestination_sent_iff (command : RequestCommand) {α : Type} (f : Address × Nat → α)
    (address : Address) {port : Nat} (hport : port < 65536)
    (hcommand : command = .tcp ∨ command = .udp) (t : Bytes) :
    (readDestination command >>= fun d => pure (f d)) (writeAddressPort address port ++ t) =
        .ok (f (address, port), t) ↔ address.Fits := by
  have hread : readDestination command = mapError .addressParse readAddressPort := by
    rcases hcommand with rfl | rfl <;> rfl
  rw [hread]
  constructor
  · intro h
    by_contra hfit
    rw [bind_apply] at h
    cases ha : mapError DecodeError.addressParse readAddressPort (writeAddressPort address port ++ t) with
    | error e => rw [ha] at h; cases h
    | ok q =>
      rw [ha] at h
      have hrest : q.2 = t := congrArg Prod.snd (Except.ok.inj h)
      unfold mapError at ha
      split at ha
      · rename_i r hr
        cases ha
        exact readAddressPort_long hport hfit hr hrest
      · cases ha
  · intro hfit
    exact ((reads_readAddressPort hport hfit).mapError DecodeError.addressParse).bind_append t

theorem readDestination_placeholder (request : RequestHeader) (h : request.command = .mux ∨ request.command = .rvs) :
    writeDestination request = [] ∧ readDestination request.command =
      pure ((receivedHeader request).address, (receivedHeader request).port) ∧
      { request with address := (receivedHeader request).address, port := (receivedHeader request).port } =
        receivedHeader request := by
  unfold writeDestination receivedHeader
  rcases h with h | h <;> simp only [h] <;> exact ⟨rfl, rfl, trivial⟩

/-- **Exactly the headers whose address fits are read back**: for every header
of a registered user, all addons and everything that may follow, whenever the
encoder returns bytes, the decoder returns the header it was given and leaves
what follows if and only if no domain longer than 255 bytes is sent. -/
theorem decode_encode_iff (pb : Protobuf reg) (s : Sendable reg) (addons : Addons) (bytes t : Bytes)
    (h : encodeRequestHeader pb.encodeToVec s.header addons = .ok bytes) :
    decodeRequestHeader reg (bytes ++ t) = .ok (⟨s.header.user.account.id, receivedHeader s.header, addons⟩, t) ↔
      s.header.Representable := by
  rw [decodeRequestHeader_encoded pb s h t]
  by_cases hsent : s.header.command = .tcp ∨ s.header.command = .udp
  · have hiff := readDestination_sent_iff s.header.command
      (fun d => DecodedRequest.mk s.header.user.account.id { s.header with address := d.1, port := d.2 } addons)
      s.header.address s.port_lt hsent t
    have hrecv : receivedHeader s.header = s.header := by
      unfold receivedHeader
      rcases hsent with h | h <;> rw [h]
    have hw : writeDestination s.header = writeAddressPort s.header.address s.header.port := by
      unfold writeDestination
      rcases hsent with h | h <;> rw [h] <;> rfl
    rw [hrecv, hw]
    exact hiff.trans ⟨fun hfit _ => hfit, fun hrep => hrep hsent⟩
  · have hplace : s.header.command = .mux ∨ s.header.command = .rvs := by
      revert hsent
      cases s.header.command <;> simp
    obtain ⟨hw, hread, hrecv⟩ := readDestination_placeholder s.header hplace
    rw [hw, hread]
    refine ⟨fun _ hcmd => absurd hcmd hsent, fun _ => ?_⟩
    rw [← hrecv]
    rfl

/-- A message with one string field: its tag, the length, the characters. -/
def encodeFlow (addons : Addons) : Bytes :=
  if addons.flow = "" then [] else 0x0A :: UInt8.ofNat (utf8 addons.flow).length :: utf8 addons.flow

def decodeFlow : Bytes → Except String Addons
  | [] => .ok .default
  | _ :: _ :: flow =>
    match String.fromUTF8? ⟨flow.toArray⟩ with
    | some flow => .ok ⟨flow⟩
    | none => .error "invalid string value"
  | _ => .error "buffer underflow"

theorem decodeFlow_encodeFlow (addons : Addons) : decodeFlow (encodeFlow addons) = .ok addons := by
  unfold encodeFlow
  split
  · rename_i h
    cases addons
    exact congrArg (fun flow => Except.ok (Addons.mk flow)) h.symm
  · simp only [decodeFlow, fromUTF8_utf8]

def someRegistry : Registry := .single "" decodeFlow

def someProtobuf : Protobuf someRegistry := ⟨encodeFlow, decodeFlow_encodeFlow, rfl⟩

/-- A TCP request to port 80 of a domain. -/
def toDomain (name : String) : Sendable someRegistry where
  header := ⟨0, .tcp, .domain name, 80, someUser ""⟩
  version_eq := rfl
  registered := rfl
  port_lt := by show 80 < 65536; decide

/-- A short domain is read back in front of a body. -/
theorem short_domain_read_back : ∃ bytes,
    encodeRequestHeader encodeFlow (toDomain "a.b").header ⟨"xtls-rprx-vision"⟩ = .ok bytes ∧
      decodeRequestHeader someRegistry (bytes ++ [0x21]) =
        .ok (⟨someId, (toDomain "a.b").header, ⟨"xtls-rprx-vision"⟩⟩, [0x21]) := by
  refine ⟨_, rfl, ?_⟩
  exact (decode_encode_iff someProtobuf (toDomain "a.b") ⟨"xtls-rprx-vision"⟩ _ [0x21] rfl).mpr
    (fun _ => show (utf8 "a.b").length ≤ 255 by decide)

/-! ## Counterexample -/

/-- 256 characters, of which the length byte keeps none. -/
def longName : String := String.ofList (List.replicate 256 'a')

/-- The header up to the length byte of the domain, and the domain. -/
def longBytes : Bytes :=
  0x00 :: someId.bytes ++ [0x00, 0x01, 0x00, 0x50, 0x02, 0x00] ++ List.replicate 256 0x61

/-- The encoder returns `Ok`, and the decoder reads an empty domain with the
256 characters as the first bytes of the body. -/
theorem long_domain_becomes_body :
    encodeRequestHeader encodeFlow (toDomain longName).header .default = .ok longBytes ∧
      decodeRequestHeader someRegistry longBytes =
        .ok (⟨someId, (toDomain "").header, .default⟩, List.replicate 256 0x61) := by
  decide +kernel

end Wrongsv.Bugs.VlessLongDomain
