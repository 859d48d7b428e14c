import Wrongsv.Core.Parser
import Wrongsv.L1Encoding.VisionFrame

/-!
# VLESS request header

The codec of `crates/vless-encoding` with the address parser of
`crates/protocol`:

  version(1) user_id(16) addons_len(1) addons command(1) [port(2) type(1) address]

The address part is there for TCP and UDP only. An address is 4 bytes (type
1), a length byte and a domain (type 2), or 16 bytes (type 3).

The validator's lookup and the protobuf decoder of the addons come from
outside (`Registry`), and so does the protobuf encoder (`Protobuf`).

Results, beside `takes_decodeRequestHeader`, `decodeRequestHeader_encoded`:
* `reads_readAddressPort`, `readAddressPort_long`: a destination is read back
  when its address fits the format, and never when it does not.
-/
namespace Wrongsv.L1.VlessHeader
open L1.VisionFrame Wrongsv.Parser List

/-- protocol/types.rs:6-13 -/
inductive RequestCommand where
  | tcp
  | udp
  | mux
  | rvs
  deriving DecidableEq, Repr

def RequestCommand.fromByte (b : UInt8) : Option RequestCommand :=
  if b = 0x01 then some .tcp
  else if b = 0x02 then some .udp
  else if b = 0x03 then some .mux
  else if b = 0x04 then some .rvs
  else none

/-- net-types/address.rs:12-16 -/
inductive Address where
  | ipv4 (octets : { b : Bytes // b.length = 4 })
  | ipv6 (octets : { b : Bytes // b.length = 16 })
  | domain (name : String)
  deriving DecidableEq, Repr

/-- 127.0.0.1 -/
def Address.loopback : Address := .ipv4 ⟨[127, 0, 0, 1], rfl⟩

/-- The fields of an account that the server reads. -/
structure MemoryAccount where
  id : Uuid
  flow : String
  udp : Bool
  testseed : List Nat
  deriving DecidableEq, Repr

structure MemoryUser where
  account : MemoryAccount
  email : String
  deriving DecidableEq, Repr

structure RequestHeader where
  version : UInt8
  command : RequestCommand
  address : Address
  port : Nat
  user : MemoryUser
  deriving DecidableEq, Repr

/-- The protobuf message in front of the command; its default has no flow. -/
structure Addons where
  flow : String
  deriving DecidableEq, Repr

def Addons.default : Addons := ⟨""⟩

/-- vless-encoding/addons.rs:13-22; an `io` error of a
decoder is always the end of its input. -/
inductive AddonsError where
  | unmarshal (message : String)
  | io
  deriving DecidableEq, Repr

/-- protocol/address_parser.rs:11-18 -/
inductive AddressParseError where
  | invalidType (byte : UInt8)
  | domainTooLong (len : Nat)
  | io
  deriving DecidableEq, Repr

/-- vless-encoding/encoding.rs:16-31; nothing raises the
`InvalidAddress` of the source. -/
inductive DecodeError where
  | io
  | addons (e : AddonsError)
  | invalidVersion (version : UInt8)
  | userNotFound (id : String)
  | invalidCommand (byte : UInt8)
  | addressParse (e : AddressParseError)
  deriving DecidableEq, Repr

structure DecodedRequest where
  userSentId : Uuid
  header : RequestHeader
  addons : Addons
  deriving DecidableEq, Repr

/-- What the decoder is given: `lookup_user`, and `Addons::decode` with the
text of its error. -/
structure Registry where
  lookup : Uuid → Option MemoryUser
  unmarshal : Bytes → Except String Addons

def someId : Uuid := .ofByte 0xAA

def someUser (flow : String) : MemoryUser := ⟨⟨someId, flow, true, []⟩, "user@test"⟩

/-- A registry with this one user. -/
def Registry.single (flow : String) (unmarshal : Bytes → Except String Addons) : Registry :=
  ⟨fun id => if id = someId then some (someUser flow) else none, unmarshal⟩

/-! ## The decoder -/

/-- vless-encoding/addons.rs:41-54 -/
def decodeHeaderAddons (reg : Registry) : Parser AddonsError Addons := do
  let length ← readU8 .io
  if length = 0 then return .default
  else
    let proto ← readExact .io length.toNat
    match reg.unmarshal proto.val with
    | .ok addons => return addons
    | .error message => throw (.unmarshal message)

/-- The address behind its type byte. -/
def readAddress (addrType : UInt8) : Parser AddressParseError Address :=
  if addrType = 1 then do
    return .ipv4 (← readExact .io 4)
  else if addrType = 2 then do
    let len ← readU8 .io
    if 256 < len.toNat then throw (.domainTooLong len.toNat)
    else
      let domain ← readExact .io len.toNat
      match String.fromUTF8? ⟨domain.val.toArray⟩ with
      | some name => return .domain name
      | none => throw (.invalidType 2)
  else if addrType = 3 then do
    return .ipv6 (← readExact .io 16)
  else throw (.invalidType addrType)

/-- `AddressParser::new()` is always port-first.
protocol/address_parser.rs:37-92 -/
def readAddressPort : Parser AddressParseError (Address × Nat) := do
  let hi ← readU8 .io
  let lo ← readU8 .io
  let addrType ← readU8 .io
  let address ← readAddress addrType
  return (address, u16 hi lo)

/-- The destination a command is followed by, or stands for. -/
def readDestination : RequestCommand → Parser DecodeError (Address × Nat)
  | .mux => return (.domain "v1.mux.cool", 0)
  | .rvs => return (.domain "v1.rvs.cool", 0)
  | .tcp | .udp => mapError .addressParse readAddressPort

/-- `format!("{:02x}")` of every byte. -/
def hexId (id : Uuid) : String :=
  String.ofList (id.bytes.flatMap fun b => [Nat.digitChar (b.toNat / 16), Nat.digitChar (b.toNat % 16)])

/-- The header behind the user id. -/
def decodeForUser (reg : Registry) (version : UInt8) (userSentId : Uuid) (user : MemoryUser) :
    Parser DecodeError DecodedRequest := do
  let addons ← mapError .addons (decodeHeaderAddons reg)
  let cmd ← readU8 .io
  match RequestCommand.fromByte cmd with
  | none => throw (.invalidCommand cmd)
  | some command =>
    let (address, port) ← readDestination command
    return ⟨userSentId, ⟨version, command, address, port, user⟩, addons⟩

/-- vless-encoding/encoding.rs:65-110 -/
def decodeRequestHeader (reg : Registry) : Parser DecodeError DecodedRequest := do
  let version ← readU8 .io
  if version ≠ 0 then throw (.invalidVersion version)
  else
    let id ← readExact .io 16
    let userSentId : Uuid := ⟨id.val, id.property⟩
    match reg.lookup userSentId with
    | none => throw (.userNotFound (hexId userSentId))
    | some user => decodeForUser reg version userSentId user

/-! ## What it takes off the stream -/

theorem takes_decodeHeaderAddons (reg : Registry) : Takes 1 (decodeHeaderAddons reg) := by
  refine takes_bind (m := 0) (takes_readU8 _) fun length => ?_
  split
  · exact takes_pure _
  refine (takes_bind (m := 0) (takes_readExact _ _) fun proto => ?_).mono (Nat.zero_le _)
  split
  · exact takes_pure _
  · exact takes_throw _ _

theorem takes_readAddress (addrType : UInt8) : Takes 0 (readAddress addrType) := by
  unfold readAddress
  split
  · exact (takes_bind (m := 0) (takes_readExact _ _) fun _ => takes_pure _).mono (Nat.zero_le _)
  split
  · refine (takes_bind (m := 0) (takes_readU8 _) fun len => ?_).mono (Nat.zero_le _)
    split
    · exact takes_throw _ _
    refine (takes_bind (m := 0) (takes_readExact _ _) fun domain => ?_).mono (Nat.zero_le _)
    split
    · exact takes_pure _
    · exact takes_throw _ _
  · split
    · exact (takes_bind (m := 0) (takes_readExact _ _) fun _ => takes_pure _).mono (Nat.zero_le _)
    · exact takes_throw _ _

theorem takes_readAddressPort : Takes 3 readAddressPort := by
  refine takes_bind (k := 1) (m := 2) (takes_readU8 _) fun hi => ?_
  refine takes_bind (k := 1) (m := 1) (takes_readU8 _) fun lo => ?_
  refine takes_bind (k := 1) (m := 0) (takes_readU8 _) fun addrType => ?_
  exact takes_bind (k := 0) (m := 0) (takes_readAddress _) fun _ => takes_pure _

theorem takes_readDestination (command : RequestCommand) : Takes 0 (readDestination command) := by
  cases command with
  | mux | rvs => exact takes_pure _
  | tcp | udp => exact (takes_mapError _ takes_readAddressPort).mono (Nat.zero_le _)

theorem takes_decodeForUser (reg : Registry) (version : UInt8) (userSentId : Uuid)
    (user : MemoryUser) : Takes 2 (decodeForUser reg version userSentId user) := by
  refine takes_bind (k := 1) (m := 1) (takes_mapError _ (takes_decodeHeaderAddons reg)) fun addons => ?_
  refine takes_bind (k := 1) (m := 0) (takes_readU8 _) fun cmd => ?_
  split
  · exact takes_throw _ _
  · exact takes_bind (k := 0) (m := 0) (takes_readDestination _) fun _ => takes_pure _

/-- **The header is self-delimiting**: the decoder looks at no byte behind
it, and no accepted header is shorter than 19 bytes. -/
theorem takes_decodeRequestHeader (reg : Registry) : Takes 19 (decodeRequestHeader reg) := by
  refine takes_bind (k := 1) (m := 18) (takes_readU8 _) fun version => ?_
  split
  · exact takes_throw _ _
  · refine takes_bind (k := 16) (m := 2) (takes_readExact _ _) fun id => ?_
    grind [takes_throw, takes_decodeForUser]

/-! ## The encoder -/

def RequestCommand.toByte : RequestCommand → UInt8
  | .tcp => 0x01
  | .udp => 0x02
  | .mux => 0x03
  | .rvs => 0x04

/-- `domain.as_bytes()` -/
def utf8 (name : String) : Bytes := name.toUTF8.data.toList

/-- An encoder into a buffer fails for one reason only.
encoding.rs:8-13 and addons.rs:18-19 -/
inductive EncodeError where
  | addonsTooLarge (len : Nat)
  deriving DecidableEq, Repr

/-- addons.rs:26-38; `encodeToVec` is the
protobuf encoder. -/
def encodeHeaderAddons (encodeToVec : Addons → Bytes) (addons : Addons) :
    Except EncodeError Bytes :=
  if addons.flow = "" then .ok [0]
  else
    let bytes := encodeToVec addons
    if 255 < bytes.length then .error (.addonsTooLarge bytes.length)
    else .ok (UInt8.ofNat bytes.length :: bytes)

/-- `domain.len() as u8` keeps the low byte of the length. -/
def writeAddress : Address → Bytes
  | .ipv4 octets => 1 :: octets.val
  | .domain name => 2 :: UInt8.ofNat (utf8 name).length :: utf8 name
  | .ipv6 octets => 3 :: octets.val

/-- protocol/address_parser.rs:95-114 -/
def writeAddressPort (address : Address) (port : Nat) : Bytes := be16 port ++ writeAddress address

def writeDestination (request : RequestHeader) : Bytes :=
  if request.command ≠ .mux ∧ request.command ≠ .rvs then
    writeAddressPort request.address request.port
  else []

/-- vless-encoding/encoding.rs:43-59 -/
def encodeRequestHeader (encodeToVec : Addons → Bytes) (request : RequestHeader) (addons : Addons) :
    Except EncodeError Bytes :=
  match encodeHeaderAddons encodeToVec addons with
  | .error e => .error e
  | .ok addonsBytes =>
    .ok (request.version :: request.user.account.id.bytes ++ addonsBytes ++
      request.command.toByte :: writeDestination request)

/-! ## Reading back -/

/-- The protobuf encoder that belongs to a registry's decoder; a message
without a flow has no bytes. -/
structure Protobuf (reg : Registry) where
  encodeToVec : Addons → Bytes
  decode_encode : ∀ addons, reg.unmarshal (encodeToVec addons) = .ok addons
  encode_default : encodeToVec .default = []

variable {reg : Registry} {addons : Addons}

theorem Protobuf.encode_ne_nil (pb : Protobuf reg)
    (h : addons.flow ≠ "") : pb.encodeToVec addons ≠ [] := by
  intro hnil
  have h1 := pb.decode_encode addons
  rw [hnil, ← pb.encode_default, pb.decode_encode] at h1
  cases h1
  exact h rfl

theorem toNat_ofNat_of_le {n : Nat} (h : n ≤ 255) : (UInt8.ofNat n).toNat = n := by
  rw [UInt8.toNat_ofNat']
  omega

theorem reads_decodeHeaderAddons (pb : Protobuf reg) {c : Bytes}
    (h : encodeHeaderAddons pb.encodeToVec addons = .ok c) : Reads (decodeHeaderAddons reg) c addons := by
  unfold encodeHeaderAddons at h
  by_cases hflow : addons.flow = ""
  · rw [if_pos hflow] at h
    cases h
    obtain rfl : addons = .default := by cases addons; exact congrArg Addons.mk hflow
    exact fun t => rfl
  · have hne := pb.encode_ne_nil hflow
    simp only [if_neg hflow] at h
    split at h
    · cases h
    rename_i hlen
    cases h
    have hn := toNat_ofNat_of_le (Nat.le_of_not_lt hlen)
    have h0 : UInt8.ofNat (pb.encodeToVec addons).length ≠ 0 := by
      intro hz
      rw [hz] at hn
      exact hne (eq_nil_of_length_eq_zero hn.symm)
    have hread := reads_readExact AddonsError.io ⟨pb.encodeToVec addons, hn.symm⟩
    refine (reads_readU8 AddonsError.io (UInt8.ofNat (pb.encodeToVec addons).length)).bind ?_
    rw [if_neg h0]
    intro t
    rw [hread.bind_append]
    simp only [pb.decode_encode]
    rfl

theorem fromUTF8_utf8 (name : String) : String.fromUTF8? ⟨(utf8 name).toArray⟩ = some name :=
  dif_pos name.isValidUTF8

/-- The length of a domain has one byte. -/
def Address.Fits : Address → Prop
  | .domain name => (utf8 name).length ≤ 255
  | _ => True

theorem reads_readAddress {address : Address} (h : address.Fits) : ∃ addrType rest,
    writeAddress address = addrType :: rest ∧ Reads (readAddress addrType) rest address := by
  cases address with
  | ipv4 octets =>
    refine ⟨1, octets.val, rfl, fun t => ?_⟩
    exact (reads_readExact AddressParseError.io octets).bind_append t
  | ipv6 octets =>
    refine ⟨3, octets.val, rfl, fun t => ?_⟩
    exact (reads_readExact AddressParseError.io octets).bind_append t
  | domain name =>
    have hfit : (utf8 name).length ≤ 255 := h
    have hn := toNat_ofNat_of_le hfit
    have hle : ¬ 256 < (UInt8.ofNat (utf8 name).length).toNat := by omega
    refine ⟨2, _, rfl, ?_⟩
    refine (reads_readU8 AddressParseError.io (UInt8.ofNat (utf8 name).length)).bind ?_
    rw [if_neg hle]
    intro t
    refine ((reads_readExact AddressParseError.io ⟨utf8 name, hn.symm⟩).bind_append t).trans ?_
    simp only [fromUTF8_utf8]
    rfl

theorem readAddress_domain_rest {len : UInt8} {d r : Bytes} {a : Address}
    (h : readAddress 2 (len :: d) = .ok (a, r)) : r = d.drop len.toNat := by
  have hlen : ¬ 256 < len.toNat := by have := len.toNat_lt; omega
  have hstep : readAddress 2 (len :: d) = (do
      let domain ← readExact AddressParseError.io len.toNat
      match String.fromUTF8? ⟨domain.val.toArray⟩ with
      | some name => return .domain name
      | none => throw (.invalidType 2) : Parser AddressParseError Address) d := by
    unfold readAddress
    refine ((reads_readU8 AddressParseError.io len).bind_append d).trans ?_
    rw [if_neg hlen]
  rw [hstep, bind_apply] at h
  unfold readExact at h
  by_cases hd : len.toNat ≤ d.length
  · rw [dif_pos hd] at h
    cases hname : String.fromUTF8? ⟨(d.take len.toNat).toArray⟩ with
    | none => simp only [hname] at h; cases h
    | some name => simp only [hname] at h; cases h; rfl
  · rw [dif_neg hd] at h
    cases h

/-- The destination a request arrives with. -/
def receivedHeader (request : RequestHeader) : RequestHeader :=
  match request.command with
  | .mux => { request with address := .domain "v1.mux.cool", port := 0 }
  | .rvs => { request with address := .domain "v1.rvs.cool", port := 0 }
  | .tcp | .udp => request

/-- The address is sent for TCP and UDP only, and has to fit there. -/
def RequestHeader.Representable (request : RequestHeader) : Prop :=
  request.command = .tcp ∨ request.command = .udp → request.address.Fits

section
variable {address : Address} {port : Nat} (hport : port < 65536)
include hport

theorem readAddressPort_apply (addrType : UInt8) (rest : Bytes) :
    readAddressPort (be16 port ++ addrType :: rest) =
      (readAddress addrType >>= fun address => pure (address, port)) rest := by
  have hu := u16_be16 port hport
  refine ((reads_readU8 AddressParseError.io (UInt8.ofNat (port / 256))).bind_append _).trans ?_
  refine ((reads_readU8 AddressParseError.io (UInt8.ofNat port)).bind_append _).trans ?_
  refine ((reads_readU8 AddressParseError.io addrType).bind_append rest).trans ?_
  rw [hu]

theorem reads_readAddressPort
    (h : address.Fits) : Reads readAddressPort (writeAddressPort address port) (address, port) := by
  obtain ⟨addrType, rest, hw, hread⟩ := reads_readAddress h
  intro t
  unfold writeAddressPort
  rw [hw, append_assoc, cons_append, readAddressPort_apply hport, hread.bind_append]
  rfl

/-- **A domain that is too long is never read back**: whatever is decoded,
bytes of the domain are left in front of what follows. -/
theorem readAddressPort_long (h : ¬ address.Fits) {t r : Bytes} {x : Address × Nat}
    (hok : readAddressPort (writeAddressPort address port ++ t) = .ok (x, r)) : r ≠ t := by
  cases address with
  | ipv4 octets => exact absurd trivial h
  | ipv6 octets => exact absurd trivial h
  | domain name =>
    have hlong : ¬ (utf8 name).length ≤ 255 := h
    have hw : writeAddressPort (.domain name) port ++ t =
        be16 port ++ 2 :: UInt8.ofNat (utf8 name).length :: (utf8 name ++ t) := by
      unfold writeAddressPort writeAddress
      rw [append_assoc, cons_append, cons_append]
    rw [hw, readAddressPort_apply hport, bind_apply] at hok
    cases ha : readAddress 2 (UInt8.ofNat (utf8 name).length :: (utf8 name ++ t)) with
    | error e => rw [ha] at hok; cases hok
    | ok q =>
      rw [ha] at hok
      cases hok
      have hq := readAddress_domain_rest ha
      have hlen := (UInt8.ofNat (utf8 name).length).toNat_lt
      grind [length_drop]

end

theorem fromByte_toByte (command : RequestCommand) :
    RequestCommand.fromByte command.toByte = some command := by
  cases command <;> rfl

/-- A header that the decoder's registry knows; the port is a `u16`. -/
structure Sendable (reg : Registry) where
  header : RequestHeader
  version_eq : header.version = 0
  registered : reg.lookup header.user.account.id = some header.user
  port_lt : header.port < 65536

/-- **An encoded header in front of anything**: all up to the command is read
back, and the destination is read from its own bytes. -/
theorem decodeRequestHeader_encoded (pb : Protobuf reg) (s : Sendable reg) {bytes : Bytes}
    (h : encodeRequestHeader pb.encodeToVec s.header addons = .ok bytes) (t : Bytes) :
    decodeRequestHeader reg (bytes ++ t) =
      (readDestination s.header.command >>= fun d => pure
        ⟨s.header.user.account.id, { s.header with address := d.1, port := d.2 }, addons⟩)
        (writeDestination s.header ++ t) := by
  unfold encodeRequestHeader at h
  cases ha : encodeHeaderAddons pb.encodeToVec addons with
  | error e => rw [ha] at h; cases h
  | ok c =>
    rw [ha] at h
    cases h
    have hid := reads_readExact DecodeError.io ⟨s.header.user.account.id.bytes, s.header.user.account.id.length_eq⟩
    have haddons := (reads_decodeHeaderAddons pb ha).mapError DecodeError.addons
    have hcmd := reads_readU8 DecodeError.io s.header.command.toByte
    have hcons : (s.header.version :: s.header.user.account.id.bytes ++ c ++
        s.header.command.toByte :: writeDestination s.header) ++ t =
        s.header.version :: (s.header.user.account.id.bytes ++
          (c ++ (s.header.command.toByte :: (writeDestination s.header ++ t)))) := by simp
    rw [hcons]
    refine ((reads_readU8 DecodeError.io s.header.version).bind_append _).trans ?_
    rw [if_neg (by rw [s.version_eq]; decide)]
    refine (hid.bind_append _).trans ?_
    simp only [s.registered]
    refine (haddons.bind_append _).trans ?_
    refine (hcmd.bind_append _).trans ?_
    rw [fromByte_toByte]
    rfl

end Wrongsv.L1.VlessHeader
