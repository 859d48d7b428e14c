import Wrongsv.L1Encoding.VlessHeader

/-!
# TUIC commands

A command of a QUIC stream or datagram (server/handler/tuic.rs:749-966):

  version(1) command(1) fields

The fields of a packet are its ids and sizes, an address and the payload:

  association(2) packet(2) fragments(1) index(1) size(2) address payload

and an address is a type byte and what belongs to it: a length byte, a domain and a
port (type 0), 4 or 16 bytes and a port (types 1 and 2), or nothing (type 255). The
source keeps an address as the text `host:port`; here it stays apart.

The address parser answers "no address" both for type 255 and when the bytes end
too early, and in the second case it has already passed the type and the length.

Results: `tryParse_encode`, `parseTuicAddress_take`, `parseTuicAddress_cases`.
-/
namespace Wrongsv.L1.Tuic
open L1.VlessHeader List

def tuicVersion : UInt8 := 0x05
def tuicCmdAuthenticate : UInt8 := 0x00
def tuicCmdConnect : UInt8 := 0x01
def tuicCmdPacket : UInt8 := 0x02
def tuicCmdDissociate : UInt8 := 0x03
def tuicCmdHeartbeat : UInt8 := 0x04
def tuicAddrNone : UInt8 := 0xff

/-- The errors of the parsers; `utf8` is that of `str::from_utf8`. -/
inductive TuicError where
  /-- unexpected TUIC version -/
  | unexpectedVersion (version : UInt8)
  /-- unexpected TUIC command -/
  | unexpectedCommand (cmd : UInt8)
  /-- unexpected TUIC address type -/
  | unexpectedAddressType (addrType : UInt8)
  | utf8
  /-- TUIC stream closed before command header -/
  | streamClosed
  /-- TUIC command too large -/
  | commandTooLarge
  /-- TUIC datagram too short to contain a command -/
  | datagramTooShort
  deriving DecidableEq, Repr

structure TuicAddress where
  address : Address
  port : UInt16
  deriving DecidableEq, Repr

structure TuicPacket where
  assocId : UInt16
  packetId : UInt16
  fragTotal : UInt8
  fragmentIndex : UInt8
  address : Option TuicAddress
  payload : Bytes
  deriving DecidableEq, Repr

inductive TuicCommand where
  | authenticate (uuid : { b : Bytes // b.length = 16 }) (token : { b : Bytes // b.length = 32 })
  | connect (address : TuicAddress) (initialBody : Bytes)
  | packet (packet : TuicPacket)
  | dissociate (assocId : UInt16)
  | heartbeat
  deriving DecidableEq, Repr

/-! ## The parsers -/

/-- `u16::from_be_bytes([hi, lo])` -/
def uint16 (hi lo : UInt8) : UInt16 := UInt16.ofNat (u16 hi lo)

/-- An address of `n` bytes and the port. -/
def parseTuicOctets (n : Nat) (address : { b : Bytes // b.length = n } → Address) (buf : Bytes) :
    Option TuicAddress × Nat :=
  if h : buf.length < n + 2 then (none, 1)
  else (some ⟨address ⟨buf.take n, length_take_octets h⟩, UInt16.ofNat (u16At buf n)⟩, n + 3)

/-- A length byte, a domain and the port. -/
def parseTuicDomain : Bytes → Except TuicError (Option TuicAddress × Nat)
  | [] => .ok (none, 1)
  | len :: buf =>
    if buf.length < len.toNat + 2 then .ok (none, 2)
    else
      match String.fromUTF8? ⟨(buf.take len.toNat).toArray⟩ with
      | none => .error .utf8
      | some host => .ok (some ⟨.domain host, UInt16.ofNat (u16At buf len.toNat)⟩, len.toNat + 4)

/-- The bytes are those from `*pos` on, and the number is how far `*pos` moves.
tuic.rs:921-966 -/
def parseTuicAddress : Bytes → Except TuicError (Option TuicAddress × Nat)
  | [] => .ok (none, 0)
  | addrType :: buf =>
    if addrType = tuicAddrNone then .ok (none, 1)
    else if addrType = 0x00 then parseTuicDomain buf
    else if addrType = 0x01 then .ok (parseTuicOctets 4 .ipv4 buf)
    else if addrType = 0x02 then .ok (parseTuicOctets 16 .ipv6 buf)
    else .error (.unexpectedAddressType addrType)

/-- The fields of a packet, behind the version and the command. -/
def parseTuicPacket : Bytes → Except TuicError (Option (TuicCommand × Nat))
  | a :: b :: c :: d :: fragTotal :: fragmentIndex :: e :: f :: buf =>
    match parseTuicAddress buf with
    | .error e => .error e
    | .ok (address, used) =>
      let size := u16 e f
      if buf.length < used + size then .ok none
      else
        .ok (some (.packet ⟨uint16 a b, uint16 c d, fragTotal, fragmentIndex, address,
          (buf.drop used).take size⟩, 10 + used + size))
  | _ => .ok none

/-- tuic.rs:761-846 -/
def tryParseTuicCommand : Bytes → Except TuicError (Option (TuicCommand × Nat))
  | [] => .ok none
  | version :: buf =>
    if version ≠ tuicVersion then .error (.unexpectedVersion version)
    else
      match buf with
      | [] => .ok none
      | cmd :: buf =>
        if cmd = tuicCmdAuthenticate then
          if h : buf.length < 48 then .ok none
          else
            .ok (some (.authenticate ⟨buf.take 16, by rw [length_take]; omega⟩
              ⟨(buf.drop 16).take 32, by rw [length_take, length_drop]; omega⟩, 50))
        else if cmd = tuicCmdConnect then
          match parseTuicAddress buf with
          | .error e => .error e
          | .ok (none, _) => .ok none
          | .ok (some address, used) => .ok (some (.connect address (buf.drop used), 2 + buf.length))
        else if cmd = tuicCmdPacket then parseTuicPacket buf
        else if cmd = tuicCmdDissociate then
          match buf with
          | hi :: lo :: _ => .ok (some (.dissociate (uint16 hi lo), 4))
          | _ => .ok none
        else if cmd = tuicCmdHeartbeat then .ok (some (.heartbeat, 2))
        else .error (.unexpectedCommand cmd)

/-- The loop of `read_tuic_command_header`, with what the reads return until the
stream ends. -/
def readTuicCommand (buf : Bytes) (reads : List Bytes) : Except TuicError TuicCommand :=
  match tryParseTuicCommand buf with
  | .error e => .error e
  | .ok (some (cmd, _)) => .ok cmd
  | .ok none =>
    match reads with
    | [] => .error .streamClosed
    | read :: reads =>
      if read.length = 0 then .error .streamClosed
      else if 64 * 1024 < (buf ++ read).length then .error .commandTooLarge
      else readTuicCommand (buf ++ read) reads

/-- tuic.rs:726-747 -/
def readTuicCommandHeader (reads : List Bytes) : Except TuicError TuicCommand :=
  readTuicCommand [] reads

/-! ## Encoding -/

namespace TuicAddress

/-- The type of an address, with the length of a domain. -/
def front (a : TuicAddress) : Bytes :=
  match a.address with
  | .domain host => [0x00, UInt8.ofNat (utf8 host).length]
  | .ipv4 _ => [0x01]
  | .ipv6 _ => [0x02]

def body (a : TuicAddress) : Bytes :=
  (match a.address with
    | .domain host => utf8 host
    | .ipv4 octets => octets.val
    | .ipv6 octets => octets.val) ++ be16 a.port.toNat

end TuicAddress

def encodeTuicAddress : Option TuicAddress → Bytes
  | none => [tuicAddrNone]
  | some a => a.front ++ a.body

/-- What stands in front of the address of a packet. -/
def TuicPacket.head (p : TuicPacket) : Bytes :=
  be16 p.assocId.toNat ++ be16 p.packetId.toNat ++ [p.fragTotal, p.fragmentIndex] ++ be16 p.payload.length

/-- A command as a client sends it. -/
def TuicCommand.encode : TuicCommand → Bytes
  | .authenticate uuid token => tuicVersion :: tuicCmdAuthenticate :: (uuid.val ++ token.val)
  | .connect address initialBody => tuicVersion :: tuicCmdConnect :: (encodeTuicAddress (some address) ++ initialBody)
  | .packet p => tuicVersion :: tuicCmdPacket :: (p.head ++ (encodeTuicAddress p.address ++ p.payload))
  | .dissociate assocId => tuicVersion :: tuicCmdDissociate :: be16 assocId.toNat
  | .heartbeat => [tuicVersion, tuicCmdHeartbeat]

/-- The address and the payload have a place in the format. -/
structure TuicPacket.Fits (p : TuicPacket) : Prop where
  address : ∀ a, p.address = some a → a.address.Fits
  payload : p.payload.length < 65536

/-! ## Addresses are read back -/

theorem uint16_be16 (n : UInt16) :
    uint16 (UInt8.ofNat (n.toNat / 256)) (UInt8.ofNat n.toNat) = n := by
  rw [uint16, u16_be16 n.toNat n.toNat_lt, UInt16.ofNat_toNat]

theorem be16_uint16 (hi lo : UInt8) : be16 (uint16 hi lo).toNat = [hi, lo] := by
  rw [uint16, UInt16.toNat_ofNat_of_lt' (u16_lt hi lo), be16_u16]

section
variable {n : Nat} (address : { b : Bytes // b.length = n } → Address)

theorem parseTuicOctets_append (octets : { b : Bytes // b.length = n }) (port : UInt16)
    (rest : Bytes) : parseTuicOctets n address ((octets.val ++ be16 port.toNat) ++ rest) =
      (some ⟨address octets, port⟩, (octets.val ++ be16 port.toNat).length + 1) := by
  obtain ⟨octets, rfl⟩ := octets
  have hlen : (octets ++ be16 port.toNat).length = octets.length + 2 := by rw [length_append, be16_length]
  have hn : ¬ ((octets ++ be16 port.toNat) ++ rest).length < octets.length + 2 := by
    rw [length_append, hlen]
    omega
  rw [parseTuicOctets, dif_neg hn, hlen]
  simp only [append_assoc, take_left, u16At_append octets port.toNat_lt rest, UInt16.ofNat_toNat]

theorem parseTuicOctets_short {buf : Bytes} (h : buf.length < n + 2) :
    parseTuicOctets n address buf = (none, 1) := by
  rw [parseTuicOctets, dif_pos h]

theorem parseTuicOctets_take (octets : { b : Bytes // b.length = n }) (port : UInt16) {j : Nat}
    (hj : j < (octets.val ++ be16 port.toNat).length) :
    parseTuicOctets n address ((octets.val ++ be16 port.toNat).take j) = (none, min (j + 1) 1) := by
  grind [parseTuicOctets_short, be16_length]

end

section
variable {a : TuicAddress}

theorem encodeTuicAddress_length (a : TuicAddress) :
    (encodeTuicAddress (some a)).length = a.front.length + a.body.length := length_append

theorem front_length_pos (a : TuicAddress) : 1 ≤ a.front.length ∧ a.front.length ≤ 2 := by
  obtain ⟨address, port⟩ := a
  cases address <;> simp [TuicAddress.front]

theorem body_length_pos (a : TuicAddress) : 2 ≤ a.body.length := by
  rw [TuicAddress.body, length_append, be16_length]
  omega

theorem body_length_le (h : a.address.Fits) : a.body.length ≤ 257 := by
  obtain ⟨address, port⟩ := a
  cases address with
  | ipv4 octets => simp [TuicAddress.body, octets.property]
  | ipv6 octets => simp [TuicAddress.body, octets.property]
  | domain host =>
    have hfits : (utf8 host).length ≤ 255 := h
    simp only [TuicAddress.body, length_append, be16_length]
    omega

/-- **An address is read back**, and its length is known. -/
theorem parseTuicAddress_encode {address : Option TuicAddress}
    (h : ∀ a, address = some a → a.address.Fits) (rest : Bytes) :
    parseTuicAddress (encodeTuicAddress address ++ rest) = .ok (address, (encodeTuicAddress address).length) := by
  cases address with
  | none => rfl
  | some a =>
    have hfits := h a rfl
    obtain ⟨address, port⟩ := a
    cases address with
    | ipv4 octets => exact congrArg Except.ok (parseTuicOctets_append .ipv4 octets port rest)
    | ipv6 octets => exact congrArg Except.ok (parseTuicOctets_append .ipv6 octets port rest)
    | domain host =>
      have hn : (UInt8.ofNat (utf8 host).length).toNat = (utf8 host).length := toNat_ofNat_of_le hfits
      have hlong : ¬ (utf8 host ++ (be16 port.toNat ++ rest)).length < (utf8 host).length + 2 := by
        grind [be16_length]
      simp only [encodeTuicAddress, TuicAddress.front, TuicAddress.body, cons_append, nil_append,
        append_assoc, parseTuicAddress, parseTuicDomain, hn, if_neg hlong, take_left, fromUTF8_utf8,
        u16At_append _ port.toNat_lt rest, UInt16.ofNat_toNat]
      simp [tuicAddrNone]

/-- **The first bytes of an address** are read as no address, and the type and the
length are behind the cursor. -/
theorem parseTuicAddress_take (h : a.address.Fits) {j : Nat} (hj : j < (encodeTuicAddress (some a)).length) :
    parseTuicAddress ((encodeTuicAddress (some a)).take j) = .ok (none, min j a.front.length) := by
  obtain ⟨address, port⟩ := a
  cases j with
  | zero => rfl
  | succ j =>
    cases address with
    | ipv4 octets => exact congrArg Except.ok (parseTuicOctets_take .ipv4 octets port (Nat.lt_of_succ_lt_succ hj))
    | ipv6 octets => exact congrArg Except.ok (parseTuicOctets_take .ipv6 octets port (Nat.lt_of_succ_lt_succ hj))
    | domain host =>
      cases j with
      | zero => rfl
      | succ j =>
        have hn : (UInt8.ofNat (utf8 host).length).toNat = (utf8 host).length := toNat_ofNat_of_le h
        have hshort : ((TuicAddress.body ⟨.domain host, port⟩).take j).length < (utf8 host).length + 2 := by
          simp [encodeTuicAddress, TuicAddress.body, TuicAddress.front] at hj ⊢
          omega
        simp only [encodeTuicAddress, TuicAddress.front, cons_append, nil_append, take_succ_cons,
          parseTuicAddress, parseTuicDomain, hn, if_pos hshort]
        simp [tuicAddrNone]

end

/-! ## Which bytes an answer comes from -/

/-- Bytes that end within an address; more bytes give another answer. -/
structure Unfinished (buf : Bytes) (used : Nat) : Prop where
  used_le : used ≤ buf.length
  noType : buf.head? ≠ some tuicAddrNone
  more : ∀ more, 258 ≤ more.length → parseTuicAddress (buf ++ more) ≠ .ok (none, used)

/-- Bytes that start with the whole address. -/
structure Whole (buf : Bytes) (address : Option TuicAddress) (used : Nat) : Prop where
  fits : ∀ a, address = some a → a.address.Fits
  used_eq : used = (encodeTuicAddress address).length
  starts : ∃ rest, buf = encodeTuicAddress address ++ rest

theorem whole_of_parse {a : TuicAddress} (hfits : a.address.Fits) {rest : Bytes} {address : Option TuicAddress}
    {used : Nat} (h : parseTuicAddress (encodeTuicAddress (some a) ++ rest) = .ok (address, used)) :
    Whole (encodeTuicAddress (some a) ++ rest) address used := by
  have hfits' : ∀ b, some a = some b → b.address.Fits := fun b hb => Option.some.inj hb ▸ hfits
  rw [parseTuicAddress_encode hfits' rest] at h
  cases h
  exact ⟨hfits', rfl, rest, rfl⟩

theorem utf8_of_fromUTF8 {bytes : Bytes} {host : String}
    (h : String.fromUTF8? ⟨bytes.toArray⟩ = some host) : utf8 host = bytes := by
  unfold String.fromUTF8? at h
  split at h
  · cases h
    rfl
  · cases h

variable {buf : Bytes}

theorem exists_port {n : Nat} (h : n + 2 ≤ buf.length) :
    ∃ port rest, buf = buf.take n ++ (be16 (UInt16.toNat port) ++ rest) := by
  have hlen : (buf.drop n).length = buf.length - n := length_drop
  obtain ⟨hi, lo, rest, hdrop⟩ : ∃ hi lo rest, buf.drop n = hi :: lo :: rest := by
    match hd : buf.drop n with
    | [] => simp [hd] at hlen; omega
    | [_] => simp [hd] at hlen; omega
    | hi :: lo :: rest => exact ⟨hi, lo, rest, rfl⟩
  refine ⟨uint16 hi lo, rest, ?_⟩
  rw [be16_uint16]
  exact (take_append_drop n buf).symm.trans (by rw [hdrop]; rfl)

/-- An address of `n` bytes is complete, or too short. -/
theorem parseTuicOctets_cases (n : Nat) (address : { b : Bytes // b.length = n } → Address)
    (buf : Bytes) : (∃ octets port rest, buf = (octets.val ++ be16 port.toNat) ++ rest ∧
      parseTuicOctets n address buf = (some ⟨address octets, port⟩, (octets.val ++ be16 port.toNat).length + 1)) ∨
    (buf.length < n + 2 ∧ parseTuicOctets n address buf = (none, 1)) := by
  by_cases hshort : buf.length < n + 2
  · exact .inr ⟨hshort, parseTuicOctets_short address hshort⟩
  · obtain ⟨port, rest, hbuf⟩ := exists_port (Nat.not_lt.mp hshort)
    have hn : (buf.take n).length = n := by rw [length_take]; omega
    rw [← append_assoc] at hbuf
    refine .inl ⟨⟨buf.take n, hn⟩, port, rest, hbuf, ?_⟩
    rw [← parseTuicOctets_append address ⟨buf.take n, hn⟩ port rest]
    exact congrArg _ hbuf

theorem parseTuicAddress_domain (len : UInt8) (buf : Bytes) (h : len.toNat + 2 ≤ buf.length) :
    parseTuicAddress (0x00 :: len :: buf) = .error .utf8 ∨
    ∃ host port rest, 0x00 :: len :: buf = encodeTuicAddress (some ⟨.domain host, port⟩) ++ rest ∧
      (Address.domain host).Fits ∧ parseTuicAddress (0x00 :: len :: buf) = .ok (some ⟨.domain host, port⟩, len.toNat + 4) := by
  have hlong : ¬ buf.length < len.toNat + 2 := Nat.not_lt.mpr h
  have hparse : parseTuicAddress (0x00 :: len :: buf) =
      match String.fromUTF8? ⟨(buf.take len.toNat).toArray⟩ with
      | none => .error .utf8
      | some host => .ok (some ⟨.domain host, UInt16.ofNat (u16At buf len.toNat)⟩, len.toNat + 4) := by
    rw [parseTuicAddress, if_neg (by decide), if_pos rfl, parseTuicDomain, if_neg hlong]
  cases hutf8 : String.fromUTF8? ⟨(buf.take len.toNat).toArray⟩ with
  | none =>
    rw [hutf8] at hparse
    exact .inl hparse
  | some host =>
    rw [hutf8] at hparse
    have hhost := utf8_of_fromUTF8 hutf8
    have hn : (utf8 host).length = len.toNat := by rw [hhost, length_take]; omega
    obtain ⟨port, rest, hbuf⟩ := exists_port h
    have hport : UInt16.ofNat (u16At buf len.toNat) = port := by
      rw [hbuf, ← hhost, ← hn, u16At_append _ port.toNat_lt rest, UInt16.ofNat_toNat]
    have hfits : (utf8 host).length ≤ 255 := by
      have := len.toNat_lt
      omega
    rw [hport] at hparse
    refine .inr ⟨host, port, rest, ?_, hfits, hparse⟩
    have hlen : UInt8.ofNat (utf8 host).length = len := by rw [hn, UInt8.ofNat_toNat]
    rw [← hhost] at hbuf
    simp only [encodeTuicAddress, TuicAddress.front, TuicAddress.body, hlen, cons_append,
      nil_append, append_assoc, ← hbuf]

theorem parseTuicAddress_domain_more (len : UInt8) (h : 257 ≤ buf.length) (used : Nat) :
    parseTuicAddress (0x00 :: len :: buf) ≠ .ok (none, used) := by
  have hlen := len.toNat_lt
  grind [parseTuicAddress_domain]

section
variable {t : UInt8} {buf : Bytes} {address : Option TuicAddress} {used : Nat}

theorem one_le_used (h : parseTuicAddress (t :: buf) = .ok (address, used)) : 1 ≤ used := by
  rw [parseTuicAddress] at h
  split at h
  · cases h; omega
  split at h
  · unfold parseTuicDomain at h
    grind
  split at h
  · rcases parseTuicOctets_cases 4 .ipv4 buf with ⟨_, _, _, -, hp⟩ | ⟨-, hp⟩ <;> rw [hp] at h <;> cases h <;> omega
  split at h
  · rcases parseTuicOctets_cases 16 .ipv6 buf with ⟨_, _, _, -, hp⟩ | ⟨-, hp⟩ <;> rw [hp] at h <;> cases h <;> omega
  · cases h

/-- The octets of an address of type `t`, read or too short. -/
theorem octets_cases {n : Nat} (hn : n ≤ 16) (ht : t ≠ tuicAddrNone) (make : { b : Bytes // b.length = n } → Address)
    (hencode : ∀ octets port, encodeTuicAddress (some ⟨make octets, port⟩) = t :: (octets.val ++ be16 port.toNat))
    (hfits : ∀ octets, (make octets).Fits)
    (hparse : ∀ buf, parseTuicAddress (t :: buf) = .ok (parseTuicOctets n make buf)) {buf : Bytes}
    {address : Option TuicAddress} {used : Nat} (h : parseTuicAddress (t :: buf) = .ok (address, used)) :
    Whole (t :: buf) address used ∨ (address = none ∧ Unfinished (t :: buf) used) := by
  rcases parseTuicOctets_cases n make buf with ⟨octets, port, rest, hbuf, -⟩ | ⟨hshort, hp⟩
  · grind [whole_of_parse]
  · rw [hparse, hp] at h
    cases h
    refine .inr ⟨rfl, by simp, fun hhead => ht (Option.some.inj hhead), fun more hmore heq => ?_⟩
    rcases parseTuicOctets_cases n make (buf ++ more) with ⟨_, _, _, -, hp'⟩ | ⟨hshort', -⟩
    all_goals grind

/-- **An answer comes from a whole address or from unfinished bytes.** -/
theorem parseTuicAddress_cases (h : parseTuicAddress buf = .ok (address, used)) :
    Whole buf address used ∨ (address = none ∧ Unfinished buf used) := by
  cases buf with
  | nil =>
    cases h
    refine .inr ⟨rfl, Nat.le_refl _, by simp, fun more hmore heq => ?_⟩
    cases more with
    | nil => simp at hmore
    | cons t more => exact absurd (one_le_used heq) (by decide)
  | cons t buf =>
    by_cases hnone : t = tuicAddrNone
    · rw [parseTuicAddress, if_pos hnone] at h
      cases h
      exact .inl ⟨fun a ha => (by cases ha), rfl, buf, by rw [hnone]; rfl⟩
    by_cases h0 : t = 0x00
    · subst h0
      cases buf with
      | nil =>
        cases h
        refine .inr ⟨rfl, Nat.le_refl _, fun hhead => hnone (Option.some.inj hhead), fun more hmore heq => ?_⟩
        cases more with
        | nil => simp at hmore
        | cons len more => exact parseTuicAddress_domain_more len (Nat.le_of_succ_le_succ hmore) _ heq
      | cons len buf =>
        by_cases hshort : buf.length < len.toNat + 2
        · rw [parseTuicAddress, if_neg (by decide), if_pos rfl, parseTuicDomain, if_pos hshort] at h
          cases h
          refine .inr ⟨rfl, by simp, fun hhead => hnone (Option.some.inj hhead), fun more hmore => ?_⟩
          grind [parseTuicAddress_domain_more]
        · rcases parseTuicAddress_domain len buf (Nat.not_lt.mp hshort) with hp | ⟨host, port, rest, hall, hfits, -⟩
          all_goals grind [whole_of_parse]
    by_cases h1 : t = 0x01
    · subst h1
      exact octets_cases (by decide) hnone .ipv4 (fun _ _ => rfl) (fun _ => trivial) (fun _ => rfl) h
    by_cases h2 : t = 0x02
    · subst h2
      exact octets_cases (by decide) hnone .ipv6 (fun _ _ => rfl) (fun _ => trivial) (fun _ => rfl) h
    all_goals grind [parseTuicAddress]

end

/-! ## Commands are read back -/

theorem tryParse_head (p : TuicPacket) (hsize : p.payload.length < 65536) (buf : Bytes) :
    tryParseTuicCommand (tuicVersion :: tuicCmdPacket :: (p.head ++ buf)) =
      match parseTuicAddress buf with
      | .error e => .error e
      | .ok (address, used) =>
        if buf.length < used + p.payload.length then .ok none
        else
          .ok (some (.packet { p with address, payload := (buf.drop used).take p.payload.length },
            10 + used + p.payload.length)) := by
  show parseTuicPacket (p.head ++ buf) = _
  grind [TuicPacket.head, be16, parseTuicPacket, uint16_be16, u16_be16]

/-- A command that the parser reads on its own: not one that goes on until the
stream ends. -/
def TuicCommand.Complete : TuicCommand → Prop
  | .packet p => p.Fits
  | .connect _ _ => False
  | .authenticate _ _ | .dissociate _ | .heartbeat => True

variable {cmd : TuicCommand}

/-- **A command is read back**, in front of anything. -/
theorem tryParse_encode (h : cmd.Complete) (rest : Bytes) :
    tryParseTuicCommand (cmd.encode ++ rest) = .ok (some (cmd, cmd.encode.length)) := by
  cases cmd with
  | connect _ _ => cases h
  | heartbeat => rfl
  | dissociate assocId =>
    show Except.ok (some (TuicCommand.dissociate (uint16 _ _), 4)) = _
    rw [uint16_be16]
    rfl
  | authenticate uuid token =>
    obtain ⟨uuid, huuid⟩ := uuid
    obtain ⟨token, htoken⟩ := token
    have hlong : ¬ (uuid ++ (token ++ rest)).length < 48 := by
      simp
      omega
    have hdrop : (uuid ++ (token ++ rest)).drop 16 = token ++ rest := drop_left' huuid
    simp only [TuicCommand.encode, cons_append, append_assoc, tryParseTuicCommand, dif_neg hlong,
      take_left' huuid, hdrop, take_left' htoken]
    simp [huuid, htoken]
  | packet p =>
    have hfits : p.Fits := h
    have hlong : ¬ (encodeTuicAddress p.address ++ (p.payload ++ rest)).length <
        (encodeTuicAddress p.address).length + p.payload.length := by
      simp
    simp only [TuicCommand.encode, cons_append, append_assoc, tryParse_head p hfits.payload,
      parseTuicAddress_encode hfits.address, if_neg hlong, drop_left, take_left]
    simp [TuicPacket.head]
    omega

/-! ## Commands that are cut short -/

/-- How far the cursor moves within an address that ends too early. -/
def frontLength : Option TuicAddress → Nat
  | none => 1
  | some a => a.front.length

theorem parseTuicAddress_cut {address : Option TuicAddress} (h : ∀ a, address = some a → a.address.Fits) {j : Nat}
    (hj : j < (encodeTuicAddress address).length) :
    parseTuicAddress ((encodeTuicAddress address).take j) = .ok (none, min j (frontLength address)) := by
  cases address with
  | none =>
    obtain rfl : j = 0 := by simpa [encodeTuicAddress] using hj
    rfl
  | some a => exact parseTuicAddress_take (h a rfl) hj

/-- The first `k` bytes of a packet end within its address, and yet there are `size`
bytes behind the cursor. -/
structure Misread (p : TuicPacket) (k : Nat) : Prop where
  head : 10 ≤ k
  cut : k - 10 < (encodeTuicAddress p.address).length
  covered : min (k - 10) (frontLength p.address) + p.payload.length ≤ k - 10

theorem head_length (p : TuicPacket) : p.head.length = 8 := rfl

theorem packet_take (p : TuicPacket) {k : Nat} (hk : 10 ≤ k) :
    (TuicCommand.packet p).encode.take k =
    tuicVersion :: tuicCmdPacket :: (p.head ++ (encodeTuicAddress p.address ++ p.payload).take (k - 10)) := by
  obtain ⟨j, rfl⟩ := Nat.exists_eq_add_of_le' hk
  have hj : p.head.length + j = j + 8 := by rw [head_length, Nat.add_comm]
  rfl

variable {p : TuicPacket}

/-- **A packet that is cut within its address** is read as one without an address
if the bytes so far cover its size. -/
theorem tryParse_misread (hfits : p.Fits) {k : Nat} (h : Misread p k) : ∃ payload n,
    payload.length = p.payload.length ∧ tryParseTuicCommand ((TuicCommand.packet p).encode.take k) =
      .ok (some (.packet { p with address := none, payload }, n)) := by
  have htake : (encodeTuicAddress p.address ++ p.payload).take (k - 10) = (encodeTuicAddress p.address).take (k - 10) :=
    take_append_of_le_length (Nat.le_of_lt h.cut)
  have hcut := h.cut
  have hcovered := h.covered
  have hlong : ¬ ((encodeTuicAddress p.address).take (k - 10)).length <
      min (k - 10) (frontLength p.address) + p.payload.length := by
    rw [length_take]
    omega
  have hparse := tryParse_head p hfits.payload ((encodeTuicAddress p.address).take (k - 10))
  simp only [parseTuicAddress_cut hfits.address h.cut, if_neg hlong] at hparse
  rw [packet_take p h.head, htake]
  grind

theorem tryParse_take_packet (hfits : p.Fits) {k : Nat} (hk : k < (TuicCommand.packet p).encode.length)
    (h : ¬ Misread p k) : tryParseTuicCommand ((TuicCommand.packet p).encode.take k) = .ok none := by
  by_cases hhead : 10 ≤ k
  · have hlen : (TuicCommand.packet p).encode.length = 10 + (encodeTuicAddress p.address).length + p.payload.length := by
      simp [TuicCommand.encode, head_length]
      omega
    rw [packet_take p hhead, tryParse_head p hfits.payload]
    by_cases hcut : k - 10 < (encodeTuicAddress p.address).length
    · have hshort : k - 10 < min (k - 10) (frontLength p.address) + p.payload.length :=
        Nat.not_le.mp fun hcovered => h ⟨hhead, hcut, hcovered⟩
      rw [take_append_of_le_length (Nat.le_of_lt hcut)]
      have hshort' : ((encodeTuicAddress p.address).take (k - 10)).length <
          min (k - 10) (frontLength p.address) + p.payload.length := by
        rw [length_take]
        omega
      simp only [parseTuicAddress_cut hfits.address hcut, if_pos hshort']
    · rw [take_append, take_of_length_le (Nat.not_lt.mp hcut)]
      have hshort : (encodeTuicAddress p.address ++
          p.payload.take (k - 10 - (encodeTuicAddress p.address).length)).length <
          (encodeTuicAddress p.address).length + p.payload.length := by
        rw [length_append, length_take]
        omega
      simp only [parseTuicAddress_encode hfits.address, if_pos hshort]
  · -- the ids and sizes are not there yet
    match k with
    | 0 | 1 | 2 | 3 | 4 | 5 | 6 | 7 | 8 | 9 => rfl
    | k + 10 => omega

theorem tryParse_take (hcomplete : cmd.Complete) {k : Nat} (hk : k < cmd.encode.length)
    (h : ∀ p, cmd = .packet p → ¬ Misread p k) : tryParseTuicCommand (cmd.encode.take k) = .ok none := by
  cases cmd with
  | connect _ _ => cases hcomplete
  | packet p => exact tryParse_take_packet hcomplete hk (h p rfl)
  | heartbeat =>
    match k with
    | 0 | 1 => rfl
    | k + 2 => exact absurd hk (by simp [TuicCommand.encode])
  | dissociate assocId =>
    match k with
    | 0 | 1 | 2 | 3 => rfl
    | k + 4 => exact absurd hk (by simp [TuicCommand.encode])
  | authenticate uuid token =>
    obtain ⟨uuid, huuid⟩ := uuid
    obtain ⟨token, htoken⟩ := token
    match k with
    | 0 | 1 => rfl
    | k + 2 =>
      have hshort : ((uuid ++ token).take k).length < 48 := by
        simp [TuicCommand.encode, huuid, htoken] at hk ⊢
        omega
      show tryParseTuicCommand (tuicVersion :: tuicCmdAuthenticate :: (uuid ++ token).take k) = _
      simp only [tryParseTuicCommand, dif_pos hshort]
      rfl

/-! ## Which bytes a command comes from -/

/-- What was read when a packet is returned. -/
structure ReadPacket (buf : Bytes) (p : TuicPacket) (rest : Bytes) (used : Nat) : Prop where
  size : p.payload.length < 65536
  starts : buf = p.head ++ rest
  address : parseTuicAddress rest = .ok (p.address, used)
  payload : ∃ tail, rest.drop used = p.payload ++ tail

theorem parseTuicPacket_cases {n : Nat}
    (h : parseTuicPacket buf = .ok (some (cmd, n))) : ∃ p rest used, ReadPacket buf p rest used ∧
    cmd = .packet p ∧ n = 10 + used + p.payload.length := by
  unfold parseTuicPacket at h
  split at h
  · rename_i a b c d fragTotal fragmentIndex e f rest
    split at h
    · cases h
    rename_i address used haddress
    simp only at h
    split at h
    · cases h
    cases h
    refine ⟨_, rest, used, ⟨?_, ?_, haddress, _, (take_append_drop (u16 e f) _).symm⟩, rfl, ?_⟩
    all_goals grind [u16_lt, TuicPacket.head, be16_uint16, be16_u16]
  · cases h

/-- The bytes behind the code of an `Authenticate`. -/
theorem split_authenticate (buf : Bytes) :
    buf = buf.take 16 ++ ((buf.drop 16).take 32 ++ buf.drop 48) := by
  grind [drop_drop, take_append_drop]

theorem ReadPacket.own {rest : Bytes} {used : Nat} (h : ReadPacket buf p rest used)
    (hwhole : Whole rest p.address used) : (TuicCommand.packet p).Complete ∧
    10 + used + p.payload.length = (TuicCommand.packet p).encode.length ∧
      ∃ tail, tuicVersion :: tuicCmdPacket :: buf = (TuicCommand.packet p).encode ++ tail := by
  obtain ⟨tail, htail⟩ := h.payload
  obtain ⟨tail', hrest⟩ := hwhole.starts
  rw [hrest, hwhole.used_eq, drop_left] at htail
  refine ⟨⟨hwhole.fits, h.size⟩, ?_, tail, ?_⟩
  · simp [TuicCommand.encode, TuicPacket.head, hwhole.used_eq]
    omega
  · rw [h.starts, hrest, htail]
    simp [TuicCommand.encode]

/-- **Which bytes a command comes from**: its own, or those of a packet whose
address is unfinished. -/
theorem tryParse_cases {n : Nat}
    (h : tryParseTuicCommand buf = .ok (some (cmd, n))) (hconnect : ∀ address body, cmd ≠ .connect address body) :
    (cmd.Complete ∧ n = cmd.encode.length ∧ ∃ rest, buf = cmd.encode ++ rest) ∨ ∃ p rest used, cmd =
    .packet p ∧ p.address = none ∧ ReadPacket (buf.drop 2) p rest used ∧ Unfinished rest used ∧
      buf = tuicVersion :: tuicCmdPacket :: buf.drop 2 ∧ n = 10 + used + p.payload.length := by
  match buf with
  | [] => cases h
  | version :: buf =>
    rw [tryParseTuicCommand.eq_def] at h
    simp only at h
    split at h
    · cases h
    rename_i hversion
    obtain rfl : version = tuicVersion := Decidable.not_not.mp hversion
    match buf with
    | [] => cases h
    | code :: buf =>
      simp only at h
      split at h
      · rename_i hcode
        subst hcode
        split at h
        · cases h
        cases h
        refine .inl ⟨trivial, ?_, buf.drop 48, ?_⟩
        · simp [TuicCommand.encode]
          omega
        · simp only [TuicCommand.encode, cons_append, append_assoc, ← split_authenticate]
      split at h
      · grind
      split at h
      · rename_i hcode
        subst hcode
        obtain ⟨p, rest, used, hread, rfl, rfl⟩ := parseTuicPacket_cases h
        rcases parseTuicAddress_cases hread.address with hwhole | ⟨hnone, hunfinished⟩
        · exact .inl (hread.own hwhole)
        all_goals grind
      split at h
      · rename_i hcode
        subst hcode
        split at h
        · rename_i hi lo rest
          cases h
          refine .inl ⟨trivial, rfl, rest, ?_⟩
          rw [TuicCommand.encode, be16_uint16]
          rfl
        · cases h
      split at h
      · rename_i hcode
        subst hcode
        cases h
        exact .inl ⟨trivial, rfl, buf, rfl⟩
      · cases h

end Wrongsv.L1.Tuic
