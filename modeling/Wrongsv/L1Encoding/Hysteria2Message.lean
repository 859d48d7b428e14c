import Wrongsv.L1Encoding.VlessHeader

/-!
# Hysteria2 UDP messages

A datagram of a QUIC connection (server/handler/hysteria2.rs:606-653):

  session(4) packet(2) fragment(1) fragments(1) length address payload

The length of the address is a QUIC variable-length integer: the first two bits say
whether it has 1, 2, 4 or 8 bytes.

Results: `readQuicVarint_encode`, `parse_encode`.
-/
namespace Wrongsv.L1.Hysteria2
open L1.VlessHeader List

/-- The errors of the codec; `utf8` is that of `str::from_utf8`. -/
inductive MessageError where
  /-- Hysteria2 UDP packet too short -/
  | tooShort
  /-- Hysteria2 UDP packet missing address length -/
  | missingAddressLength
  /-- Hysteria2 UDP packet truncated address -/
  | truncatedAddress
  | utf8
  /-- quic varint too large -/
  | varintTooLarge
  deriving DecidableEq, Repr

structure H2UdpMessage where
  sessionId : UInt32
  packetId : UInt16
  fragmentId : UInt8
  fragmentCount : UInt8
  address : String
  payload : Bytes
  deriving DecidableEq, Repr

/-! ## Variable-length integers -/

/-- The value and how many bytes it has; `none` if they are not all there. The bytes
are those from `*pos` on.
hysteria2.rs:666-698 -/
def readQuicVarint : Bytes → Option (Nat × Nat)
  | [] => none
  | first :: buf =>
    let len := 1 <<< (first >>> 6).toNat
    if (first :: buf).length < len then none
    else some (ofBe ((first :: buf).take len) &&& (2 ^ (8 * len - 2) - 1), len)

/-- hysteria2.rs:700-716 -/
def encodeQuicVarint (value : Nat) : Except MessageError Bytes :=
  if value < 1 <<< 6 then .ok [UInt8.ofNat value]
  else if value < 1 <<< 14 then .ok (beBytes 2 (0x4000 ||| value))
  else if value < 1 <<< 30 then .ok (beBytes 4 (0x80000000 ||| value))
  else if value < 1 <<< 62 then .ok (beBytes 8 (0xC000000000000000 ||| value))
  else .error .varintTooLarge

theorem encodeQuicVarint_ok {value : Nat} (h : value < 2 ^ 62) :
    ∃ encoded, encodeQuicVarint value = .ok encoded := by
  unfold encodeQuicVarint
  split_ifs <;> first | exact ⟨_, rfl⟩ | omega

/-- The first two bits say how long the integer is, and the others are the value. -/
theorem readQuicVarint_tagged {tag k v : Nat} (htag : tag < 4) (hk : k + 1 = 1 <<< tag)
    (hv : v < 2 ^ (8 * k + 6)) (rest : Bytes) :
    readQuicVarint (beBytes (k + 1) (2 ^ (8 * k + 6) * tag + v) ++ rest) = some (v, k + 1) := by
  have hpow : 2 ^ (8 * k + 6) = 64 * 256 ^ k := by
    rw [Nat.pow_add, Nat.pow_mul, Nat.mul_comm]
  have hhead : (2 ^ (8 * k + 6) * tag + v) / 256 ^ k = 64 * tag + v / 256 ^ k := by
    rw [hpow, Nat.mul_right_comm, Nat.mul_comm (64 * tag), Nat.mul_add_div (Nat.pow_pos (by decide))]
  have hlow : v / 256 ^ k < 64 := by
    rw [hpow] at hv
    exact Nat.div_lt_of_lt_mul (by rwa [Nat.mul_comm])
  have hshift : (UInt8.ofNat (64 * tag + v / 256 ^ k) >>> 6).toNat = tag := by
    have harith : ∀ low < 64, (64 * tag + low) % 256 / 64 = tag := by
      omega
    rw [UInt8.toNat_shiftRight, UInt8.toNat_ofNat', Nat.shiftRight_eq_div_pow]
    exact harith _ hlow
  have hlt : 2 ^ (8 * k + 6) * tag + v < 256 ^ (k + 1) := by
    have hle : 64 * 256 ^ k * tag ≤ 64 * 256 ^ k * 3 := Nat.mul_le_mul_left _ (by omega)
    rw [hpow] at hv ⊢
    omega
  have hlen : ¬ (UInt8.ofNat ((2 ^ (8 * k + 6) * tag + v) / 256 ^ k) ::
      (beBytes k (2 ^ (8 * k + 6) * tag + v) ++ rest)).length < k + 1 := by
    simp
  have htake : (UInt8.ofNat ((2 ^ (8 * k + 6) * tag + v) / 256 ^ k) ::
      (beBytes k (2 ^ (8 * k + 6) * tag + v) ++ rest)).take (k + 1) = beBytes (k + 1) (2 ^ (8 * k + 6) * tag + v) := by
    rw [take_succ_cons, take_left' (beBytes_length k _), beBytes_succ]
  have hmask : 8 * (k + 1) - 2 = 8 * k + 6 := by omega
  rw [beBytes_succ, cons_append, readQuicVarint]
  rw [hhead, hshift, ← hk, ← hhead, if_neg hlen, htake, ofBe_beBytes hlt, hmask,
    Nat.and_two_pow_sub_one_eq_mod, Nat.mul_add_mod, Nat.mod_eq_of_lt hv]

/-- **An integer is read back**, in front of anything. -/
theorem readQuicVarint_encode {value : Nat} {encoded : Bytes} (h : encodeQuicVarint value = .ok encoded)
    (rest : Bytes) : readQuicVarint (encoded ++ rest) = some (value, encoded.length) := by
  unfold encodeQuicVarint at h
  split at h
  · rename_i hv
    cases h
    have htagged : readQuicVarint (beBytes 1 (2 ^ 6 * 0 + value) ++ rest) = some (value, 1) :=
      readQuicVarint_tagged (by decide) rfl hv rest
    simpa [beBytes] using htagged
  split at h
  · rename_i hv
    cases h
    rw [show 0x4000 = 2 ^ (8 * 1 + 6) * 1 from rfl, ← Nat.two_pow_add_eq_or_of_lt hv, beBytes_length]
    exact readQuicVarint_tagged (by decide) rfl hv rest
  split at h
  · rename_i hv
    cases h
    rw [show 0x80000000 = 2 ^ (8 * 3 + 6) * 2 from rfl, ← Nat.two_pow_add_eq_or_of_lt hv, beBytes_length]
    exact readQuicVarint_tagged (by decide) rfl hv rest
  split at h
  · rename_i hv
    cases h
    rw [show 0xC000000000000000 = 2 ^ (8 * 7 + 6) * 3 from rfl, ← Nat.two_pow_add_eq_or_of_lt hv, beBytes_length]
    exact readQuicVarint_tagged (by decide) rfl hv rest
  · cases h

/-! ## Messages -/

/-- hysteria2.rs:608-634 -/
def parseHysteria2UdpMessage : Bytes → Except MessageError H2UdpMessage
  | a :: b :: c :: d :: e :: f :: fragmentId :: fragmentCount :: packet =>
    match readQuicVarint packet with
    | none => .error .missingAddressLength
    | some (addrLen, pos) =>
      if packet.length < pos + addrLen then .error .truncatedAddress
      else
        match String.fromUTF8? ⟨((packet.drop pos).take addrLen).toArray⟩ with
        | none => .error .utf8
        | some address =>
          .ok ⟨u32 a b c d, UInt16.ofNat (u16 e f), fragmentId, fragmentCount, address, packet.drop (pos + addrLen)⟩
  | _ => .error .tooShort

/-- hysteria2.rs:636-653 -/
def encodeHysteria2UdpMessage (m : H2UdpMessage) : Except MessageError Bytes :=
  match encodeQuicVarint (utf8 m.address).length with
  | .error e => .error e
  | .ok length =>
    .ok (be32 m.sessionId ++ (be16 m.packetId.toNat ++ ([m.fragmentId, m.fragmentCount] ++
      (length ++ (utf8 m.address ++ m.payload)))))

/-- **A message is read back.** -/
theorem parse_encode {m : H2UdpMessage} {packet : Bytes}
    (h : encodeHysteria2UdpMessage m = .ok packet) : parseHysteria2UdpMessage packet = .ok m := by
  unfold encodeHysteria2UdpMessage at h
  split at h
  · cases h
  rename_i length hlength
  cases h
  have hvarint := readQuicVarint_encode hlength (utf8 m.address ++ m.payload)
  have hlong : ¬ (length ++ (utf8 m.address ++ m.payload)).length < length.length + (utf8 m.address).length := by
    simp
  have hdrop : (length ++ (utf8 m.address ++ m.payload)).drop (length.length + (utf8 m.address).length) = m.payload := by
    rw [← append_assoc, ← length_append, drop_left]
  simp only [be32, be16, cons_append, nil_append, parseHysteria2UdpMessage, hvarint, if_neg hlong,
    drop_left, take_left, fromUTF8_utf8, hdrop, u32_be32, u16_be16 _ m.packetId.toNat_lt,
    UInt16.ofNat_toNat]

end Wrongsv.L1.Hysteria2
