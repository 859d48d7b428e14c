import Wrongsv.Core.Aead
import Wrongsv.L2Machine.Kcp.Config

/-!
# mKCP packet masks

`KcpPacketMask::wrap` of `handler/kcp.rs` disguises a packet before it is sent.
The original mask puts a checksum and the length in front and mixes every byte
with the one four before it; with a seed the packet is sealed with AES-128-GCM
under a random nonce, which travels in front. `unwrap` undoes either.

`overhead` is what the session subtracts from the MTU; `added` is what `wrap`
adds.

Both directions of the original mask pad the packet to whole words and cut the
padding off again. The mixing never looks ahead (`xorfwd_take`, `xorbkd_take`), so
the padding decides nothing, and `unwrap_original_iff` says that `unwrap` accepts
exactly the packets that `wrap` makes.
-/
namespace Wrongsv.L2.Kcp
open List

def fnv1a32 (data : Bytes) : UInt32 :=
  data.foldl (fun hash byte => (hash ^^^ byte.toUInt32) * 0x01000193) 0x811c9dc5

/-- Every byte with the one four before it, which has been mixed already; `a` to
`d` are the last four. -/
def xorfwd.go (a b c d : UInt8) : Bytes → Bytes
  | [] => []
  | x :: rest => (x ^^^ a) :: go b c d (x ^^^ a) rest

def xorfwd : Bytes → Bytes
  | a :: b :: c :: d :: rest => a :: b :: c :: d :: xorfwd.go a b c d rest
  | data => data

/-- Every byte with the one four before it, as it was; `a` to `d` are the last
four. The source goes backwards through the buffer, so that it meets them unmixed. -/
def xorbkd.go (a b c d : UInt8) : Bytes → Bytes
  | [] => []
  | x :: rest => (x ^^^ a) :: go b c d x rest

def xorbkd : Bytes → Bytes
  | a :: b :: c :: d :: rest => a :: b :: c :: d :: xorbkd.go a b c d rest
  | data => data

/-- The twelve random bytes of a sealed packet. -/
structure PacketNonce where
  bytes : Bytes
  length_eq : bytes.length = 12

/-- kcp.rs:115-150; sealing fails only on
packets far beyond the size of a datagram -/
def KcpPacketMask.wrap (aes128Gcm : Aead) (nonce : PacketNonce) (plaintext : Bytes) :
    KcpPacketMask → Bytes
  | .original =>
    let body := be16 plaintext.length ++ plaintext
    let packet := be32 (fnv1a32 body) ++ body
    let padded := packet ++ List.replicate ((4 - packet.length % 4) % 4) 0
    (xorfwd padded).take (mkcpOriginalOverhead + plaintext.length)
  | .aes128Gcm key => nonce.bytes ++ aes128Gcm.encrypt key nonce.bytes [] plaintext

/-- kcp.rs:152-195 -/
def KcpPacketMask.unwrap (aes128Gcm : Aead) (packet : Bytes) : KcpPacketMask → Option Bytes
  | .original =>
    if packet.length < mkcpOriginalOverhead then none
    else
      let data := xorbkd (packet ++ List.replicate ((4 - packet.length % 4) % 4) 0)
      let auth := u32 (data.getD 0 0) (data.getD 1 0) (data.getD 2 0) (data.getD 3 0)
      if fnv1a32 ((data.take packet.length).drop 4) ≠ auth then none
      else
        let length := u16At data 4
        if packet.length - mkcpOriginalOverhead ≠ length then none
        else some ((data.drop 6).take length)
  | .aes128Gcm key =>
    if packet.length < 12 + 16 then none
    else aes128Gcm.decrypt key (packet.take 12) [] (packet.drop 12)

/-- The bytes `wrap` adds. -/
def KcpPacketMask.added : KcpPacketMask → Nat
  | .original => 6
  | .aes128Gcm _ => 28

theorem parseKcpConfig_packetMask {sha256 : Bytes → Bytes} {kc : KcpServerConfig} {config : KcpConfig}
    (h : parseKcpConfig sha256 kc = .ok config) : config.packetMask = packetMaskOf sha256 kc.seed := by
  grind [parseKcpConfig]

section
variable (data : Bytes)

theorem xorfwd_go_length : ∀ a b c d, (xorfwd.go a b c d data).length = data.length := by
  induction data with
  | nil => intro a b c d; rfl
  | cons x data ih => intro a b c d; rw [xorfwd.go, length_cons, ih, length_cons]

theorem xorfwd_length : (xorfwd data).length = data.length := by
  unfold xorfwd
  split
  · simp only [length_cons, xorfwd_go_length]
  · rfl

theorem wrap_length (aes128Gcm : Aead) (nonce : PacketNonce) (plaintext : Bytes) (mask : KcpPacketMask) :
    (mask.wrap aes128Gcm nonce plaintext).length = plaintext.length + mask.added := by
  cases mask with
  | original =>
    simp only [KcpPacketMask.wrap, length_take, xorfwd_length, length_append, be16_length,
      mkcpOriginalOverhead, KcpPacketMask.added]
    grind [be32]
  | aes128Gcm key =>
    simp only [KcpPacketMask.wrap, length_append, nonce.length_eq, aes128Gcm.encrypt_length,
      aeadTagLen, KcpPacketMask.added]
    omega

/-! ## Undoing the original mask -/

theorem xorfwd_go_take : ∀ a b c d n, (xorfwd.go a b c d data).take n = xorfwd.go a b c d (data.take n) := by
  induction data with
  | nil => intro a b c d n; simp [xorfwd.go]
  | cons x data ih =>
    intro a b c d n
    cases n with
    | zero => rfl
    | succ n => rw [xorfwd.go, take_succ_cons, ih, take_succ_cons, xorfwd.go]

/-- The first `n` mixed bytes come from the first `n` bytes. -/
theorem xorfwd_take (n : Nat) : (xorfwd data).take n = xorfwd (data.take n) := by
  match data, n with
  | a :: b :: c :: d :: rest, 0 | a :: b :: c :: d :: rest, 1 | a :: b :: c :: d :: rest, 2
  | a :: b :: c :: d :: rest, 3 => rfl
  | a :: b :: c :: d :: rest, n + 4 => simp only [xorfwd, take_succ_cons, xorfwd_go_take]
  | [], n | [a], n | [a, b], n | [a, b, c], n =>
    rcases n with _ | _ | _ | n <;> simp [xorfwd]

theorem xorbkd_go_xorfwd_go : ∀ a b c d, xorbkd.go a b c d (xorfwd.go a b c d data) = data := by
  induction data with
  | nil => intro a b c d; rfl
  | cons x data ih => grind [xorfwd.go, xorbkd.go, UInt8.xor_assoc, UInt8.xor_self, UInt8.xor_zero]

theorem xorfwd_go_xorbkd_go : ∀ a b c d, xorfwd.go a b c d (xorbkd.go a b c d data) = data := by
  induction data with
  | nil => intro a b c d; rfl
  | cons x data ih => grind [xorbkd.go, xorfwd.go, UInt8.xor_assoc, UInt8.xor_self, UInt8.xor_zero]

theorem xorbkd_xorfwd : xorbkd (xorfwd data) = data := by
  match data with
  | [] | [a] | [a, b] | [a, b, c] => rfl
  | a :: b :: c :: d :: rest => simp only [xorfwd, xorbkd, xorbkd_go_xorfwd_go]

theorem xorfwd_xorbkd : xorfwd (xorbkd data) = data := by
  match data with
  | [] | [a] | [a, b] | [a, b, c] => rfl
  | a :: b :: c :: d :: rest => simp only [xorfwd, xorbkd, xorfwd_go_xorbkd_go]

/-- It undoes `xorfwd`, which never looks ahead. -/
theorem xorbkd_take (n : Nat) : (xorbkd data).take n = xorbkd (data.take n) := by
  rw [← xorbkd_xorfwd ((xorbkd data).take n), ← xorfwd_take, xorfwd_xorbkd]

theorem xorbkd_length : (xorbkd data).length = data.length := by
  rw [← xorfwd_length, xorfwd_xorbkd]

end

/-- What the original mask mixes: the checksum, the length and the plaintext. -/
def originalPacket (plaintext : Bytes) : Bytes :=
  be32 (fnv1a32 (be16 plaintext.length ++ plaintext)) ++ (be16 plaintext.length ++ plaintext)

theorem originalPacket_length (plaintext : Bytes) :
    (originalPacket plaintext).length = 6 + plaintext.length := by
  have h : (be32 (fnv1a32 (be16 plaintext.length ++ plaintext))).length = 4 := rfl
  grind [originalPacket, be16_length]

variable (aes128Gcm : Aead)

theorem wrap_original (nonce : PacketNonce) (plaintext : Bytes) :
    KcpPacketMask.original.wrap aes128Gcm nonce plaintext = xorfwd (originalPacket plaintext) := by
  have hlen := originalPacket_length plaintext
  simp only [KcpPacketMask.wrap, mkcpOriginalOverhead, xorfwd_take]
  rw [← hlen]
  exact congrArg xorfwd take_left

/-- `unwrap` in terms of the unmixed packet, without its padding. -/
theorem unwrap_original {packet rest : Bytes} {a b c d hi lo : UInt8}
    (h : xorbkd packet = a :: b :: c :: d :: hi :: lo :: rest) :
    KcpPacketMask.original.unwrap aes128Gcm packet = if fnv1a32 (hi :: lo :: rest) ≠ u32 a b c d then none
      else if rest.length ≠ u16 hi lo then none
      else some rest := by
  have hlen : packet.length = rest.length + 6 := by
    rw [← xorbkd_length, h]
    rfl
  have hlong : ¬ packet.length < mkcpOriginalOverhead := by
    rw [mkcpOriginalOverhead]
    omega
  have hsub : packet.length - 6 = rest.length := by omega
  rw [KcpPacketMask.unwrap, if_neg hlong]
  simp only [mkcpOriginalOverhead]
  generalize hdata : xorbkd (packet ++ List.replicate ((4 - packet.length % 4) % 4) 0) = data
  have htake : data.take packet.length = a :: b :: c :: d :: hi :: lo :: rest := by
    rw [← hdata, xorbkd_take, take_left, h]
  have hsplit : data = a :: b :: c :: d :: hi :: lo :: (rest ++ data.drop packet.length) := by
    conv_lhs => rw [← take_append_drop packet.length data, htake]
    rfl
  rw [htake]
  generalize data.drop packet.length = padding at hsplit
  subst hsplit
  show (if fnv1a32 (hi :: lo :: rest) ≠ u32 a b c d then none
    else if packet.length - 6 ≠ u16 hi lo then none
    else some ((rest ++ padding).take (u16 hi lo))) = _
  rw [hsub]
  split
  · rfl
  split
  · rfl
  rename_i hlo
  rw [← not_not.mp hlo, take_left]

/-- **`unwrap` accepts exactly what `wrap` makes**, from plaintexts whose length
fits the two bytes for it. -/
theorem unwrap_original_iff (nonce : PacketNonce) (packet plaintext : Bytes) :
    KcpPacketMask.original.unwrap aes128Gcm packet = some plaintext ↔ plaintext.length ≤ 65535 ∧
      KcpPacketMask.original.wrap aes128Gcm nonce plaintext = packet := by
  rw [wrap_original]
  constructor
  · intro h
    match hunmixed : xorbkd packet with
    | a :: b :: c :: d :: hi :: lo :: rest =>
      rw [unwrap_original aes128Gcm hunmixed] at h
      split at h
      · cases h
      rename_i hauth
      split at h
      · cases h
      rename_i hlength
      have hlen : rest.length = u16 hi lo := not_not.mp hlength
      have hsum : fnv1a32 (hi :: lo :: rest) = u32 a b c d := not_not.mp hauth
      have hpacket : originalPacket rest = xorbkd packet := by
        rw [originalPacket, hlen, be16_u16, cons_append, cons_append, nil_append, hsum, be32_u32,
          hunmixed]
        rfl
      grind [xorfwd_xorbkd, u16_lt]
    | [] | [_] | [_, _] | [_, _, _] | [_, _, _, _] | [_, _, _, _, _] =>
      -- fewer than six bytes
      grind [mkcpOriginalOverhead, xorbkd_length, KcpPacketMask.unwrap]
  · rintro ⟨hlen, rfl⟩
    refine (unwrap_original aes128Gcm (xorbkd_xorfwd (originalPacket plaintext))).trans ?_
    have hauth := (u32_be32 (fnv1a32 (be16 plaintext.length ++ plaintext))).symm
    have hlength := (u16_be16 plaintext.length (by omega)).symm
    exact (if_neg (not_not.mpr hauth)).trans (if_neg (not_not.mpr hlength))

/-- **The original mask is a bijection** between the plaintexts whose length fits
two bytes and the packets that `unwrap` accepts; the packet is six bytes longer. -/
theorem original_mask_exact (aes128Gcm : Aead) (nonce : PacketNonce) :
    (∀ d : Bytes, d.length ≤ 65535 →
      KcpPacketMask.original.unwrap aes128Gcm (KcpPacketMask.original.wrap aes128Gcm nonce d) =
        some d ∧ (KcpPacketMask.original.wrap aes128Gcm nonce d).length = d.length + 6) ∧
      ∀ p d : Bytes, KcpPacketMask.original.unwrap aes128Gcm p = some d →
        KcpPacketMask.original.wrap aes128Gcm nonce d = p := by
  refine ⟨fun d hd => ⟨?_, wrap_length aes128Gcm nonce d .original⟩, fun p d h => ?_⟩
  · exact (unwrap_original_iff aes128Gcm nonce _ d).mpr ⟨hd, rfl⟩
  · exact ((unwrap_original_iff aes128Gcm nonce p d).mp h).2

end Wrongsv.L2.Kcp
