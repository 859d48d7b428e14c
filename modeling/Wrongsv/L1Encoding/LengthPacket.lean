import Wrongsv.Core.Parser

/-!
# Length-prefixed packets

`vless-encoding/body.rs`: datagrams on a byte stream, each behind
its length in two bytes.

Results, beside `readPackets_rest`:
* `readPackets_writePackets`: packets of at most 65535 bytes are read back.
-/
namespace Wrongsv.L1.LengthPacket
open Wrongsv.Parser List

/-- `MAX_PACKET_SIZE` -/
def maxPacketSize : Nat := 65535

inductive PacketReadError where
  | io
  | tooLarge (len : Nat)
  deriving DecidableEq, Repr

/-- `len as u16` keeps the low 16 bits of the length, as `be16` does.
body.rs:47-52 -/
def writePacket (buf : Bytes) : Bytes := be16 buf.length ++ buf

/-- body.rs:75-85 -/
def readPacket : Parser PacketReadError Bytes := do
  let hi ← readU8 .io
  let lo ← readU8 .io
  if maxPacketSize < u16 hi lo then throw (.tooLarge (u16 hi lo))
  else
    let payload ← readExact .io (u16 hi lo)
    return payload.val

def writePackets (ps : List Bytes) : Bytes := ps.flatMap writePacket

/-- `read_packet` until it fails. -/
def readPackets (b : Bytes) : List Bytes := many readPacket b

theorem takes_readPacket : Takes 2 readPacket := by
  refine takes_bind (k := 1) (m := 1) (takes_readU8 _) fun hi => ?_
  refine takes_bind (k := 1) (m := 0) (takes_readU8 _) fun lo => ?_
  split
  · exact takes_throw _ _
  · exact (takes_bind (m := 0) (takes_readExact _ _) fun _ => takes_pure _).mono (Nat.zero_le _)

theorem readPacket_apply (n : Nat) (b : Bytes) : readPacket (be16 n ++ b) =
    (readExact PacketReadError.io (n % 65536) >>= fun p => pure p.val) b := by
  have hu : u16 (UInt8.ofNat (n / 256)) (UInt8.ofNat n) = n % 65536 := by
    unfold u16
    rw [UInt8.toNat_ofNat', UInt8.toNat_ofNat']
    omega
  have hmax : ¬ maxPacketSize < n % 65536 := by unfold maxPacketSize; omega
  refine ((reads_readU8 PacketReadError.io (UInt8.ofNat (n / 256))).bind_append _).trans ?_
  refine ((reads_readU8 PacketReadError.io (UInt8.ofNat n)).bind_append b).trans ?_
  rw [hu, if_neg hmax]

theorem reads_readPacket {p : Bytes} (h : p.length ≤ maxPacketSize) :
    Reads readPacket (writePacket p) p := by
  intro t
  have hn : p.length = p.length % 65536 := by unfold maxPacketSize at h; omega
  unfold writePacket
  rw [append_assoc, readPacket_apply]
  exact (reads_readExact PacketReadError.io ⟨p, hn⟩).bind_append t

theorem readPacket_ok {b p r : Bytes} (h : readPacket b = .ok (p, r)) :
    b = writePacket p ++ r ∧ p.length ≤ maxPacketSize := by
  match b with
  | [] => cases h
  | [_] => cases h
  | hi :: lo :: b =>
    have hlt := u16_lt hi lo
    have hb : hi :: lo :: b = be16 (u16 hi lo) ++ b := by rw [be16_u16]; rfl
    rw [hb, readPacket_apply, bind_apply] at h
    cases hr : readExact PacketReadError.io (u16 hi lo % 65536) b with
    | error e => rw [hr] at h; cases h
    | ok q =>
      rw [hr] at h
      cases h
      have hlen : q.1.val.length = u16 hi lo := q.1.property.trans (Nat.mod_eq_of_lt hlt)
      refine ⟨?_, by rw [hlen]; unfold maxPacketSize; omega⟩
      unfold writePacket
      rw [hb, hlen, append_assoc, ← readExact_ok hr]

theorem takes_readPacket_one : Takes 1 readPacket := takes_readPacket.mono (by decide)

theorem readPackets_writePackets {ps : List Bytes} (h : ∀ p ∈ ps, p.length ≤ maxPacketSize)
    (t : Bytes) : readPackets (writePackets ps ++ t) = ps ++ readPackets t :=
  many_flatMap takes_readPacket_one writePacket t ps fun p hp => reads_readPacket (h p hp)

theorem readPackets_nil : readPackets [] = [] := rfl

theorem readPackets_rest_of_le (n : Nat) : ∀ (b : Bytes), b.length ≤ n →
    (∀ p ∈ readPackets b, p.length ≤ maxPacketSize) ∧ ∃ rest, b = writePackets (readPackets b) ++ rest := by
  induction n with
  | zero =>
    intro b h
    obtain rfl := eq_nil_of_length_eq_zero (Nat.le_zero.mp h)
    exact ⟨(fun p hp => nomatch hp), [], rfl⟩
  | succ n ih =>
    intro b h
    have heq : readPackets b = _ := many_eq takes_readPacket_one b
    cases hp : readPacket b with
    | error e =>
      rw [hp] at heq
      rw [heq]
      exact ⟨(fun p hp => nomatch hp), b, rfl⟩
    | ok q =>
      rw [hp] at heq
      obtain ⟨hb, hmax⟩ := readPacket_ok hp
      have hlen := takes_readPacket.length hp
      obtain ⟨hall, rest, hrest⟩ := ih q.2 (by omega)
      rw [heq]
      refine ⟨?_, rest, ?_⟩
      · intro p hmem
        rcases List.mem_cons.mp hmem with rfl | hmem
        · exact hmax
        · exact hall p hmem
      · unfold writePackets
        rw [flatMap_cons, append_assoc]
        exact hb.trans (congrArg (writePacket q.1 ++ ·) hrest)

/-- **A stream of packets and a rest.** What the loop reads is a first part of
its input. -/
theorem readPackets_rest (b : Bytes) : (∀ p ∈ readPackets b, p.length ≤ maxPacketSize) ∧
    ∃ rest, b = writePackets (readPackets b) ++ rest :=
  readPackets_rest_of_le b.length b (Nat.le_refl _)

end Wrongsv.L1.LengthPacket
