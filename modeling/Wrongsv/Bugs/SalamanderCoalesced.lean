import Wrongsv.L2Machine.QuicObfs.Salamander

/-!
# Salamander: only the first of several datagrams

When the kernel hands over several datagrams in one buffer, `stride` is the size of each and
`len` that of all of them. The loop takes packets of `recv_meta[0].stride` bytes, but moves
on by `recv_meta[0].stride.max(raw_len)`, never less than the whole buffer
(server/handler/quic_obfs.rs:167-188), so the others are lost.

Fix: advance by `packet_len`.
-/
namespace Wrongsv.Bugs.SalamanderCoalesced
open L2.Salamander List

/-- A datagram and the salt that it is sent with. -/
structure Segment where
  salt : Salt
  datagram : Bytes
  nonempty : datagram ≠ []

section
variable (hash : Hash) (password : Bytes)

def Segment.bytes (s : Segment) : Bytes := salamanderObfuscate hash password s.salt s.datagram

/-- All have one size on the wire, except that the last one may be shorter. -/
def Coalesced (size : Nat) : List Segment → Prop
  | [] => True
  | [s] => (s.bytes hash password).length ≤ size
  | s :: segments => (s.bytes hash password).length = size ∧ Coalesced size segments

instance (size : Nat) (segments : List Segment) : Decidable (Coalesced hash password size segments) := by
  induction segments with
  | nil => exact .isTrue trivial
  | cons s segments ih =>
    cases segments with
    | nil => exact inferInstanceAs (Decidable (_ ≤ _))
    | cons t segments => exact inferInstanceAs (Decidable (_ ∧ _))

/-- What the socket below gives for a buffer with all of them. -/
def together (size : Nat) (addr : String) (segments : List Segment)
    (hfits : (segments.flatMap (Segment.bytes hash password)).length ≤ quicObfsBufferSize) : InnerRecv :=
  ⟨segments.flatMap (Segment.bytes hash password), size, addr, hfits⟩

variable {hash password} {size : Nat} {addr : String} {s : Segment} {segments : List Segment}

theorem take_first (h : Coalesced hash password size (s :: segments)) :
    ((s :: segments).flatMap (Segment.bytes hash password)).take (max size 1) = s.bytes hash password := by
  have hlen : 1 ≤ (s.bytes hash password).length := by
    rw [Segment.bytes, length_obfuscate]
    unfold salamanderSaltLen
    omega
  cases segments with
  | nil =>
    have hle : (s.bytes hash password).length ≤ size := h
    simp only [flatMap_cons, flatMap_nil, append_nil]
    exact take_of_length_le (by omega)
  | cons t segments =>
    obtain ⟨hsize, -⟩ := h
    exact take_left' (by omega)

theorem split_together (h : Coalesced hash password size (s :: segments))
    (hfits : ((s :: segments).flatMap (Segment.bytes hash password)).length ≤ quicObfsBufferSize) :
    split hash password (together hash password size addr (s :: segments) hfits) = [⟨s.datagram, addr⟩] := by
  have hne : (s :: segments).flatMap (Segment.bytes hash password) ≠ [] := by
    intro hnil
    have htake := take_first h
    rw [hnil, take_nil] at htake
    have hlen := length_obfuscate hash password s.salt s.datagram
    rw [show salamanderObfuscate hash password s.salt s.datagram = [] from htake.symm] at hlen
    unfold salamanderSaltLen at hlen
    simp at hlen
    omega
  rw [split_eq hash password _ hne]
  simp only [together, take_first h]
  rw [Segment.bytes, deobfuscate_obfuscate hash password s.salt s.nonempty]
  rfl

theorem polls_end (room calls : Nat) : polls hash password room calls [] [] = [] := by
  cases calls with
  | zero => rfl
  | succ calls => rw [polls, pollRecv]

/-- **Only the first datagram is delivered.** -/
theorem polls_together {room calls : Nat} (h : Coalesced hash password size segments)
    (hfits : (segments.flatMap (Segment.bytes hash password)).length ≤ quicObfsBufferSize)
    (hroom : ∀ s ∈ segments, s.datagram.length ≤ room) (hcalls : segments.length ≤ calls) :
    polls hash password room calls [together hash password size addr segments hfits] [] =
      (segments.take 1).map fun s => ⟨s.datagram, addr⟩ := by
  cases segments with
  | nil =>
    cases calls with
    | zero => rfl
    | succ calls => exact @polls_end hash password room (calls + 1)
  | cons s segments =>
    obtain ⟨calls, rfl⟩ : ∃ k, calls = k + 1 := ⟨calls - 1, by rw [length_cons] at hcalls; omega⟩
    rw [polls, pollRecv, split_together h hfits, pollRecv]
    simp only [polls_end, Packet.copy, take_of_length_le (hroom s mem_cons_self)]
    rfl

end

/-- **Several datagrams in one buffer are delivered if and only if there is at most
one.** -/
theorem coalesced_delivered_iff (hash : Hash) (password : Bytes) (size : Nat) (addr : String)
    (segments : List Segment) (room calls : Nat) (h : Coalesced hash password size segments)
    (hfits : (segments.flatMap (Segment.bytes hash password)).length ≤ quicObfsBufferSize)
    (hroom : ∀ s ∈ segments, s.datagram.length ≤ room) (hcalls : segments.length ≤ calls) :
    polls hash password room calls [together hash password size addr segments hfits] [] =
      segments.map (fun s => ⟨s.datagram, addr⟩) ↔ segments.length ≤ 1 := by
  rw [polls_together h hfits hroom hcalls]
  constructor
  · intro heq
    have hlen := congrArg List.length heq
    rw [length_map, length_map, length_take] at hlen
    omega
  · intro hle
    rw [take_of_length_le hle]

def constant : Hash := fun _ _ => 0x5a

def salt : Salt := ⟨[1, 2, 3, 4, 5, 6, 7, 8], rfl⟩

theorem one_delivered :
    polls constant [0x70] 1500 1 [together constant [0x70] 10 "a" [⟨salt, [1, 2], by decide⟩] (by decide)] [] =
      [⟨[1, 2], "a"⟩] :=
  (coalesced_delivered_iff constant [0x70] 10 "a" [⟨salt, [1, 2], by decide⟩] 1500 1 (by decide) (by decide) (by decide)
    (by decide)).mpr (by decide)

/-- Of two datagrams only the first one is delivered, in as many calls as one likes. -/
theorem second_lost : Coalesced constant [0x70] 10
      [⟨salt, [1, 2], by decide⟩, ⟨salt, [3, 4], by decide⟩] ∧ polls constant [0x70] 1500 5
        [together constant [0x70] 10 "a" [⟨salt, [1, 2], by decide⟩, ⟨salt, [3, 4], by decide⟩] (by decide)] [] =
          [⟨[1, 2], "a"⟩] := by
  decide

end Wrongsv.Bugs.SalamanderCoalesced
