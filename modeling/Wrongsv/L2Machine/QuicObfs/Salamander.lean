import Wrongsv.Core

/-!
# Salamander: obfuscated datagrams

A datagram is xored with a key that comes from the password and a random salt in front
of it (server/handler/quic_obfs.rs:505-565). The receiver takes what the
socket below gives it, one buffer at a time; a buffer can have several datagrams of
one size, which it splits and queues (:130-208).

The hash is any function to 32 bytes.

`deobfuscate_obfuscate`: the round trip. `split_eq`: what the loop over a buffer finds.
-/
namespace Wrongsv.L2.Salamander
open List

def salamanderSaltLen : Nat := 8
def salamanderKeyLen : Nat := 32
def quicObfsBufferSize : Nat := 2048

abbrev Hash := Bytes → Fin salamanderKeyLen → UInt8

/-- A salt of eight random bytes. -/
abbrev Salt := { salt : Bytes // salt.length = salamanderSaltLen }

/-- `key[idx % SALAMANDER_KEY_LEN]`, where the key is that of the password and the salt.
quic_obfs.rs:555-565 -/
def salamanderKey (hash : Hash) (password salt : Bytes) (idx : Nat) : UInt8 :=
  hash (password ++ salt) ⟨idx % salamanderKeyLen, Nat.mod_lt _ (by decide)⟩

/-- What is written to `out`.
quic_obfs.rs:505-513 -/
def salamanderObfuscate (hash : Hash) (password : Bytes) (salt : Salt) (input : Bytes) : Bytes :=
  salt.val ++ input.mapIdx fun idx byte => byte ^^^ salamanderKey hash password salt.val idx

/-- `out` is as long as `input`.
quic_obfs.rs:539-553 -/
def salamanderDeobfuscate (hash : Hash) (password input : Bytes) : Option Bytes :=
  if input.length ≤ salamanderSaltLen then none
  else
    let salt := input.take salamanderSaltLen
    some ((input.drop salamanderSaltLen).mapIdx fun idx byte => byte ^^^ salamanderKey hash password salt idx)

/-! ## Receiving -/

/-- A buffer that the socket below has filled; `len` is the length of the data. -/
structure InnerRecv where
  data : Bytes
  stride : Nat
  addr : String
  fits : data.length ≤ quicObfsBufferSize

/-- A datagram that waits for its caller, or that the caller gets. -/
structure Packet where
  data : Bytes
  addr : String
  deriving DecidableEq, Repr

/-- The loop over a buffer: `metaStride` is how long a packet is, `stride` how far the
offset moves. -/
def splitGo (decode : Bytes → Option Bytes) (buf : Bytes) (metaStride stride : Nat) :
    Nat → Nat → List Bytes
  | 0, _ => []
  | fuel + 1, offset =>
    if buf.length ≤ offset then []
    else
      let packetLen := min (max metaStride 1) (buf.length - offset)
      let packet := (buf.drop offset).take packetLen
      (decode packet).toList ++
        splitGo decode buf metaStride stride fuel (offset + min stride (buf.length - offset))

def split (hash : Hash) (password : Bytes) (recv : InnerRecv) : List Packet :=
  let stride := max recv.stride recv.data.length
  (splitGo (salamanderDeobfuscate hash password) recv.data recv.stride stride recv.data.length 0).map
    fun decoded => ⟨decoded, recv.addr⟩

/-- The caller gets as much as its buffer can take. -/
def Packet.copy (room : Nat) (packet : Packet) : Packet :=
  { packet with data := packet.data.take room }

/-- One call: what the caller gets, what waits, and what the socket below still has. -/
def pollRecv (hash : Hash) (password : Bytes) (room : Nat) :
    List InnerRecv → List Packet → Option Packet × List Packet × List InnerRecv
  | inner, packet :: pending => (some (packet.copy room), pending, inner)
  | [], [] => (none, [], [])
  | recv :: inner, [] => pollRecv hash password room inner (split hash password recv)

/-- Successive calls, until one has to wait. -/
def polls (hash : Hash) (password : Bytes) (room : Nat) :
    Nat → List InnerRecv → List Packet → List Packet
  | 0, _, _ => []
  | calls + 1, inner, pending =>
    match pollRecv hash password room inner pending with
    | (none, _, _) => []
    | (some packet, pending, inner) => packet :: polls hash password room calls inner pending

/-! ## What the functions do -/

section
variable (hash : Hash) (password : Bytes)

theorem length_obfuscate (salt : Salt) (input : Bytes) :
    (salamanderObfuscate hash password salt input).length = salamanderSaltLen + input.length := by
  rw [salamanderObfuscate, length_append, length_mapIdx, salt.property]

/-- **Round trip.** -/
theorem deobfuscate_obfuscate (salt : Salt) {input : Bytes} (hinput : input ≠ []) :
    salamanderDeobfuscate hash password (salamanderObfuscate hash password salt input) = some input := by
  have hpos := length_pos_of_ne_nil hinput
  have hlong : ¬ (salamanderObfuscate hash password salt input).length ≤ salamanderSaltLen := by
    rw [length_obfuscate]
    omega
  have htake : (salamanderObfuscate hash password salt input).take salamanderSaltLen = salt.val :=
    take_left' salt.property
  have hdrop : (salamanderObfuscate hash password salt input).drop salamanderSaltLen =
      input.mapIdx fun idx byte => byte ^^^ salamanderKey hash password salt.val idx :=
    drop_left' salt.property
  rw [salamanderDeobfuscate, if_neg hlong]
  simp only [htake, hdrop]
  rw [mapIdx_xor_twice]

/-- **The loop over a buffer** stops after one packet: the offset moves by the length of
the whole buffer. -/
theorem split_eq (recv : InnerRecv) (hdata : recv.data ≠ []) :
    split hash password recv = ((salamanderDeobfuscate hash password
      (recv.data.take (max recv.stride 1))).toList.map fun decoded => ⟨decoded, recv.addr⟩) := by
  have hpos := length_pos_of_ne_nil hdata
  have hend : ∀ fuel, splitGo (salamanderDeobfuscate hash password) recv.data recv.stride
      (max recv.stride recv.data.length) fuel recv.data.length = [] := by
    intro fuel
    cases fuel with
    | zero => rfl
    | succ fuel => rw [splitGo, if_pos (Nat.le_refl _)]
  have hgo : ∀ fuel, 1 ≤ fuel → splitGo (salamanderDeobfuscate hash password) recv.data recv.stride
      (max recv.stride recv.data.length) fuel 0 =
      (salamanderDeobfuscate hash password (recv.data.take (max recv.stride 1))).toList := by
    intro fuel hfuel
    obtain ⟨fuel, rfl⟩ : ∃ k, fuel = k + 1 := ⟨fuel - 1, by omega⟩
    have htake : recv.data.take (min (max recv.stride 1) recv.data.length) = recv.data.take (max recv.stride 1) :=
      List.take_eq_take_iff.mpr (by omega)
    rw [splitGo, if_neg (by omega)]
    simp only [Nat.sub_zero, Nat.zero_add, drop_zero, Nat.min_eq_right (Nat.le_max_right _ _), hend,
      append_nil, htake]
  rw [split, hgo _ hpos]

end

end Wrongsv.L2.Salamander
