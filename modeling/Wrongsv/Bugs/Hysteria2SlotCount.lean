import Wrongsv.L2Machine.Hysteria2.Udp

/-!
# Hysteria2: packet ids that are used again

An assembly is not removed when its packet is complete: `take_payload` empties its slots
and leaves them (server/handler/hysteria2.rs:453-460,594-603). The next packet with the
same ids gets these slots. If it has more fragments, one of them has no slot, and the
error ends the loop for all sessions; if it has fewer, it is not forwarded.

`arrive` says what should happen: the packet goes out with its last fragment, and ids may
be used again when the earlier packet is complete.

Fix: remove the assembly when it is complete.
-/
namespace Wrongsv.Bugs.Hysteria2SlotCount
open L1.VlessHeader L1.Hysteria2 L2.UdpSockets L2.Hysteria2 List

/-! ## Packets and their fragments -/

/-- A packet that a client sends in fragments. -/
structure Packet where
  sessionId : UInt32
  packetId : UInt16
  address : String
  chunks : List Bytes
  some_chunk : 1 ≤ chunks.length
  few_chunks : chunks.length ≤ 255
  short_address : (utf8 address).length < 1 <<< 62
  deriving DecidableEq

namespace Packet

def key (p : Packet) : PacketKey := (p.sessionId, p.packetId)

def Fragmented (p : Packet) : Prop := 2 ≤ p.chunks.length

instance (p : Packet) : Decidable p.Fragmented := inferInstanceAs (Decidable (_ ≤ _))

def forward (p : Packet) : Forward := ⟨p.sessionId, p.address, p.chunks.flatten⟩

def fragment (p : Packet) (i : Fin p.chunks.length) : H2UdpMessage :=
  ⟨p.sessionId, p.packetId, UInt8.ofNat i, UInt8.ofNat p.chunks.length, p.address, p.chunks.get i⟩

end Packet

/-- A fragment that reaches the loop; nothing goes wrong outside. -/
structure Arrival where
  env : Outside String
  willing : env.Willing
  packet : Packet
  index : Fin packet.chunks.length

namespace Arrival

def message (a : Arrival) : H2UdpMessage := a.packet.fragment a.index

/-- What the loop is given. -/
def input (a : Arrival) : Outside String × Bytes :=
  (a.env, match encodeHysteria2UdpMessage a.message with
    | .ok packet => packet
    | .error _ => [])

end Arrival

/-- What should happen to the fragments of a packet: what has arrived of the packets
that are not complete. -/
abbrev Pending := Table PacketKey (Packet × List Nat)

/-- The packet that a fragment completes, and what is pending then; `none` if the
fragment came before, or if another packet with these ids is not complete. -/
def arrive (pending : Pending) (p : Packet) (i : Nat) : Option (Option Packet × Pending) :=
  if ¬ p.Fragmented then some (some p, pending)
  else
    match pending p.key with
    | none => some (none, pending.insert p.key (p, [i]))
    | some (q, got) =>
      if q ≠ p ∨ i ∈ got then none
      else if got.length + 1 = p.chunks.length then some (some p, pending.remove p.key)
      else some (none, pending.insert p.key (p, i :: got))

/-- What should be sent for each fragment, and what is pending in the end. -/
def expected : Pending → List Arrival → Option (List (Option Forward) × Pending)
  | pending, [] => some ([], pending)
  | pending, a :: arrivals =>
    match arrive pending a.packet a.index with
    | none => none
    | some (done, pending) =>
      (expected pending arrivals).map fun (outs, pending) => (done.map Packet.forward :: outs, pending)

/-- All packets arrive completely, and ids are used again when that is so. -/
def Whole (arrivals : List Arrival) (outs : List (Option Forward)) : Prop :=
  ∃ pending, expected .empty arrivals = some (outs, pending) ∧ ∀ k, pending k = none

/-- Packets in several fragments with the same ids have the same number of them. -/
def SameCounts (arrivals : List Arrival) : Prop :=
  ∀ a ∈ arrivals, ∀ b ∈ arrivals, a.packet.Fragmented → b.packet.Fragmented → a.packet.key = b.packet.key →
    a.packet.chunks.length = b.packet.chunks.length

theorem expected_cons {pending final : Pending} {a : Arrival} {arrivals : List Arrival}
    {outs : List (Option Forward)} (h : expected pending (a :: arrivals) = some (outs, final)) :
    ∃ done pending' outs', arrive pending a.packet a.index = some (done, pending') ∧
      expected pending' arrivals = some (outs', final) ∧ outs = done.map Packet.forward :: outs' := by
  unfold expected at h
  split at h
  · cases h
  rename_i done pending' harrive
  cases hrest : expected pending' arrivals with
  | none => rw [hrest] at h; cases h
  | some rest => grind

/-- What has arrived of a packet whose next fragment comes now. -/
def Got (pending : Pending) (p : Packet) (got : List Nat) : Prop :=
  (pending p.key = none ∧ got = []) ∨ pending p.key = some (p, got)

variable {pending pending' : Pending} {s : Hysteria2Udp} {p : Packet} {got : List Nat}
  {done : Option Packet}

theorem Got.unique {got' : List Nat} (h : Got pending p got) (h' : Got pending p got') :
    got = got' := by
  rcases h with ⟨hnone, rfl⟩ | hsome <;> rcases h' with ⟨hnone', rfl⟩ | hsome'
  all_goals simp_all

/-- **What should happen to a fragment** of a fragmented packet. -/
theorem arrive_cases {i : Nat} (hp : p.Fragmented) (h : arrive pending p i = some (done, pending')) :
    ∃ got, Got pending p got ∧ i ∉ got ∧ (∀ k, k ≠ p.key → pending' k = pending k) ∧
      ((got.length + 1 = p.chunks.length ∧ done = some p ∧ pending' p.key = none) ∨
        (got.length + 1 ≠ p.chunks.length ∧ done = none ∧ pending' p.key = some (p, i :: got))) := by
  unfold arrive at h
  rw [if_neg (not_not_intro hp)] at h
  split at h
  · rename_i hnone
    cases h
    have hlen : 2 ≤ p.chunks.length := hp
    refine ⟨[], .inl ⟨hnone, rfl⟩, not_mem_nil, fun k hk => Table.insert_of_ne _ hk _, .inr ⟨?_, rfl, ?_⟩⟩
    · simp
      omega
    · exact Table.insert_self ..
  · rename_i q got hsome
    split at h
    · cases h
    obtain ⟨rfl, hi⟩ : q = p ∧ i ∉ got := by
      simp_all
    split at h
    · rename_i hlast
      cases h
      exact ⟨got, .inr hsome, hi, fun k hk => Table.remove_of_ne _ hk, .inl ⟨hlast, rfl, Table.remove_self ..⟩⟩
    · rename_i hmore
      cases h
      exact ⟨got, .inr hsome, hi, fun k hk => Table.insert_of_ne _ hk _, .inr ⟨hmore, rfl, Table.insert_self ..⟩⟩

theorem arrive_single {i : Nat} (hp : ¬ p.Fragmented)
    (h : arrive pending p i = some (done, pending')) : done = some p ∧ pending' = pending := by
  grind [arrive]

/-! ## What the loop does with a fragment -/

theorem datagram_input (a : Arrival) (s : Hysteria2Udp) :
    s.datagram a.input = s.message a.env a.message := by
  obtain ⟨length, hlength⟩ : ∃ length, encodeQuicVarint (utf8 a.message.address).length = .ok length :=
    encodeQuicVarint_ok a.packet.short_address
  obtain ⟨packet, hpacket⟩ : ∃ packet, encodeHysteria2UdpMessage a.message = .ok packet := by
    unfold encodeHysteria2UdpMessage
    rw [hlength]
    exact ⟨_, rfl⟩
  simp only [Hysteria2Udp.datagram, Arrival.input, hpacket, parse_encode hpacket]

section
variable {i : Fin p.chunks.length} {env : Outside String}

theorem fragmentId_toNat (p : Packet) (i : Fin p.chunks.length) :
    (p.fragment i).fragmentId.toNat = i :=
  toNat_ofNat_of_le (Nat.le_trans (Nat.le_of_lt i.isLt) p.few_chunks)

theorem fragmentCount_toNat (p : Packet) (i : Fin p.chunks.length) :
    (p.fragment i).fragmentCount.toNat = p.chunks.length := toNat_ofNat_of_le p.few_chunks

theorem fragmentCount_le_one_iff (p : Packet) (i : Fin p.chunks.length) :
    (p.fragment i).fragmentCount ≤ 1 ↔ ¬ p.Fragmented := by
  rw [UInt8.le_iff_toNat_le, fragmentCount_toNat, Packet.Fragmented]
  show p.chunks.length ≤ 1 ↔ _
  omega

/-- The slots that a fragment finds, or that are made for it. -/
def begun (s : Hysteria2Udp) (p : Packet) : Slots UInt8 :=
  ((s.assemblies p.key).getD (.new (UInt8.ofNat p.chunks.length))).fragments

/-- The slots with the fragment in it. -/
def filled (s : Hysteria2Udp) (p : Packet) (i : Fin p.chunks.length) : Slots UInt8 :=
  (begun s p).set i (some (p.chunks.get i))

/-- **One fragment**, as the loop handles it. -/
theorem message_cases (hp : p.Fragmented) (i : Fin p.chunks.length) (env : Outside String) (s : Hysteria2Udp) :
    ((begun s p).length ≤ i ∧ ∃ e, (s.message env (p.fragment i)).1 = .error e) ∨
    (i < (begun s p).length ∧ (filled s p i).full = false ∧ s.message env (p.fragment i) =
      (.ok none, { s with assemblies := s.assemblies.insert p.key ⟨filled s p i⟩ })) ∨
    (i < (begun s p).length ∧ (filled s p i).full = true ∧ s.message env (p.fragment i) =
      ((forward env (p.fragment i) (filled s p i).join s.sessions).1,
        ⟨(forward env (p.fragment i) (filled s p i).join s.sessions).2,
          s.assemblies.insert p.key ⟨Slots.new (begun s p).length⟩⟩)) := by
  have hcount : ¬ (p.fragment i).fragmentCount ≤ 1 := fun h => (fragmentCount_le_one_iff p i).mp h hp
  have hcases := assemble_cases (p.fragment i) s.assemblies rfl
  rw [fragmentId_toNat] at hcases
  unfold Hysteria2Udp.message
  rw [if_neg hcount]
  rcases hcases with ⟨hbad, heq⟩ | ⟨hlt, hfull, heq⟩ | ⟨hlt, hfull, heq⟩
  · exact .inl ⟨hbad, .fragmentId, by rw [heq]⟩
  · exact .inr (.inl ⟨hlt, hfull, by rw [heq]; rfl⟩)
  · exact .inr (.inr ⟨hlt, hfull, by rw [heq]; rfl⟩)

theorem forward_ne_none (env : Outside String) (m : H2UdpMessage) (payload : Bytes)
    (sessions : Table UInt32 Hysteria2UdpSession) : (forward env m payload sessions).1 ≠ .ok none := by
  unfold L2.Hysteria2.forward
  grind

theorem forward_willing (hwilling : env.Willing) (m : H2UdpMessage) (payload : Bytes)
    {sessions : Table UInt32 Hysteria2UdpSession} (h : ∀ k session, sessions k = some session → session.ipv6 = true) :
    (forward env m payload sessions).1 = .ok (some ⟨m.sessionId, m.address, payload⟩) ∧
      ∀ k session, (forward env m payload sessions).2 k = some session → session.ipv6 = true := by
  obtain ⟨session, hsession, hipv6⟩ : ∃ session : Hysteria2UdpSession,
      (sessions m.sessionId).or (env.bind.map Hysteria2UdpSession.mk) = some session ∧ session.ipv6 = true := by
    cases hs : sessions m.sessionId with
    | none => exact ⟨⟨true⟩, by rw [hwilling.bind]; rfl, rfl⟩
    | some session => exact ⟨session, rfl, h _ _ hs⟩
  unfold L2.Hysteria2.forward
  simp only [hsession, hipv6, sendPayload_willing hwilling]
  grind [Table.insert_self, Table.insert_of_ne]

end

/-! ## Packets that find their own number of slots -/

/-- The table of the loop when it has done what it should. -/
structure Sim (pending : Pending) (s : Hysteria2Udp) : Prop where
  ipv6 : ∀ k session, s.sessions k = some session → session.ipv6 = true
  idle : ∀ k a, pending k = none → s.assemblies k = some a → a.fragments = Slots.new a.fragments.length
  busy : ∀ k p got, pending k = some (p, got) →
    p.key = k ∧ ∃ a, s.assemblies k = some a ∧ Slots.Arrived p.chunks got a.fragments

theorem sim_empty : Sim .empty ⟨.empty, .empty⟩ :=
  ⟨fun _ _ h => (nomatch h), fun _ _ _ h => (nomatch h), fun _ _ _ h => (nomatch h)⟩

def slotsAt (s : Hysteria2Udp) (k : PacketKey) : Option Nat :=
  (s.assemblies k).map (·.fragments.length)

/-- The slots with the ids of a packet are as many as it has fragments. -/
def FitsAt (s : Hysteria2Udp) (p : Packet) : Prop :=
  ∀ n, slotsAt s p.key = some n → p.chunks.length = n

theorem slotsAt_insert {s' : Hysteria2Udp} {a : Hysteria2UdpAssembly}
    (htable : s'.assemblies = s.assemblies.insert p.key a) (hlen : a.fragments.length = p.chunks.length) (k : PacketKey) :
    slotsAt s' k = if k = p.key then some p.chunks.length else slotsAt s k := by
  unfold slotsAt
  rw [htable]
  grind [Table.insert_self, Table.insert_of_ne]

section
variable (h : Sim pending s)
include h

theorem Sim.arrived_begun (hgot : Got pending p got) (hfit : FitsAt s p) :
    Slots.Arrived p.chunks got (begun s p) := by
  unfold begun
  rcases hgot with ⟨hnone, rfl⟩ | hsome
  · cases ha : s.assemblies p.key with
    | none =>
      have hlen : (UInt8.ofNat p.chunks.length).toNat = p.chunks.length := toNat_ofNat_of_le p.few_chunks
      show Slots.Arrived p.chunks [] (Slots.new (UInt8.ofNat p.chunks.length).toNat)
      rw [hlen]
      exact Slots.arrived_new p.chunks
    | some a =>
      have hlen := hfit a.fragments.length (by rw [slotsAt, ha]; rfl)
      show Slots.Arrived p.chunks [] a.fragments
      rw [h.idle _ _ hnone ha, ← hlen]
      exact Slots.arrived_new p.chunks
  · obtain ⟨-, a, ha, harrived⟩ := h.busy _ p got hsome
    rw [ha]
    exact harrived

/-- The slots of a packet of which some fragments have arrived are its own. -/
theorem Sim.fits_of_busy (hbusy : pending p.key = some (p, got)) : FitsAt s p := by
  obtain ⟨-, a, ha, harrived⟩ := h.busy _ p got hbusy
  intro n hn
  rw [slotsAt, ha] at hn
  cases hn
  exact harrived.part.length.symm

theorem Sim.update {s' : Hysteria2Udp} {a : Hysteria2UdpAssembly}
    (hipv6 : ∀ k session, s'.sessions k = some session → session.ipv6 = true)
    (htable : s'.assemblies = s.assemblies.insert p.key a) (hother : ∀ k, k ≠ p.key → pending' k = pending k)
    (hself : (pending' p.key = none ∧ a.fragments = Slots.new a.fragments.length) ∨
      ∃ got, pending' p.key = some (p, got) ∧ Slots.Arrived p.chunks got a.fragments) : Sim pending' s' := by
  refine ⟨hipv6, fun k b hk hb => ?_, fun k q got hk => ?_⟩
  · rw [htable] at hb
    by_cases hkey : k = p.key
    · rw [hkey, Table.insert_self] at hb
      cases hb
      rcases hself with ⟨-, hnew⟩ | ⟨got, hsome, -⟩
      · exact hnew
      · rw [hkey, hsome] at hk
        cases hk
    · rw [Table.insert_of_ne _ hkey] at hb
      rw [hother k hkey] at hk
      exact h.idle k b hk hb
  · rw [htable]
    by_cases hkey : k = p.key
    · simp_all
    · rw [hother k hkey] at hk
      obtain ⟨hq, b, hb, harrived⟩ := h.busy k q got hk
      exact ⟨hq, b, by rw [Table.insert_of_ne _ hkey, hb], harrived⟩

theorem Sim.message_fragment {env : Outside String} (hwilling : env.Willing) (hp : p.Fragmented)
    (hfit : FitsAt s p) {i : Fin p.chunks.length} (harrive : arrive pending p i = some (done, pending')) :
    ∃ s', s.message env (p.fragment i) = (.ok (done.map Packet.forward), s') ∧ Sim pending' s' ∧
      ∀ k, slotsAt s' k = if k = p.key then some p.chunks.length else slotsAt s k := by
  obtain ⟨got, hgot, hi, hother, hcases⟩ := arrive_cases hp harrive
  have hbegun := h.arrived_begun hgot hfit
  have hlen : (begun s p).length = p.chunks.length := hbegun.part.length
  have hfilled : Slots.Arrived p.chunks (i.val :: got) (filled s p i) :=
    hbegun.set (List.getElem?_eq_getElem i.isLt) hi
  rcases message_cases hp i env s with ⟨hbad, -⟩ | ⟨-, hnot, heq⟩ | ⟨-, hfull, heq⟩
  · rw [hlen] at hbad
    omega
  · rcases hcases with ⟨hlast, -⟩ | ⟨-, rfl, hpending⟩
    · rw [hfilled.full_iff.mpr hlast] at hnot
      cases hnot
    · exact ⟨_, heq, h.update h.ipv6 rfl hother (.inr ⟨_, hpending, hfilled⟩), slotsAt_insert rfl hfilled.part.length⟩
  · rcases hcases with ⟨hlast, rfl, hpending⟩ | ⟨hmore, -⟩
    · obtain ⟨hsent, hipv6⟩ := forward_willing hwilling (p.fragment i) (filled s p i).join h.ipv6
      rw [hfilled.part.join hfull] at hsent heq hipv6
      rw [hsent] at heq
      refine ⟨_, heq, h.update hipv6 rfl hother (.inl ⟨hpending, ?_⟩), slotsAt_insert rfl ?_⟩
      · simp
      · rw [Slots.new_length, hlen]
    · exact absurd (hfilled.full_iff.mp hfull) hmore

theorem Sim.message_whole {env : Outside String} (hwilling : env.Willing) (hp : ¬ p.Fragmented)
    (i : Fin p.chunks.length) : ∃ s', s.message env (p.fragment i) = (.ok (some p.forward), s') ∧
    Sim pending s' ∧ ∀ k, slotsAt s' k = slotsAt s k := by
  have hone : p.chunks.length = 1 := by
    have hsome := p.some_chunk
    unfold Packet.Fragmented at hp
    omega
  have hpayload : (p.fragment i).payload = p.chunks.flatten :=
    Slots.flatten_of_length_one hone (List.getElem?_eq_getElem i.isLt)
  obtain ⟨hsent, hipv6⟩ := forward_willing hwilling (p.fragment i) p.chunks.flatten h.ipv6
  unfold Hysteria2Udp.message
  rw [if_pos ((fragmentCount_le_one_iff p i).mpr hp), hpayload]
  exact ⟨_, Prod.ext hsent rfl, ⟨hipv6, h.idle, h.busy⟩, fun _ => rfl⟩

/-- **The step**, when the slots fit. -/
theorem Sim.message (a : Arrival) (hfit : a.packet.Fragmented → FitsAt s a.packet)
    (harrive : arrive pending a.packet a.index = some (done, pending')) :
    ∃ s', s.message a.env a.message = (.ok (done.map Packet.forward), s') ∧ Sim pending' s' ∧ ∀ k, slotsAt s' k =
        if a.packet.Fragmented ∧ k = a.packet.key then some a.packet.chunks.length else slotsAt s k := by
  by_cases hp : a.packet.Fragmented
  · obtain ⟨s', hmessage, hsim, hslots⟩ := h.message_fragment a.willing hp (hfit hp) harrive
    exact ⟨s', hmessage, hsim, fun k => by rw [hslots]; simp only [hp, true_and]⟩
  · obtain ⟨rfl, rfl⟩ := arrive_single hp harrive
    obtain ⟨s', hmessage, hsim, hslots⟩ := h.message_whole a.willing hp a.index
    exact ⟨s', hmessage, hsim, fun k => by rw [hslots, if_neg fun hand => hp hand.1]⟩

end

/-! ## Packets that find another number of slots -/

/-- A packet of which some fragments have arrived, in slots that are too many or too
few for it. -/
structure Misfit (pending : Pending) (s : Hysteria2Udp) (p : Packet) (got : List Nat) : Prop where
  got_eq : Got pending p got
  length_ne : (begun s p).length ≠ p.chunks.length
  nodup : got.Nodup
  bound : ∀ i ∈ got, i < (begun s p).length
  arrived : ∀ i, (begun s p).Filled i → i ∈ got

/-- **The step of a misfit.** The loop ends; or it sends too early or not at all; or
the packet is still a misfit. -/
theorem Misfit.message (h : Misfit pending s p got) (hp : p.Fragmented) (i : Fin p.chunks.length)
    (env : Outside String) (harrive : arrive pending p i = some (done, pending')) :
    (s.message env (p.fragment i)).1 ≠ .ok (done.map Packet.forward) ∨
      (done = none ∧ pending' p.key = some (p, i.val :: got) ∧
        Misfit pending' (s.message env (p.fragment i)).2 p (i.val :: got)) := by
  obtain ⟨got', hgot', hi, -, hcases⟩ := arrive_cases hp harrive
  obtain rfl : got' = got := hgot'.unique h.got_eq
  have hfill : ∀ j, (filled s p i).Filled j → i.val < (begun s p).length → j ∈ i.val :: got' := by
    intro j hj hlt
    rw [filled, Slots.filled_set hlt] at hj
    rcases hj with rfl | hj
    · exact mem_cons_self
    · exact mem_cons_of_mem _ (h.arrived j hj)
  have hnodup : (i.val :: got').Nodup := List.nodup_cons.mpr ⟨hi, h.nodup⟩
  rcases message_cases hp i env s with ⟨-, e, herror⟩ | ⟨hlt, -, heq⟩ | ⟨hlt, hfull, heq⟩
  · simp_all
  · rcases hcases with ⟨-, rfl, -⟩ | ⟨-, rfl, hpending⟩
    · simp_all
    · right
      have hbegun : begun (s.message env (p.fragment i)).2 p = filled s p i := by
        rw [heq]
        simp [begun]
      have hlen : (filled s p i).length = (begun s p).length := length_set
      refine ⟨rfl, hpending, .inr hpending, ?_, hnodup, fun j hj => ?_, fun j hj => ?_⟩
      · rw [hbegun, hlen]
        exact h.length_ne
      · rw [hbegun, hlen]
        rcases List.mem_cons.mp hj with rfl | hj
        · exact hlt
        · exact h.bound j hj
      · rw [hbegun] at hj
        exact hfill j hj hlt
  · rcases hcases with ⟨hlast, rfl, -⟩ | ⟨-, rfl, -⟩
    · -- all fragments have a slot, and there are more slots than fragments
      have hlen : (filled s p i).length = (begun s p).length := length_set
      have hle : (i.val :: got').length ≤ (begun s p).length := by
        refine Slots.length_le_of_nodup hnodup fun j hj => ?_
        rcases List.mem_cons.mp hj with rfl | hj
        · exact hlt
        · exact h.bound j hj
      have hge : (begun s p).length ≤ (i.val :: got').length := by
        refine Slots.le_length_of_mem fun j hj => hfill j ?_ hlt
        exact (Slots.full_iff _).mp hfull j (by rw [hlen]; exact hj)
      exact absurd (Nat.le_antisymm hge hle) (by rw [length_cons, hlast]; exact h.length_ne)
    all_goals grind [forward_ne_none]

variable {k : PacketKey}

theorem message_slots (m : H2UdpMessage) (env : Outside String) (s : Hysteria2Udp)
    (hk : k ≠ (m.sessionId, m.packetId)) : (s.message env m).2.assemblies k = s.assemblies k := by
  have hassemble : (assemble m s.assemblies).2 k = s.assemblies k := (assemble_local m).frame s.assemblies hk
  unfold Hysteria2Udp.message
  split
  · rfl
  · rcases hs : assemble m s.assemblies with ⟨e | _ | payload, t⟩ <;> rw [hs] at hassemble <;> exact hassemble

theorem Misfit.frame {s' : Hysteria2Udp} (h : Misfit pending s p got) (hpending : pending' p.key = pending p.key)
    (hslots : s'.assemblies p.key = s.assemblies p.key) : Misfit pending' s' p got := by
  have hbegun : begun s' p = begun s p := by rw [begun, begun, hslots]
  refine ⟨?_, ?_, h.nodup, ?_, ?_⟩
  · rw [Got, hpending]
    exact h.got_eq
  · rw [hbegun]
    exact h.length_ne
  · rw [hbegun]
    exact h.bound
  · rw [hbegun]
    exact h.arrived

variable (arrivals : List Arrival)

/-- **A misfit is never right.** A packet that has begun in slots that are not its own
is not forwarded as it should be. -/
theorem Misfit.loop_ne :
    ∀ {pending final : Pending} {s : Hysteria2Udp} {p : Packet} {got : List Nat} {outs : List (Option Forward)},
      Misfit pending s p got → p.Fragmented → pending p.key = some (p, got) →
      expected pending arrivals = some (outs, final) → final p.key = none →
      loop Hysteria2Udp.datagram s (arrivals.map Arrival.input) ≠ outs := by
  induction arrivals with
  | nil =>
    intro pending final s p got outs _ _ hsome hexpected hfinal
    cases hexpected
    rw [hsome] at hfinal
    cases hfinal
  | cons a arrivals ih =>
    intro pending final s p got outs h hp hsome hexpected hfinal hloop
    obtain ⟨done, pending', outs', harrive, hrest, rfl⟩ := expected_cons hexpected
    obtain ⟨s', hstep, htail⟩ := loop_cons_inv hloop
    rw [datagram_input] at hstep
    by_cases hsame : a.packet.Fragmented ∧ a.packet.key = p.key
    · -- the fragment is one of the misfit
      obtain ⟨hfrag, hkey⟩ := hsame
      obtain ⟨env, hwilling, q, i⟩ := a
      obtain ⟨got', hgot', -⟩ := arrive_cases hfrag harrive
      obtain rfl : q = p := by
        rcases hgot' with ⟨hnone, -⟩ | hq
        all_goals simp_all
      rcases h.message hfrag i env harrive with hne | ⟨rfl, hpending, hmisfit⟩
      · exact absurd (congrArg Prod.fst hstep) hne
      · have hs' : (s.message env (q.fragment i)).2 = s' := congrArg Prod.snd hstep
        grind
    · -- the slots and what is pending stay as they are
      have hs' : s' = (s.message a.env a.message).2 := by rw [hstep]
      obtain ⟨hpending, hslots⟩ : pending' p.key = pending p.key ∧ s'.assemblies p.key = s.assemblies p.key := by
        by_cases hfrag : a.packet.Fragmented
        · have hne : p.key ≠ a.packet.key := fun heq => hsame ⟨hfrag, heq.symm⟩
          obtain ⟨-, -, -, hother, -⟩ := arrive_cases hfrag harrive
          exact ⟨hother p.key hne, by rw [hs']; exact message_slots a.message a.env s hne⟩
        · refine ⟨by rw [(arrive_single hfrag harrive).2], ?_⟩
          rw [hs', Arrival.message, Hysteria2Udp.message, if_pos ((fragmentCount_le_one_iff _ _).mpr hfrag)]
      exact ih (h.frame hpending hslots) hp (by rw [hpending, hsome]) hrest hfinal htail

/-! ## The loop -/

/-- The slots of the table are those of the packets that arrive. -/
def Fits (s : Hysteria2Udp) (arrivals : List Arrival) : Prop :=
  ∀ a ∈ arrivals, a.packet.Fragmented → FitsAt s a.packet

theorem SameCounts.tail {a : Arrival} {arrivals : List Arrival} (h : SameCounts (a :: arrivals)) :
    SameCounts arrivals :=
  fun b hb c hc => h b (mem_cons_of_mem _ hb) c (mem_cons_of_mem _ hc)

section
variable {s s' : Hysteria2Udp} {a : Arrival} {arrivals : List Arrival}

theorem Fits.step (hsame : SameCounts (a :: arrivals)) (h : Fits s (a :: arrivals)) (hslots : ∀ k, slotsAt s' k =
      if a.packet.Fragmented ∧ k = a.packet.key then some a.packet.chunks.length else slotsAt s k) :
    Fits s' arrivals := by
  intro b hb hfrag n hn
  rw [hslots] at hn
  split at hn
  · rename_i hand
    cases hn
    exact hsame b (mem_cons_of_mem _ hb) a mem_cons_self hfrag hand.1 hand.2
  · exact h b (mem_cons_of_mem _ hb) hfrag n hn

theorem Fits.step_back (hfit : a.packet.Fragmented → FitsAt s a.packet)
    (hsame : SameCounts arrivals) (h : Fits s' arrivals)
    (hslots : ∀ k, slotsAt s' k =
      if a.packet.Fragmented ∧ k = a.packet.key then some a.packet.chunks.length else slotsAt s k) :
    SameCounts (a :: arrivals) ∧ Fits s (a :: arrivals) := by
  have hlike : ∀ b ∈ arrivals, a.packet.Fragmented → b.packet.Fragmented → b.packet.key = a.packet.key →
      b.packet.chunks.length = a.packet.chunks.length := by
    intro b hb ha hfrag hkey
    exact h b hb hfrag _ (by rw [hslots, if_pos ⟨ha, hkey⟩])
  constructor
  · intro b hb c hc hbf hcf hkey
    rcases List.mem_cons.mp hb with rfl | hb' <;> rcases List.mem_cons.mp hc with rfl | hc'
    · rfl
    · exact (hlike c hc' hbf hcf hkey.symm).symm
    · exact hlike b hb' hcf hbf hkey
    · exact hsame b hb' c hc' hbf hcf hkey
  · intro b hb hfrag n hn
    rcases List.mem_cons.mp hb with rfl | hb'
    · exact hfit hfrag n hn
    · by_cases hand : a.packet.Fragmented ∧ b.packet.key = a.packet.key
      · rw [hand.2] at hn
        rw [hlike b hb' hand.1 hfrag hand.2]
        exact hfit hand.1 n hn
      · exact h b hb' hfrag n (by rw [hslots, if_neg hand, hn])

end

theorem loop_eq_of_fits :
    ∀ {pending final : Pending} {s : Hysteria2Udp} {outs : List (Option Forward)}, Sim pending s →
      SameCounts arrivals → Fits s arrivals → expected pending arrivals = some (outs, final) →
      loop Hysteria2Udp.datagram s (arrivals.map Arrival.input) = outs := by
  induction arrivals with
  | nil =>
    intro pending final s outs _ _ _ hexpected
    cases hexpected
    rfl
  | cons a arrivals ih =>
    intro pending final s outs hsim hsame hfits hexpected
    obtain ⟨done, pending', outs', harrive, hrest, rfl⟩ := expected_cons hexpected
    obtain ⟨s', hstep, hsim', hslots⟩ := hsim.message a (hfits a mem_cons_self) harrive
    rw [← datagram_input] at hstep
    rw [map_cons, loop_cons_ok hstep, ih hsim' hsame.tail (hfits.step hsame hslots) hrest]

/-- The first fragment of a packet that finds another number of slots. -/
theorem Sim.misfit {pending : Pending} {s : Hysteria2Udp} {p : Packet} {got : List Nat} (h : Sim pending s)
    (hgot : Got pending p got) (hfit : ¬ FitsAt s p) : Misfit pending s p got := by
  have hnone : pending p.key = none ∧ got = [] :=
    hgot.resolve_right fun hbusy => hfit (h.fits_of_busy hbusy)
  obtain ⟨a, ha, hne⟩ : ∃ a, s.assemblies p.key = some a ∧ p.chunks.length ≠ a.fragments.length := by
    unfold FitsAt slotsAt at hfit
    simp_all
  have hbegun : begun s p = a.fragments := by
    rw [begun, ha]
    rfl
  obtain ⟨hnone, rfl⟩ := hnone
  refine ⟨hgot, ?_, nodup_nil, fun i hi => absurd hi not_mem_nil, fun i hi => ?_⟩
  · rw [hbegun]
    exact hne.symm
  · rw [hbegun, h.idle _ _ hnone ha] at hi
    exact absurd hi (Slots.not_filled_new _ _)

theorem fits_of_loop_eq :
    ∀ {pending final : Pending} {s : Hysteria2Udp} {outs : List (Option Forward)},
      Sim pending s → expected pending arrivals = some (outs, final) → (∀ k, final k = none) →
      loop Hysteria2Udp.datagram s (arrivals.map Arrival.input) = outs →
      SameCounts arrivals ∧ Fits s arrivals := by
  induction arrivals with
  | nil =>
    intro pending final s outs _ _ _ _
    exact ⟨fun a ha => absurd ha not_mem_nil, fun a ha => absurd ha not_mem_nil⟩
  | cons a arrivals ih =>
    intro pending final s outs hsim hexpected hfinal hloop
    obtain ⟨done, pending', outs', harrive, hrest, rfl⟩ := expected_cons hexpected
    obtain ⟨s', hstep, htail⟩ := loop_cons_inv hloop
    rw [datagram_input] at hstep
    have hfit : a.packet.Fragmented → FitsAt s a.packet := by
      intro hfrag
      by_contra hmisfit
      obtain ⟨got, hgot, -⟩ := arrive_cases hfrag harrive
      rcases (hsim.misfit hgot hmisfit).message hfrag a.index a.env harrive with hne | ⟨rfl, hpending, hstill⟩
      · exact hne (congrArg Prod.fst hstep)
      · have hs' : (s.message a.env (a.packet.fragment a.index)).2 = s' := congrArg Prod.snd hstep
        rw [hs'] at hstill
        exact hstill.loop_ne arrivals hfrag hpending hrest (hfinal _) htail
    obtain ⟨s'', hstep'', hsim', hslots⟩ := hsim.message a hfit harrive
    cases hstep.symm.trans hstep''
    obtain ⟨hsame, hfits⟩ := ih hsim' hrest hfinal htail
    exact hfits.step_back hfit hsame hslots

/-- **Reassembly across ids that are used again.** When all packets arrive completely
and ids are used again only after that, the loop forwards every packet once and goes
on, if and only if packets in several fragments that share their ids have the same
number of them. -/
theorem packets_forwarded_iff (arrivals : List Arrival) (outs : List (Option Forward)) (hwhole : Whole arrivals outs) :
    loop Hysteria2Udp.datagram ⟨.empty, .empty⟩ (arrivals.map Arrival.input) = outs ↔ SameCounts arrivals := by
  obtain ⟨final, hexpected, hfinal⟩ := hwhole
  constructor
  · intro hloop
    exact (fits_of_loop_eq arrivals sim_empty hexpected hfinal hloop).1
  · intro hsame
    exact loop_eq_of_fits arrivals sim_empty hsame (fun a _ _ n hn => nomatch hn) hexpected

/-- Everything works outside. -/
def outside : Outside String := ⟨some true, fun _ => some true, true⟩

def arrives (p : Packet) (i : Nat) (hi : i < p.chunks.length) : Arrival :=
  ⟨outside, ⟨rfl, fun _ => rfl, rfl⟩, p, ⟨i, hi⟩⟩

def two : Packet := ⟨1, 7, "a:1", [[1], [2]], by decide, by decide, by decide⟩

def otherTwo : Packet := ⟨1, 7, "b:2", [[3], [4]], by decide, by decide, by decide⟩

def three : Packet := ⟨1, 7, "c:3", [[5], [6], [7]], by decide, by decide, by decide⟩

def sameAgain : List Arrival :=
  [arrives two 1 (by decide), arrives two 0 (by decide), arrives otherTwo 0 (by decide),
    arrives otherTwo 1 (by decide)]

def moreAgain : List Arrival :=
  [arrives two 0 (by decide), arrives two 1 (by decide), arrives three 2 (by decide),
    arrives three 1 (by decide), arrives three 0 (by decide)]

def fewerAgain : List Arrival :=
  [arrives three 0 (by decide), arrives three 1 (by decide), arrives three 2 (by decide),
    arrives two 0 (by decide), arrives two 1 (by decide)]

theorem expected_frame (hk : ∀ a ∈ arrivals, k ≠ a.packet.key) :
    ∀ {pending final : Pending} {outs : List (Option Forward)},
      expected pending arrivals = some (outs, final) → final k = pending k := by
  induction arrivals with
  | nil =>
    intro pending final outs h
    cases h
    rfl
  | cons a arrivals ih =>
    intro pending final outs h
    obtain ⟨done, pending', outs', harrive, hrest, -⟩ := expected_cons h
    rw [ih (fun b hb => hk b (mem_cons_of_mem _ hb)) hrest]
    by_cases hfrag : a.packet.Fragmented
    · grind [arrive_cases]
    · rw [(arrive_single hfrag harrive).2]

theorem whole_of_key {arrivals : List Arrival} {outs : List (Option Forward)} {final : Pending}
    (hkey : ∀ a ∈ arrivals, a.packet.key = k) (hexpected : expected .empty arrivals = some (outs, final))
    (hnone : final k = none) : Whole arrivals outs := by
  refine ⟨final, hexpected, fun k' => ?_⟩
  by_cases hk : k' = k
  · rw [hk, hnone]
  · exact expected_frame arrivals (fun a ha => by rw [hkey a ha]; exact hk) hexpected

theorem sameAgain_forwarded : loop Hysteria2Udp.datagram ⟨.empty, .empty⟩
      (sameAgain.map Arrival.input) = [none, some two.forward, none, some otherTwo.forward] :=
  (packets_forwarded_iff sameAgain _ (whole_of_key (k := two.key) (by decide) rfl rfl)).mpr
    (by unfold SameCounts; decide)

/-- The packet `[5, 6, 7]` ends the loop with its first fragment; the packet `[1, 2]`
is never sent. -/
theorem other_counts_lost :
    (Whole moreAgain [none, some two.forward, none, none, some three.forward] ∧
      loop Hysteria2Udp.datagram ⟨.empty, .empty⟩ (moreAgain.map Arrival.input) = [none, some two.forward]) ∧
    Whole fewerAgain [none, none, some three.forward, none, some two.forward] ∧
      loop Hysteria2Udp.datagram ⟨.empty, .empty⟩ (fewerAgain.map Arrival.input) =
        [none, none, some three.forward, none, none] :=
  ⟨⟨whole_of_key (k := two.key) (by decide) rfl rfl, by decide⟩,
    whole_of_key (k := two.key) (by decide) rfl rfl, by decide⟩

end Wrongsv.Bugs.Hysteria2SlotCount
