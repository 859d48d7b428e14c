import Wrongsv.L2Machine.Tuic.Udp

/-!
# TUIC: fragments of an earlier packet

The assembly of a packet is found by the ids of the association and the packet
(server/handler/tuic.rs:696-701), and it goes only when it is complete. `Dissociate` leaves
the assemblies (:606-614). If a fragment was lost, or came twice, an assembly stays behind;
the fragments of the next packet with the same ids fall into it, and the payloads of both
are sent, to the address of the first.

Fix: drop the assemblies of an association with it, and those that are too old.
-/
namespace Wrongsv.Bugs.TuicStaleAssembly
open L1.VlessHeader L1.Tuic L2.UdpSockets L2.Tuic List

/-! ## Packets and their fragments -/

/-- A packet that a client sends in fragments. -/
@[ext] structure SentPacket where
  assocId : UInt16
  packetId : UInt16
  address : TuicAddress
  chunks : List Bytes
  some_chunk : 1 ≤ chunks.length
  few_chunks : chunks.length ≤ 255

instance : DecidableEq SentPacket := fun _ _ => decidable_of_iff _ SentPacket.ext_iff.symm

namespace SentPacket

def key (p : SentPacket) : PacketKey := (p.assocId, p.packetId)

def Fragmented (p : SentPacket) : Prop := 2 ≤ p.chunks.length

instance (p : SentPacket) : Decidable p.Fragmented := inferInstanceAs (Decidable (_ ≤ _))

def forward (p : SentPacket) : Forward := ⟨p.assocId, p.address, p.chunks.flatten⟩

/-- Only the first fragment has the address. -/
def fragment (p : SentPacket) (i : Fin p.chunks.length) : TuicPacket where
  assocId := p.assocId
  packetId := p.packetId
  fragTotal := UInt8.ofNat p.chunks.length
  fragmentIndex := UInt8.ofNat i
  address := if i.val = 0 then some p.address else none
  payload := p.chunks.get i

end SentPacket

/-- A fragment that is handled; the sockets of a new association can be bound. -/
structure Arrival where
  mode : TuicPacketRelayMode
  env : Outside TuicAddress
  binds : env.bind.isSome = true
  packet : SentPacket
  index : Fin packet.chunks.length

inductive Event where
  | arrival (a : Arrival)
  | dissociate (assocId : UInt16)

/-- What is sent, and the tables after the event. -/
def step (s : TuicUdp) : Event → Option Forward × TuicUdp
  | .arrival a =>
    match handleTuicPacket a.env a.mode (a.packet.fragment a.index) s with
    | (.ok sent, s) => (sent, s)
    | (.error _, s) => (none, s)
  | .dissociate assocId => (none, s.dissociate assocId)

def run (s : TuicUdp) : List Event → List (Option Forward)
  | [] => []
  | e :: events => (step s e).1 :: run (step s e).2 events

/-- The tables that each event finds. -/
def found (s : TuicUdp) : List Event → List TuicUdp
  | [] => []
  | e :: events => s :: found (step s e).2 events

/-! ## Runs in which packets do not meet -/

/-- The fragments of fragmented packets that have arrived, the latest first. -/
abbrev Past := List (SentPacket × Nat)

def Arrival.past (a : Arrival) (past : Past) : Past :=
  if a.packet.Fragmented then (a.packet, a.index.val) :: past else past

/-- The other packets with the ids of this one have arrived, each fragment once. -/
def Turn (past : Past) (q : SentPacket) : Prop :=
  ∀ p i, p ≠ q → p.key = q.key → (p, i) ∈ past → ∀ j < p.chunks.length, past.count (p, j) = 1

def Sequential (past : Past) : List Event → Prop
  | [] => True
  | .dissociate _ :: events => Sequential past events
  | .arrival a :: events => (a.packet.Fragmented → Turn past a.packet) ∧ Sequential (a.past past) events

/-- The packet that the latest fragment with these ids belongs to. -/
def latest : Past → PacketKey → Option SentPacket
  | [], _ => none
  | (p, _) :: past, k => if p.key = k then some p else latest past k

theorem latest_cons_self (p : SentPacket) (i : Nat) (past : Past) :
    latest ((p, i) :: past) p.key = some p := if_pos rfl

variable {p : SentPacket} {k : PacketKey}

theorem latest_cons_of_ne (h : p.key ≠ k) (i : Nat) (past : Past) :
    latest ((p, i) :: past) k = latest past k := if_neg h

theorem key_of_latest {past : Past} (h : latest past k = some p) : p.key = k := by
  induction past with
  | nil => cases h
  | cons e past ih => grind [latest]

theorem mem_of_latest {past : Past} (h : latest past k = some p) :
    ∃ i, (p, i) ∈ past := by
  induction past with
  | nil => cases h
  | cons e past ih => grind [latest]

/-! ## The invariant -/

/-- What an assembly has is of this packet. -/
structure Of (p : SentPacket) (a : TuicPacketAssembly) : Prop where
  part : Slots.PartOf p.chunks a.fragments
  address : a.address = none ∨ a.address = some p.address

/-- If no fragment of the packet came twice, its assembly has exactly those that
came, and is gone when all have. -/
structure Exact (past : Past) (p : SentPacket) (assembly : Option TuicPacketAssembly) : Prop where
  gone : assembly = none ↔ ∀ i < p.chunks.length, (p, i) ∈ past
  filled : ∀ a, assembly = some a → ∀ i < p.chunks.length, a.fragments.Filled i ↔ (p, i) ∈ past

structure Inv (past : Past) (s : Table PacketKey TuicPacketAssembly) : Prop where
  fresh : ∀ k, latest past k = none → s k = none
  of : ∀ k p, latest past k = some p → ∀ a, s k = some a → Of p a
  exact : ∀ k p, latest past k = some p → (∀ i < p.chunks.length, past.count (p, i) ≤ 1) → Exact past p (s k)
  whole : ∀ p i, (p, i) ∈ past → latest past p.key ≠ some p → ∀ j < p.chunks.length, (p, j) ∈ past

theorem inv_empty : Inv [] .empty :=
  ⟨fun _ _ => rfl, fun _ _ h => (nomatch h), fun _ _ h => (nomatch h), fun _ _ h => (nomatch h)⟩

theorem Of.new (q : SentPacket) : Of q (.new (UInt8.ofNat q.chunks.length)) := by
  have hlen : (UInt8.ofNat q.chunks.length).toNat = q.chunks.length := toNat_ofNat_of_le q.few_chunks
  refine ⟨?_, .inl rfl⟩
  rw [TuicPacketAssembly.new, hlen]
  exact Slots.part_new q.chunks

theorem Of.insert {q : SentPacket} {a : TuicPacketAssembly} (h : Of q a) (j : Fin q.chunks.length) :
    Of q ⟨a.fragments.set j (some (q.fragment j).payload), a.address.or (q.fragment j).address⟩ := by
  refine ⟨h.part.set (List.getElem?_eq_getElem j.isLt), ?_⟩
  have hsent : (q.fragment j).address = none ∨ (q.fragment j).address = some q.address := by
    unfold SentPacket.fragment
    grind
  rcases h.address with ha | ha
  · simpa [ha] using hsent
  · simp [ha]

section
variable {past : Past} {s : Table PacketKey TuicPacketAssembly} {q : SentPacket} (h : Inv past s)
  (hturn : Turn past q)
include h hturn

/-- **Nothing of another packet is left** when a packet has its turn. -/
theorem Inv.none_of_turn (hother : latest past q.key ≠ some q) : s q.key = none := by
  cases hlatest : latest past q.key with
  | none => exact h.fresh _ hlatest
  | some p =>
    have hne : p ≠ q := fun heq => hother (heq ▸ hlatest)
    obtain ⟨i, hi⟩ := mem_of_latest hlatest
    have hcount := hturn p i hne (key_of_latest hlatest) hi
    refine (h.exact _ p hlatest fun j hj => Nat.le_of_eq (hcount j hj)).gone.mpr fun j hj => ?_
    grind

/-- The assembly that a fragment finds, or that is made for it. -/
def begun (s : Table PacketKey TuicPacketAssembly) (q : SentPacket) : TuicPacketAssembly :=
  (s q.key).getD (.new (UInt8.ofNat q.chunks.length))

theorem Inv.of_begun : Of q (begun s q) := by
  unfold begun
  cases ha : s q.key with
  | none => exact Of.new q
  | some a =>
    have hlatest : latest past q.key = some q := by
      by_contra hother
      rw [h.none_of_turn hturn hother] at ha
      cases ha
    exact h.of _ q hlatest a ha

/-- A fragment that comes for the first time finds those that came before. -/
theorem Inv.filled_begun {j : Nat} (hj : j < q.chunks.length)
    (hnew : (q, j) ∉ past) (hcount : ∀ i < q.chunks.length, past.count (q, i) ≤ 1) :
    ∀ i < q.chunks.length, (begun s q).fragments.Filled i ↔ (q, i) ∈ past := by
  intro i hi
  unfold begun
  by_cases hlatest : latest past q.key = some q
  · have hexact := h.exact _ q hlatest hcount
    cases ha : s q.key with
    | none => exact absurd (hexact.gone.mp ha j hj) hnew
    | some a => exact hexact.filled a ha i hi
  · rw [h.none_of_turn hturn hlatest]
    exact iff_of_false (Slots.not_filled_new _ i) fun hmem => hnew (h.whole q i hmem hlatest j hj)

/-- The table after a fragment of `q` that left `assembly` there. -/
theorem Inv.arrive (j : Nat) {s' : Table PacketKey TuicPacketAssembly}
    {assembly : Option TuicPacketAssembly} (hself : s' q.key = assembly) (hother : ∀ k, k ≠ q.key → s' k = s k)
    (hof : ∀ a, assembly = some a → Of q a)
    (hexact : (∀ i < q.chunks.length, ((q, j) :: past).count (q, i) ≤ 1) → Exact ((q, j) :: past) q assembly) :
    Inv ((q, j) :: past) s' := by
  have hlatest : ∀ k p, latest ((q, j) :: past) k = some p → k = q.key → p = q := by
    grind [latest_cons_self]
  refine ⟨fun k hk => ?_, fun k p hp a ha => ?_, fun k p hp hcount => ?_, fun p i hp hne => ?_⟩
  · by_cases hkey : q.key = k
    · rw [← hkey, latest_cons_self] at hk
      cases hk
    rw [latest_cons_of_ne hkey] at hk
    rw [hother k (Ne.symm hkey)]
    exact h.fresh k hk
  · by_cases hkey : q.key = k
    · grind
    · rw [latest_cons_of_ne hkey] at hp
      rw [hother k (Ne.symm hkey)] at ha
      exact h.of k p hp a ha
  · by_cases hkey : q.key = k
    · grind
    · rw [latest_cons_of_ne hkey] at hp
      rw [hother k (Ne.symm hkey)]
      have hpq : p ≠ q := fun heq => hkey (heq ▸ key_of_latest hp)
      have hold : ∀ i, (p, i) ∈ (q, j) :: past ↔ (p, i) ∈ past := by
        simp [hpq]
      have hcount' : ∀ i < p.chunks.length, past.count (p, i) ≤ 1 := fun i hi =>
        Nat.le_trans (count_le_count_cons ..) (hcount i hi)
      have hex := h.exact k p hp hcount'
      exact ⟨by simp only [hold]; exact hex.gone, by simp only [hold]; exact hex.filled⟩
  · have hpq : p ≠ q := fun heq => hne (by rw [heq]; exact latest_cons_self ..)
    have hmem : (p, i) ∈ past := by simpa [hpq] using hp
    intro j' hj'
    refine mem_cons_of_mem _ ?_
    by_cases hkey : q.key = p.key
    · exact List.count_pos_iff.mp (by rw [hturn p i hpq hkey.symm hmem j' hj']; exact Nat.one_pos)
    · rw [latest_cons_of_ne hkey] at hne
      exact h.whole p i hmem hne j' hj'

/-- **One fragment of a fragmented packet.** The assemblies stay apart, and what is
complete is the packet itself. -/
theorem Inv.assemble (j : Fin q.chunks.length) :
    Inv ((q, j.val) :: past) (assemble (q.fragment j) s).2 ∧
      ∀ address payload, (assemble (q.fragment j) s).1 = .ok (some (some address, payload)) →
        address = q.address ∧ payload = q.chunks.flatten := by
  have hbegun := h.of_begun hturn
  have hlen : (begun s q).fragments.length = q.chunks.length := hbegun.part.length
  have hindex : (q.fragment j).fragmentIndex.toNat = j :=
    toNat_ofNat_of_le (Nat.le_trans (Nat.le_of_lt j.isLt) q.few_chunks)
  have hof := hbegun.insert j
  -- the slots that are full afterwards, if no fragment came twice
  have hfilled : (∀ i < q.chunks.length, ((q, j.val) :: past).count (q, i) ≤ 1) →
      ∀ i < q.chunks.length, Slots.Filled ((begun s q).fragments.set j (some (q.fragment j).payload)) i ↔
        (q, i) ∈ (q, j.val) :: past := by
    intro hcount i hi
    have hnew : (q, j.val) ∉ past := by
      grind
    rw [Slots.filled_set (by rw [hlen]; exact j.isLt), h.filled_begun hturn j.isLt hnew
      (fun i hi => Nat.le_trans (count_le_count_cons ..) (hcount i hi)) i hi]
    simp
  rcases assemble_cases (q.fragment j) s (a := begun s q) rfl with
    ⟨hbad, -⟩ | ⟨filled, -, rfl, ⟨hnot, heq⟩ | ⟨hfull, heq⟩⟩
  · rw [hindex, hlen] at hbad
    omega
  · rw [hindex] at hnot heq
    rw [heq]
    refine ⟨h.arrive hturn j (Table.insert_self ..) (fun k hk => Table.insert_of_ne _ hk _)
      (fun a ha => Option.some.inj ha ▸ hof) (fun hcount => ⟨iff_of_false (fun hn => nomatch hn) fun hall => ?_,
        fun a ha => Option.some.inj ha ▸ hfilled hcount⟩), fun _ _ hok => nomatch hok⟩
    have hfull : Slots.full ((begun s q).fragments.set j (some (q.fragment j).payload)) = true := by
      rw [Slots.full_iff, length_set, hlen]
      simp_all
    rw [hnot] at hfull
    cases hfull
  · rw [hindex] at hfull heq
    rw [heq]
    refine ⟨h.arrive hturn j (Table.remove_self ..) (fun k hk => Table.remove_of_ne _ hk)
      (fun a ha => nomatch ha) (fun hcount =>
      ⟨iff_of_true rfl fun i hi => ?_, fun a ha => nomatch ha⟩), fun address payload hok => ?_⟩
    · refine (hfilled hcount i hi).mp ((Slots.full_iff _).mp hfull i ?_)
      rw [length_set, hlen]
      exact hi
    · simp only [Except.ok.injEq, Option.some.injEq, Prod.mk.injEq] at hok
      obtain ⟨haddress, hpayload⟩ := hok
      refine ⟨?_, by rw [← hpayload]; exact hof.part.join hfull⟩
      rcases hof.address with hnone | hsome
      all_goals grind

end

/-! ## Runs -/

section
variable {past : Past} {s : TuicUdp}

variable (p : SentPacket)

theorem fragTotal_toNat (i : Fin p.chunks.length) :
    (p.fragment i).fragTotal.toNat = p.chunks.length := toNat_ofNat_of_le p.few_chunks

theorem fragTotal_ne_zero (i : Fin p.chunks.length) : (p.fragment i).fragTotal ≠ 0 := by
  intro h
  have hzero : p.chunks.length = 0 := by
    rw [← fragTotal_toNat p i, h]
    rfl
  have hsome := p.some_chunk
  omega

theorem fragTotal_eq_one_iff (i : Fin p.chunks.length) :
    (p.fragment i).fragTotal = 1 ↔ ¬ p.Fragmented := by
  have hsome := p.some_chunk
  rw [← UInt8.toNat_inj, fragTotal_toNat, SentPacket.Fragmented]
  show p.chunks.length = 1 ↔ _
  omega

theorem relay_fragment (h : Inv past s.assemblies) (a : Arrival)
    (hturn : a.packet.Fragmented → Turn past a.packet) (session : TuicUdpSession) :
    Inv (a.past past) (relayTuicPacket a.env (a.packet.fragment a.index) session s.assemblies).2 ∧
      ∀ f, (relayTuicPacket a.env (a.packet.fragment a.index) session s.assemblies).1 = .ok (some f) →
        f = a.packet.forward := by
  obtain ⟨mode, env, binds, q, j⟩ := a
  simp only [Arrival.past] at *
  unfold relayTuicPacket
  rw [if_neg (fragTotal_ne_zero q j)]
  by_cases hfrag : q.Fragmented
  · obtain ⟨hinv, hcomplete⟩ := h.assemble (hturn hfrag) j
    rw [if_neg (mt (fragTotal_eq_one_iff q j).mp (not_not_intro hfrag)), if_pos hfrag]
    generalize assemble (q.fragment j) s.assemblies = result at hinv hcomplete
    obtain ⟨result, assemblies⟩ := result
    match result with
    | .error e => exact ⟨hinv, fun f hf => nomatch hf⟩
    | .ok none => exact ⟨hinv, fun f hf => nomatch hf⟩
    | .ok (some (none, payload)) => exact ⟨hinv, fun f hf => nomatch hf⟩
    | .ok (some (some address, payload)) =>
      refine ⟨hinv, fun f hf => ?_⟩
      obtain ⟨rfl, rfl⟩ := hcomplete address payload rfl
      exact sendPayloadToTarget_ok hf
  · rw [if_pos ((fragTotal_eq_one_iff q j).mpr hfrag), if_neg hfrag]
    -- the only fragment is the first one, and has the address
    have hone : q.chunks.length = 1 := by
      have hsome := q.some_chunk
      unfold SentPacket.Fragmented at hfrag
      omega
    have hj : j.val = 0 := by omega
    have haddress : (q.fragment j).address = some q.address := if_pos hj
    have hpayload : (q.fragment j).payload = q.chunks.flatten :=
      Slots.flatten_of_length_one hone (List.getElem?_eq_getElem j.isLt)
    rw [haddress]
    refine ⟨h, fun f hf => ?_⟩
    simp only [hpayload] at hf
    exact sendPayloadToTarget_ok hf

/-- **The step.** -/
theorem Inv.step_arrival (h : Inv past s.assemblies) (a : Arrival) (hturn : a.packet.Fragmented → Turn past a.packet) :
    Inv (a.past past) (step s (.arrival a)).2.assemblies ∧
      ∀ f, (step s (.arrival a)).1 = some f → f = a.packet.forward := by
  obtain ⟨session, hsession⟩ : ∃ session, s.session a.env (a.packet.fragment a.index).assocId = some session := by
    unfold TuicUdp.session
    split
    · exact ⟨_, rfl⟩
    · obtain ⟨ipv6, hipv6⟩ := Option.isSome_iff_exists.mp a.binds
      exact ⟨_, by rw [hipv6]; rfl⟩
  have hrelay := relay_fragment h a hturn (session.setMode a.mode)
  grind [step, handleTuicPacket]

end

/-- What an event sends is the packet whose fragment has arrived. -/
def Own (e : Event) (sent : Option Forward) : Prop :=
  ∀ f, sent = some f → ∃ a, e = .arrival a ∧ f = a.packet.forward

/-- The assembly that a fragment falls into has as many places as its packet has fragments. -/
def SameTotal (e : Event) (s : TuicUdp) : Prop :=
  ∀ a, e = .arrival a → a.packet.Fragmented → ∀ pending, s.assemblies a.packet.key = some pending →
    pending.fragments.length = (a.packet.fragment a.index).fragTotal.toNat

theorem Inv.sameTotal {past : Past} {s : TuicUdp} (h : Inv past s.assemblies) {a : Arrival}
    (hturn : a.packet.Fragmented → Turn past a.packet) : SameTotal (.arrival a) s := by
  intro a' ha hfrag pending hpending
  cases ha
  have hof : Of a.packet (begun s.assemblies a.packet) := h.of_begun (hturn hfrag)
  rw [begun, hpending] at hof
  rw [fragTotal_toNat]
  exact hof.part.length

/-- **Whole runs.** -/
theorem Inv.run (events : List Event) :
    ∀ {past : Past} {s : TuicUdp}, Inv past s.assemblies → Sequential past events →
      List.Forall₂ Own events (run s events) ∧ List.Forall₂ SameTotal events (found s events) := by
  induction events with
  | nil =>
    intro past s _ _
    exact ⟨.nil, .nil⟩
  | cons e events ih =>
    intro past s h hseq
    cases e with
    | dissociate assocId =>
      obtain ⟨hown, htotal⟩ := ih (s := (step s (.dissociate assocId)).2) h hseq
      exact ⟨.cons (fun f hf => nomatch hf) hown, .cons (fun a ha => nomatch ha) htotal⟩
    | arrival a =>
      obtain ⟨hturn, hrest⟩ := hseq
      obtain ⟨hinv, hsent⟩ := h.step_arrival a hturn
      obtain ⟨hown, htotal⟩ := ih hinv hrest
      exact ⟨.cons (fun f hf => ⟨a, rfl, hsent f hf⟩) hown, .cons (h.sameTotal hturn) htotal⟩

/-- **Packets stay apart.** In every run on a new connection in which each packet
has arrived, every fragment once, before another one with the same ids does:
whatever is sent while a fragment is handled is the packet of that fragment, and an
assembly that a fragment falls into was made for as many fragments. -/
theorem packets_stay_apart (events : List Event) (h : Sequential [] events) :
    List.Forall₂ Own events (run ⟨.empty, .empty⟩ events) ∧
      List.Forall₂ SameTotal events (found ⟨.empty, .empty⟩ events) :=
  inv_empty.run events h

/-! ## Two packets with the same ids -/

def willing : Outside TuicAddress := ⟨some true, fun _ => some true, true⟩

/-- `ol` for 127.0.0.1:80, in two fragments. -/
def earlier : SentPacket := ⟨1, 7, ⟨.loopback, 80⟩, [[111], [108]], by decide, by decide⟩

/-- `ne` for 127.0.0.2:81, in two fragments and with the same ids. -/
def later : SentPacket :=
  ⟨1, 7, ⟨.ipv4 ⟨[127, 0, 0, 2], rfl⟩, 81⟩, [[110], [101]], by decide, by decide⟩

/-- Fragment `i` of a packet of two, in a datagram. -/
def arrives (p : SentPacket) (i : Fin p.chunks.length) : Event :=
  .arrival ⟨.datagram, willing, rfl, p, i⟩

/-- The first packet arrives with its fragments in the other order; of the second
one a fragment comes twice and the other not at all. -/
def inTurn : List Event :=
  [arrives earlier ⟨1, by decide⟩, arrives earlier ⟨0, by decide⟩, arrives later ⟨0, by decide⟩,
    arrives later ⟨0, by decide⟩]

/-- A fragment of the first packet is lost, the association is dissociated, and the
second fragment of the new packet comes first. -/
def outOfTurn : List Event :=
  [arrives earlier ⟨0, by decide⟩, .dissociate 1, arrives later ⟨1, by decide⟩]

theorem turn_later {past : Past} (h : ∀ p i, (p, i) ∈ past → p = later ∨ p = earlier)
    (hcount : ∀ j < 2, past.count (earlier, j) = 1) : Turn past later := by
  intro p i hne _ hmem
  rcases h p i hmem with rfl | rfl
  · exact absurd rfl hne
  · exact hcount

theorem inTurn_sequential : Sequential [] inTurn := by
  refine ⟨fun _ p i _ _ hmem => ?_, fun _ p i hne _ hmem => ?_, fun _ => turn_later (fun p i hmem => ?_) (by decide),
    fun _ => turn_later (fun p i hmem => ?_) (by decide), trivial⟩
  · cases hmem
  · rcases List.mem_singleton.mp hmem with ⟨⟩
    exact absurd rfl hne
  · rcases List.mem_pair.mp hmem with ⟨⟨⟩⟩ | ⟨⟨⟩⟩ <;> exact .inr rfl
  · rcases List.mem_cons.mp hmem with ⟨⟨⟩⟩ | hmem
    · exact .inl rfl
    · rcases List.mem_pair.mp hmem with ⟨⟨⟩⟩ | ⟨⟨⟩⟩ <;> exact .inr rfl

theorem inTurn_apart : run ⟨.empty, .empty⟩ inTurn = [none, some earlier.forward, none, none] ∧
      List.Forall₂ Own inTurn (run ⟨.empty, .empty⟩ inTurn) ∧
      List.Forall₂ SameTotal inTurn (found ⟨.empty, .empty⟩ inTurn) :=
  ⟨by decide, packets_stay_apart inTurn inTurn_sequential⟩

/-- What is sent to 127.0.0.1:80 are the first byte of one packet and the last byte
of the other. -/
theorem outOfTurn_mixed :
    run ⟨.empty, .empty⟩ outOfTurn = [none, none, some ⟨1, earlier.address, [111, 101]⟩] ∧
      ¬ List.Forall₂ Own outOfTurn (run ⟨.empty, .empty⟩ outOfTurn) := by
  have hrun : run ⟨.empty, .empty⟩ outOfTurn = [none, none, some ⟨1, earlier.address, [111, 101]⟩] := by decide
  refine ⟨hrun, fun hall => ?_⟩
  cases hall with
  | cons _ hall => cases hall with
    | cons _ hall => cases hall with
      | cons hlast _ =>
        obtain ⟨a, ha, hforward⟩ := hlast _ rfl
        cases ha
        exact absurd hforward (by decide)

end Wrongsv.Bugs.TuicStaleAssembly
